import Ralink.Goahead.Values

/-! The values of a string are spread over the rows of an array, one row is overwritten, and the
rows are put together again in a buffer that they can fill to its last byte. -/
namespace Ralink.Goahead
open CString CArray

abbrev Rows := List Chars

/-- `buf[i]` changed. -/
def onRow (buf : Rows) (i : Nat) (f : Chars → Option Chars) : Option Rows := do
  let row ← buf[i]?
  let row ← f row
  some (buf.set i row)

/-- The loop of `setNthValue`, with `turns` of its eight turns left: `p`, `i` and `buf` after it. -/
def copyOriginal : (turns : Nat) → Chars → Nat → Rows → Option (Chars × Nat × Rows)
  | 0, p, i, buf =>
    match strchr semicolon p with
    | .overrun => none
    | .absent | .found _ _ => some (p, i, buf)
  | turns + 1, p, i, buf =>
    match strchr semicolon p with
    | .overrun => none
    | .absent => some (p, i, buf)
    | .found before rest => do
      let buf ← onRow buf i (strncpy · p before.length)
      copyOriginal turns rest (i + 1) buf

/-- `buf[i]` appended behind a semicolon. -/
def appendRow (buf : Rows) (ret : Chars) (i : Nat) : Option Chars := do
  let ret ← strncat ret [semicolon, 0] 2
  let row ← buf[i]?
  strncat ret row 256

def setNthValue (index : Nat) (old_values new_value : Chars) : Option Chars := do
  let (p, i, buf) ← copyOriginal 8 old_values 0 (List.replicate 8 (List.replicate 256 0))
  let buf ← onRow buf i (strcpy · p)
  let buf ← onRow buf index (strncpy · new_value 256)
  let index := if i > index then i else index
  let row ← buf[0]?
  let ret ← strcat (List.replicate 2048 0) row
  (List.range' 1 index).foldlM (appendRow buf) ret

def padded (f : List UInt8) : Chars := f ++ List.replicate (256 - f.length) 0

def table (fs : List (List UInt8)) : Rows := fs.map padded

section SetNth

variable {f g : List UInt8} {fs done : List (List UInt8)} {i n : Nat} {v s : CStr}

theorem length_padded (h : f.length < 256) : (padded f).length = 256 := by
  rw [padded, List.length_append, List.length_replicate]
  omega

theorem onRow_table {op : Chars → Option Chars} (hi : fs[i]? = some g)
    (hop : op (padded g) = some (padded f)) :
    onRow (table fs) i op = some (table (fs.set i f)) := by
  have hrow : (table fs)[i]? = some (padded g) := by
    rw [table, List.getElem?_map, hi]
    rfl
  simp only [onRow, hrow, hop, Option.bind_eq_bind, Option.bind_some]
  rw [table, table, List.map_set]

theorem store_zeroes {bs : List UInt8} (h : f.length < 256) (hbs : ∃ k, bs = f ++ List.replicate k 0)
    (hlen : bs.length ≤ 256) : store (padded []) 0 bs = some (padded f) := by
  obtain ⟨k, rfl⟩ := hbs
  have hzero : padded [] = List.replicate 256 0 := rfl
  rw [List.length_append, List.length_replicate] at hlen
  rw [hzero, store_eq]
  · have hrest : 256 - f.length = k + (256 - (f.length + k)) := by omega
    rw [padded, List.take_zero, List.nil_append, List.append_assoc, List.length_append,
      List.length_replicate, List.drop_replicate, Nat.zero_add, List.replicate_append_replicate,
      ← hrest]
  · rw [List.length_append, List.length_replicate, List.length_replicate]
    omega

theorem strncpy_field (rest : Chars) (h : s.length < 256) :
    strncpy (padded []) (s.bytes ++ rest) s.length = some (padded s.bytes) := by
  have hread := readN_string s rest (le_refl s.length) (fun hlt => absurd hlt (lt_irrefl _))
  simp only [strncpy, hread, Option.bind_eq_bind, Option.bind_some, CStr.length_bytes,
    Nat.sub_self]
  apply store_zeroes h ⟨0, rfl⟩
  rw [List.replicate_zero, List.append_nil]
  exact h.le

theorem strcpy_field (h : s.length < 256) : strcpy (padded []) (literal s) = some (padded s.bytes) := by
  simp only [strcpy, strAt_literal, Option.bind_eq_bind, Option.bind_some]
  apply store_zeroes h ⟨1, rfl⟩
  rw [List.length_append, List.length_replicate, CStr.length_bytes]
  exact h

theorem strncpy_row (hg : g.length < 256) (h : s.length < 256) :
    strncpy (padded g) (literal s) 256 = some (padded s.bytes) := by
  have hread := readN_string s [0] h.le (fun _ => rfl)
  have hlen : (padded s.bytes).length = 256 := length_padded h
  simp only [strncpy, literal, hread, Option.bind_eq_bind, Option.bind_some]
  have hrow : padded g = [] ++ padded g ++ [] := by simp
  have hstore := @store_append (padded s.bytes) [] (padded g) [] (by rw [length_padded hg, hlen])
  rw [hrow]
  simpa [padded] using hstore

theorem copyOriginal_eq (hcount : done.length + (valuesOf v).length ≤ 8)
    (hshort : ∀ f ∈ valuesOf v, f.length < 256) :
    ∃ (front : List (List UInt8)) (last : CStr), valuesOf v = front ++ [last.bytes] ∧
      copyOriginal (8 - done.length) (literal v) done.length
          (table (done ++ List.replicate (8 - done.length) [])) =
        some (literal last, done.length + front.length,
          table (done ++ front ++ List.replicate (8 - (done.length + front.length)) [])) := by
  induction hn : (valuesOf v).length generalizing v done with
  | zero => exact absurd (List.eq_nil_of_length_eq_zero hn) (List.splitOn_ne_nil _ _)
  | succ n ih =>
    obtain ⟨turns, hturns⟩ : ∃ turns, 8 - done.length = turns + 1 := ⟨7 - done.length, by omega⟩
    rcases literal_cases v with ⟨hscan, hvalues⟩ | ⟨f, w, hscan, hvalues⟩
    · refine ⟨[], v, hvalues, ?_⟩
      simp only [hturns, copyOriginal, hscan]
      simp [hturns]
    · rw [hvalues, List.length_cons] at hn hcount
      have hf : f.length < 256 := hshort f.bytes (by rw [hvalues]; exact List.mem_cons_self)
      have hw : ∀ g ∈ valuesOf w, g.length < 256 := fun g hg =>
        hshort g (by rw [hvalues]; exact List.mem_cons_of_mem _ hg)
      have hlit : ∃ rest, literal v = f.bytes ++ rest := by
        have hcase := strchr_cases semicolon (literal v)
        rw [hscan] at hcase
        cases hcase with
        | found free split => exact ⟨_, split⟩
      obtain ⟨rest, hlit⟩ := hlit
      have hnext : done.length + 1 + (valuesOf w).length ≤ 8 := by omega
      have hrest := @ih (done ++ [f.bytes]) w
        (by rw [List.length_append, List.length_singleton]; exact hnext) hw (by omega)
      obtain ⟨front, last, hfront, hcopy⟩ := hrest
      refine ⟨f.bytes :: front, last, by rw [hvalues, hfront]; rfl, ?_⟩
      have hrow : onRow (table (done ++ List.replicate (8 - done.length) [])) done.length
          (strncpy · (literal v) f.length) =
            some (table (done ++ [f.bytes] ++ List.replicate turns [])) := by
        have hzero : (done ++ List.replicate (8 - done.length) [])[done.length]? =
            some ([] : List UInt8) := by
          rw [List.getElem?_append_right (le_refl _), Nat.sub_self, hturns]
          rfl
        rw [onRow_table (f := f.bytes) hzero (by rw [hlit]; exact strncpy_field rest hf)]
        rw [hturns, List.replicate_succ, List.set_append_right _ _ (le_refl _), Nat.sub_self,
          List.set_cons_zero, List.append_assoc, List.singleton_append]
      have hleft : 8 - (done ++ [f.bytes]).length = turns := by
        rw [List.length_append, List.length_singleton]
        omega
      rw [hleft, List.length_append, List.length_singleton] at hcopy
      rw [hturns] at hrow ⊢
      simp only [copyOriginal, hscan, hrow, Option.bind_eq_bind, Option.bind_some, hcopy]
      simp [Nat.add_assoc, Nat.add_comm 1]

theorem padded_eq (h : s.length < 256) :
    padded s.bytes = s.bytes ++ 0 :: List.replicate (255 - s.length) 0 := by
  have hrest : 256 - s.bytes.length = 255 - s.length + 1 := by
    rw [CStr.length_bytes]
    omega
  rw [padded, hrest, List.replicate_succ]

theorem readN_padded (h : s.length < 256) : readN (padded s.bytes) 256 = some s.bytes := by
  rw [padded_eq h]
  exact readN_string s _ h.le (fun _ => rfl)

theorem holds_empty (n : Nat) : Holds (List.replicate (n + 1) 0) .empty :=
  ⟨List.replicate n 0, List.replicate_succ⟩

def Joined (fs : List CStr) (k : Nat) (ret : Chars) : Prop :=
  ret.length = 2048 ∧ ∃ s : CStr, Holds ret s ∧ s.length ≤ 255 + 256 * k ∧
    s.bytes = [semicolon].intercalate ((fs.take (k + 1)).map CStr.bytes)

theorem joined_first {t : CStr} {ts : List CStr} (ht : t.length < 256) :
    ∃ ret, strcat (List.replicate 2048 0) (padded t.bytes) = some ret ∧ Joined (t :: ts) 0 ret := by
  have hempty := holds_empty 2047
  have hrow : strAt (padded t.bytes) 0 = some t := by
    rw [padded_eq ht]
    exact strAt_append t _
  have hroom : CStr.empty.length + t.length < (List.replicate 2048 (0 : UInt8)).length := by
    rw [List.length_replicate]
    change 0 + t.length < 2048
    omega
  obtain ⟨ret, hstore, hholds, hlen⟩ := Holds.append_room hempty t hroom
  refine ⟨ret, by rw [strcat_eq hempty hrow, hstore], ?_, _, hholds, ?_, by simp⟩
  · rw [hlen, List.length_replicate]
  · rw [CStr.length, CStr.bytes_append]
    change t.length ≤ 255
    omega

theorem joined_next {fs : List CStr} {k : Nat} {ret : Chars} (h : Joined fs k ret) (hk : k < 7)
    (hlt : k + 1 < fs.length) (hshort : ∀ t ∈ fs, t.length < 256) :
    ∃ ret', appendRow (table (fs.map CStr.bytes)) ret (1 + k) = some ret' ∧ Joined fs (k + 1) ret' := by
  obtain ⟨hlen, s, hholds, hs, hbytes⟩ := h
  have ht := hshort fs[k + 1] (List.getElem_mem hlt)
  obtain ⟨semi, hsemi⟩ : ∃ semi : CStr, semi.bytes = [semicolon] := ⟨⟨[semicolon], by decide⟩, rfl⟩
  have hone : semi.length = 1 := by rw [CStr.length, hsemi]; rfl
  obtain ⟨ret₁, hstore₁, hholds₁, hlen₁⟩ := hholds.append_room semi (by omega)
  have hsep : strncat ret [semicolon, 0] 2 = some ret₁ := by
    rw [strncat_eq (t := semi) hholds (by rw [hsemi]; rfl), hstore₁]
  have hslen : (s.append semi).length = s.length + 1 := by
    rw [CStr.length, CStr.bytes_append, List.length_append, hsemi]
    rfl
  obtain ⟨ret₂, hstore₂, hholds₂, hlen₂⟩ := hholds₁.append_room fs[k + 1] (by omega)
  have hrow : (table (fs.map CStr.bytes))[1 + k]? = some (padded fs[k + 1].bytes) := by
    rw [Nat.add_comm, table, List.map_map, List.getElem?_map, List.getElem?_eq_getElem hlt]
    rfl
  have hval : strncat ret₁ (padded fs[k + 1].bytes) 256 = some ret₂ := by
    rw [strncat_eq hholds₁ (readN_padded ht), hstore₂]
  refine ⟨ret₂, ?_, by rw [hlen₂, hlen₁, hlen], _, hholds₂, ?_, ?_⟩
  · simp only [appendRow, hsep, hrow, hval, Option.bind_eq_bind, Option.bind_some]
  · rw [CStr.length, CStr.bytes_append, List.length_append, CStr.length_bytes, CStr.length_bytes, hslen]
    omega
  · have htake : fs.take (k + 1 + 1) = fs.take (k + 1) ++ [fs[k + 1]] := List.take_succ_eq_append_getElem hlt
    have hne : ∃ g gs, (fs.take (k + 1)).map CStr.bytes = g :: gs := by
      apply List.exists_cons_of_length_pos
      rw [List.length_map, List.length_take]
      omega
    obtain ⟨g, gs, hgs⟩ := hne
    rw [CStr.bytes_append, CStr.bytes_append, hbytes, hsemi, htake, List.map_append, hgs,
      List.cons_append, Delimited.intercalate_cons, Delimited.intercalate_cons, Delimited.tails_append]
    simp

theorem joined_run {fs : List CStr} {ret : Chars} {k : Nat} (h : Joined fs 0 ret) (hk : k < 8)
    (hlt : k < fs.length) (hshort : ∀ t ∈ fs, t.length < 256) :
    ∃ ret', (List.range' 1 k).foldlM (appendRow (table (fs.map CStr.bytes))) ret = some ret' ∧
      Joined fs k ret' := by
  induction k with
  | zero => exact ⟨ret, rfl, h⟩
  | succ k ih =>
    obtain ⟨ret₁, hrun, hjoined⟩ := ih (Nat.lt_of_succ_lt hk) (Nat.lt_of_succ_lt hlt)
    obtain ⟨ret₂, hrow, hjoined₂⟩ := joined_next hjoined (Nat.lt_of_succ_lt_succ hk) hlt hshort
    refine ⟨ret₂, ?_, hjoined₂⟩
    rw [List.range'_1_concat, List.foldlM_append, hrun]
    simp only [Option.bind_eq_bind, Option.bind_some, List.foldlM_cons, List.foldlM_nil, hrow]
    rfl

def eightRows (fs : List CStr) : List CStr := fs ++ List.replicate (8 - fs.length) .empty

def updated (fs : List CStr) (index : Nat) (new : CStr) : List CStr := (eightRows fs).set index new

theorem length_eightRows {fs : List CStr} (h : fs.length ≤ 8) : (eightRows fs).length = 8 := by
  rw [eightRows, List.length_append, List.length_replicate]
  omega

theorem eightRows_short {fs : List CStr} (h : ∀ t ∈ fs, t.length < 256) :
    ∀ t ∈ eightRows fs, t.length < 256 := by
  intro t ht
  rcases List.mem_append.mp ht with ht | ht
  · exact h t ht
  · rw [List.eq_of_mem_replicate ht]
    exact Nat.zero_lt_succ 255

theorem onRow_last {fs : List CStr} {front : List (List UInt8)} {last : CStr}
    (hfs : fs.map CStr.bytes = front ++ [last.bytes]) (hcount : fs.length ≤ 8)
    (hlast : last.length < 256) :
    onRow (table (front ++ List.replicate (8 - front.length) [])) front.length
      (strcpy · (literal last)) = some (table ((eightRows fs).map CStr.bytes)) := by
  have hlength : fs.length = front.length + 1 := by
    rw [← List.length_map (f := CStr.bytes), hfs, List.length_append, List.length_singleton]
  have hleft : 8 - front.length = 8 - fs.length + 1 := by omega
  have hzero : (front ++ List.replicate (8 - front.length) [])[front.length]? =
      some ([] : List UInt8) := by
    rw [List.getElem?_append_right (le_refl _), Nat.sub_self, hleft]
    rfl
  rw [onRow_table hzero (strcpy_field hlast), hleft, List.replicate_succ,
    List.set_append_right _ _ (le_refl _), Nat.sub_self, List.set_cons_zero, eightRows,
    List.map_append, hfs, List.map_replicate, List.append_assoc, List.singleton_append]
  rfl

theorem onRow_new {fs : List CStr} {index : Nat} {new : CStr} (hindex : index < fs.length)
    (hshort : ∀ t ∈ fs, t.length < 256) (hlen : new.length < 256) :
    onRow (table (fs.map CStr.bytes)) index (strncpy · (literal new) 256) =
      some (table ((fs.set index new).map CStr.bytes)) := by
  have hget : (fs.map CStr.bytes)[index]? = some fs[index].bytes := by
    rw [List.getElem?_map, List.getElem?_eq_getElem hindex]
    rfl
  have hrow := strncpy_row (hshort _ (List.getElem_mem hindex)) hlen
  rw [List.map_set]
  exact onRow_table hget hrow

theorem setNthValue_eq {fs : List CStr} {index : Nat} {old new : CStr}
    (hfs : fs.map CStr.bytes = valuesOf old) (hcount : fs.length ≤ 8)
    (hshort : ∀ t ∈ fs, t.length < 256) (hindex : index < 8) (hlen : new.length < 256) :
    ∃ ret, setNthValue index (literal old) (literal new) = some ret ∧
      Joined (updated fs index new) (max (fs.length - 1) index) ret := by
  have hlength : (valuesOf old).length = fs.length := by rw [← hfs, List.length_map]
  have hold : ∀ f ∈ valuesOf old, f.length < 256 := by
    intro f hf
    rw [← hfs] at hf
    obtain ⟨t, ht, rfl⟩ := List.mem_map.mp hf
    exact hshort t ht
  obtain ⟨front, last, hvalues, hcopy⟩ := @copyOriginal_eq [] old
    (by rw [hlength, List.length_nil]; omega) hold
  have hfront : front.length + 1 = fs.length := by
    rw [← hlength, hvalues, List.length_append, List.length_singleton]
  have hlast : last.length < 256 :=
    hold last.bytes (by rw [hvalues]; exact List.mem_append_right _ List.mem_cons_self)
  have hfill := onRow_last (hfs.trans hvalues) hcount hlast
  have hrows := length_eightRows hcount
  have hnew := onRow_new (hindex.trans_eq hrows.symm) (eightRows_short hshort) hlen
  have hupdated : (updated fs index new).length = 8 := by rw [updated, List.length_set, hrows]
  have hshort' : ∀ t ∈ updated fs index new, t.length < 256 := by
    intro t ht
    rcases List.mem_or_eq_of_mem_set ht with ht | rfl
    · exact eightRows_short hshort t ht
    · exact hlen
  obtain ⟨t, ts, hts⟩ : ∃ t ts, updated fs index new = t :: ts :=
    List.exists_cons_of_length_pos (by omega)
  obtain ⟨ret₀, hcat, hjoined⟩ := @joined_first t ts (hshort' t (by rw [hts]; exact List.mem_cons_self))
  rw [← hts] at hjoined
  have hmax : (if front.length > index then front.length else index) = max (fs.length - 1) index := by
    rw [← hfront, Nat.add_sub_cancel, max_comm, max_def]
    split <;> split <;> omega
  obtain ⟨ret, hrun, hret⟩ := @joined_run _ _ (max (fs.length - 1) index) hjoined (by omega) (by omega)
    hshort'
  refine ⟨ret, ?_, hret⟩
  have hhead : (table ((updated fs index new).map CStr.bytes))[0]? = some (padded t.bytes) := by
    rw [hts]
    rfl
  have hstart : List.replicate 8 (List.replicate 256 (0 : UInt8)) = table (List.replicate 8 []) := by
    rw [table, List.map_replicate]
    rfl
  rw [← updated] at hnew
  simp only [List.length_nil, List.nil_append, Nat.sub_zero, Nat.zero_add] at hcopy
  simp only [setNthValue, hstart, hcopy, hfill, hnew, hmax, hhead, hcat, hrun, Option.bind_eq_bind,
    Option.bind_some]

/-- The string that comes back has the new value at the index, the other values as they were, and
empty ones in between. -/
theorem setNthValue_updates (index : Nat) (old new : CStr) (hcount : (valuesOf old).length ≤ 8)
    (hshort : ∀ f ∈ valuesOf old, f.length < 256) (hindex : index < 8)
    (hnew : semicolon ∉ new.bytes) (hlen : new.length < 256) :
    ∃ ret r, setNthValue index (literal old) (literal new) = some ret ∧ strAt ret 0 = some r ∧
      (valuesOf r).length = max (valuesOf old).length (index + 1) ∧
      (valuesOf r)[index]? = some new.bytes ∧
      (∀ k, k < (valuesOf old).length → k ≠ index → (valuesOf r)[k]? = (valuesOf old)[k]?) ∧
      ∀ k, (valuesOf old).length ≤ k → k < index → (valuesOf r)[k]? = some [] := by
  obtain ⟨fs, hfs⟩ := exists_values old
  have hlength : (valuesOf old).length = fs.length := by rw [← hfs, List.length_map]
  have hpos : 0 < fs.length := by
    rw [← hlength]
    exact List.length_pos_iff.mpr (List.splitOn_ne_nil _ _)
  rw [hlength] at hcount
  have hshort' : ∀ t ∈ fs, t.length < 256 := fun t ht =>
    hshort t.bytes (by rw [← hfs]; exact List.mem_map_of_mem ht)
  obtain ⟨ret, hret, -, r, hholds, -, hr⟩ := setNthValue_eq hfs hcount hshort' hindex hlen
  have hrows := length_eightRows hcount
  have hvalues : valuesOf r =
      ((updated fs index new).take (max (fs.length - 1) index + 1)).map CStr.bytes := by
    rw [valuesOf, hr, List.splitOn_intercalate]
    · intro l hl
      obtain ⟨t, ht, rfl⟩ := List.mem_map.mp hl
      rcases List.mem_or_eq_of_mem_set (List.mem_of_mem_take ht) with ht | rfl
      · rcases List.mem_append.mp ht with ht | ht
        · have hmem : t.bytes ∈ valuesOf old := by
            rw [← hfs]
            exact List.mem_map_of_mem ht
          exact Delimited.not_mem_of_mem_splitOn hmem
        · rw [List.eq_of_mem_replicate ht]
          exact List.not_mem_nil
      · exact hnew
    · apply List.ne_nil_of_length_pos
      rw [List.length_map, List.length_take, updated, List.length_set, hrows]
      omega
  have hget (k : Nat) (hk : k < max (fs.length - 1) index + 1) :
      (valuesOf r)[k]? = ((updated fs index new)[k]?).map CStr.bytes := by
    rw [hvalues, List.getElem?_map, List.getElem?_take, if_pos hk]
  refine ⟨ret, r, hret, hholds.strAt_eq, ?_, ?_, ?_, ?_⟩
  · rw [hvalues, List.length_map, List.length_take, updated, List.length_set, hrows, hlength]
    omega
  · rw [hget index (by omega), updated, List.getElem?_set_self (by omega)]
    rfl
  · intro k hk hne
    rw [hlength] at hk
    rw [hget k (by omega), updated, List.getElem?_set_ne hne.symm, eightRows,
      List.getElem?_append_left hk, ← hfs, List.getElem?_map]
  · intro k hk hlt
    rw [hlength] at hk
    rw [hget k (by omega), updated, List.getElem?_set_ne (by omega), eightRows,
      List.getElem?_append_right hk, List.getElem?_replicate, if_pos (by omega)]
    rfl

theorem setNthValue_updates_fourth : ∃ ret r,
    setNthValue 3 (literal ⟨[97, semicolon, 98], by decide⟩) (literal ⟨[99], by decide⟩) = some ret ∧
      strAt ret 0 = some r ∧ valuesOf r = [[97], [98], [], [99]] := by
  obtain ⟨ret, r, hret, hr, hlength, hnew, hold, hempty⟩ :=
    setNthValue_updates 3 ⟨[97, semicolon, 98], by decide⟩ ⟨[99], by decide⟩
      (by decide) (by decide) (by decide) (by decide) (by decide)
  refine ⟨ret, r, hret, hr, List.ext_getElem? fun k => ?_⟩
  have hlen : (valuesOf r).length = 4 := hlength
  match k with
  | 0 => exact hold 0 (by decide) (by decide)
  | 1 => exact hold 1 (by decide) (by decide)
  | 2 => exact hempty 2 (by decide) (by decide)
  | 3 => exact hnew
  | k + 4 => exact List.getElem?_eq_none (by omega)

end SetNth

end Ralink.Goahead
