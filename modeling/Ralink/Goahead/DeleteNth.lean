import Ralink.Goahead.Values

/-! The fields are overwritten with zeroes in a copy of the string, each with the delimiter before
it, and what is not zero is copied back. -/
namespace Ralink.Goahead
open CString CArray

/-- The locals of the first loop of `deleteNthValueMulti`; `begin` is an offset in `buf`. -/
structure Deletion where
  buf : Chars
  begin_ : Nat
  i : Nat
  j : Nat
  need_check_flag : Bool
  deriving DecidableEq

/-- `if(i == index[j])` and what it guards, for the field that ends at `stop`; whether the loop is
left. -/
def deleteField (index : List Int) (d : Deletion) (stop : Nat) : Option (Deletion × Bool) := do
  let n ← index[d.j]?
  if (d.i : Int) = n then do
    let buf ← memset d.buf d.begin_ (stop - d.begin_)
    let d := { d with
      buf := buf
      need_check_flag := if n = 0 then true else d.need_check_flag
      j := d.j + 1 }
    some (d, d.j ≥ index.length)
  else some (d, false)

/-- The loop `while(end)` for at most `turns` turns, with `end` where the search from `from_` on
finds the delimiter, and whether `end` is null after it. -/
def deleteLoop (index : List Int) (delimit : UInt8) :
    (turns : Nat) → (from_ : Nat) → Deletion → Option (Deletion × Bool)
  | 0, _, _ => none
  | turns + 1, from_, d =>
    match strchr delimit (d.buf.drop from_) with
    | .overrun => none
    | .absent => some (d, true)
    | .found before _ => do
      let (d, leave) ← deleteField index d (from_ + before.length)
      if leave then some (d, false)
      else
        let stop := from_ + before.length
        deleteLoop index delimit turns (stop + 1) { d with begin_ := stop, i := d.i + 1 }

/-- `if(!end && index[j] == i)`: the last field. -/
def deleteLast (index : List Int) (d : Deletion) (ended : Bool) : Option Chars :=
  if ended then do
    let n ← index[d.j]?
    if n = d.i then do
      let s ← strAt d.buf d.begin_
      memset d.buf d.begin_ s.length
    else some d.buf
  else some d.buf

/-- The loop over `buf` that looks for a semicolon in front, from `i` on. -/
def patchLoop (value : Chars) : (turns : Nat) → (i : Nat) → Chars → Option Chars
  | 0, _, _ => none
  | turns + 1, i, buf => do
    let s ← strAt value 0
    if i < s.length then do
      let b ← buf[i]?
      if b = 0 then patchLoop value turns (i + 1) buf
      else if b = semicolon then store buf i [0]
      else some buf
    else some buf

/-- The loop that copies back, from `i` on, and the terminator. -/
def compactLoop (buf : Chars) : (turns : Nat) → (i j : Nat) → Chars → Option Chars
  | 0, _, _, _ => none
  | turns + 1, i, j, value => do
    let s ← strAt value 0
    if i < s.length then do
      let b ← buf[i]?
      if b ≠ 0 then do
        let value ← store value j [b]
        compactLoop buf turns (i + 1) (j + 1) value
      else compactLoop buf turns (i + 1) j value
    else store value j [0]

/-- `index` with `count` numbers; the result is what `value` is then. -/
def deleteNthValueMulti (index : List Int) (value : Chars) (delimit : UInt8) : Option Chars := do
  let s ← strAt value 0
  let buf := literal s
  let (d, ended) ← deleteLoop index delimit buf.length 0 ⟨buf, 0, 0, 0, false⟩
  let buf ← deleteLast index d ended
  let buf ← if d.need_check_flag then patchLoop value (s.length + 1) 0 buf else some buf
  compactLoop buf (s.length + 1) 0 0 value

/-- The fields with the numbers that are not in the list, the first field having the number `k`. -/
def kept (index : List Int) (k : Nat) : List (List UInt8) → List (List UInt8)
  | [] => []
  | f :: fs => if (k : Int) ∈ index then kept index (k + 1) fs else f :: kept index (k + 1) fs

def blanked (index : List Int) (delimit : UInt8) (k : Nat) (lead : List UInt8) :
    List (List UInt8) → List UInt8
  | [] => []
  | f :: fs =>
    (if (k : Int) ∈ index then List.replicate (lead ++ f).length 0 else lead ++ f) ++
      blanked index delimit (k + 1) [delimit] fs

def patched : List UInt8 → List UInt8
  | [] => []
  | b :: bs => if b = 0 then b :: patched bs else if b = semicolon then 0 :: bs else b :: bs

def visible (bs : List UInt8) : List UInt8 := bs.filter (· ≠ 0)

section Delete

variable {index : List Int} {delimit : UInt8} {k j : Nat} {pre lead rest f : List UInt8}
  {fs : List (List UInt8)} {flag : Bool}

theorem visible_append (bs cs : List UInt8) : visible (bs ++ cs) = visible bs ++ visible cs :=
  List.filter_append bs cs

theorem visible_zeroes (n : Nat) : visible (List.replicate n 0) = [] := by
  rw [visible, List.filter_eq_nil_iff]
  intro b hb
  simp [List.eq_of_mem_replicate hb]

theorem visible_string {bs : List UInt8} (h : 0 ∉ bs) : visible bs = bs := by
  rw [visible, List.filter_eq_self]
  intro b hb
  simpa using fun h0 : b = 0 => h (h0 ▸ hb)

theorem length_blanked (fs : List (List UInt8)) (k : Nat) (lead : List UInt8) :
    (blanked index delimit k lead (f :: fs)).length =
      (lead ++ f ++ Delimited.tails delimit fs).length := by
  induction fs generalizing k lead f with
  | nil =>
    rw [blanked, blanked]
    split <;> simp
  | cons g fs ih =>
    rw [blanked, List.length_append, ih, Delimited.tails_cons]
    split <;> simp <;> omega

theorem blanked_none (h : ∀ n ∈ index, n < k) :
    blanked index delimit k [delimit] fs = Delimited.tails delimit fs := by
  induction fs generalizing k with
  | nil => rfl
  | cons f fs ih =>
    have hk : (k : Int) ∉ index := fun hmem => absurd (h k hmem) (lt_irrefl _)
    rw [blanked, if_neg hk, ih (fun n hn => lt_trans (h n hn) (by omega))]
    rfl

theorem visible_blanked (hd : delimit ≠ 0) (hfs : ∀ f ∈ fs, 0 ∉ f) :
    visible (blanked index delimit k [delimit] fs) =
      Delimited.tails delimit (kept index k fs) := by
  induction fs generalizing k with
  | nil => rfl
  | cons f fs ih =>
    have hf : 0 ∉ [delimit] ++ f :=
      List.not_mem_cons_of_ne_of_not_mem hd.symm (hfs f List.mem_cons_self)
    rw [blanked, kept, visible_append, ih fun g hg => hfs g (List.mem_cons_of_mem f hg)]
    split
    · rw [visible_zeroes, List.nil_append]
    · rw [visible_string hf]
      rfl

theorem length_patched (bs : List UInt8) : (patched bs).length = bs.length := by
  induction bs with
  | nil => rfl
  | cons b bs ih =>
    rw [patched]
    split
    · rw [List.length_cons, ih, List.length_cons]
    · split <;> rfl

theorem visible_patched (bs : List UInt8) :
    visible (patched bs) =
      if (visible bs).head? = some semicolon then (visible bs).tail else visible bs := by
  induction bs with
  | nil => rfl
  | cons b bs ih =>
    by_cases hb : b = 0
    · have hdrop (cs : List UInt8) : visible (b :: cs) = visible cs := by simp [visible, hb]
      rw [patched, if_pos hb, hdrop, hdrop, ih]
    · have hkeep (cs : List UInt8) : visible (b :: cs) = b :: visible cs := by simp [visible, hb]
      rw [patched, if_neg hb, hkeep, List.head?_cons, List.tail_cons]
      by_cases hs : b = semicolon
      · rw [if_pos hs, if_pos (by rw [hs])]
        rfl
      · rw [if_neg hs, if_neg (by simpa using hs), hkeep]

theorem memset_middle (pre mid post : List UInt8) :
    memset (pre ++ mid ++ post) pre.length mid.length =
      some (pre ++ List.replicate mid.length 0 ++ post) :=
  store_append (List.length_replicate).symm

theorem next_cases (hinc : index.Pairwise (· < ·)) (hj : j < index.length)
    (hdrop : ∀ n ∈ index.drop j, (k : Int) ≤ n) (htake : ∀ n ∈ index.take j, n < (k : Int)) :
    (index[j] = k ∧ (k : Int) ∈ index ∧ (∀ n ∈ index.drop (j + 1), ((k + 1 : Nat) : Int) ≤ n) ∧
        ∀ n ∈ index.take (j + 1), n < ((k + 1 : Nat) : Int)) ∨
      (index[j] ≠ k ∧ (k : Int) ∉ index ∧ (∀ n ∈ index.drop j, ((k + 1 : Nat) : Int) ≤ n) ∧
        ∀ n ∈ index.take j, n < ((k + 1 : Nat) : Int)) := by
  have hsplit : index.drop j = index[j] :: index.drop (j + 1) := List.drop_eq_getElem_cons hj
  have hrest : ∀ n ∈ index.drop (j + 1), index[j] < n := by
    have hpair := hinc.sublist (List.drop_sublist j index)
    rw [hsplit, List.pairwise_cons] at hpair
    exact hpair.1
  have hle : (k : Int) ≤ index[j] := hdrop _ (by rw [hsplit]; exact List.mem_cons_self)
  by_cases hk : index[j] = k
  · refine .inl ⟨hk, hk ▸ List.getElem_mem hj, ?_, ?_⟩
    · intro n hn
      have := hrest n hn
      omega
    · intro n hn
      rw [List.take_succ_eq_append_getElem hj, List.mem_append, List.mem_singleton] at hn
      rcases hn with hn | rfl
      · have := htake n hn
        omega
      · omega
  · refine .inr ⟨hk, ?_, ?_, ?_⟩
    · intro hmem
      rw [← List.take_append_drop j index, hsplit, List.mem_append, List.mem_cons] at hmem
      rcases hmem with hmem | hmem | hmem
      · exact absurd (htake _ hmem) (lt_irrefl _)
      · exact hk hmem.symm
      · have := hrest _ hmem
        omega
    · intro n hn
      rw [hsplit, List.mem_cons] at hn
      rcases hn with rfl | hn
      · omega
      · have := hrest n hn
        omega
    · intro n hn
      have := htake n hn
      omega

theorem deleteField_hit {mid post : List UInt8} (hj : j < index.length) (hk : index[j] = k) :
    deleteField index ⟨pre ++ mid ++ post, pre.length, k, j, flag⟩ (pre.length + mid.length) =
      some (⟨pre ++ List.replicate mid.length 0 ++ post, pre.length, k, j + 1,
        if (k : Int) = 0 then true else flag⟩, decide (index.length ≤ j + 1)) := by
  have hsize : pre.length + mid.length - pre.length = mid.length := Nat.add_sub_cancel_left _ _
  simp only [deleteField, List.getElem?_eq_getElem hj, hk, if_true, hsize, memset_middle,
    Option.bind_eq_bind, Option.bind_some, ge_iff_le]

theorem deleteField_miss {buf : Chars} {start stop : Nat} (hj : j < index.length)
    (hk : index[j] ≠ k) :
    deleteField index ⟨buf, start, k, j, flag⟩ stop = some (⟨buf, start, k, j, flag⟩, false) := by
  simp only [deleteField, List.getElem?_eq_getElem hj, if_neg (Ne.symm hk), Option.bind_eq_bind,
    Option.bind_some]

theorem deleteLoop_found {turns from_ : Nat} {d : Deletion} {before : CStr} {after : Chars}
    (h : strchr delimit (d.buf.drop from_) = .found before after) :
    deleteLoop index delimit (turns + 1) from_ d =
      (deleteField index d (from_ + before.length)).bind fun next =>
        if next.2 then some (next.1, false)
        else deleteLoop index delimit turns (from_ + before.length + 1)
          { next.1 with begin_ := from_ + before.length, i := next.1.i + 1 } := by
  rw [deleteLoop, h]
  rfl

theorem deleteLast_eq (hj : j < index.length) (hk : index[j] = k) (hmem : (k : Int) ∈ index)
    (hrest : 0 ∉ lead ++ rest) :
    deleteLast index ⟨pre ++ (lead ++ rest) ++ [0], pre.length, k, j, flag⟩ true =
      some (pre ++ blanked index delimit k lead [rest] ++ [0]) := by
  have hstr : strAt (pre ++ (lead ++ rest) ++ [0]) pre.length = some ⟨lead ++ rest, hrest⟩ := by
    apply strAt_of_drop
    rw [List.append_assoc, List.drop_left]
  have hlen : (CStr.mk (lead ++ rest) hrest).length = (lead ++ rest).length := rfl
  have hblank := memset_middle pre (lead ++ rest) [0]
  simp only [deleteLast, if_true, List.getElem?_eq_getElem hj, hk, hstr, hlen, hblank,
    Option.bind_eq_bind, Option.bind_some, blanked, if_pos hmem, List.append_nil]

theorem flag_iff (hmem : (k : Int) ∈ index) :
    (if (k : Int) = 0 then true else flag) = true ↔ flag = true ∨ k = 0 ∧ (0 : Int) ∈ index := by
  by_cases hk0 : k = 0
  · subst hk0
    have h0 : (0 : Int) ∈ index := by simpa using hmem
    simp [h0]
  · simp [hk0]

theorem deleteLoop_eq {turns : Nat} (hd : delimit ≠ 0) (hinc : index.Pairwise (· < ·))
    (hj : j < index.length) (hdrop : ∀ n ∈ index.drop j, (k : Int) ≤ n)
    (htake : ∀ n ∈ index.take j, n < (k : Int))
    (hbound : ∀ n ∈ index, n < ((k + (rest.splitOn delimit).length : Nat) : Int))
    (hrest : 0 ∉ lead ++ rest) (hturns : rest.length < turns) :
    ∃ d ended, deleteLoop index delimit turns (pre ++ lead).length
        ⟨pre ++ (lead ++ rest) ++ [0], pre.length, k, j, flag⟩ = some (d, ended) ∧
      deleteLast index d ended =
        some (pre ++ blanked index delimit k lead (rest.splitOn delimit) ++ [0]) ∧
      (d.need_check_flag = true ↔
        flag = true ∨ k = 0 ∧ (0 : Int) ∈ index ∧ 1 < (rest.splitOn delimit).length) := by
  induction turns generalizing k j pre lead rest flag with
  | zero => exact absurd hturns (Nat.not_lt_zero _)
  | succ turns ih =>
    have hnul : 0 ∉ rest := fun h => hrest (List.mem_append_right lead h)
    have hfrom : (pre ++ (lead ++ rest) ++ [0]).drop (pre ++ lead).length = rest ++ [0] := by
      rw [← List.append_assoc, List.append_assoc (pre ++ lead), List.drop_left]
    rcases Delimited.splitOn_cases delimit rest with ⟨hnone, hsplit⟩ | ⟨f, rest', hf, rfl, hsplit⟩
    · -- the last field, whose number is the only one left
      have hscan : strchr delimit (rest ++ [0]) = .absent := @strchr_absent delimit ⟨rest, hnul⟩ hnone hd []
      have hlast := next_cases hinc hj hdrop htake
      rw [hsplit, List.length_singleton] at hbound ⊢
      rcases hlast with ⟨hk, hmem, -, -⟩ | ⟨hk, -, hdrop', -⟩
      · exact ⟨_, _, by rw [deleteLoop, hfrom, hscan], deleteLast_eq hj hk hmem hrest, by simp⟩
      · have hlt := hbound index[j] (List.getElem_mem hj)
        have hge := hdrop' index[j] (by rw [List.drop_eq_getElem_cons hj]; exact List.mem_cons_self)
        omega
    · have hf0 : 0 ∉ f := fun h => hnul (List.mem_append_left _ h)
      have hrest' : 0 ∉ [delimit] ++ rest' := fun h => hnul (List.mem_append_right f h)
      have hbuf : pre ++ (lead ++ (f ++ delimit :: rest')) ++ [0] =
          pre ++ (lead ++ f) ++ ([delimit] ++ rest' ++ [0]) := by simp
      have hscan : strchr delimit ((pre ++ (lead ++ f) ++ ([delimit] ++ rest' ++ [0])).drop
          (pre ++ lead).length) = .found ⟨f, hf0⟩ (rest' ++ [0]) := by
        rw [← hbuf, hfrom, List.append_assoc, List.cons_append]
        exact @strchr_append delimit ⟨f, hf0⟩ hf _
      have hstop : (pre ++ lead).length + f.length = pre.length + (lead ++ f).length := by
        simp [Nat.add_assoc]
      have hmore : 1 < (f :: rest'.splitOn delimit).length := by
        have hne := List.length_pos_iff.mpr (List.splitOn_ne_nil delimit rest')
        rw [List.length_cons]
        omega
      have hbound' : ∀ n ∈ index, n < ((k + 1 + (rest'.splitOn delimit).length : Nat) : Int) := by
        intro n hn
        have := hbound n hn
        rw [hsplit, List.length_cons] at this
        omega
      have hfewer : rest'.length < turns := by
        rw [List.length_append, List.length_cons] at hturns
        omega
      have hfound := @deleteLoop_found index delimit turns (pre ++ lead).length
        ⟨pre ++ (lead ++ f) ++ ([delimit] ++ rest' ++ [0]), pre.length, k, j, flag⟩ _ _ hscan
      have hflen : (CStr.mk f hf0).length = f.length := rfl
      rw [hflen, hstop] at hfound
      rw [hsplit, and_iff_left hmore, blanked, hbuf, hfound]
      rcases next_cases hinc hj hdrop htake with ⟨hk, hmem, hdrop', htake'⟩ | ⟨hk, hmem, hdrop', htake'⟩
      · rw [deleteField_hit hj hk, if_pos hmem, ← flag_iff hmem]
        by_cases hleave : index.length ≤ j + 1
        · have hall : ∀ n ∈ index, n < ((k + 1 : Nat) : Int) := by
            intro n hn
            apply htake' n
            rwa [List.take_of_length_le hleave]
          have hwhole : Delimited.tails delimit (rest'.splitOn delimit) = [delimit] ++ rest' := by
            rw [Delimited.tails_eq_cons (List.splitOn_ne_nil _ _), List.intercalate_splitOn]
            rfl
          refine ⟨⟨pre ++ List.replicate (lead ++ f).length 0 ++ ([delimit] ++ rest' ++ [0]), pre.length,
            k, j + 1, if (k : Int) = 0 then true else flag⟩, false, ?_, ?_, Iff.rfl⟩
          · simp only [Option.bind_some, hleave, decide_true, if_true]
          · rw [blanked_none hall, hwhole]
            simp [deleteLast]
        · obtain ⟨d, ended, hloop, hlast, hflag'⟩ :=
            @ih (k + 1) (j + 1) (pre ++ List.replicate (lead ++ f).length 0) [delimit] rest'
              (if (k : Int) = 0 then true else flag) (not_le.mp hleave) hdrop' htake' hbound' hrest'
              hfewer
          refine ⟨d, ended, ?_, ?_, ?_⟩
          · simp only [Option.bind_some, hleave, decide_false, Bool.false_eq_true, if_false]
            rw [← hloop]
            simp [Nat.add_assoc]
          · rw [hlast]
            simp
          · rw [hflag']
            simp
      · obtain ⟨d, ended, hloop, hlast, hflag'⟩ :=
          @ih (k + 1) j (pre ++ (lead ++ f)) [delimit] rest' flag hj hdrop' htake' hbound' hrest' hfewer
        have hk0 : ¬ (k = 0 ∧ (0 : Int) ∈ index) := by
          rintro ⟨rfl, h0⟩
          exact hmem h0
        rw [deleteField_miss hj hk, if_neg hmem, or_iff_left hk0]
        refine ⟨d, ended, ?_, ?_, ?_⟩
        · simp only [Option.bind_some, Bool.false_eq_true, if_false]
          rw [← hloop]
          simp [Nat.add_assoc]
        · rw [hlast]
          simp
        · rw [hflag']
          simp

theorem patchLoop_eq {v : CStr} {turns i : Nat} {bs : List UInt8} (hlen : i + bs.length = v.length)
    (hturns : bs.length < turns) :
    patchLoop (literal v) turns i (List.replicate i 0 ++ bs ++ [0]) =
      some (List.replicate i 0 ++ patched bs ++ [0]) := by
  induction bs generalizing turns i with
  | nil =>
    obtain ⟨turns, rfl⟩ := Nat.exists_eq_succ_of_ne_zero (Nat.ne_of_gt hturns)
    have hend : ¬ i < v.length := by
      rw [← hlen]
      exact Nat.lt_irrefl _
    simp only [patchLoop, strAt_literal, Option.bind_eq_bind, Option.bind_some, if_neg hend]
    rfl
  | cons b bs ih =>
    obtain ⟨turns, rfl⟩ := Nat.exists_eq_succ_of_ne_zero (Nat.ne_of_gt (Nat.zero_lt_of_lt hturns))
    have hlt : i < v.length := by
      rw [List.length_cons] at hlen
      omega
    have hget : (List.replicate i (0 : UInt8) ++ b :: bs ++ [0])[i]? = some b := by
      rw [List.append_assoc, List.getElem?_append_right (by simp), List.length_replicate, Nat.sub_self]
      rfl
    simp only [patchLoop, strAt_literal, Option.bind_eq_bind, Option.bind_some,
      if_pos hlt, hget, patched]
    by_cases hb : b = 0
    · have hnext := @ih turns (i + 1) (by rw [← hlen, List.length_cons]; omega)
        (Nat.lt_of_succ_lt_succ hturns)
      have hzero (cs : List UInt8) :
          List.replicate (i + 1) 0 ++ cs ++ [0] = List.replicate i 0 ++ 0 :: cs ++ [0] := by
        rw [List.replicate_succ']
        simp
      rw [hzero, hzero] at hnext
      rw [if_pos hb, if_pos hb, hb]
      exact hnext
    · rw [if_neg hb, if_neg hb]
      by_cases hs : b = semicolon
      · rw [if_pos hs, if_pos hs]
        have hstore := @store_append [0] (List.replicate i 0) [b] (bs ++ [0]) rfl
        rw [List.length_replicate] at hstore
        simpa using hstore
      · rw [if_neg hs, if_neg hs]

theorem compactLoop_eq {done w : CStr} {turns : Nat} {front bs : List UInt8}
    (hlen : done.length + w.length = front.length + bs.length) (hle : done.length ≤ front.length)
    (hturns : bs.length < turns) :
    ∃ rest, compactLoop (front ++ bs ++ [0]) turns front.length done.length
      (done.bytes ++ w.bytes ++ [0]) = some (done.bytes ++ visible bs ++ 0 :: rest) := by
  have hstr : strAt (done.bytes ++ w.bytes ++ [0]) 0 = some (done.append w) := strAt_append (done.append w) []
  have hwhole : (done.append w).length = front.length + bs.length := by
    rw [← hlen, CStr.length, CStr.bytes_append, List.length_append]
    rfl
  induction bs generalizing turns done w front with
  | nil =>
    obtain ⟨turns, rfl⟩ := Nat.exists_eq_succ_of_ne_zero (Nat.ne_of_gt hturns)
    have hend : ¬ front.length < front.length + ([] : List UInt8).length := Nat.lt_irrefl _
    simp only [compactLoop, hstr, hwhole, Option.bind_eq_bind, Option.bind_some, if_neg hend]
    obtain ⟨b, rest, hb⟩ : ∃ b rest, w.bytes ++ [0] = b :: rest :=
      List.exists_cons_of_length_pos (by simp)
    refine ⟨rest, ?_⟩
    have hstore := @store_append [0] done.bytes [b] rest rfl
    rw [List.append_assoc, hb]
    rw [List.append_assoc, List.append_assoc] at hstore
    simpa [visible] using hstore
  | cons b bs ih =>
    obtain ⟨turns, rfl⟩ := Nat.exists_eq_succ_of_ne_zero (Nat.ne_of_gt (Nat.zero_lt_of_lt hturns))
    have hlt : front.length < front.length + (b :: bs).length := by
      rw [List.length_cons]
      omega
    have hget : (front ++ b :: bs ++ [0])[front.length]? = some b := by
      rw [List.append_assoc, List.getElem?_append_right (le_refl _), Nat.sub_self]
      rfl
    have hfront : front ++ b :: bs ++ [0] = front ++ [b] ++ bs ++ [0] := by simp
    have hnext : (front ++ [b]).length = front.length + 1 := by simp
    rw [List.length_cons] at hlen
    simp only [compactLoop, hstr, hwhole, Option.bind_eq_bind, Option.bind_some, if_pos hlt, hget]
    by_cases hb : b = 0
    · have hskip : visible (b :: bs) = visible bs := by simp [visible, hb]
      have hrest := @ih done w turns (front ++ [b]) (by rw [hnext]; omega) (by rw [hnext]; omega)
        (Nat.lt_of_succ_lt_succ hturns) hstr (by rw [hwhole, hnext, List.length_cons]; omega)
      rw [if_neg (not_not_intro hb), hskip, hfront, ← hnext]
      exact hrest
    · obtain ⟨x, w', hw⟩ : ∃ x w', w.bytes = x :: w' :=
        List.exists_cons_of_length_pos (by rw [CStr.length_bytes]; omega)
      have hw0 : 0 ∉ w' := fun h => w.noNul (by rw [hw]; exact List.mem_cons_of_mem x h)
      have hwlen : w.length = w'.length + 1 := by
        rw [← CStr.length_bytes, hw, List.length_cons]
      have hkeep : visible (b :: bs) = b :: visible bs := by simp [visible, hb]
      have hstore : store (done.bytes ++ w.bytes ++ [0]) done.length [b] =
          some ((done.append (CStr.empty.cons b hb)).bytes ++ w' ++ [0]) := by
        have hmiddle := @store_append [b] done.bytes [x] (w' ++ [0]) rfl
        rw [hw]
        simpa using hmiddle
      have hdone : (done.append (CStr.empty.cons b hb)).length = done.length + 1 := by
        rw [CStr.length, CStr.bytes_append, List.length_append]
        rfl
      have hw'len : (CStr.mk w' hw0).length = w'.length := rfl
      have hrest := @ih (done.append (CStr.empty.cons b hb)) ⟨w', hw0⟩ turns (front ++ [b])
        (by rw [hnext, hdone, hw'len]; omega) (by rw [hnext, hdone]; omega)
        (Nat.lt_of_succ_lt_succ hturns) (strAt_append (CStr.append _ ⟨w', hw0⟩) [])
        (by rw [CStr.length, CStr.bytes_append, List.length_append, CStr.length_bytes, hdone, hnext];
            change _ + w'.length = _; omega)
      rw [if_pos hb, hstore, Option.bind_some, hkeep, hfront, ← hnext, ← hdone]
      obtain ⟨rest, hrest⟩ := hrest
      refine ⟨rest, hrest.trans ?_⟩
      simp

theorem compact_holds {v : CStr} {bs : List UInt8} (hlen : bs.length = v.length) :
    ∃ m r, compactLoop (bs ++ [0]) (v.length + 1) 0 0 (literal v) = some m ∧ strAt m 0 = some r ∧
      r.bytes = visible bs := by
  have hzero : 0 ∉ visible bs := by simp [visible]
  have hempty : CStr.empty.length = 0 := rfl
  obtain ⟨rest, hrun⟩ := @compactLoop_eq .empty v (v.length + 1) [] bs
    (by rw [hempty, hlen, List.length_nil]) (le_refl 0) (by rw [hlen]; exact Nat.lt_succ_self _)
  exact ⟨_, ⟨visible bs, hzero⟩, hrun, strAt_append ⟨visible bs, hzero⟩ rest, rfl⟩

theorem deleteNthValueMulti_eq {v : CStr} (hd : delimit ≠ 0) (hinc : index.Pairwise (· < ·))
    (hne : index ≠ [])
    (hbound : ∀ n ∈ index, 0 ≤ n ∧ n < ((v.bytes.splitOn delimit).length : Int)) :
    ∃ m r, deleteNthValueMulti index (literal v) delimit = some m ∧ strAt m 0 = some r ∧
      r.bytes = visible
        (if (0 : Int) ∈ index ∧ 1 < (v.bytes.splitOn delimit).length then
          patched (blanked index delimit 0 [] (v.bytes.splitOn delimit))
        else blanked index delimit 0 [] (v.bytes.splitOn delimit)) := by
  obtain ⟨d, ended, hloop, hlast, hflag⟩ :=
    @deleteLoop_eq index delimit 0 0 [] [] v.bytes false (literal v).length hd hinc
      (List.length_pos_iff.mpr hne) (fun n hn => (hbound n hn).1) (fun n hn => absurd hn List.not_mem_nil)
      (fun n hn => by rw [Nat.zero_add]; exact (hbound n hn).2) v.noNul (by simp [literal])
  have hlength : (blanked index delimit 0 [] (v.bytes.splitOn delimit)).length = v.length := by
    obtain ⟨f, fs, hfs⟩ := List.exists_cons_of_ne_nil (List.splitOn_ne_nil delimit v.bytes)
    rw [hfs, length_blanked, List.nil_append, ← Delimited.intercalate_cons, ← hfs,
      List.intercalate_splitOn, CStr.length_bytes]
  simp only [List.nil_append, List.length_nil] at hloop hlast
  rw [← literal] at hloop
  by_cases hset : (0 : Int) ∈ index ∧ 1 < (v.bytes.splitOn delimit).length
  · have htrue : d.need_check_flag = true := hflag.mpr (.inr ⟨rfl, hset⟩)
    have hpatch := @patchLoop_eq v (v.length + 1) 0 _ (by rw [Nat.zero_add]; exact hlength)
      (by rw [hlength]; exact Nat.lt_succ_self _)
    have hpatched : (patched (blanked index delimit 0 [] (v.bytes.splitOn delimit))).length = v.length := by
      rw [length_patched, hlength]
    obtain ⟨m, r, hrun, hat, hr⟩ := compact_holds hpatched
    refine ⟨m, r, ?_, hat, by rw [if_pos hset, hr]⟩
    simp only [List.replicate_zero, List.nil_append] at hpatch
    simp only [deleteNthValueMulti, strAt_literal, hloop, hlast, htrue, hpatch, hrun, if_true,
      Option.bind_eq_bind, Option.bind_some]
  · have hfalse : ¬ d.need_check_flag = true := fun h =>
      (hflag.mp h).elim (absurd · Bool.false_ne_true) fun h0 => hset h0.2
    obtain ⟨m, r, hrun, hat, hr⟩ := compact_holds hlength
    refine ⟨m, r, ?_, hat, by rw [if_neg hset, hr]⟩
    simp only [deleteNthValueMulti, strAt_literal, hloop, hlast, if_neg hfalse, hrun,
      Option.bind_eq_bind, Option.bind_some]

theorem visible_fields (hd : delimit ≠ 0) (hfs : ∀ f ∈ fs, 0 ∉ f) (hne : fs ≠ []) :
    visible (blanked index delimit 0 [] fs) =
      if (0 : Int) ∈ index then Delimited.tails delimit (kept index 0 fs)
      else [delimit].intercalate (kept index 0 fs) := by
  obtain ⟨f, fs, rfl⟩ := List.exists_cons_of_ne_nil hne
  have hrest := @visible_blanked index delimit 1 fs hd fun g hg => hfs g (List.mem_cons_of_mem f hg)
  rw [blanked, kept, visible_append, hrest]
  by_cases h0 : (0 : Int) ∈ index
  · have hzero : ((0 : Nat) : Int) ∈ index := h0
    rw [if_pos hzero, if_pos h0, if_pos hzero, visible_zeroes, List.nil_append]
  · have hzero : ((0 : Nat) : Int) ∉ index := h0
    rw [if_neg hzero, if_neg h0, if_neg hzero, List.nil_append,
      visible_string (hfs f List.mem_cons_self), Delimited.intercalate_cons]

theorem deleteNthValueMulti_nul (v : CStr) :
    ∃ m r, deleteNthValueMulti [0] (literal v) 0 = some m ∧ strAt m 0 = some r ∧ r.bytes = [] := by
  have hscan : strchr 0 ((literal v).drop 0) = .found v [] := strchr_nul v []
  have hlen : (literal v).length = v.length + 1 := by simp [literal]
  have hfound := @deleteLoop_found [0] 0 v.length 0 ⟨literal v, 0, 0, 0, false⟩ _ _ hscan
  have hhit := @deleteField_hit [0] 0 0 [] false v.bytes [0] Nat.one_pos rfl
  have hbuf : ([] ++ v.bytes ++ [0] : Chars) = literal v := rfl
  rw [hbuf, List.length_nil, List.nil_append, CStr.length_bytes] at hhit
  rw [hhit] at hfound
  have hpatch := @patchLoop_eq v (v.length + 1) 0 (List.replicate v.length 0)
    (by rw [Nat.zero_add, List.length_replicate]) (by rw [List.length_replicate]; exact Nat.lt_succ_self _)
  rw [List.replicate_zero, List.nil_append, List.nil_append] at hpatch
  obtain ⟨m, r, hrun, hat, hr⟩ := @compact_holds v (patched (List.replicate v.length 0))
    (by rw [length_patched, List.length_replicate])
  refine ⟨m, r, ?_, hat, ?_⟩
  · simp only [deleteNthValueMulti, strAt_literal, hlen, hfound, deleteLast, hpatch, hrun,
      Option.bind_eq_bind, Option.bind_some, Nat.cast_zero, if_true, List.length_singleton,
      Nat.zero_add, le_refl, decide_true, Bool.false_eq_true, if_false]
  · rw [hr, visible_patched, visible_zeroes]
    rfl

theorem eq_singleton_of_bound (hinc : index.Pairwise (· < ·)) (hne : index ≠ [])
    (hbound : ∀ n ∈ index, 0 ≤ n ∧ n < 1) : index = [0] := by
  obtain ⟨n, rest, rfl⟩ := List.exists_cons_of_ne_nil hne
  have hn := hbound n List.mem_cons_self
  have hrest : rest = [] := by
    apply List.eq_nil_iff_forall_not_mem.mpr
    intro m hm
    have hlt := (List.pairwise_cons.mp hinc).1 m hm
    have hm1 := hbound m (List.mem_cons_of_mem n hm)
    omega
  rw [hrest, show n = 0 by omega]

/-- The remaining fields are what comes back, unless the first field is deleted from a list with
another delimiter than the semicolon and some field remains. -/
theorem deleteNthValueMulti_iff (index : List Int) (v : CStr) (delimit : UInt8)
    (hinc : index.Pairwise (· < ·)) (hne : index ≠ [])
    (hbound : ∀ n ∈ index, 0 ≤ n ∧ n < ((v.bytes.splitOn delimit).length : Int)) :
    (∃ m r, deleteNthValueMulti index (literal v) delimit = some m ∧ strAt m 0 = some r ∧
        r.bytes = [delimit].intercalate (kept index 0 (v.bytes.splitOn delimit))) ↔
      ¬ ((0 : Int) ∈ index ∧ delimit ≠ semicolon ∧ kept index 0 (v.bytes.splitOn delimit) ≠ []) := by
  by_cases hd : delimit = 0
  · subst hd
    have hone : v.bytes.splitOn 0 = [v.bytes] := List.splitOn_eq_singleton v.noNul
    rw [hone] at hbound ⊢
    have hindex := eq_singleton_of_bound hinc hne hbound
    subst hindex
    have hkept : kept [0] 0 [v.bytes] = [] := rfl
    rw [hkept]
    refine iff_of_true ?_ fun h => h.2.2 rfl
    exact deleteNthValueMulti_nul v
  · obtain ⟨m, r, hrun, hat, hr⟩ := deleteNthValueMulti_eq hd hinc hne hbound
    have hfields := @visible_fields index delimit (v.bytes.splitOn delimit) hd
      (fun f hf h0 => v.noNul (Delimited.mem_of_mem_splitOn hf h0)) (List.splitOn_ne_nil _ _)
    have hresult : (∃ m r, deleteNthValueMulti index (literal v) delimit = some m ∧
        strAt m 0 = some r ∧ r.bytes = [delimit].intercalate (kept index 0 (v.bytes.splitOn delimit))) ↔
          r.bytes = [delimit].intercalate (kept index 0 (v.bytes.splitOn delimit)) := by
      constructor
      · rintro ⟨m', r', hrun', hat', hr'⟩
        rw [hrun, Option.some.injEq] at hrun'
        rw [← hrun', hat, Option.some.injEq] at hat'
        rw [hat', hr']
      · exact fun h => ⟨m, r, hrun, hat, h⟩
    rw [hresult, hr]
    by_cases h0 : (0 : Int) ∈ index
    · rw [if_pos h0] at hfields
      by_cases hmore : 1 < (v.bytes.splitOn delimit).length
      · rw [if_pos ⟨h0, hmore⟩, visible_patched, hfields]
        by_cases hkept : kept index 0 (v.bytes.splitOn delimit) = []
        · rw [hkept]
          exact iff_of_true rfl fun h => h.2.2 rfl
        · rw [Delimited.tails_eq_cons hkept, List.head?_cons, List.tail_cons]
          by_cases hs : delimit = semicolon
          · rw [if_pos (congrArg some hs)]
            exact iff_of_true rfl fun h => h.2.1 hs
          · rw [if_neg (fun h => hs (Option.some.inj h))]
            apply iff_of_false
            · intro h
              have hlen := congrArg List.length h
              rw [List.length_cons] at hlen
              omega
            · exact fun h => h ⟨h0, hs, hkept⟩
      · have hone : v.bytes.splitOn delimit = [v.bytes] := by
          rcases Delimited.splitOn_cases delimit v.bytes with ⟨-, hsplit⟩ | ⟨f, rest, -, -, hsplit⟩
          · exact hsplit
          · rw [hsplit, List.length_cons] at hmore
            have hpos := List.length_pos_iff.mpr (List.splitOn_ne_nil delimit rest)
            omega
        have hkept : kept index 0 (v.bytes.splitOn delimit) = [] := by
          rw [hone]
          exact if_pos h0
        rw [if_neg (fun h => hmore h.2), hfields, hkept]
        exact iff_of_true rfl fun h => h.2.2 rfl
    · rw [if_neg h0] at hfields
      rw [if_neg (fun h => h0 h.1), hfields]
      exact iff_of_true rfl fun h => h0 h.1

theorem deleteNthValueMulti_second :
    ∃ m r, deleteNthValueMulti [0, 2] (literal ⟨[97, semicolon, 98, semicolon, 99], by decide⟩) semicolon =
        some m ∧ strAt m 0 = some r ∧ r.bytes = [98] :=
  (deleteNthValueMulti_iff [0, 2] ⟨[97, semicolon, 98, semicolon, 99], by decide⟩ semicolon (by decide)
    (by decide) (by decide)).mpr (by decide)

/-- Of `a,b` without its first field the comma remains. -/
theorem deleteNthValueMulti_comma :
    deleteNthValueMulti [0] (literal ⟨[97, 44, 98], by decide⟩) 44 = some [44, 98, 0, 0] ∧
      [44].intercalate (kept [0] 0 ([97, 44, 98].splitOn 44)) = [98] := by
  decide

end Delete

end Ralink.Goahead
