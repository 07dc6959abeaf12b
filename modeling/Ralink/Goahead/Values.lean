import Ralink.Lib.CString
import Ralink.Lib.Delimited

/-! Settings with a value for each wireless network or each rule are one string. One function counts
its values, another gives the value of an index. -/
namespace Ralink.Goahead
open CString CArray

def semicolon : UInt8 := 59

/-- The loop of `getValueCount`: the byte that is compared is behind the one that was tested. -/
def countLoop : Chars → Nat → Option Nat
  | [], _ => none
  | b :: values, cnt =>
    if b = 0 then some (cnt + 1)
    else
      match values with
      | [] => none
      | c :: rest => countLoop (c :: rest) (if c = semicolon then cnt + 1 else cnt)

def getValueCount (values : Option Chars) : Option Nat :=
  match values with
  | none => some 0
  | some values => countLoop values 0

/-- The loop of `getNthValueSafe` for at most `turns` turns: `begin`, `end`, and the turns that were
not made. -/
def seek (delimit : UInt8) : (turns : Nat) → Chars → Chars × Scan × Nat
  | 0, begin_ => (begin_, strchr delimit begin_, 0)
  | turns + 1, begin_ =>
    match strchr delimit begin_ with
    | .found _ rest => seek delimit turns rest
    | end_ => (begin_, end_, turns + 1)

def copyValue (value : CStr) (result : Chars) (len : Nat) : Option (Int × Chars) := do
  let result_len := if len - 1 < value.length then len - 1 else value.length
  let result ← store result 0 (value.bytes.take result_len)
  let result ← store result result_len [0]
  some (0, result)

/-- The return value and what `result` is then. -/
def getNthValueSafe (index : Int) (value : Chars) (delimit : UInt8) (result : Chars) (len : Nat) :
    Option (Int × Chars) :=
  if len = 0 then some (-1, result)
  else
    let (begin_, end_, left) := seek delimit index.toNat value
    match end_ with
    | .overrun => none
    | .absent =>
      if (index.toNat - left : Nat) = index then do
        let value ← strAt begin_ 0
        copyValue value result len
      else some (-1, result)
    | .found value _ => copyValue value result len

def valuesOf (v : CStr) : List (List UInt8) := v.bytes.splitOn semicolon

/-- The count is that of the indices that have a value, and the values make up the string. -/
def ViewsAgree (v : CStr) (result : Chars) (len : Nat) : Prop :=
  ∃ count, getValueCount (some (literal v)) = some count ∧
    (∀ i, count ≤ i → getNthValueSafe i (literal v) semicolon result len = some (-1, result)) ∧
    ∃ values : List CStr, values.length = count ∧
      (∀ i (h : i < values.length), ∃ r,
        getNthValueSafe i (literal v) semicolon result len = some (0, r) ∧
          strAt r 0 = some values[i]) ∧
      [semicolon].intercalate (values.map CStr.bytes) = v.bytes

section Values

variable {v : CStr} {result : Chars} {len i : Nat}

theorem countLoop_eq (bs : List UInt8) (h : 0 ∉ bs) (cnt : Nat) :
    countLoop (bs ++ [0]) cnt = some (cnt + bs.tail.count semicolon + 1) := by
  induction bs generalizing cnt with
  | nil => rfl
  | cons b bs ih =>
    have hb : b ≠ 0 := fun h0 => h (h0 ▸ List.mem_cons_self)
    have hbs : 0 ∉ bs := fun h0 => h (List.mem_cons_of_mem b h0)
    cases bs with
    | nil =>
      have hsemi : (0 : UInt8) ≠ semicolon := by decide
      simp [countLoop, hb, hsemi]
    | cons c bs =>
      have hrest := ih hbs
      simp only [List.cons_append] at hrest
      simp only [List.cons_append, countLoop, if_neg hb, List.tail_cons] at hrest ⊢
      rw [List.count_cons]
      split
      · next hc =>
        simp only [hc, beq_self_eq_true, if_true] at hrest ⊢
        rw [hrest]
        congr 1
        omega
      · next hc =>
        have hne : (c == semicolon) = false := beq_false_of_ne hc
        simp only [hne] at hrest ⊢
        rw [hrest]
        rfl

theorem getValueCount_eq (v : CStr) :
    getValueCount (some (literal v)) = some (v.bytes.tail.count semicolon + 1) := by
  have hcount := countLoop_eq v.bytes v.noNul 0
  rw [Nat.zero_add] at hcount
  exact hcount

theorem literal_cases (v : CStr) :
    strchr semicolon (literal v) = .absent ∧ valuesOf v = [v.bytes] ∨
      ∃ f w : CStr, strchr semicolon (literal v) = .found f (literal w) ∧
        valuesOf v = f.bytes :: valuesOf w := by
  have hsemi : semicolon ≠ 0 := by decide
  rcases Delimited.splitOn_cases semicolon v.bytes with ⟨hnone, hsplit⟩ | ⟨f, rest, hf, hv, hsplit⟩
  · exact .inl ⟨strchr_absent hnone hsemi [], hsplit⟩
  · right
    have hnul := v.noNul
    rw [hv] at hnul
    have hfnul : 0 ∉ f := fun h => hnul (List.mem_append_left _ h)
    have hrnul : 0 ∉ rest := fun h => hnul (List.mem_append_right f (List.mem_cons_of_mem _ h))
    refine ⟨⟨f, hfnul⟩, ⟨rest, hrnul⟩, ?_, hsplit⟩
    have hmem : literal v = f ++ semicolon :: (rest ++ [0]) := by
      rw [literal, hv, List.append_assoc]
      rfl
    rw [hmem]
    exact @strchr_append semicolon ⟨f, hfnul⟩ hf (rest ++ [0])

theorem seek_of_lt (h : i < (valuesOf v).length) :
    ∃ begin_ end_, seek semicolon i (literal v) = (begin_, end_, 0) ∧
      ∃ s : CStr, s.bytes = (valuesOf v)[i] ∧
        (begin_ = literal s ∧ end_ = .absent ∨ ∃ rest, end_ = .found s rest) := by
  induction i generalizing v with
  | zero =>
    refine ⟨_, _, rfl, ?_⟩
    rcases literal_cases v with ⟨hscan, hvalues⟩ | ⟨f, w, hscan, hvalues⟩
    · exact ⟨v, by simp [hvalues], .inl ⟨rfl, hscan⟩⟩
    · exact ⟨f, by simp [hvalues], .inr ⟨_, hscan⟩⟩
  | succ i ih =>
    rcases literal_cases v with ⟨hscan, hvalues⟩ | ⟨f, w, hscan, hvalues⟩
    · rw [hvalues] at h
      exact absurd (Nat.lt_of_succ_lt_succ h) (Nat.not_lt_zero i)
    · have hw : i < (valuesOf w).length := by
        rw [hvalues] at h
        exact Nat.lt_of_succ_lt_succ h
      have hnext := ih hw
      simp only [seek, hscan, hvalues, List.getElem_cons_succ]
      exact hnext

theorem seek_of_ge (h : (valuesOf v).length ≤ i) :
    ∃ begin_ left, seek semicolon i (literal v) = (begin_, .absent, left) ∧ 0 < left ∧ left ≤ i := by
  induction i generalizing v with
  | zero => exact absurd (List.eq_nil_of_length_eq_zero (Nat.le_zero.mp h)) (List.splitOn_ne_nil _ _)
  | succ i ih =>
    rcases literal_cases v with ⟨hscan, hvalues⟩ | ⟨f, w, hscan, hvalues⟩
    · simp only [seek, hscan]
      exact ⟨_, _, rfl, Nat.succ_pos i, le_refl _⟩
    · rw [hvalues] at h
      obtain ⟨begin_, left, hseek, hpos, hle⟩ := ih (Nat.le_of_succ_le_succ h)
      simp only [seek, hscan]
      exact ⟨begin_, left, hseek, hpos, Nat.le_succ_of_le hle⟩

theorem copyValue_eq {s : CStr} (hs : s.length < len) (hlen : len ≤ result.length) :
    ∃ r, copyValue s result len = some (0, r) ∧ strAt r 0 = some s := by
  have hres : s.length < result.length := lt_of_lt_of_le hs hlen
  obtain ⟨old, b, post, rfl, hold⟩ : ∃ old b post, result = old ++ b :: post ∧
      old.length = s.bytes.length := by
    refine ⟨result.take s.length, result[s.length], result.drop (s.length + 1), ?_, ?_⟩
    · rw [List.getElem_cons_drop, List.take_append_drop]
    · rw [List.length_take, CStr.length_bytes]
      omega
  have hcopy : store (old ++ b :: post) 0 s.bytes = some (s.bytes ++ b :: post) :=
    @store_append s.bytes [] old (b :: post) hold
  have hend : store (s.bytes ++ b :: post) s.bytes.length [0] = some (s.bytes ++ 0 :: post) := by
    have hstore := @store_append [0] s.bytes [b] post rfl
    rwa [List.append_assoc, List.append_assoc] at hstore
  have hwhole : (if len - 1 < s.length then len - 1 else s.length) = s.bytes.length :=
    if_neg (by omega)
  refine ⟨_, ?_, strAt_append s post⟩
  simp only [copyValue, hwhole, List.take_length, hcopy, hend, Option.bind_eq_bind, Option.bind_some]

theorem getNthValueSafe_of_lt (h : i < (valuesOf v).length) (hv : v.length < len)
    (hlen : len ≤ result.length) :
    ∃ r, getNthValueSafe i (literal v) semicolon result len = some (0, r) ∧
      ∃ s : CStr, s.bytes = (valuesOf v)[i] ∧ strAt r 0 = some s := by
  obtain ⟨begin_, end_, hseek, s, hs, hend⟩ := seek_of_lt h
  have hfits : s.length < len := by
    rw [← CStr.length_bytes, hs]
    exact lt_of_le_of_lt (Delimited.length_le_of_mem_splitOn (List.getElem_mem h)) hv
  obtain ⟨r, hcopy, hr⟩ := copyValue_eq hfits hlen
  have hne : ¬ len = 0 := by omega
  refine ⟨r, ?_, s, hs, hr⟩
  rcases hend with ⟨rfl, rfl⟩ | ⟨rest, rfl⟩
  · simp only [getNthValueSafe, if_neg hne, Int.toNat_natCast, hseek, strAt_literal]
    simpa using hcopy
  · simp only [getNthValueSafe, if_neg hne, Int.toNat_natCast, hseek]
    exact hcopy

theorem getNthValueSafe_of_ge (h : (valuesOf v).length ≤ i) (hv : v.length < len) :
    getNthValueSafe i (literal v) semicolon result len = some (-1, result) := by
  obtain ⟨begin_, left, hseek, hpos, hle⟩ := seek_of_ge h
  have hne : ¬ len = 0 := by omega
  have hindex : ¬ ((i - left : Nat) : Int) = i := by omega
  simp only [getNthValueSafe, if_neg hne, Int.toNat_natCast, hseek, if_neg hindex]

theorem exists_values (v : CStr) : ∃ values : List CStr, values.map CStr.bytes = valuesOf v := by
  have hnul : ∀ f ∈ valuesOf v, 0 ∉ f := fun f hf h0 =>
    v.noNul (Delimited.mem_of_mem_splitOn hf h0)
  refine ⟨(valuesOf v).attach.map fun f => ⟨f.1, hnul f.1 f.2⟩, ?_⟩
  rw [List.map_map]
  exact List.attach_map_subtype_val _

theorem length_valuesOf (v : CStr) : (valuesOf v).length = v.bytes.count semicolon + 1 :=
  Delimited.length_splitOn semicolon v.bytes

theorem count_iff : v.bytes.tail.count semicolon + 1 = (valuesOf v).length ↔
    v.bytes.head? ≠ some semicolon := by
  rw [length_valuesOf]
  cases v.bytes with
  | nil => simp
  | cons b bs =>
    rw [List.tail_cons, List.count_cons, List.head?_cons]
    by_cases hb : b = semicolon <;> simp [hb]

/-- The two views of a string agree exactly when it does not begin with a semicolon. -/
theorem viewsAgree_iff (v : CStr) (result : Chars) (len : Nat) (hv : v.length < len)
    (hlen : len ≤ result.length) :
    ViewsAgree v result len ↔ v.bytes.head? ≠ some semicolon := by
  rw [← count_iff]
  constructor
  · rintro ⟨count, hcount, hnone, values, rfl, hvalues, -⟩
    rw [getValueCount_eq, Option.some.injEq] at hcount
    rw [hcount]
    apply le_antisymm
    · by_contra hlt
      obtain ⟨r, hr, -⟩ := hvalues (valuesOf v).length (not_le.mp hlt)
      rw [getNthValueSafe_of_ge (le_refl _) hv] at hr
      exact absurd hr (by simp)
    · by_contra hlt
      obtain ⟨r, hr, -⟩ := getNthValueSafe_of_lt (not_le.mp hlt) hv hlen
      rw [hnone values.length (le_refl _)] at hr
      exact absurd hr (by simp)
  · intro hcount
    refine ⟨(valuesOf v).length, ?_, fun i hi => getNthValueSafe_of_ge hi hv, ?_⟩
    · rw [getValueCount_eq, hcount]
    · have hnul : ∀ f ∈ valuesOf v, 0 ∉ f := by
        intro f hf h0
        exact v.noNul (Delimited.mem_of_mem_splitOn hf h0)
      refine ⟨(valuesOf v).attach.map fun f => ⟨f.1, hnul f.1 f.2⟩, by simp, ?_, ?_⟩
      · intro i hi
        have hlt : i < (valuesOf v).length := by simpa using hi
        obtain ⟨r, hr, s, hs, hat⟩ := getNthValueSafe_of_lt hlt hv hlen
        refine ⟨r, hr, ?_⟩
        rw [hat, Option.some.injEq]
        apply CStr.ext
        simpa using hs
      · simp [List.map_map, Function.comp_def, valuesOf, List.intercalate_splitOn]

theorem viewsAgree_two_values : ViewsAgree ⟨[97, semicolon, 98], by decide⟩ [0, 0, 0, 0] 4 :=
  (viewsAgree_iff ⟨[97, semicolon, 98], by decide⟩ [0, 0, 0, 0] 4 (by decide) (by decide)).mpr
    (by decide)

/-- An empty value and another one are counted as one. -/
theorem getValueCount_leading :
    getValueCount (some (literal ⟨[semicolon, 97], by decide⟩)) = some 1 ∧
      getNthValueSafe 1 (literal ⟨[semicolon, 97], by decide⟩) semicolon [0, 0, 0] 3 =
        some (0, [97, 0, 0]) := by
  decide

end Values

end Ralink.Goahead
