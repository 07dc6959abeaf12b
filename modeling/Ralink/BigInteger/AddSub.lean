import Ralink.BigInteger.Integer

/-! Sums are exact. Differences are exact when no borrow comes into a word whose comparison
misjudges it, and the difference of two negative numbers has the wrong sign when the first one is
the smaller. -/
namespace Ralink.BigInteger
open Words

def addWords : Nat → List UInt32 → List UInt32 → UInt64 → List UInt32
  | 0, _, _, _ => []
  | n + 1, first, second, Carry =>
    let Sum : UInt64 := (first.headD 0).toUInt64 + (second.headD 0).toUInt64
    let Sum := Sum + Carry
    (Sum &&& 0xffffffff).toUInt32 :: addWords n first.tail second.tail (Sum >>> 32)

/-- The words of the larger number, less those of the smaller one while it has some. -/
def subWords : List UInt32 → List UInt32 → UInt32 → List UInt32
  | [], _, _ => []
  | r :: rs, t :: ts, Carry =>
    if r ≥ t - Carry then (r - t - Carry) :: subWords rs ts 0
    else (0xffffffff - t - Carry + r + 1) :: subWords rs ts 1
  | r :: rs, [], Carry =>
    if r ≥ Carry then (r - Carry) :: subWords rs [] 0
    else (0xffffffff - Carry) :: subWords rs [] 1

def BIG_INTEGER.setWords (x : BIG_INTEGER) (ws : List UInt32) : BIG_INTEGER :=
  { x with pIntegerArray := ws ++ x.pIntegerArray.drop ws.length }

/-- The branch of `BigInteger_Add` for operands of one sign. -/
def sumOf (pFirstOperand pSecondOperand pBI_Result : BIG_INTEGER) : Option BIG_INTEGER :=
  let pBI_Result :=
    if pFirstOperand.IntegerLength > pSecondOperand.IntegerLength then
      BigInteger_AllocSize pBI_Result (pFirstOperand.IntegerLength + 1)
    else BigInteger_AllocSize pBI_Result (pSecondOperand.IntegerLength + 1)
  if pFirstOperand.pIntegerArray.length < pFirstOperand.ArrayLength ∨
      pSecondOperand.pIntegerArray.length < pSecondOperand.ArrayLength then none
  else
    BigInteger_ClearHighBits
      { pBI_Result.setWords
          (addWords pBI_Result.ArrayLength pFirstOperand.words pSecondOperand.words 0) with
        Signed := pFirstOperand.Signed }

/-- The branch of `BigInteger_Sub` for operands of one sign that are not the same. -/
def differenceOf (CompareResult : Int) (pFirstOperand pSecondOperand pBI_Result : BIG_INTEGER) :
    Option BIG_INTEGER := do
  let pTempBI ← BigInteger_Copy (if CompareResult = 1 then pFirstOperand else pSecondOperand)
    BigInteger_Init
  let pTempBI2 ← BigInteger_Copy (if CompareResult = 1 then pSecondOperand else pFirstOperand)
    BigInteger_Init
  let pBI_Result ← BigInteger_Copy pTempBI pBI_Result
  let pBI_Result := pBI_Result.setWords (subWords pBI_Result.words pTempBI2.words 0)
  let pBI_Result :=
    if (pFirstOperand.Signed = 1 ∧ pSecondOperand.Signed = 1 ∧ CompareResult = -1) ∨
        (pFirstOperand.Signed = -1 ∧ pSecondOperand.Signed = -1 ∧ CompareResult = 1) then
      { pBI_Result with Signed := -1 }
    else pBI_Result
  BigInteger_ClearHighBits pBI_Result

/-- `BigInteger_Sub` for operands of one sign, where it does not come to `BigInteger_Add`. -/
def subOneSign (pFirstOperand pSecondOperand pBI_Result : BIG_INTEGER) : Option BIG_INTEGER :=
  if pFirstOperand.pIntegerArray = [] ∨ pSecondOperand.pIntegerArray = [] then some pBI_Result
  else do
    let CompareResult ← BigInteger_UnsignedCompare pFirstOperand pSecondOperand
    if CompareResult = 0 then some (BigInteger_AllocSize pBI_Result 1)
    else differenceOf CompareResult pFirstOperand pSecondOperand pBI_Result

def BigInteger_Add (pFirstOperand pSecondOperand pBI_Result : BIG_INTEGER) : Option BIG_INTEGER :=
  if pFirstOperand.pIntegerArray = [] ∨ pSecondOperand.pIntegerArray = [] then some pBI_Result
  else do
    let CompareResult ← BigInteger_UnsignedCompare pFirstOperand pSecondOperand
    if CompareResult = 0 ∧ pFirstOperand.Signed * pSecondOperand.Signed < 0 then
      some (BigInteger_AllocSize pBI_Result 1)
    else if pFirstOperand.Signed * pSecondOperand.Signed > 0 then
      sumOf pFirstOperand pSecondOperand pBI_Result
    else if pFirstOperand.Signed = 1 ∧ pSecondOperand.Signed = -1 then do
      let pTempBI ← BigInteger_Copy pSecondOperand BigInteger_Init
      -- BigInteger_Sub, with both operands positive
      subOneSign pFirstOperand { pTempBI with Signed := 1 } pBI_Result
    else if pFirstOperand.Signed = -1 ∧ pSecondOperand.Signed = 1 then do
      let pTempBI ← BigInteger_Copy pFirstOperand BigInteger_Init
      subOneSign pSecondOperand { pTempBI with Signed := 1 } pBI_Result
    else some pBI_Result

def BigInteger_Sub (pFirstOperand pSecondOperand pBI_Result : BIG_INTEGER) : Option BIG_INTEGER :=
  if pFirstOperand.Signed * pSecondOperand.Signed > 0 then
    subOneSign pFirstOperand pSecondOperand pBI_Result
  else if pFirstOperand.pIntegerArray = [] ∨ pSecondOperand.pIntegerArray = [] then some pBI_Result
  else if pFirstOperand.Signed = 1 ∧ pSecondOperand.Signed = -1 then do
    let pTempBI ← BigInteger_Copy pSecondOperand BigInteger_Init
    BigInteger_Add pFirstOperand { pTempBI with Signed := 1 } pBI_Result
  else if pFirstOperand.Signed = -1 ∧ pSecondOperand.Signed = 1 then do
    let pTempBI ← BigInteger_Copy pFirstOperand BigInteger_Init
    let pBI_Result ← BigInteger_Add { pTempBI with Signed := 1 } pSecondOperand pBI_Result
    some { pBI_Result with Signed := -1 }
  else some pBI_Result

section Sums

variable {as bs : List UInt32} {Carry : UInt64} {n : Nat}

@[simp] theorem length_addWords : (addWords n as bs Carry).length = n := by
  induction n generalizing as bs Carry with
  | zero => rfl
  | succ n ih => rw [addWords, List.length_cons, ih]

theorem value_eq_head (ws : List UInt32) :
    value ws = (ws.headD 0).toNat + 2 ^ 32 * value ws.tail := by
  cases ws with
  | nil => rfl
  | cons w ws => exact value_cons

theorem split_wide (s : UInt64) :
    ((s &&& 0xffffffff).toUInt32).toNat = s.toNat % 2 ^ 32 ∧ (s >>> 32).toNat = s.toNat / 2 ^ 32 := by
  constructor
  · rw [UInt64.toNat_toUInt32, UInt64.toNat_and]
    show (s.toNat &&& (2 ^ 32 - 1)) % 2 ^ 32 = _
    rw [Nat.and_two_pow_sub_one_eq_mod, Nat.mod_mod]
  · rw [UInt64.toNat_shiftRight, Nat.shiftRight_eq_div_pow]
    rfl

theorem value_addWords (hc : Carry.toNat ≤ 1) :
    value (addWords n as bs Carry) = (value as + value bs + Carry.toNat) % (2 ^ 32) ^ n := by
  induction n generalizing as bs Carry with
  | zero => rw [Nat.pow_zero, Nat.mod_one]; rfl
  | succ n ih =>
    have ha := toNat_lt (as.headD 0)
    have hb := toNat_lt (bs.headD 0)
    have hsum : ((as.headD 0).toUInt64 + (bs.headD 0).toUInt64 + Carry).toNat =
        (as.headD 0).toNat + (bs.headD 0).toNat + Carry.toNat := by
      rw [UInt64.toNat_add, UInt64.toNat_add, UInt32.toNat_toUInt64, UInt32.toNat_toUInt64]
      omega
    obtain ⟨hlow, hhigh⟩ :=
      split_wide ((as.headD 0).toUInt64 + (bs.headD 0).toUInt64 + Carry)
    rw [hsum] at hlow hhigh
    rw [addWords, value_cons, hlow, ih (by rw [hhigh]; omega), hhigh, value_eq_head as,
      value_eq_head bs, pow_succ' (2 ^ 32 : ℕ) n, Nat.mod_mul]
    congr 1
    · omega
    · congr 2
      omega

end Sums

section Differences

/-- With a borrow coming in, the test of a word against the other one less the borrow gives the
wrong answer, or the wrong word is written above the words of the smaller number. -/
def Misjudged (r : UInt32) : Option UInt32 → Prop
  | some t => (t ≠ 0 ∧ (r = t ∨ r + 1 = t)) ∨ (t = 0 ∧ 0 < r ∧ r < 0xffffffff)
  | none => r = 0

instance (r : UInt32) (t : Option UInt32) : Decidable (Misjudged r t) :=
  match t with
  | some t => inferInstanceAs
      (Decidable ((t ≠ 0 ∧ (r = t ∨ r + 1 = t)) ∨ (t = 0 ∧ 0 < r ∧ r < 0xffffffff)))
  | none => inferInstanceAs (Decidable (r = 0))

/-- Below the highest word, no word into which a borrow comes is misjudged. `c` is the borrow into
the lowest word. -/
def SoundBorrows (c : ℕ) (rs ts : List UInt32) : Prop :=
  ∀ i r, rs[i]? = some r → i + 1 < rs.length → value (rs.take i) < value (ts.take i) + c →
    ¬ Misjudged r ts[i]?

instance (c : ℕ) (rs ts : List UInt32) : Decidable (SoundBorrows c rs ts) :=
  decidable_of_iff
    (∀ i : Fin rs.length, i.1 + 1 < rs.length → value (rs.take i) < value (ts.take i) + c →
      ¬ Misjudged rs[i] ts[i]?)
    ⟨fun h i r hr hi hlt => by
      obtain ⟨hlen, rfl⟩ := List.getElem?_eq_some_iff.mp hr
      exact h ⟨i, hlen⟩ hi hlt, fun h i => h i _ (List.getElem?_eq_getElem i.2)⟩

variable {r t Carry : UInt32} {rs ts : List UInt32} {c : ℕ}

theorem soundBorrows_nil : SoundBorrows c [] ts := fun i r h => by simp at h

theorem soundBorrows_cons (hc : c ≤ 1) :
    SoundBorrows c (r :: rs) (t :: ts) ↔
      (rs ≠ [] → 0 < c → ¬ Misjudged r (some t)) ∧
        SoundBorrows (if r.toNat < t.toNat + c then 1 else 0) rs ts := by
  constructor
  · intro h
    refine ⟨fun hne hpos => ?_, fun i w hw hi hlt => ?_⟩
    · exact h 0 r rfl (by simpa using List.length_pos_of_ne_nil hne) (by simpa using hpos)
    · refine h (i + 1) w hw (by simpa using hi) ?_
      rw [List.take_succ_cons, List.take_succ_cons, value_cons_lt_iff hc]
      exact hlt
  · rintro ⟨hhead, htail⟩ i w hw hi hlt
    cases i with
    | zero =>
      obtain rfl : r = w := Option.some.inj hw
      refine hhead ?_ (by simpa using hlt)
      rintro rfl
      exact absurd hi (by simp)
    | succ i =>
      rw [List.take_succ_cons, List.take_succ_cons, value_cons_lt_iff hc] at hlt
      exact htail i w hw (by simpa using hi) hlt

theorem soundBorrows_cons_nil (hc : c ≤ 1) :
    SoundBorrows c (r :: rs) [] ↔
      (rs ≠ [] → 0 < c → r ≠ 0) ∧ SoundBorrows (if r.toNat < c then 1 else 0) rs [] := by
  have hstep : ∀ ws, value (r :: ws) < value [] + c ↔
      value ws < value [] + (if r.toNat < c then 1 else 0) := by
    intro ws
    rw [value_cons, value_nil]
    split <;> omega
  constructor
  · intro h
    refine ⟨fun hne hpos => ?_, fun i w hw hi hlt => ?_⟩
    · exact h 0 r rfl (by simpa using List.length_pos_of_ne_nil hne) (by simpa using hpos)
    · refine h (i + 1) w hw (by simpa using hi) ?_
      rw [List.take_succ_cons, List.take_nil, hstep]
      simpa using hlt
  · rintro ⟨hhead, htail⟩ i w hw hi hlt
    cases i with
    | zero =>
      obtain rfl : r = w := Option.some.inj hw
      refine hhead ?_ (by simpa using hlt)
      rintro rfl
      exact absurd hi (by simp)
    | succ i =>
      rw [List.take_succ_cons, List.take_nil, hstep] at hlt
      exact htail i w hw (by simpa using hi) (by simpa using hlt)

@[simp] theorem length_subWords : (subWords rs ts Carry).length = rs.length := by
  induction rs generalizing ts Carry with
  | nil => rfl
  | cons r rs ih =>
    cases ts with
    | nil | cons =>
      rw [subWords]
      split <;> rw [List.length_cons, ih, List.length_cons]

theorem subWord_low (hc : Carry.toNat ≤ 1) :
    (r - t - Carry).toNat + t.toNat + Carry.toNat =
        r.toNat + 2 ^ 32 * (if r.toNat < t.toNat + Carry.toNat then 1 else 0) ∧
      0xffffffff - t - Carry + r + 1 = r - t - Carry := by
  have hr := toNat_lt r
  have ht := toNat_lt t
  constructor
  · rw [UInt32.toNat_sub, UInt32.toNat_sub]
    split <;> omega
  · apply UInt32.toNat_inj.mp
    simp only [UInt32.toNat_add, UInt32.toNat_sub, UInt32.reduceToNat]
    omega

theorem subWords_cons (hc : Carry.toNat ≤ 1) :
    subWords (r :: rs) (t :: ts) Carry =
      (r - t - Carry) :: subWords rs ts (if r ≥ t - Carry then 0 else 1) := by
  rw [subWords, (subWord_low hc).2]
  split <;> rfl

theorem subWord_test (hc : Carry.toNat ≤ 1) :
    (r ≥ t - Carry ↔ ¬ r.toNat < t.toNat + Carry.toNat) ↔
      ¬ (0 < Carry.toNat ∧ Misjudged r (some t)) := by
  have hr := toNat_lt r
  have ht := toNat_lt t
  simp only [Misjudged, ge_iff_le, UInt32.le_iff_toNat_le, UInt32.lt_iff_toNat_lt, ne_eq,
    ← UInt32.toNat_inj, UInt32.toNat_sub, UInt32.toNat_add, UInt32.reduceToNat]
  omega

theorem toNat_sub_le (h : Carry ≤ r) : (r - Carry).toNat = r.toNat - Carry.toNat := by
  have hle := UInt32.le_iff_toNat_le.mp h
  have hr := toNat_lt r
  rw [UInt32.toNat_sub]
  omega

theorem value_subWords_ne (hne : rs ≠ []) (hc : c ≤ 1) (hCarry : Carry.toNat ≤ 1)
    (h : Carry.toNat ≠ c) : value (subWords rs ts Carry) + value ts + c ≠ value rs := by
  intro heq
  cases rs with
  | nil => exact hne rfl
  | cons r rs =>
    have hr := toNat_lt r
    cases ts with
    | nil =>
      rw [subWords, value_nil] at heq
      split at heq
      · next hge =>
        have hle := UInt32.le_iff_toNat_le.mp hge
        rw [value_cons, value_cons, toNat_sub_le hge] at heq
        omega
      · next hlt =>
        have hr0 : r.toNat < Carry.toNat := by
          rw [ge_iff_le, UInt32.le_iff_toNat_le] at hlt
          omega
        have htop : (0xffffffff - Carry).toNat = 0xffffffff - Carry.toNat :=
          toNat_sub_le (UInt32.le_iff_toNat_le.mpr (hCarry.trans (by decide)))
        rw [value_cons, value_cons, htop] at heq
        omega
    | cons t ts =>
      have ht := toNat_lt t
      have hlow := (subWord_low (r := r) (t := t) hCarry).1
      rw [subWords_cons hCarry, value_cons, value_cons, value_cons] at heq
      split at hlow <;> omega

theorem value_subWords_cons (hc : Carry.toNat ≤ 1) :
    value (subWords (r :: rs) (t :: ts) Carry) + value (t :: ts) + Carry.toNat = value (r :: rs) ↔
      value (subWords rs ts (if r ≥ t - Carry then 0 else 1)) + value ts +
        (if r.toNat < t.toNat + Carry.toNat then 1 else 0) = value rs := by
  have hlow := (subWord_low (r := r) (t := t) hc).1
  rw [subWords_cons hc, value_cons, value_cons, value_cons]
  omega

theorem value_subWords_iff (hlen : ts.length ≤ rs.length) (hCarry : Carry.toNat ≤ 1)
    (hle : value ts + Carry.toNat ≤ value rs) :
    value (subWords rs ts Carry) + value ts + Carry.toNat = value rs ↔
      SoundBorrows Carry.toNat rs ts := by
  induction rs generalizing ts Carry with
  | nil =>
    obtain rfl : ts = [] := List.eq_nil_of_length_eq_zero (Nat.le_zero.mp hlen)
    have hzero : Carry.toNat = 0 := by simpa using hle
    rw [subWords, hzero]
    exact iff_of_true rfl soundBorrows_nil
  | cons r rs ih =>
    have hr := toNat_lt r
    cases ts with
    | nil =>
      have hrest := @soundBorrows_cons_nil r rs _ hCarry
      by_cases hge : r ≥ Carry
      · have hrc := UInt32.le_iff_toNat_le.mp hge
        have hstep := @ih 0 [] (Nat.zero_le _) (by decide) (Nat.zero_le _)
        rw [if_neg (by omega)] at hrest
        rw [hrest, ← UInt32.toNat_zero, ← hstep, subWords, if_pos hge, value_cons, value_cons,
          toNat_sub_le hge, ne_eq r, ← UInt32.toNat_inj, value_nil, UInt32.toNat_zero]
        constructor
        · intro heq
          exact ⟨fun _ hpos => by omega, by omega⟩
        · intro h
          omega
      · have hrc : r.toNat < Carry.toNat := by
          rw [ge_iff_le, UInt32.le_iff_toNat_le] at hge
          omega
        have hne : rs ≠ [] := by
          rintro rfl
          simp only [value_cons, value_nil] at hle
          omega
        refine iff_of_false ?_ ?_
        · rw [subWords, if_neg hge, value_cons, value_cons, value_nil,
            toNat_sub_le (UInt32.le_iff_toNat_le.mpr (hCarry.trans (by decide)))]
          show 0xffffffff - Carry.toNat + _ + 0 + _ ≠ _
          omega
        · intro hsound
          refine (hrest.mp hsound).1 hne (by omega) (UInt32.toNat_inj.mp ?_)
          show r.toNat = 0
          omega
    | cons t ts =>
      have ht := toNat_lt t
      have hrest := @soundBorrows_cons r t rs ts _ hCarry
      have htest := subWord_test (r := r) (t := t) hCarry
      have hle' : value ts + (if r.toNat < t.toNat + Carry.toNat then 1 else 0) ≤ value rs := by
        have hlt := (@value_cons_lt_iff _ _ rs ts _ hCarry).not.mp (Nat.not_lt_of_le hle)
        exact Nat.le_of_not_lt hlt
      have hlen' : ts.length ≤ rs.length := Nat.le_of_succ_le_succ hlen
      rw [hrest, value_subWords_cons hCarry]
      by_cases hmis : 0 < Carry.toNat ∧ Misjudged r (some t)
      · by_cases hne : rs = []
        · obtain rfl := hne
          obtain rfl : ts = [] := List.eq_nil_of_length_eq_zero (Nat.le_zero.mp hlen')
          refine iff_of_true ?_ ⟨fun hne => absurd rfl hne, soundBorrows_nil⟩
          rw [subWords, value_nil]
          simpa using hle'
        · refine iff_of_false ?_ fun hsound => hsound.1 hne hmis.1 hmis.2
          refine value_subWords_ne hne ?_ ?_ ?_
          · split <;> decide
          · split <;> decide
          · have hdiffer := htest.not.mpr (not_not_intro hmis)
            split <;> split <;> simp_all
      · have hagree := htest.mpr hmis
        have hCarry' : (if r ≥ t - Carry then (0 : UInt32) else 1).toNat =
            if r.toNat < t.toNat + Carry.toNat then 1 else 0 := by
          split <;> split <;> simp_all
        rw [← hCarry', ← ih hlen' (by split <;> decide) (by rw [hCarry']; exact hle')]
        constructor
        · intro heq
          exact ⟨fun _ hpos hm => hmis ⟨hpos, hm⟩, heq⟩
        · intro h
          exact h.2

end Differences

section Results

variable {x y z : BIG_INTEGER} {ws : List UInt32}

theorem words_setWords (h : ws.length = x.ArrayLength) : (x.setWords ws).words = ws := by
  rw [BIG_INTEGER.words, BIG_INTEGER.setWords]
  show (ws ++ _).take x.ArrayLength = ws
  rw [← h, List.take_left]

theorem length_setWords (h : ws.length ≤ x.pIntegerArray.length) :
    (x.setWords ws).pIntegerArray.length = x.pIntegerArray.length := by
  rw [BIG_INTEGER.setWords, List.length_append, List.length_drop]
  omega

theorem clear_setWords {s : Int} (hpos : 0 < x.ArrayLength)
    (hfits : x.ArrayLength ≤ x.pIntegerArray.length) (hws : ws.length = x.ArrayLength)
    (hs : s = 1 ∨ s = -1) :
    ∃ r, BigInteger_ClearHighBits { x.setWords ws with Signed := s } = some r ∧ Normalized r ∧
      r.magnitude = value ws ∧ r.pIntegerArray.length = x.pIntegerArray.length ∧
      r.Signed = if r.magnitude = 0 then 1 else s := by
  have hlen := @length_setWords x ws (by omega)
  obtain ⟨r, hr, hnorm, hmag, harray, hsigned⟩ :=
    clearHighBits_spec (x := { x.setWords ws with Signed := s }) hpos (hlen ▸ hfits) hs
  refine ⟨r, hr, hnorm, ?_, ?_, ?_⟩
  · rw [hmag]
    exact congrArg value (words_setWords hws)
  · rw [harray]
    exact hlen
  · rw [hsigned, hmag]

theorem sumOf_spec (hx : x.ArrayLength ≤ x.pIntegerArray.length)
    (hxlt : x.magnitude < 256 ^ x.IntegerLength) (hy : y.ArrayLength ≤ y.pIntegerArray.length)
    (hylt : y.magnitude < 256 ^ y.IntegerLength) (hsign : x.Signed = 1 ∨ x.Signed = -1) :
    ∃ r, sumOf x y z = some r ∧ Normalized r ∧ r.magnitude = x.magnitude + y.magnitude ∧
      r.Signed = if r.magnitude = 0 then 1 else x.Signed := by
  generalize hL : max x.IntegerLength y.IntegerLength = L
  have hbig : x.magnitude + y.magnitude < (2 ^ 32) ^ ((L + 1 + 3) / 4) := by
    have hxL : 256 ^ x.IntegerLength ≤ 256 ^ L := Nat.pow_le_pow_right (by decide) (by omega)
    have hyL : 256 ^ y.IntegerLength ≤ 256 ^ L := Nat.pow_le_pow_right (by decide) (by omega)
    have hL1 : 256 ^ L * 256 ≤ 256 ^ (4 * ((L + 1 + 3) / 4)) := by
      rw [← Nat.pow_succ]
      exact Nat.pow_le_pow_right (by decide) (by omega)
    rw [base_pow]
    omega
  have halloc : (if x.IntegerLength > y.IntegerLength then
      BigInteger_AllocSize z (x.IntegerLength + 1) else BigInteger_AllocSize z (y.IntegerLength + 1)) =
      BigInteger_AllocSize z (L + 1) := by
    split
    · rw [← hL, Nat.max_eq_left (by omega)]
    · rw [← hL, Nat.max_eq_right (by omega)]
  have hz := allocSize_eq (x := z) (Nat.succ_pos L)
  rw [sumOf, halloc]
  generalize BigInteger_AllocSize z (L + 1) = R at hz
  have hRlen : R.ArrayLength = (L + 1 + 3) / 4 := by rw [hz]
  have hRfits : R.ArrayLength ≤ R.pIntegerArray.length := by
    rw [hz, List.length_replicate]
    exact Nat.le_max_right _ _
  obtain ⟨r, hr, hnorm, hmag, -, hsigned⟩ :=
    @clear_setWords R (addWords R.ArrayLength x.words y.words 0) _ (by omega) hRfits
      length_addWords hsign
  refine ⟨r, ?_, hnorm, ?_, hsigned⟩
  · show (if _ then none else BigInteger_ClearHighBits _) = some r
    rw [if_neg (by omega)]
    exact hr
  · rw [hmag, value_addWords (by decide), hRlen]
    exact Nat.mod_eq_of_lt hbig

theorem differenceOf_spec {CompareResult : Int} (hx : Sized x) (hy : Sized y)
    (hsign : x.Signed = 1 ∨ x.Signed = -1) (hone : x.Signed = y.Signed)
    (hcompare : CompareResult = compareNat x.magnitude y.magnitude) (hne : CompareResult ≠ 0) :
    ∃ r, differenceOf CompareResult x y z = some r ∧ Normalized r ∧
      r.magnitude = value (subWords (if CompareResult = 1 then x else y).words
        (if CompareResult = 1 then y else x).words 0) ∧
      r.Signed = if r.magnitude = 0 then 1 else if CompareResult = 1 then x.Signed else -1 := by
  have hbig : Sized (if CompareResult = 1 then x else y) := by split <;> assumption
  have hsmall : Sized (if CompareResult = 1 then y else x) := by split <;> assumption
  obtain ⟨t, ht, htsized, htwords, htsigned, -⟩ := hbig.copy (y := BigInteger_Init)
  obtain ⟨t2, ht2, -, ht2words, -, -⟩ := hsmall.copy (y := BigInteger_Init)
  obtain ⟨R, hR, hRsized, hRwords, hRsigned, -⟩ := htsized.copy (y := z)
  generalize hws : subWords (if CompareResult = 1 then x else y).words
    (if CompareResult = 1 then y else x).words 0 = ws
  have hlen : ws.length = R.ArrayLength := by
    rw [← hws, length_subWords, ← hRsized.length_words, hRwords, htwords]
  have hcases : CompareResult = 1 ∨ CompareResult = -1 := by
    rw [hcompare] at hne ⊢
    rcases Nat.lt_trichotomy x.magnitude y.magnitude with hlt | heq | hgt
    · exact .inr (compareNat_eq_neg.mpr hlt)
    · exact absurd (compareNat_eq_zero.mpr heq) hne
    · exact .inl (compareNat_eq_one.mpr hgt)
  have hwritten : (if (x.Signed = 1 ∧ y.Signed = 1 ∧ CompareResult = -1) ∨
        (x.Signed = -1 ∧ y.Signed = -1 ∧ CompareResult = 1) then
          { R.setWords ws with Signed := -1 } else R.setWords ws) =
      { R.setWords ws with Signed := if CompareResult = 1 then x.Signed else -1 } := by
    have hsame : R.Signed = x.Signed := by
      rw [hRsigned, htsigned]
      split
      · rfl
      · exact hone.symm
    have hself : R.setWords ws = { R.setWords ws with Signed := x.Signed } := by
      rw [← hsame]
      rfl
    rw [← hone]
    obtain hx1 | hx1 := hsign
    · obtain rfl | rfl := hcases
      · rw [if_neg (by simp [hx1]), if_pos rfl]
        exact hself
      · rw [if_pos (.inl ⟨hx1, hx1, rfl⟩), if_neg (by decide)]
    · obtain rfl | rfl := hcases
      · rw [if_pos (.inr ⟨hx1, hx1, rfl⟩), if_pos rfl, hx1]
      · rw [if_neg (by simp [hx1]), if_neg (by decide), ← hx1]
        exact hself
  obtain ⟨r, hr, hnorm, hmag, -, hsigned⟩ :=
    clear_setWords (s := if CompareResult = 1 then x.Signed else -1) hRsized.arrayLength_pos
      hRsized.fits hlen (by split; exacts [hsign, .inr rfl])
  refine ⟨r, ?_, hnorm, hmag, hsigned⟩
  rw [← hr, ← hwritten]
  simp only [differenceOf, ht, ht2, hR, Option.bind_eq_bind, Option.bind_some, hRwords, htwords,
    ht2words, hws]

end Results

def larger (as bs : List UInt32) : List UInt32 := if value as > value bs then as else bs

def smaller (as bs : List UInt32) : List UInt32 := if value as > value bs then bs else as

/-- No borrow of the difference of the magnitudes is misjudged. -/
def SoundDifference (as bs : List UInt32) : Prop := SoundBorrows 0 (larger as bs) (smaller as bs)

instance (as bs : List UInt32) : Decidable (SoundDifference as bs) :=
  inferInstanceAs (Decidable (SoundBorrows 0 _ _))

section Exact

variable {x y z : BIG_INTEGER} {as bs : List UInt32}

theorem soundBorrows_of_eq (h : value as = value bs) : SoundBorrows 0 as bs := by
  intro i r _ _ hlt
  rw [value_take, value_take, h] at hlt
  exact absurd hlt (Nat.lt_irrefl _)

theorem soundDifference_of_eq (h : value as = value bs) : SoundDifference as bs := by
  rw [SoundDifference, larger, smaller, if_neg (by omega), if_neg (by omega)]
  exact soundBorrows_of_eq h.symm

theorem soundDifference_comm : SoundDifference as bs ↔ SoundDifference bs as := by
  by_cases h : value as = value bs
  · exact iff_of_true (soundDifference_of_eq h) (soundDifference_of_eq h.symm)
  · by_cases hgt : value as > value bs
    · rw [SoundDifference, SoundDifference, larger, smaller, larger, smaller, if_pos hgt, if_pos hgt,
        if_neg (by omega), if_neg (by omega)]
    · rw [SoundDifference, SoundDifference, larger, smaller, larger, smaller, if_neg hgt, if_neg hgt,
        if_pos (by omega), if_pos (by omega)]

theorem Normalized.arrayLength_mono (hx : Normalized x) (hy : Normalized y)
    (h : x.magnitude ≤ y.magnitude) : x.ArrayLength ≤ y.ArrayLength := by
  have hlog := Nat.log_mono_right (b := 256) h
  rw [hx.arrayLength, hy.arrayLength, hx.integerLength, hy.integerLength]
  omega

theorem words_difference_iff (hx : Normalized x) (hy : Normalized y)
    (hle : y.magnitude ≤ x.magnitude) :
    value (subWords x.words y.words 0) + y.magnitude = x.magnitude ↔
      SoundBorrows 0 x.words y.words := by
  have hlen : y.words.length ≤ x.words.length := by
    rw [hx.length_words, hy.length_words]
    exact hy.arrayLength_mono hx hle
  exact @value_subWords_iff 0 x.words y.words hlen (by decide) hle

theorem neg_one_ne_one : ¬ (-1 : Int) = 1 := by decide

theorem toInt_of_sign {s : Int} (h : x.Signed = if x.magnitude = 0 then 1 else s) :
    x.toInt = s * x.magnitude := by
  rw [BIG_INTEGER.toInt, h]
  split
  · next hz => rw [hz]; simp
  · rfl

section

variable (hx : Normalized x)
include hx

theorem subOneSign_spec (hy : Normalized y) (hone : x.Signed = y.Signed)
    (hz : z.Signed = 1 ∨ z.Signed = -1) :
    ∃ r, subOneSign x y z = some r ∧ Normalized r ∧
      (r.toInt = x.toInt - y.toInt ↔
        SoundDifference x.words y.words ∧ ¬ (x.Signed = -1 ∧ x.magnitude < y.magnitude)) := by
  have hnull : ¬ (x.pIntegerArray = [] ∨ y.pIntegerArray = []) := fun h =>
    h.elim hx.pIntegerArray_ne hy.pIntegerArray_ne
  rw [subOneSign, if_neg hnull, unsignedCompare_eq hx hy, Option.bind_eq_bind, Option.bind_some]
  rcases Nat.lt_trichotomy x.magnitude y.magnitude with hlt | heq | hgt
  · have hcompare := compareNat_eq_neg.mpr hlt
    obtain ⟨r, hr, hnorm, hmag, hsigned⟩ :=
      differenceOf_spec (z := z) hx.sized hy.sized hx.sign hone rfl (by rw [hcompare]; decide)
    rw [if_neg (by rw [hcompare]; decide)]
    refine ⟨r, hr, hnorm, ?_⟩
    rw [hcompare, if_neg neg_one_ne_one] at hsigned
    rw [hcompare, if_neg neg_one_ne_one, if_neg neg_one_ne_one] at hmag
    have hiff := words_difference_iff hy hx hlt.le
    rw [← hmag] at hiff
    have hngt : ¬ value x.words > value y.words := hlt.not_gt
    rw [SoundDifference, larger, smaller, if_neg hngt, if_neg hngt, ← hiff, toInt_of_sign hsigned,
      BIG_INTEGER.toInt, BIG_INTEGER.toInt, ← hone]
    obtain hx1 | hx1 := hx.sign
    · rw [hx1]
      omega
    · rw [hx1]
      omega
  · have hmag0 := allocSize_one hz
    rw [if_pos (compareNat_eq_zero.mpr heq)]
    refine ⟨_, rfl, hmag0.1, iff_of_true ?_ ⟨soundDifference_of_eq heq, fun h => by omega⟩⟩
    rw [BIG_INTEGER.toInt, BIG_INTEGER.toInt, BIG_INTEGER.toInt, hmag0.2, hone, heq]
    simp
  · have hcompare := compareNat_eq_one.mpr hgt
    obtain ⟨r, hr, hnorm, hmag, hsigned⟩ :=
      differenceOf_spec (z := z) hx.sized hy.sized hx.sign hone rfl (by rw [hcompare]; decide)
    rw [if_neg (by rw [hcompare]; decide)]
    refine ⟨r, hr, hnorm, ?_⟩
    rw [hcompare, if_pos rfl] at hsigned
    rw [hcompare, if_pos rfl, if_pos rfl] at hmag
    have hiff := words_difference_iff hx hy hgt.le
    rw [← hmag] at hiff
    have hgt' : value x.words > value y.words := hgt
    rw [SoundDifference, larger, smaller, if_pos hgt', if_pos hgt', ← hiff, toInt_of_sign hsigned,
      BIG_INTEGER.toInt, BIG_INTEGER.toInt, ← hone]
    obtain hx1 | hx1 := hx.sign
    · rw [hx1]
      omega
    · rw [hx1]
      omega

theorem sum_spec (hy : Normalized y) (hone : x.Signed = y.Signed) :
    ∃ r, sumOf x y z = some r ∧ Normalized r ∧ r.toInt = x.toInt + y.toInt := by
  obtain ⟨r, hr, hnorm, hmag, hsigned⟩ :=
    sumOf_spec (z := z) hx.fits hx.magnitude_lt hy.fits hy.magnitude_lt hx.sign
  refine ⟨r, hr, hnorm, ?_⟩
  rw [toInt_of_sign hsigned, hmag, BIG_INTEGER.toInt, BIG_INTEGER.toInt, ← hone, Nat.cast_add]
  ring

theorem opposite_cases (hy : Normalized y) (h : ¬ x.Signed = y.Signed) :
    (x.Signed = 1 ∧ y.Signed = -1) ∨ (x.Signed = -1 ∧ y.Signed = 1) := by
  obtain hx1 | hx1 := hx.sign
  · obtain hy1 | hy1 := hy.sign
    · exact absurd (hx1.trans hy1.symm) h
    · exact .inl ⟨hx1, hy1⟩
  · obtain hy1 | hy1 := hy.sign
    · exact .inr ⟨hx1, hy1⟩
    · exact absurd (hx1.trans hy1.symm) h

theorem opposite_eq (hy : Normalized y) (h : ¬ x.Signed = y.Signed) : x.Signed = -y.Signed := by
  obtain ⟨hx1, hy1⟩ | ⟨hx1, hy1⟩ := opposite_cases hx hy h
  · rw [hx1, hy1]; rfl
  · rw [hx1, hy1]

theorem opposite_mul (hy : Normalized y) (h : ¬ x.Signed = y.Signed) :
    x.Signed * y.Signed = -1 := by
  rw [opposite_eq hx hy h, neg_mul, hy.signed_mul_self]

end

theorem magnitude_of_words (h : x.words = y.words) : x.magnitude = y.magnitude := congrArg value h

theorem toInt_pos (h : x.Signed = 1) : x.toInt = x.magnitude := by
  rw [BIG_INTEGER.toInt, h, one_mul]

theorem toInt_neg (h : x.Signed = -1) : x.toInt = -x.magnitude := by
  rw [BIG_INTEGER.toInt, h, neg_one_mul]

theorem positive_copy (hx : Normalized x) :
    ∃ t, BigInteger_Copy x BigInteger_Init = some t ∧ Normalized { t with Signed := 1 } ∧
      BIG_INTEGER.words { t with Signed := 1 } = x.words := by
  obtain ⟨t, ht, hnorm, hwords, -, -, -, -⟩ := hx.copy (y := BigInteger_Init)
  exact ⟨t, ht, hnorm.withSign (.inl rfl), hwords⟩

theorem subOneSign_copy (hx : Normalized x) (hy : Normalized y) (hx1 : x.Signed = 1)
    (hz : z.Signed = 1 ∨ z.Signed = -1) :
    ∃ t r, BigInteger_Copy y BigInteger_Init = some t ∧
      subOneSign x { t with Signed := 1 } z = some r ∧ Normalized r ∧
      (r.toInt = x.magnitude - y.magnitude ↔ SoundDifference x.words y.words) := by
  obtain ⟨t, ht, htnorm, htwords⟩ := positive_copy hy
  obtain ⟨r, hr, hnorm, hiff⟩ := subOneSign_spec hx htnorm hx1 hz
  refine ⟨t, r, ht, hr, hnorm, ?_⟩
  rw [toInt_pos hx1, toInt_pos (x := { t with Signed := 1 }) rfl, magnitude_of_words htwords, htwords,
    and_iff_left] at hiff
  · exact hiff
  · rw [hx1]
    exact fun h => absurd h.1 (by decide)

theorem add_spec (hx : Normalized x) (hy : Normalized y) (hz : z.Signed = 1 ∨ z.Signed = -1) :
    ∃ r, BigInteger_Add x y z = some r ∧ Normalized r ∧
      (r.toInt = x.toInt + y.toInt ↔ x.Signed = y.Signed ∨ SoundDifference x.words y.words) := by
  have hnull : ¬ (x.pIntegerArray = [] ∨ y.pIntegerArray = []) := fun h =>
    h.elim hx.pIntegerArray_ne hy.pIntegerArray_ne
  rw [BigInteger_Add, if_neg hnull, unsignedCompare_eq hx hy, Option.bind_eq_bind, Option.bind_some]
  by_cases hone : x.Signed = y.Signed
  · have hprod : x.Signed * y.Signed = 1 := by rw [← hone, hx.signed_mul_self]
    rw [hprod, if_neg (by simp), if_pos (by decide)]
    obtain ⟨r, hr, hnorm, hint⟩ := sum_spec (z := z) hx hy hone
    exact ⟨r, hr, hnorm, iff_of_true hint (.inl hone)⟩
  · have hprod := opposite_mul hx hy hone
    rw [hprod]
    by_cases heq : x.magnitude = y.magnitude
    · have hmag0 := allocSize_one hz
      rw [if_pos ⟨compareNat_eq_zero.mpr heq, by decide⟩]
      refine ⟨_, rfl, hmag0.1, iff_of_true ?_ (.inr (soundDifference_of_eq heq))⟩
      rw [BIG_INTEGER.toInt, BIG_INTEGER.toInt, BIG_INTEGER.toInt, hmag0.2, opposite_eq hx hy hone,
        heq]
      simp
    · rw [if_neg fun h => heq (compareNat_eq_zero.mp h.1), if_neg (by decide)]
      obtain ⟨hx1, hy1⟩ | ⟨hx1, hy1⟩ := opposite_cases hx hy hone
      · obtain ⟨t, r, ht, hr, hnorm, hiff⟩ := subOneSign_copy hx hy hx1 hz
        rw [if_pos ⟨hx1, hy1⟩, ht, Option.bind_eq_bind, Option.bind_some]
        refine ⟨r, hr, hnorm, ?_⟩
        rw [or_iff_right hone, ← hiff, toInt_pos hx1, toInt_neg hy1]
        exact Iff.rfl
      · obtain ⟨t, r, ht, hr, hnorm, hiff⟩ := subOneSign_copy hy hx hy1 hz
        rw [if_neg fun h => absurd (hx1.symm.trans h.1) (by decide), if_pos ⟨hx1, hy1⟩, ht,
          Option.bind_eq_bind, Option.bind_some]
        refine ⟨r, hr, hnorm, ?_⟩
        rw [or_iff_right hone, soundDifference_comm, ← hiff, toInt_neg hx1, toInt_pos hy1]
        omega

/-- A sum with a zero that kept a negative sign: a difference, right when the zero is not the longer
number. -/
theorem add_to_zero (hx : Sized x) (hx0 : x.magnitude = 0) (hx1 : x.Signed = -1) (hy : Sized y)
    (hy1 : y.Signed = 1) (hpos : 0 < y.magnitude) (hle : x.IntegerLength ≤ y.IntegerLength) :
    ∃ r, BigInteger_Add x y z = some r ∧ Normalized r ∧ r.magnitude = y.magnitude ∧ r.Signed = 1 := by
  have hlt : x.magnitude < y.magnitude := by omega
  obtain ⟨t, ht, htsized, htwords, -, htlen⟩ := hx.copy (y := BigInteger_Init)
  have ht1 : Sized { t with Signed := 1 } :=
    ⟨htsized.fits, htsized.integerLength_pos, htsized.arrayLength, htsized.magnitude_lt⟩
  have htmag : BIG_INTEGER.magnitude { t with Signed := 1 } = 0 := by
    rw [← hx0]
    exact magnitude_of_words htwords
  have htzero : value (BIG_INTEGER.words { t with Signed := 1 }) = 0 := htmag
  have hcompare := unsignedCompare_sized hx hy (fun h => by omega) fun _ => hlt
  have hback := unsignedCompare_sized hy ht1 (fun _ => by omega) fun h => by
    have hlong : y.IntegerLength < t.IntegerLength := h
    omega
  rw [compareNat_eq_neg.mpr hlt] at hcompare
  rw [compareNat_eq_one.mpr (by omega)] at hback
  have hone : 1 = compareNat y.magnitude (BIG_INTEGER.magnitude { t with Signed := 1 }) :=
    (compareNat_eq_one.mpr (by omega)).symm
  obtain ⟨r, hr, hnorm, hmag, hsigned⟩ :=
    differenceOf_spec (z := z) hy ht1 (.inl hy1) hy1 hone (by decide)
  rw [if_pos rfl, if_pos rfl] at hmag
  have hwhole : r.magnitude = y.magnitude := by
    have hlen : (BIG_INTEGER.words { t with Signed := 1 }).length ≤ y.words.length := by
      rw [ht1.length_words, hy.length_words, ht1.arrayLength, hy.arrayLength]
      show (t.IntegerLength + 3) / 4 ≤ _
      omega
    have hexact := (@value_subWords_iff 0 _ _ hlen (by decide)
      (htmag.trans_le (Nat.zero_le _))).mpr ?_
    · rw [← hmag, htzero] at hexact
      exact hexact
    · -- no borrow comes out of a zero
      intro i w _ _ hborrow
      have hzero : value ((BIG_INTEGER.words { t with Signed := 1 }).take i) = 0 := by
        rw [value_take, htzero, Nat.zero_mod]
      rw [hzero] at hborrow
      exact absurd hborrow (Nat.not_lt_zero _)
  refine ⟨r, ?_, hnorm, hwhole, ?_⟩
  · have hnull : ¬ (x.pIntegerArray = [] ∨ y.pIntegerArray = []) := fun h =>
      h.elim hx.pIntegerArray_ne hy.pIntegerArray_ne
    have hnull' : ¬ (y.pIntegerArray = [] ∨ t.pIntegerArray = []) := fun h =>
      h.elim hy.pIntegerArray_ne htsized.pIntegerArray_ne
    rw [BigInteger_Add, if_neg hnull, hcompare, Option.bind_eq_bind, Option.bind_some, hx1, hy1,
      if_neg (by decide), if_neg (by decide), if_neg (by decide), if_pos ⟨rfl, rfl⟩, ht,
      Option.bind_eq_bind, Option.bind_some, subOneSign, if_neg hnull', hback, Option.bind_eq_bind,
      Option.bind_some, if_neg (by decide)]
    exact hr
  · rw [hsigned, if_pos rfl, hy1, ite_self]

theorem sub_spec (hx : Normalized x) (hy : Normalized y) (hz : z.Signed = 1 ∨ z.Signed = -1) :
    ∃ r, BigInteger_Sub x y z = some r ∧ Normalized r ∧
      (r.toInt = x.toInt - y.toInt ↔ x.Signed ≠ y.Signed ∨
        (SoundDifference x.words y.words ∧ ¬ (x.Signed = -1 ∧ x.magnitude < y.magnitude))) := by
  have hnull : ¬ (x.pIntegerArray = [] ∨ y.pIntegerArray = []) := fun h =>
    h.elim hx.pIntegerArray_ne hy.pIntegerArray_ne
  rw [BigInteger_Sub]
  by_cases hone : x.Signed = y.Signed
  · have hprod : x.Signed * y.Signed = 1 := by rw [← hone, hx.signed_mul_self]
    obtain ⟨r, hr, hnorm, hiff⟩ := subOneSign_spec hx hy hone hz
    rw [hprod, if_pos (by decide)]
    exact ⟨r, hr, hnorm, by rw [or_iff_right (not_not_intro hone)]; exact hiff⟩
  · rw [opposite_mul hx hy hone, if_neg (by decide), if_neg hnull]
    obtain ⟨hx1, hy1⟩ | ⟨hx1, hy1⟩ := opposite_cases hx hy hone
    · obtain ⟨t, ht, htnorm, htwords⟩ := positive_copy hy
      obtain ⟨r, hr, hnorm, hiff⟩ := add_spec (z := z) hx htnorm hz
      rw [if_pos ⟨hx1, hy1⟩, ht, Option.bind_eq_bind, Option.bind_some]
      refine ⟨r, hr, hnorm, iff_of_true ?_ (.inl hone)⟩
      rw [hiff.mpr (.inl hx1), toInt_pos (x := { t with Signed := 1 }) rfl,
        magnitude_of_words htwords, toInt_neg hy1, sub_neg_eq_add]
    · obtain ⟨t, ht, htnorm, htwords⟩ := positive_copy hx
      obtain ⟨r, hr, hnorm, hiff⟩ := add_spec (z := z) htnorm hy hz
      rw [if_neg fun h => absurd (hx1.symm.trans h.1) (by decide), if_pos ⟨hx1, hy1⟩, ht,
        Option.bind_eq_bind, Option.bind_some, hr, Option.bind_some]
      refine ⟨_, rfl, hnorm.withSign (.inr rfl), iff_of_true ?_ (.inl hone)⟩
      have hsum := hiff.mpr (.inl hy1.symm)
      rw [toInt_pos (x := { t with Signed := 1 }) rfl, magnitude_of_words htwords] at hsum
      have hmag : (r.magnitude : ℤ) = x.magnitude + y.toInt := by
        rw [toInt_pos hy1] at hsum ⊢
        obtain hr1 | hr1 := hnorm.sign
        · rw [← hsum, toInt_pos hr1]
        · rw [toInt_neg hr1] at hsum
          omega
      rw [toInt_neg (x := { r with Signed := -1 }) rfl, toInt_neg hx1,
        show BIG_INTEGER.magnitude { r with Signed := -1 } = r.magnitude from rfl, hmag]
      ring

end Exact

def onObjects (op : BIG_INTEGER → BIG_INTEGER → BIG_INTEGER → Option BIG_INTEGER)
    (memory : Nat → BIG_INTEGER) (pFirstOperand pSecondOperand pBI_Result : Nat) :
    Option (Nat → BIG_INTEGER) :=
  (op (memory pFirstOperand) (memory pSecondOperand) (memory pBI_Result)).map
    (Function.update memory pBI_Result)

/-- The result denotes what it should and is normalized, and the operands are unchanged. -/
def Exact (op : BIG_INTEGER → BIG_INTEGER → BIG_INTEGER → Option BIG_INTEGER) (f : ℤ → ℤ → ℤ)
    (memory : Nat → BIG_INTEGER) (pFirstOperand pSecondOperand pBI_Result : Nat) : Prop :=
  ∃ after, onObjects op memory pFirstOperand pSecondOperand pBI_Result = some after ∧
    Normalized (after pBI_Result) ∧
    (after pBI_Result).toInt = f (memory pFirstOperand).toInt (memory pSecondOperand).toInt ∧
    after pFirstOperand = memory pFirstOperand ∧ after pSecondOperand = memory pSecondOperand

section Memory

variable {memory : Nat → BIG_INTEGER} {p q r : Nat}

theorem exact_iff {op : BIG_INTEGER → BIG_INTEGER → BIG_INTEGER → Option BIG_INTEGER} {f : ℤ → ℤ → ℤ}
    {P : Prop} (hp : p ≠ r) (hq : q ≠ r)
    (h : ∃ x, op (memory p) (memory q) (memory r) = some x ∧ Normalized x ∧
      (x.toInt = f (memory p).toInt (memory q).toInt ↔ P)) : Exact op f memory p q r ↔ P := by
  obtain ⟨x, hx, hnorm, hiff⟩ := h
  rw [Exact, onObjects, hx, ← hiff]
  constructor
  · rintro ⟨after, hafter, -, hint, -⟩
    obtain rfl := Option.some.inj hafter
    rwa [Function.update_self] at hint
  · intro hint
    refine ⟨_, rfl, ?_, ?_, Function.update_of_ne hp _ _, Function.update_of_ne hq _ _⟩
    · rw [Function.update_self]
      exact hnorm
    · rw [Function.update_self]
      exact hint

/-- Sum and difference are exact, whatever the result held, exactly when no borrow of the
difference of the magnitudes is misjudged and it is not two negative numbers that are subtracted,
the first one the smaller. -/
theorem add_sub_exact_iff (hp : p ≠ r) (hq : q ≠ r) (hfirst : Normalized (memory p))
    (hsecond : Normalized (memory q)) (hresult : (memory r).Signed = 1 ∨ (memory r).Signed = -1) :
    Exact BigInteger_Add (· + ·) memory p q r ∧ Exact BigInteger_Sub (· - ·) memory p q r ↔
      SoundDifference (memory p).words (memory q).words ∧
        ¬ ((memory p).Signed = -1 ∧ (memory q).Signed = -1 ∧
          (memory p).magnitude < (memory q).magnitude) := by
  rw [exact_iff hp hq (add_spec hfirst hsecond hresult),
    exact_iff hp hq (sub_spec hfirst hsecond hresult)]
  by_cases hone : (memory p).Signed = (memory q).Signed
  · rw [← hone]
    simp
  · have hopposite : ¬ ((memory p).Signed = -1 ∧ (memory q).Signed = -1 ∧
        (memory p).magnitude < (memory q).magnitude) := fun h => hone (h.1.trans h.2.1.symm)
    simp [hone, hopposite]

end Memory

/-- The operands `2 ^ 64` and `1`, and a result that was initialised. -/
def lostBorrow : Nat → BIG_INTEGER
  | 0 => ⟨[0, 0, 1], 3, 9, 1⟩
  | 1 => ⟨[1], 1, 1, 1⟩
  | _ => BigInteger_Init

theorem lostBorrow_normalized : Normalized (lostBorrow 0) ∧ Normalized (lostBorrow 1) := by
  have hlog : Nat.log 256 (lostBorrow 0).magnitude = 8 :=
    Nat.log_eq_of_pow_le_of_lt_pow (by decide) (by decide)
  have hlog1 : Nat.log 256 (lostBorrow 1).magnitude = 0 :=
    Nat.log_eq_of_pow_le_of_lt_pow (by decide) (by decide)
  exact ⟨⟨by decide, by rw [hlog]; rfl, rfl, .inl rfl⟩, ⟨by decide, by rw [hlog1]; rfl, rfl, .inl rfl⟩⟩

/-- The second word becomes `0xfffffffe`. -/
theorem sub_lostBorrow : ¬ Exact BigInteger_Sub (· - ·) lostBorrow 0 1 2 := by
  rintro ⟨after, hafter, -, hint, -⟩
  have hsub : BigInteger_Sub (lostBorrow 0) (lostBorrow 1) (lostBorrow 2) =
      some ⟨[0xffffffff, 0xfffffffe, 0], 2, 8, 1⟩ := by decide
  rw [onObjects, hsub] at hafter
  obtain rfl := Option.some.inj hafter
  rw [Function.update_self] at hint
  exact absurd hint (by decide)

theorem add_sub_exact_iff_lostBorrow :
    Exact BigInteger_Add (· + ·) lostBorrow 0 1 2 ∧ Exact BigInteger_Sub (· - ·) lostBorrow 0 1 2 ↔
      SoundDifference (lostBorrow 0).words (lostBorrow 1).words ∧
        ¬ ((lostBorrow 0).Signed = -1 ∧ (lostBorrow 1).Signed = -1 ∧
          (lostBorrow 0).magnitude < (lostBorrow 1).magnitude) :=
  add_sub_exact_iff (by decide) (by decide) lostBorrow_normalized.1 lostBorrow_normalized.2 (.inl rfl)

end Ralink.BigInteger
