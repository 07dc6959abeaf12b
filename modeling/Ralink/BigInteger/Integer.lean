import Mathlib.Data.List.DropRight
import Ralink.Lib.Words

/-! The numbers of the key exchange: words that were allocated, how many of them and how many bytes
count, and a sign. An access outside of the words gives no result. -/
namespace Ralink.BigInteger
open Words

/-- No words at all stand for a `pIntegerArray` that is `NULL`; `AllocSize` is four times their
number. The memory that is asked for is granted. -/
structure BIG_INTEGER where
  pIntegerArray : List UInt32
  ArrayLength : Nat
  IntegerLength : Nat
  Signed : Int
  deriving DecidableEq

/-- A pointer to a big integer that is `NULL` is taken for what this makes of it. -/
def BigInteger_Init : BIG_INTEGER where
  pIntegerArray := []
  ArrayLength := 0
  IntegerLength := 0
  Signed := 1

def BigInteger_AllocSize (pBI : BIG_INTEGER) (Length : Nat) : BIG_INTEGER :=
  if Length = 0 then pBI
  else
    let ArrayLength := if Length % 4 = 0 then Length / 4 else Length / 4 + 1
    let pBI :=
      if pBI.pIntegerArray ≠ [] ∧ pBI.pIntegerArray.length < ArrayLength then BigInteger_Init
      else pBI
    let words := if pBI.pIntegerArray = [] then ArrayLength else pBI.pIntegerArray.length
    { pIntegerArray := List.replicate words 0
      ArrayLength := ArrayLength
      IntegerLength := Length
      Signed := pBI.Signed }

/-- The shift takes its count modulo 32, as the processor's does. -/
def UINT32_GETBYTE (value index : UInt32) : UInt8 := (value >>> (index * 8)).toUInt8

/-- The highest byte below `ShiftIndex` that is not zero. -/
def highByte (value : UInt32) : Nat → Nat
  | 0 => 0
  | ShiftIndex + 1 =>
    if UINT32_GETBYTE value (UInt32.ofNat ShiftIndex) = 0 then highByte value ShiftIndex
    else ShiftIndex

def BigInteger_ClearHighBits (pBI : BIG_INTEGER) : Option BIG_INTEGER :=
  if pBI.pIntegerArray = [] then some pBI
  else if pBI.pIntegerArray.length < pBI.ArrayLength then none
  else
    let significant := (pBI.pIntegerArray.take pBI.ArrayLength).rdropWhile (· == 0)
    match significant.getLast? with
    | none => some { pBI with IntegerLength := 1, ArrayLength := 1, Signed := 1 }
    | some top =>
      let BIArrayIndex := significant.length - 1
      some { pBI with
        IntegerLength := BIArrayIndex * 4 + highByte top 4 + 1
        ArrayLength := BIArrayIndex + 1 }

def BigInteger_Copy (pBI_Copied pBI_Result : BIG_INTEGER) : Option BIG_INTEGER :=
  let pBI_Result := BigInteger_AllocSize pBI_Result pBI_Copied.IntegerLength
  if pBI_Copied.pIntegerArray.length < pBI_Result.ArrayLength then none
  else
    some
      { pIntegerArray := pBI_Copied.pIntegerArray.take pBI_Result.ArrayLength ++
          pBI_Result.pIntegerArray.drop pBI_Result.ArrayLength
        ArrayLength := pBI_Copied.ArrayLength
        IntegerLength := pBI_Copied.IntegerLength
        Signed := pBI_Copied.Signed }

def compareDown : List (UInt32 × UInt32) → Int
  | [] => 0
  | (first, second) :: rest =>
    if first > second then 1 else if first < second then -1 else compareDown rest

def BigInteger_UnsignedCompare (pFirstOperand pSecondOperand : BIG_INTEGER) : Option Int :=
  if pFirstOperand.IntegerLength > pSecondOperand.IntegerLength then some 1
  else if pFirstOperand.IntegerLength < pSecondOperand.IntegerLength then some (-1)
  else if pFirstOperand.pIntegerArray.length < pFirstOperand.ArrayLength ∨
      pSecondOperand.pIntegerArray.length < pFirstOperand.ArrayLength then none
  else
    some (compareDown
      ((pFirstOperand.pIntegerArray.take pFirstOperand.ArrayLength).zip
        (pSecondOperand.pIntegerArray.take pFirstOperand.ArrayLength)).reverse)

def BIG_INTEGER.words (x : BIG_INTEGER) : List UInt32 := x.pIntegerArray.take x.ArrayLength

def BIG_INTEGER.magnitude (x : BIG_INTEGER) : ℕ := value x.words

def BIG_INTEGER.toInt (x : BIG_INTEGER) : ℤ := x.Signed * x.magnitude

/-- No leading zeros, and the lengths as `BigInteger_ClearHighBits` sets them. -/
structure Normalized (x : BIG_INTEGER) : Prop where
  fits : x.ArrayLength ≤ x.pIntegerArray.length
  integerLength : x.IntegerLength = Nat.log 256 x.magnitude + 1
  arrayLength : x.ArrayLength = (x.IntegerLength + 3) / 4
  sign : x.Signed = 1 ∨ x.Signed = -1

section Lengths

variable {value : UInt32} {ws : List UInt32} {n : Nat}

theorem toNat_UINT32_GETBYTE (h : n < 4) :
    (UINT32_GETBYTE value (UInt32.ofNat n)).toNat = value.toNat / 256 ^ n % 256 := by
  have hpow : 256 ^ n = 2 ^ (n * 8) := by rw [Nat.mul_comm, Nat.pow_mul]
  have hindex : (UInt32.ofNat n * 8).toNat % 32 = n * 8 := by
    rw [UInt32.toNat_mul, UInt32.toNat_ofNat']
    simp only [UInt32.reduceToNat]
    omega
  rw [UINT32_GETBYTE, UInt32.toNat_toUInt8, UInt32.toNat_shiftRight, hindex,
    Nat.shiftRight_eq_div_pow, hpow]

theorem highByte_spec (hn : n ≤ 4) (hlt : value.toNat < 256 ^ n) (hpos : 0 < value.toNat) :
    256 ^ highByte value n ≤ value.toNat ∧ value.toNat < 256 ^ (highByte value n + 1) := by
  induction n with
  | zero => simp at hlt; omega
  | succ n ih =>
    have hbyte := @toNat_UINT32_GETBYTE value _ (show n < 4 by omega)
    have hquot : value.toNat / 256 ^ n < 256 := by
      rw [Nat.div_lt_iff_lt_mul (by positivity), ← Nat.pow_succ']
      exact hlt
    rw [Nat.mod_eq_of_lt hquot] at hbyte
    unfold highByte
    split
    · next hzero =>
      have hdiv : value.toNat / 256 ^ n = 0 := by rw [← hbyte, hzero]; rfl
      exact ih (by omega) ((Nat.div_eq_zero_iff_lt (by positivity)).mp hdiv)
    · next hne =>
      refine ⟨?_, hlt⟩
      by_contra hge
      apply hne
      rw [← UInt8.toNat_inj, hbyte, Nat.div_eq_of_lt (Nat.lt_of_not_le hge)]
      rfl

theorem log_value_concat {top : UInt32} (h : top ≠ 0) :
    Nat.log 256 (Words.value (ws ++ [top])) = ws.length * 4 + highByte top 4 := by
  have hpos : 0 < top.toNat := Nat.pos_of_ne_zero fun hz => h (UInt32.toNat_inj.mp hz)
  have hlow := value_lt ws
  obtain ⟨hle, hlt⟩ := @highByte_spec top _ (le_refl 4) (toNat_lt top) hpos
  have hvalue : Words.value (ws ++ [top]) = Words.value ws + 256 ^ (4 * ws.length) * top.toNat := by
    rw [value_append, base_pow, value_cons, value_nil, Nat.mul_zero, Nat.add_zero]
  rw [base_pow] at hlow
  apply Nat.log_eq_of_pow_le_of_lt_pow
  · rw [hvalue, Nat.pow_add, Nat.mul_comm ws.length]
    exact (Nat.mul_le_mul_left _ hle).trans (Nat.le_add_left _ _)
  · calc Words.value (ws ++ [top])
        < 256 ^ (4 * ws.length) * (top.toNat + 1) := by rw [hvalue]; linarith
      _ ≤ 256 ^ (4 * ws.length) * 256 ^ (highByte top 4 + 1) := Nat.mul_le_mul_left _ hlt
      _ = 256 ^ (ws.length * 4 + highByte top 4 + 1) := by
          rw [← Nat.pow_add, Nat.mul_comm ws.length, Nat.add_assoc]

end Lengths

section Normalized

variable {x y : BIG_INTEGER}

theorem length_words (h : x.ArrayLength ≤ x.pIntegerArray.length) : x.words.length = x.ArrayLength := by
  rw [BIG_INTEGER.words, List.length_take, Nat.min_eq_left h]

theorem take_words {n : Nat} (h : n ≤ x.ArrayLength) : x.words.take n = x.pIntegerArray.take n := by
  rw [BIG_INTEGER.words, List.take_take, Nat.min_eq_left h]

theorem Normalized.length_words (h : Normalized x) : x.words.length = x.ArrayLength :=
  BigInteger.length_words h.fits

theorem Normalized.integerLength_pos (h : Normalized x) : 0 < x.IntegerLength := by
  rw [h.integerLength]
  exact Nat.succ_pos _

theorem Normalized.magnitude_lt (h : Normalized x) : x.magnitude < 256 ^ x.IntegerLength := by
  rw [h.integerLength]
  exact Nat.lt_pow_succ_log_self (by decide) _

structure Sized (x : BIG_INTEGER) : Prop where
  fits : x.ArrayLength ≤ x.pIntegerArray.length
  integerLength_pos : 0 < x.IntegerLength
  arrayLength : x.ArrayLength = (x.IntegerLength + 3) / 4
  magnitude_lt : x.magnitude < 256 ^ x.IntegerLength

theorem Normalized.sized (h : Normalized x) : Sized x :=
  ⟨h.fits, h.integerLength_pos, h.arrayLength, h.magnitude_lt⟩

theorem Sized.arrayLength_pos (h : Sized x) : 0 < x.ArrayLength := by
  have hpos := h.integerLength_pos
  rw [h.arrayLength]
  omega

theorem Sized.pIntegerArray_ne (h : Sized x) : x.pIntegerArray ≠ [] :=
  List.ne_nil_of_length_pos (h.arrayLength_pos.trans_le h.fits)

theorem Normalized.arrayLength_pos (h : Normalized x) : 0 < x.ArrayLength := h.sized.arrayLength_pos

theorem Normalized.pIntegerArray_ne (h : Normalized x) : x.pIntegerArray ≠ [] :=
  h.sized.pIntegerArray_ne

theorem Sized.length_words (h : Sized x) : x.words.length = x.ArrayLength :=
  BigInteger.length_words h.fits

theorem Normalized.magnitude_lt_of_length (hx : Normalized x) (hy : Normalized y)
    (h : x.IntegerLength < y.IntegerLength) : x.magnitude < y.magnitude := by
  rw [hx.integerLength, hy.integerLength] at h
  by_contra hle
  have hmono := Nat.log_mono_right (b := 256) (Nat.le_of_not_lt hle)
  omega

theorem Normalized.signed_mul_self (h : Normalized x) : x.Signed * x.Signed = 1 := by
  obtain hs | hs := h.sign <;> rw [hs] <;> rfl

theorem Normalized.withSign (h : Normalized x) {s : Int} (hs : s = 1 ∨ s = -1) :
    Normalized { x with Signed := s } :=
  ⟨h.fits, h.integerLength, h.arrayLength, hs⟩

end Normalized

section Allocation

variable {x : BIG_INTEGER} {Length : Nat}

theorem arrayLength_eq (Length : Nat) :
    (if Length % 4 = 0 then Length / 4 else Length / 4 + 1) = (Length + 3) / 4 := by
  split <;> omega

theorem allocSize_eq (h : 0 < Length) :
    BigInteger_AllocSize x Length =
      { pIntegerArray := List.replicate (max x.pIntegerArray.length ((Length + 3) / 4)) 0
        ArrayLength := (Length + 3) / 4
        IntegerLength := Length
        Signed :=
          if x.pIntegerArray ≠ [] ∧ x.pIntegerArray.length < (Length + 3) / 4 then 1
          else x.Signed } := by
  have hne : Length ≠ 0 := by omega
  rw [BigInteger_AllocSize, if_neg hne, arrayLength_eq]
  by_cases hnil : x.pIntegerArray = []
  · simp [hnil]
  · by_cases hshort : x.pIntegerArray.length < (Length + 3) / 4
    · simp [hnil, hshort, Nat.max_eq_right hshort.le, BigInteger_Init]
    · simp [hnil, hshort, Nat.max_eq_left (Nat.le_of_not_lt hshort)]

theorem allocSize_spec (h : 0 < Length) :
    (BigInteger_AllocSize x Length).ArrayLength = (Length + 3) / 4 ∧
      (BigInteger_AllocSize x Length).IntegerLength = Length ∧
      (Length + 3) / 4 ≤ (BigInteger_AllocSize x Length).pIntegerArray.length ∧
      value (BigInteger_AllocSize x Length).pIntegerArray = 0 := by
  rw [allocSize_eq h, List.length_replicate]
  exact ⟨rfl, rfl, Nat.le_max_right _ _, value_zeros _⟩

theorem allocSize_sign (hx : x.Signed = 1 ∨ x.Signed = -1) :
    (BigInteger_AllocSize x Length).Signed = 1 ∨ (BigInteger_AllocSize x Length).Signed = -1 := by
  by_cases h : Length = 0
  · rw [BigInteger_AllocSize, if_pos h]
    exact hx
  · rw [allocSize_eq (Nat.pos_of_ne_zero h)]
    show (if _ then (1 : Int) else x.Signed) = 1 ∨ (if _ then (1 : Int) else x.Signed) = -1
    split
    · exact .inl rfl
    · exact hx

theorem allocSize_one (hx : x.Signed = 1 ∨ x.Signed = -1) :
    Normalized (BigInteger_AllocSize x 1) ∧ (BigInteger_AllocSize x 1).magnitude = 0 := by
  have hmag : (BigInteger_AllocSize x 1).magnitude = 0 := by
    rw [allocSize_eq (by decide), BIG_INTEGER.magnitude, BIG_INTEGER.words, List.take_replicate]
    exact value_zeros _
  refine ⟨⟨?_, ?_, ?_, allocSize_sign hx⟩, hmag⟩
  · rw [allocSize_eq (by decide), List.length_replicate]
    exact Nat.le_max_right _ _
  · rw [hmag, allocSize_eq (by decide)]
    rfl
  · rw [allocSize_eq (by decide)]

end Allocation

section Operations

variable {x y : BIG_INTEGER} {ws : List UInt32}

theorem value_rdropWhile (ws : List UInt32) : value (ws.rdropWhile (· == 0)) = value ws := by
  induction ws using List.reverseRecOn with
  | nil => rfl
  | append_singleton ws w ih =>
    rw [List.rdropWhile_concat]
    split
    · next h =>
      rw [eq_of_beq h, ih]
      exact (value_append_zeros ws 1).symm
    · rfl

def clearedLengths (ws : List UInt32) : Nat × Nat :=
  match (ws.rdropWhile (· == 0)).getLast? with
  | none => (1, 1)
  | some top =>
    let BIArrayIndex := (ws.rdropWhile (· == 0)).length - 1
    (BIArrayIndex * 4 + highByte top 4 + 1, BIArrayIndex + 1)

theorem highByte_lt (value : UInt32) {n : Nat} (hn : 0 < n) : highByte value n < n := by
  induction n with
  | zero => exact absurd hn (by decide)
  | succ n ih =>
    unfold highByte
    split
    · cases n with
      | zero => exact Nat.one_pos
      | succ n => exact (ih (Nat.succ_pos n)).trans (Nat.lt_succ_self _)
    · exact Nat.lt_succ_self n

theorem clearedLengths_eq (ws : List UInt32) :
    (clearedLengths ws).1 = Nat.log 256 (value ws) + 1 ∧
      (clearedLengths ws).2 = ((clearedLengths ws).1 + 3) / 4 := by
  have hvalue := value_rdropWhile ws
  have hlast := List.rdropWhile_last_not (· == (0 : UInt32)) ws
  obtain hnil | ⟨front, top, hconcat⟩ := List.eq_nil_or_concat (ws.rdropWhile (· == 0))
  · rw [hnil] at hvalue
    rw [clearedLengths, hnil, ← hvalue]
    exact ⟨rfl, rfl⟩
  · rw [List.concat_eq_append] at hconcat
    have htop : top ≠ 0 := by
      have hnot := hlast (by rw [hconcat]; exact List.concat_ne_nil _ _)
      simpa [hconcat] using hnot
    have hbyte := highByte_lt top (show 0 < 4 by decide)
    have heq : clearedLengths ws = (front.length * 4 + highByte top 4 + 1, front.length + 1) := by
      rw [clearedLengths, hconcat, List.getLast?_concat, List.length_append]
      rfl
    rw [heq, ← hvalue, hconcat, log_value_concat htop]
    exact ⟨rfl, by show front.length + 1 = _; omega⟩

theorem getLast?_rdropWhile_eq_none : (ws.rdropWhile (· == 0)).getLast? = none ↔ value ws = 0 := by
  rw [List.getLast?_eq_none_iff, List.rdropWhile_eq_nil_iff, value_eq_zero_iff]
  simp

theorem clearHighBits_eq (hne : x.pIntegerArray ≠ [])
    (hfits : x.ArrayLength ≤ x.pIntegerArray.length) :
    BigInteger_ClearHighBits x =
      some
        { pIntegerArray := x.pIntegerArray
          ArrayLength := (clearedLengths x.words).2
          IntegerLength := (clearedLengths x.words).1
          Signed := if x.magnitude = 0 then 1 else x.Signed } := by
  rw [BigInteger_ClearHighBits, if_neg hne, if_neg (by omega), BIG_INTEGER.magnitude]
  have hnone := @getLast?_rdropWhile_eq_none x.words
  rw [clearedLengths]
  change (match (x.words.rdropWhile (· == 0)).getLast? with
    | none => _
    | some top => _) = _
  split
  · next heq => rw [if_pos (hnone.mp heq)]
  · next top heq =>
    have hpos : value x.words ≠ 0 := fun h => by rw [hnone.mpr h] at heq; cases heq
    rw [if_neg hpos]
    rfl

theorem clearHighBits_spec (hpos : 0 < x.ArrayLength)
    (hfits : x.ArrayLength ≤ x.pIntegerArray.length) (hsign : x.Signed = 1 ∨ x.Signed = -1) :
    ∃ y, BigInteger_ClearHighBits x = some y ∧ Normalized y ∧ y.magnitude = x.magnitude ∧
      y.pIntegerArray = x.pIntegerArray ∧
      y.Signed = if x.magnitude = 0 then 1 else x.Signed := by
  obtain ⟨hinteger, harray⟩ := clearedLengths_eq x.words
  have hne : x.pIntegerArray ≠ [] := List.ne_nil_of_length_pos (by omega)
  have hlen := length_words hfits
  have htop : (clearedLengths x.words).2 ≤ x.ArrayLength := by
    by_cases hz : value x.words = 0
    · rw [harray, hinteger, hz]
      exact hpos
    · have hlt := value_lt x.words
      rw [base_pow] at hlt
      have hlog := Nat.log_lt_of_lt_pow hz hlt
      omega
  have hlt : x.magnitude < (2 ^ 32) ^ (clearedLengths x.words).2 := by
    rw [base_pow]
    refine (Nat.lt_pow_succ_log_self (by decide : 1 < 256) _).trans_le ?_
    apply Nat.pow_le_pow_right (by decide)
    rw [harray, hinteger]
    show Nat.log 256 (value x.words) + 1 ≤ _
    omega
  have hmag : value (x.pIntegerArray.take (clearedLengths x.words).2) = x.magnitude := by
    rw [← take_words htop, value_take]
    exact Nat.mod_eq_of_lt hlt
  refine ⟨_, clearHighBits_eq hne hfits, ⟨htop.trans hfits, ?_, harray, ?_⟩, hmag, rfl, rfl⟩
  · show (clearedLengths x.words).1 = Nat.log 256 (value (x.pIntegerArray.take _)) + 1
    rw [hmag]
    exact hinteger
  · show (if x.magnitude = 0 then (1 : Int) else x.Signed) = 1 ∨
      (if x.magnitude = 0 then (1 : Int) else x.Signed) = -1
    split
    · exact .inl rfl
    · exact hsign

theorem copy_eq (hpos : 0 < x.IntegerLength) (hlen : x.ArrayLength = (x.IntegerLength + 3) / 4)
    (hfits : x.ArrayLength ≤ x.pIntegerArray.length) :
    ∃ z, BigInteger_Copy x y = some z ∧ z.words = x.words ∧ z.Signed = x.Signed ∧
      z.IntegerLength = x.IntegerLength ∧ z.ArrayLength = x.ArrayLength ∧
      z.pIntegerArray.length = max y.pIntegerArray.length x.ArrayLength := by
  have hwords : x.words.length = x.ArrayLength := length_words hfits
  rw [BigInteger_Copy, allocSize_eq hpos, ← hlen, if_neg (Nat.not_lt_of_le hfits),
    List.drop_replicate]
  refine ⟨_, rfl, ?_, rfl, rfl, rfl, ?_⟩
  · show (x.words ++ _).take x.ArrayLength = x.words
    rw [← hwords, List.take_left]
  · show (x.words ++ List.replicate (max y.pIntegerArray.length x.ArrayLength - x.ArrayLength) 0).length = _
    rw [List.length_append, hwords, List.length_replicate]
    omega

theorem Sized.copy (h : Sized x) :
    ∃ z, BigInteger_Copy x y = some z ∧ Sized z ∧ z.words = x.words ∧ z.Signed = x.Signed ∧
      z.IntegerLength = x.IntegerLength := by
  obtain ⟨z, hz, hwords, hsigned, hint, hlen, harray⟩ :=
    copy_eq (y := y) h.integerLength_pos h.arrayLength h.fits
  refine ⟨z, hz, ⟨?_, ?_, ?_, ?_⟩, hwords, hsigned, hint⟩
  · rw [hlen, harray]
    exact Nat.le_max_right _ _
  · rw [hint]
    exact h.integerLength_pos
  · rw [hlen, hint]
    exact h.arrayLength
  · rw [BIG_INTEGER.magnitude, hwords, hint]
    exact h.magnitude_lt

theorem Normalized.copy (h : Normalized x) :
    ∃ z, BigInteger_Copy x y = some z ∧ Normalized z ∧ z.words = x.words ∧ z.Signed = x.Signed ∧
      z.IntegerLength = x.IntegerLength ∧ z.ArrayLength = x.ArrayLength ∧
      z.pIntegerArray.length = max y.pIntegerArray.length x.ArrayLength := by
  obtain ⟨z, hz, hwords, hsigned, hint, hlen, harray⟩ :=
    copy_eq (y := y) h.integerLength_pos h.arrayLength h.fits
  refine ⟨z, hz, ⟨?_, ?_, ?_, ?_⟩, hwords, hsigned, hint, hlen, harray⟩
  · rw [hlen, harray]
    exact Nat.le_max_right _ _
  · rw [BIG_INTEGER.magnitude, hwords, hint]
    exact h.integerLength
  · rw [hlen, hint]
    exact h.arrayLength
  · rw [hsigned]
    exact h.sign

def compareNat (m n : ℕ) : Int := if m > n then 1 else if m < n then -1 else 0

theorem compareNat_eq_zero {m n : ℕ} : compareNat m n = 0 ↔ m = n := by
  unfold compareNat
  split
  · omega
  · split <;> omega

theorem compareNat_eq_one {m n : ℕ} : compareNat m n = 1 ↔ n < m := by
  unfold compareNat
  split
  · omega
  · split <;> omega

theorem compareNat_eq_neg {m n : ℕ} : compareNat m n = -1 ↔ m < n := by
  unfold compareNat
  split
  · omega
  · split <;> omega

theorem compareDown_concat (ps : List (UInt32 × UInt32)) (a b : UInt32) :
    compareDown (ps ++ [(a, b)]) =
      if compareDown ps = 0 then compareNat a.toNat b.toNat else compareDown ps := by
  induction ps with
  | nil =>
    simp only [List.nil_append, compareDown, compareNat, gt_iff_lt, UInt32.lt_iff_toNat_lt]
    rfl
  | cons p ps ih =>
    rw [List.cons_append, compareDown, compareDown, ih]
    split
    · rfl
    · split <;> rfl

theorem compareDown_zip (as bs : List UInt32) (hlen : as.length = bs.length) :
    compareDown (as.zip bs).reverse = compareNat (value as) (value bs) := by
  induction as generalizing bs with
  | nil =>
    cases bs with
    | nil => rfl
    | cons b bs => cases hlen
  | cons a as ih =>
    cases bs with
    | nil => cases hlen
    | cons b bs =>
      have ha := toNat_lt a
      have hb := toNat_lt b
      rw [List.zip_cons_cons, List.reverse_cons, compareDown_concat, ih bs (by simpa using hlen)]
      simp only [compareNat_eq_zero, value_cons]
      unfold compareNat
      split_ifs <;> omega

theorem unsignedCompare_sized (hx : Sized x) (hy : Sized y)
    (hlong : y.IntegerLength < x.IntegerLength → y.magnitude < x.magnitude)
    (hshort : x.IntegerLength < y.IntegerLength → x.magnitude < y.magnitude) :
    BigInteger_UnsignedCompare x y = some (compareNat x.magnitude y.magnitude) := by
  have hx_fits := hx.fits
  have hy_fits := hy.fits
  unfold BigInteger_UnsignedCompare
  split
  · next h => rw [compareNat_eq_one.mpr (hlong h)]
  · split
    · next h => rw [compareNat_eq_neg.mpr (hshort h)]
    · have hlen : x.ArrayLength = y.ArrayLength := by
        rw [hx.arrayLength, hy.arrayLength]
        omega
      rw [if_neg (by omega)]
      have hdown := compareDown_zip x.words y.words (by rw [hx.length_words, hy.length_words, hlen])
      rw [BIG_INTEGER.words, BIG_INTEGER.words, ← hlen] at hdown
      rw [hdown]
      simp only [BIG_INTEGER.magnitude, BIG_INTEGER.words, hlen]

theorem unsignedCompare_eq (hx : Normalized x) (hy : Normalized y) :
    BigInteger_UnsignedCompare x y = some (compareNat x.magnitude y.magnitude) :=
  unsignedCompare_sized hx.sized hy.sized (hy.magnitude_lt_of_length hx)
    (hx.magnitude_lt_of_length hy)

theorem unsignedCompare_isSome (hx : Sized x) (hy : Sized y) :
    ∃ c, BigInteger_UnsignedCompare x y = some c := by
  have hx_fits := hx.fits
  have hy_fits := hy.fits
  have hx_len := hx.arrayLength
  have hy_len := hy.arrayLength
  unfold BigInteger_UnsignedCompare
  split
  · exact ⟨_, rfl⟩
  · split
    · exact ⟨_, rfl⟩
    · rw [if_neg]
      · exact ⟨_, rfl⟩
      · rw [hy_len] at hy_fits
        omega

end Operations

end Ralink.BigInteger
