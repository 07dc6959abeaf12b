import Ralink.BigInteger.Mul

/-! Numbers from bytes, the highest first, and single bytes of a number. The byte that is read is
not the one that is asked for: within each word the four are rotated by one place. -/
namespace Ralink.BigInteger
open Words

/-- `BIArrayIndex` is one less than the number of words that are still to be written. -/
def fillWords : List UInt8 → UInt32 → Nat → Nat → List UInt32 → Option (List UInt32)
  | [], _, _, _, ws => some ws
  | byte :: rest, Number, ShiftIndex, remaining, ws =>
    let Number := (Number <<< 8) ||| byte.toUInt32
    if ShiftIndex - 1 = 0 then
      if remaining = 0 ∨ ws.length < remaining then none
      else fillWords rest 0 4 (remaining - 1) (ws.set (remaining - 1) Number)
    else fillWords rest Number (ShiftIndex - 1) remaining ws

def BigInteger_Bin2BI (pValue : List UInt8) (pBI : BIG_INTEGER) : Option BIG_INTEGER :=
  let pBI := BigInteger_AllocSize pBI pValue.length
  let ShiftIndex := if pValue.length % 4 = 0 then 4 else pValue.length % 4
  (fillWords pValue 0 ShiftIndex pBI.ArrayLength pBI.pIntegerArray).map fun ws =>
    { pBI with pIntegerArray := ws }

def bigEndian : List UInt8 → ℕ
  | [] => 0
  | byte :: rest => byte.toNat * 256 ^ rest.length + bigEndian rest

section Bin2BI

variable {bs : List UInt8} {ws : List UInt32} {x : BIG_INTEGER}

theorem bigEndian_lt (bs : List UInt8) : bigEndian bs < 256 ^ bs.length := by
  induction bs with
  | nil => exact Nat.one_pos
  | cons b bs ih =>
    have hb := UInt8.toNat_lt b
    have hmul : b.toNat * 256 ^ bs.length ≤ 255 * 256 ^ bs.length := Nat.mul_le_mul_right _ (by omega)
    rw [bigEndian, List.length_cons, Nat.pow_succ]
    omega

theorem toNat_shiftIn {Number : UInt32} {byte : UInt8} (h : Number.toNat < 256 ^ 3) :
    ((Number <<< 8) ||| byte.toUInt32).toNat = Number.toNat * 256 + byte.toNat := by
  have hb := UInt8.toNat_lt byte
  rw [UInt32.toNat_or, UInt32.toNat_shiftLeft, UInt8.toNat_toUInt32]
  show Number.toNat <<< 8 % 2 ^ 32 ||| byte.toNat = _
  rw [Nat.shiftLeft_eq, Nat.mod_eq_of_lt (by omega), Nat.mul_comm Number.toNat,
    ← Nat.two_pow_add_eq_or_of_lt hb]

theorem fillWords_spec {Number : UInt32} {s c : Nat} (hs : 1 ≤ s) (hs4 : s ≤ 4)
    (hlen : bs.length + 4 = 4 * c + s) (hc : c ≤ ws.length) (hN : Number.toNat < 256 ^ (4 - s)) :
    ∃ out, fillWords bs Number s c ws = some out ∧ out.length = ws.length ∧
      out.drop c = ws.drop c ∧
      value (out.take c) = Number.toNat * 256 ^ bs.length + bigEndian bs := by
  induction bs generalizing Number s c ws with
  | nil =>
    simp only [List.length_nil] at hlen
    obtain rfl : c = 0 := by omega
    obtain rfl : s = 4 := by omega
    have hzero : Number.toNat = 0 := by simpa using hN
    exact ⟨ws, rfl, rfl, rfl, by rw [hzero]; rfl⟩
  | cons b bs ih =>
    have hb := UInt8.toNat_lt b
    have hpow : 256 ^ (4 - s) ≤ 256 ^ 3 := Nat.pow_le_pow_right (by decide) (by omega)
    have hshift := @toNat_shiftIn Number b (hN.trans_le hpow)
    rw [List.length_cons] at hlen
    rw [fillWords]
    by_cases hone : s - 1 = 0
    · obtain ⟨i, rfl⟩ : ∃ i, c = i + 1 := ⟨c - 1, by omega⟩
      obtain ⟨out, hout, hlength, hdrop, htake⟩ :=
        @ih (ws.set i ((Number <<< 8) ||| b.toUInt32)) 0 4 i (by decide) (le_refl 4) (by omega)
          (by rw [List.length_set]; omega) (by decide)
      rw [List.length_set] at hlength
      have hat : out[i]? = some ((Number <<< 8) ||| b.toUInt32) := by
        have hhead := congrArg List.head? hdrop
        rw [List.head?_drop, List.head?_drop, List.getElem?_set_self (by omega)] at hhead
        exact hhead
      have hi : i < out.length := by omega
      have hget : out[i] = (Number <<< 8) ||| b.toUInt32 := by
        rw [List.getElem?_eq_getElem hi] at hat
        exact Option.some.inj hat
      have hmul : 4 * i = bs.length := by omega
      refine ⟨out, ?_, hlength, ?_, ?_⟩
      · rw [if_pos hone, if_neg (by omega)]
        exact hout
      · have htail := congrArg List.tail hdrop
        rw [List.tail_drop, List.tail_drop] at htail
        rw [htail, List.drop_set_of_lt (Nat.lt_succ_self i)]
      · rw [List.take_succ_eq_append_getElem hi, value_append, htake, List.length_take,
          Nat.min_eq_left hi.le, base_pow, hmul, hget, value_cons, value_nil, hshift, bigEndian]
        simp only [UInt32.toNat_zero, List.length_cons, pow_succ]
        ring
    · have hN' : ((Number <<< 8) ||| b.toUInt32).toNat < 256 ^ (4 - (s - 1)) := by
        rw [hshift, show 4 - (s - 1) = 4 - s + 1 by omega, pow_succ]
        omega
      obtain ⟨out, hout, hlength, hdrop, htake⟩ :=
        @ih ws _ (s - 1) c (by omega) (by omega) (by omega) hc hN'
      refine ⟨out, ?_, hlength, hdrop, ?_⟩
      · rw [if_neg hone]
        exact hout
      · rw [htake, hshift, bigEndian, List.length_cons, pow_succ]
        ring

theorem bin2BI_spec (hne : bs ≠ []) :
    ∃ r, BigInteger_Bin2BI bs x = some r ∧ Sized r ∧ r.IntegerLength = bs.length ∧
      r.magnitude = bigEndian bs ∧ r.Signed = (BigInteger_AllocSize x bs.length).Signed ∧
      r.pIntegerArray.length = max x.pIntegerArray.length ((bs.length + 3) / 4) := by
  have hpos : 0 < bs.length := List.length_pos_of_ne_nil hne
  have halloc := allocSize_eq (x := x) hpos
  rw [BigInteger_Bin2BI]
  generalize BigInteger_AllocSize x bs.length = R at halloc ⊢
  have hfits : R.ArrayLength ≤ R.pIntegerArray.length := by
    rw [halloc, List.length_replicate]
    exact Nat.le_max_right _ _
  have harray : R.ArrayLength = (bs.length + 3) / 4 := by rw [halloc]
  have hinteger : R.IntegerLength = bs.length := by rw [halloc]
  have hwords : R.pIntegerArray.length = max x.pIntegerArray.length ((bs.length + 3) / 4) := by
    rw [halloc, List.length_replicate]
  generalize hs : (if bs.length % 4 = 0 then 4 else bs.length % 4) = s
  have hs4 : 1 ≤ s ∧ s ≤ 4 ∧ bs.length + 4 = 4 * R.ArrayLength + s := by
    rw [harray]
    split at hs <;> omega
  obtain ⟨out, hout, hlength, -, hvalue⟩ :=
    @fillWords_spec bs R.pIntegerArray 0 s R.ArrayLength hs4.1 hs4.2.1 hs4.2.2 hfits (by positivity)
  have hmag : value (out.take R.ArrayLength) = bigEndian bs := by
    rw [hvalue, UInt32.toNat_zero, Nat.zero_mul, Nat.zero_add]
  refine ⟨_, congrArg (Option.map _) hout, ⟨?_, ?_, ?_, ?_⟩, hinteger, hmag, rfl, ?_⟩
  · show R.ArrayLength ≤ out.length
    omega
  · show 0 < R.IntegerLength
    omega
  · show R.ArrayLength = (R.IntegerLength + 3) / 4
    rw [harray, hinteger]
  · show value (out.take R.ArrayLength) < 256 ^ R.IntegerLength
    rw [hmag, hinteger]
    exact bigEndian_lt bs
  · rw [← hwords]
    exact hlength

end Bin2BI

/-- A word of the array. Of what lies outside of it only the word in front is known, when that can
be read at all. -/
def fetchWord (front : Option UInt32) (ws : List UInt32) : Int → Option UInt32
  | .ofNat index => ws[index]?
  | .negSucc 0 => front
  | .negSucc _ => none

/-- The next word is fetched with the last byte of each one, also of the lowest. -/
def emptyWords (front : Option UInt32) :
    Nat → UInt32 → Nat → Int → List UInt32 → Option (List UInt8)
  | 0, _, _, _, _ => some []
  | left + 1, Number, ShiftIndex, BIArrayIndex, ws =>
    let byte := UINT32_GETBYTE Number (UInt32.ofNat (ShiftIndex - 1))
    if ShiftIndex - 1 = 0 then
      (fetchWord front ws (BIArrayIndex - 1)).bind fun Number =>
        (emptyWords front left Number 4 (BIArrayIndex - 1) ws).map (byte :: ·)
    else (emptyWords front left Number (ShiftIndex - 1) BIArrayIndex ws).map (byte :: ·)

def BigInteger_BI2Bin (front : Option UInt32) (pBI : BIG_INTEGER) (pValue : List UInt8)
    (Length : Nat) : Option (List UInt8 × Nat) :=
  if Length < pBI.IntegerLength then some (pValue, 0)
  else if pBI.pIntegerArray = [] then some (pValue, 0)
  else do
    let pBI ← BigInteger_ClearHighBits pBI
    let ShiftIndex := if pBI.IntegerLength % 4 = 0 then 4 else pBI.IntegerLength % 4
    let BIArrayIndex : Int := pBI.ArrayLength - 1
    let Number ← fetchWord front pBI.pIntegerArray BIArrayIndex
    let bytes ←
      emptyWords front pBI.IntegerLength Number ShiftIndex BIArrayIndex pBI.pIntegerArray
    if pValue.length < pBI.IntegerLength then none
    else some (bytes ++ pValue.drop pBI.IntegerLength, pBI.IntegerLength)

/-- For the first byte of a word the index of the byte wraps, and its highest one is read. -/
def BigInteger_GetByteValue (pBI : BIG_INTEGER) (Index : Nat) : Option UInt8 :=
  let Array := if Index > 0 then (Index - 1) / 4 else 0
  let Shift := if Index > 0 then (Index - 1) % 4 else 0
  if Array > pBI.ArrayLength ∨ Index > pBI.IntegerLength then some 0
  else (pBI.pIntegerArray[Array]?).map fun word => UINT32_GETBYTE word (UInt32.ofNat Shift - 1)

def byteLength (X : ℕ) : ℕ := Nat.log 256 X + 1

/-- The words of a number without leading zeros. -/
def numberWords (X : ℕ) : List UInt32 := toWords ((byteLength X + 3) / 4) X

/-- The byte that is read of a number when its byte `Index`, counted from one, is asked for. -/
def byteRead (X Index : ℕ) : ℕ :=
  if byteLength X < Index then 0
  else X / (2 ^ 32) ^ ((Index - 1) / 4) % 2 ^ 32 / 256 ^ ((Index - 1 + 3) % 4) % 256

section Bytes

variable {x : BIG_INTEGER}

theorem Normalized.words_eq (hx : Normalized x) : x.words = numberWords x.magnitude := by
  have hwords := toWords_value x.words
  rw [hx.length_words, hx.arrayLength, hx.integerLength] at hwords
  exact hwords.symm

theorem value_getElem {ws : List UInt32} {i : Nat} (h : i < ws.length) :
    ws[i].toNat = value ws / (2 ^ 32) ^ i % 2 ^ 32 := by
  have hw := toNat_lt ws[i]
  rw [← value_drop, ← List.getElem_cons_drop (h := h), value_cons]
  omega

theorem toNat_getByte_rotated (word : UInt32) (n : Nat) :
    (UINT32_GETBYTE word (UInt32.ofNat (n % 4) - 1)).toNat =
      word.toNat / 256 ^ ((n + 3) % 4) % 256 := by
  have hmod : (n + 3) % 4 = (n % 4 + 3) % 4 := by omega
  have hlt : n % 4 < 4 := Nat.mod_lt _ (by decide)
  rw [hmod]
  generalize n % 4 = k at hlt
  interval_cases k
  · -- the count of the shift is `0xfffffff8`
    have hwrap : UINT32_GETBYTE word (UInt32.ofNat 0 - 1) = UINT32_GETBYTE word (UInt32.ofNat 3) := by
      apply UInt8.toNat_inj.mp
      simp only [UINT32_GETBYTE, UInt32.toNat_toUInt8, UInt32.toNat_shiftRight]
      rfl
    rw [hwrap]
    exact toNat_UINT32_GETBYTE (by decide)
  · exact toNat_UINT32_GETBYTE (n := 0) (by decide)
  · exact toNat_UINT32_GETBYTE (n := 1) (by decide)
  · exact toNat_UINT32_GETBYTE (n := 2) (by decide)

theorem getByteValue_eq (hx : Normalized x) (Index : Nat) :
    ∃ byte, BigInteger_GetByteValue x Index = some byte ∧ byte.toNat = byteRead x.magnitude Index := by
  have hfits := hx.fits
  have hlen := hx.arrayLength
  have hpos := hx.integerLength_pos
  have hwords := hx.length_words
  have harray : (if Index > 0 then (Index - 1) / 4 else 0) = (Index - 1) / 4 := by
    split <;> omega
  have hshift : (if Index > 0 then (Index - 1) % 4 else 0) = (Index - 1) % 4 := by
    split <;> omega
  rw [BigInteger_GetByteValue, harray, hshift, byteRead, byteLength, ← hx.integerLength]
  by_cases hlong : x.IntegerLength < Index
  · rw [if_pos (.inr hlong), if_pos hlong]
    exact ⟨0, rfl, rfl⟩
  · have hat : (Index - 1) / 4 < x.words.length := by omega
    have hsame : x.pIntegerArray[(Index - 1) / 4]? = some x.words[(Index - 1) / 4] := by
      rw [← List.getElem?_eq_getElem hat, BIG_INTEGER.words, List.getElem?_take_of_lt (by omega)]
    simp only [hsame, Option.map_some]
    rw [if_neg (by omega), if_neg hlong]
    refine ⟨_, rfl, ?_⟩
    rw [toNat_getByte_rotated, value_getElem hat, BIG_INTEGER.magnitude]

end Bytes

end Ralink.BigInteger

/-! Long division in the base 256. The digit is searched for upwards from an estimate, the one
before the first product that is not below the remainder is taken. -/
namespace Ralink.BigInteger
open Words

def BIG_INTEGER.store (x : BIG_INTEGER) (index : Nat) (word : UInt32) : Option BIG_INTEGER :=
  if index < x.pIntegerArray.length then
    some { x with pIntegerArray := x.pIntegerArray.set index word }
  else none

def BIG_INTEGER.storeIf (c : Prop) [Decidable c] (x : BIG_INTEGER) (index : Nat) (word : UInt32) :
    Option BIG_INTEGER :=
  if c then x.store index word else some x

structure Division where
  pBI_Result : BIG_INTEGER
  pBI_Remainder : BIG_INTEGER
  pTempBI : BIG_INTEGER
  pTempBI2 : BIG_INTEGER
  pMulBI : BIG_INTEGER

def digitWord (MulIndex ShiftIndex : Nat) : UInt32 :=
  UInt32.ofNat MulIndex <<< UInt32.ofNat (8 * ShiftIndex)

/-- The digit whose product was not below the remainder, or the one before it when the product was
above. -/
def stepBack (MulIndex ArrayIndex ShiftIndex : Nat) (CompareResult : Int) (pMulBI : BIG_INTEGER) :
    Option BIG_INTEGER :=
  if CompareResult ≠ 0 then
    (pMulBI.storeIf (MulIndex = 0x100 ∧ ShiftIndex = 3) (ArrayIndex + 1) 0).bind fun pMulBI =>
      pMulBI.store ArrayIndex (digitWord (MulIndex - 1) ShiftIndex)
  else some pMulBI

/-- The product goes from the remainder to the result. -/
def takeDigit (pSecondOperand : BIG_INTEGER) (d : Division) : Option Division := do
  let pTempBI ← BigInteger_Mul pSecondOperand d.pMulBI d.pTempBI
  let pTempBI2 ← BigInteger_Sub d.pBI_Remainder pTempBI d.pTempBI2
  let pBI_Remainder ← BigInteger_Copy pTempBI2 d.pBI_Remainder
  let pTempBI2 ← BigInteger_Add d.pBI_Result d.pMulBI pTempBI2
  let pBI_Result ← BigInteger_Copy pTempBI2 d.pBI_Result
  some ⟨pBI_Result, pBI_Remainder, pTempBI, pTempBI2, d.pMulBI⟩

/-- The loop over `MulIndex`. -/
def searchDigit (pSecondOperand : BIG_INTEGER) (ShiftIndex : Nat) :
    List Nat → Nat → Division → Option Division
  | [], _, d => some d
  | MulIndex :: rest, ArrayIndex, d => do
      let pMulBI ← d.pMulBI.storeIf (MulIndex > 0xff ∧ ShiftIndex = 3) (ArrayIndex + 1) 1
      let pMulBI ← pMulBI.store ArrayIndex (digitWord MulIndex ShiftIndex)
      let pTempBI ← BigInteger_Mul pSecondOperand pMulBI d.pTempBI
      let CompareResult ← BigInteger_UnsignedCompare d.pBI_Remainder pTempBI
      if CompareResult < 1 then
        if MulIndex > 1 then
          (stepBack MulIndex ArrayIndex ShiftIndex CompareResult pMulBI).bind fun pMulBI =>
            takeDigit pSecondOperand { d with pTempBI := pTempBI, pMulBI := pMulBI }
        else some { d with pTempBI := pTempBI, pMulBI := pMulBI }
      else
        (pMulBI.storeIf (MulIndex ≥ 0x100 ∧ ShiftIndex = 3) ArrayIndex 0).bind fun pMulBI =>
          let ArrayIndex := if MulIndex ≥ 0x100 ∧ ShiftIndex = 3 then ArrayIndex + 1 else ArrayIndex
          (pMulBI.store ArrayIndex 0).bind fun pMulBI =>
            searchDigit pSecondOperand ShiftIndex rest ArrayIndex
              { d with pTempBI := pTempBI, pMulBI := pMulBI }

/-- The search from an estimate on; a division by zero gives no result. -/
def estimateDigit (pSecondOperand : BIG_INTEGER) (SecondHighByte : UInt8) (Index MulStart : Nat)
    (d : Division) : Option Division :=
  let ArrayIndex := if Index > 0 then (Index - 1) / 4 else 0
  let ShiftIndex := (if Index % 4 = 0 then 4 else Index % 4) - 1
  if MulStart < SecondHighByte.toNat then some d
  else if SecondHighByte = 0 then none
  else
    let MulStart := MulStart / SecondHighByte.toNat
    let MulStart := if MulStart > 0xff then 0x100 else MulStart
    searchDigit pSecondOperand ShiftIndex (List.range' MulStart (0x102 - MulStart)) ArrayIndex d

/-- One turn of the loop over `Index`. The difference of the lengths is unsigned, so that it is
large when it is below zero. -/
def divideDigit (pFirstOperand pSecondOperand : BIG_INTEGER) (SecondHighByte : UInt8)
    (ComputeSize Index : Nat) (d : Division) : Option Division :=
  if d.pBI_Remainder.IntegerLength ≤ pSecondOperand.IntegerLength + Index ∧
      pSecondOperand.IntegerLength + Index - d.pBI_Remainder.IntegerLength ≤ 1 then do
    let place := pFirstOperand.IntegerLength + Index - ComputeSize
    let high ← BigInteger_GetByteValue d.pBI_Remainder (place + 1)
    let low ← BigInteger_GetByteValue d.pBI_Remainder place
    estimateDigit pSecondOperand SecondHighByte Index (high.toNat <<< 8 ||| low.toNat)
      { d with pMulBI := BigInteger_AllocSize d.pMulBI (Index + 1) }
  else some d

/-- The loop over `Index`, which goes down to zero. -/
def divideFrom (pFirstOperand pSecondOperand : BIG_INTEGER) (SecondHighByte : UInt8)
    (ComputeSize : Nat) : Nat → Division → Option Division
  | 0, d => some d
  | Index + 1, d => do
      let CompareResult ← BigInteger_UnsignedCompare d.pBI_Remainder pSecondOperand
      if CompareResult = -1 then some d
      else
        (divideDigit pFirstOperand pSecondOperand SecondHighByte ComputeSize Index d).bind
          (divideFrom pFirstOperand pSecondOperand SecondHighByte ComputeSize Index)

/-- The part for a first operand that is the larger one. -/
def longDivision (pFirstOperand pSecondOperand pBI_Result pBI_Remainder : BIG_INTEGER) :
    Option (BIG_INTEGER × BIG_INTEGER) := do
  let pBI_Result := BigInteger_AllocSize pBI_Result
    (pFirstOperand.IntegerLength - pSecondOperand.IntegerLength + 1)
  let pBI_Remainder := BigInteger_AllocSize pBI_Remainder pSecondOperand.IntegerLength
  let AllocLength := pFirstOperand.IntegerLength * 2
  let pTempBI := BigInteger_AllocSize BigInteger_Init AllocLength
  let pBI_Remainder ← BigInteger_Copy pFirstOperand pBI_Remainder
  let SecondHighByte ← BigInteger_GetByteValue pSecondOperand pSecondOperand.IntegerLength
  let ComputeSize := pFirstOperand.IntegerLength - pSecondOperand.IntegerLength + 1
  let d ← divideFrom pFirstOperand pSecondOperand SecondHighByte ComputeSize (ComputeSize + 1)
    ⟨pBI_Result, pBI_Remainder, pTempBI, pTempBI, pTempBI⟩
  some (d.pBI_Result, d.pBI_Remainder)

def divideWords (pFirstOperand pSecondOperand pBI_Result pBI_Remainder : BIG_INTEGER) :
    Option (BIG_INTEGER × BIG_INTEGER) :=
  if pSecondOperand.IntegerLength = 1 ∧ pSecondOperand.pIntegerArray.headD 0 = 1 then do
    let pBI_Result ← BigInteger_Copy pFirstOperand pBI_Result
    let pBI_Remainder ← BigInteger_Bin2BI [0] pBI_Remainder
    some (pBI_Result, pBI_Remainder)
  else do
    let CompareResult ← BigInteger_UnsignedCompare pFirstOperand pSecondOperand
    if CompareResult = 0 then do
      let pBI_Result ← BigInteger_Bin2BI [1] pBI_Result
      let pBI_Remainder ← BigInteger_Bin2BI [0] pBI_Remainder
      some (pBI_Result, pBI_Remainder)
    else if CompareResult = -1 then do
      let pBI_Result ← BigInteger_Bin2BI [0] pBI_Result
      let pBI_Remainder ← BigInteger_Copy pFirstOperand pBI_Remainder
      some (pBI_Result, pBI_Remainder)
    else longDivision pFirstOperand pSecondOperand pBI_Result pBI_Remainder

def BigInteger_Div (pFirstOperand pSecondOperand pBI_Result pBI_Remainder : BIG_INTEGER) :
    Option (BIG_INTEGER × BIG_INTEGER) :=
  if pFirstOperand.pIntegerArray = [] ∨ pSecondOperand.pIntegerArray = [] then
    some (pBI_Result, pBI_Remainder)
  else if pSecondOperand.IntegerLength = 1 ∧ pSecondOperand.pIntegerArray.headD 0 = 0 then
    some (pBI_Result, pBI_Remainder)
  else do
    let (pBI_Result, pBI_Remainder) ← divideWords pFirstOperand pSecondOperand pBI_Result pBI_Remainder
    let Signed := pFirstOperand.Signed * pSecondOperand.Signed
    let pBI_Result ← BigInteger_ClearHighBits { pBI_Result with Signed := Signed }
    let pBI_Remainder ← BigInteger_ClearHighBits { pBI_Remainder with Signed := Signed }
    some (pBI_Result, pBI_Remainder)

end Ralink.BigInteger
