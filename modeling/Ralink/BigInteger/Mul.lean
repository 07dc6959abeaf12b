import Ralink.BigInteger.AddSub

/-! Rows of products that are added to what a result holds. Products are exact and stay inside the
words that were allocated. -/
namespace Ralink.BigInteger
open Words

/-- `while (Carry != 0)` -/
def carryOn : List UInt32 → UInt64 → Option (List UInt32)
  | [], Carry => if Carry = 0 then some [] else none
  | r :: rs, Carry =>
    if Carry = 0 then some (r :: rs)
    else
      (carryOn rs ((r.toUInt64 + Carry) >>> 32)).map
        (((r.toUInt64 + Carry) &&& 0xffffffff).toUInt32 :: ·)

/-- A loop over the words of an operand and those of a result beside it. `turn` gives the word that
is written and the carry, `last` is done with the carry that is left. -/
def row (turn : UInt32 → UInt32 → UInt64 → UInt32 × UInt64)
    (last : List UInt32 → UInt64 → Option (List UInt32)) :
    List UInt32 → List UInt32 → UInt64 → Option (List UInt32)
  | [], rs, Carry => last rs Carry
  | _ :: _, [], _ => none
  | b :: bs, r :: rs, Carry =>
    (row turn last bs rs (turn r b Carry).2).map ((turn r b Carry).1 :: ·)

def Accumulates (turn : UInt32 → UInt32 → UInt64 → UInt32 × UInt64) (m : ℕ) (r : UInt32) : Prop :=
  ∀ b Carry, Carry.toNat < 2 ^ 32 →
    (turn r b Carry).2.toNat < 2 ^ 32 ∧
      (turn r b Carry).1.toNat + 2 ^ 32 * (turn r b Carry).2.toNat =
        r.toNat + b.toNat * m + Carry.toNat

def Finishes (last : List UInt32 → UInt64 → Option (List UInt32)) (rs : List UInt32) : Prop :=
  ∀ Carry, Carry.toNat < 2 ^ 32 → value rs + Carry.toNat < (2 ^ 32) ^ rs.length →
    ∃ out, last rs Carry = some out ∧ value out = value rs + Carry.toNat ∧ out.length = rs.length

section Rows

variable {turn : UInt32 → UInt32 → UInt64 → UInt32 × UInt64}
  {last : List UInt32 → UInt64 → Option (List UInt32)} {as bs rs : List UInt32} {Carry : UInt64}
  {m : ℕ}

theorem carryOn_finishes (rs : List UInt32) : Finishes carryOn rs := by
  induction rs with
  | nil =>
    intro Carry _ hfit
    have hzero : Carry = 0 := by
      apply UInt64.toNat_inj.mp
      simpa using hfit
    exact ⟨[], by rw [carryOn, if_pos hzero], by rw [hzero]; rfl, rfl⟩
  | cons r rs ih =>
    intro Carry hCarry hfit
    rw [carryOn]
    by_cases hzero : Carry = 0
    · rw [if_pos hzero]
      exact ⟨r :: rs, rfl, by rw [hzero]; rfl, rfl⟩
    · have hr := toNat_lt r
      have hsum : (r.toUInt64 + Carry).toNat = r.toNat + Carry.toNat := by
        rw [UInt64.toNat_add, UInt32.toNat_toUInt64]
        omega
      obtain ⟨hlow, hhigh⟩ := split_wide (r.toUInt64 + Carry)
      rw [hsum] at hlow hhigh
      have hrest : value rs + ((r.toUInt64 + Carry) >>> 32).toNat < (2 ^ 32) ^ rs.length := by
        rw [value_cons, List.length_cons, pow_succ' (2 ^ 32 : ℕ)] at hfit
        rw [hhigh]
        omega
      obtain ⟨out, hout, hvalue, hlen⟩ := ih _ (by rw [hhigh]; omega) hrest
      rw [if_neg hzero, hout]
      refine ⟨_, rfl, ?_, by rw [List.length_cons, List.length_cons, hlen]⟩
      rw [value_cons, hvalue, hlow, hhigh, value_cons]
      omega

theorem row_spec (hturn : ∀ r ∈ rs, Accumulates turn m r) (hlast : Finishes last (rs.drop bs.length))
    (hlen : bs.length ≤ rs.length) (hCarry : Carry.toNat < 2 ^ 32)
    (hfit : value rs + value bs * m + Carry.toNat < (2 ^ 32) ^ rs.length) :
    ∃ out, row turn last bs rs Carry = some out ∧
      value out = value rs + value bs * m + Carry.toNat ∧ out.length = rs.length := by
  induction bs generalizing rs Carry with
  | nil =>
    rw [value_nil, Nat.zero_mul, Nat.add_zero] at hfit ⊢
    rw [row]
    exact hlast Carry hCarry hfit
  | cons b bs ih =>
    cases rs with
    | nil => exact absurd hlen (by simp)
    | cons r rs =>
      obtain ⟨hcarry, hword⟩ := hturn r (List.mem_cons_self ..) b Carry hCarry
      have hproduct : value (b :: bs) * m = b.toNat * m + 2 ^ 32 * (value bs * m) := by
        rw [value_cons, Nat.add_mul, Nat.mul_assoc]
      have hrest : value rs + value bs * m + (turn r b Carry).2.toNat < (2 ^ 32) ^ rs.length := by
        rw [hproduct, value_cons, List.length_cons, pow_succ' (2 ^ 32 : ℕ)] at hfit
        omega
      obtain ⟨out, hout, hvalue, hlen'⟩ :=
        ih (fun r hr => hturn r (List.mem_cons_of_mem _ hr)) hlast (Nat.le_of_succ_le_succ hlen)
          hcarry hrest
      rw [row, hout]
      refine ⟨_, rfl, ?_, by rw [List.length_cons, List.length_cons, hlen']⟩
      rw [value_cons, hvalue, hproduct, value_cons]
      omega

end Rows

def mulTurn (FirstValue : UInt64) (r b : UInt32) (Carry : UInt64) : UInt32 × UInt64 :=
  let SecondValue : UInt64 := b.toUInt64 * FirstValue
  let Sum : UInt64 := r.toUInt64 + SecondValue + Carry
  ((Sum &&& 0xffffffff).toUInt32, Sum >>> 32)

/-- The row of one word of the first operand; a zero is passed over. -/
def mulRow (a : UInt32) (bs rs : List UInt32) : Option (List UInt32) :=
  if a = 0 then some rs else row (mulTurn a.toUInt64) carryOn bs rs 0

/-- The rows of a product, each one word further up than the one before. -/
def mulRows : List UInt32 → List UInt32 → List UInt32 → Option (List UInt32)
  | [], _, rs => some rs
  | a :: as, bs, rs =>
    (mulRow a bs rs).bind fun
      | [] => mulRows as bs []
      | r :: rs => (mulRows as bs rs).map (r :: ·)

def mulWords (pFirstOperand pSecondOperand pBI_Result : BIG_INTEGER) : Option BIG_INTEGER :=
  if (pFirstOperand.IntegerLength = 1 ∧ pFirstOperand.pIntegerArray.headD 0 = 0) ∨
      (pSecondOperand.IntegerLength = 1 ∧ pSecondOperand.pIntegerArray.headD 0 = 0) then
    some (BigInteger_AllocSize pBI_Result 1)
  else if pFirstOperand.IntegerLength = 1 ∧ pFirstOperand.pIntegerArray.headD 0 = 1 then
    BigInteger_Copy pSecondOperand pBI_Result
  else if pSecondOperand.IntegerLength = 1 ∧ pSecondOperand.pIntegerArray.headD 0 = 1 then
    BigInteger_Copy pFirstOperand pBI_Result
  else if pFirstOperand.pIntegerArray.length < pFirstOperand.ArrayLength ∨
      pSecondOperand.pIntegerArray.length < pSecondOperand.ArrayLength then none
  else
    let pBI_Result := BigInteger_AllocSize pBI_Result
      (pFirstOperand.IntegerLength + pSecondOperand.IntegerLength)
    (mulRows pFirstOperand.words pSecondOperand.words pBI_Result.pIntegerArray).map fun ws =>
      { pBI_Result with pIntegerArray := ws }

def BigInteger_Mul (pFirstOperand pSecondOperand pBI_Result : BIG_INTEGER) : Option BIG_INTEGER :=
  if pFirstOperand.pIntegerArray = [] ∨ pSecondOperand.pIntegerArray = [] then some pBI_Result
  else do
    let pBI_Result ← mulWords pFirstOperand pSecondOperand pBI_Result
    BigInteger_ClearHighBits
      { pBI_Result with Signed := pFirstOperand.Signed * pSecondOperand.Signed }

section Mul

variable {x y z : BIG_INTEGER} {as bs rs : List UInt32} {a : UInt32}

theorem word_product_le {a b c d : ℕ} (ha : a < 2 ^ 32) (hb : b < 2 ^ 32) (hc : c < 2 ^ 32)
    (hd : d < 2 ^ 32) : c + b * a + d < 2 ^ 32 * 2 ^ 32 := by
  have hmul : b * a ≤ (2 ^ 32 - 1) * (2 ^ 32 - 1) := Nat.mul_le_mul (by omega) (by omega)
  omega

theorem mulTurn_accumulates (a r : UInt32) : Accumulates (mulTurn a.toUInt64) a.toNat r := by
  intro b Carry hCarry
  have hsmall := word_product_le (toNat_lt a) (toNat_lt b) (toNat_lt r) hCarry
  have hproduct : (b.toUInt64 * a.toUInt64).toNat = b.toNat * a.toNat := by
    rw [UInt64.toNat_mul, UInt32.toNat_toUInt64, UInt32.toNat_toUInt64]
    exact Nat.mod_eq_of_lt (by omega)
  have hsum : (r.toUInt64 + b.toUInt64 * a.toUInt64 + Carry).toNat =
      r.toNat + b.toNat * a.toNat + Carry.toNat := by
    rw [UInt64.toNat_add, UInt64.toNat_add, hproduct, UInt32.toNat_toUInt64]
    omega
  obtain ⟨hlow, hhigh⟩ := split_wide (r.toUInt64 + b.toUInt64 * a.toUInt64 + Carry)
  rw [hsum] at hlow hhigh
  constructor
  · rw [mulTurn, hhigh]
    omega
  · rw [mulTurn, hlow, hhigh]
    omega

theorem mulRow_spec (hlen : bs.length ≤ rs.length)
    (hfit : value rs + value bs * a.toNat < (2 ^ 32) ^ rs.length) :
    ∃ out, mulRow a bs rs = some out ∧ value out = value rs + value bs * a.toNat ∧
      out.length = rs.length := by
  rw [mulRow]
  split
  · next hzero => exact ⟨rs, rfl, by rw [hzero]; simp, rfl⟩
  · exact row_spec (fun r _ => mulTurn_accumulates a r) (carryOn_finishes _) hlen (by decide) hfit

theorem mulRows_spec (hlen : as.length + bs.length ≤ rs.length + 1)
    (hfit : value rs + value as * value bs < (2 ^ 32) ^ rs.length) :
    ∃ out, mulRows as bs rs = some out ∧ value out = value rs + value as * value bs ∧
      out.length = rs.length := by
  induction as generalizing rs with
  | nil =>
    refine ⟨rs, rfl, ?_, rfl⟩
    rw [value_nil, Nat.zero_mul, Nat.add_zero]
  | cons a as ih =>
    have hproduct : value (a :: as) * value bs =
        value bs * a.toNat + 2 ^ 32 * (value as * value bs) := by
      rw [value_cons]
      ring
    rw [hproduct] at hfit ⊢
    obtain ⟨mid, hmid, hmidvalue, hmidlen⟩ :=
      @mulRow_spec bs rs a (by rw [List.length_cons] at hlen; omega) (by omega)
    rw [mulRows, hmid, Option.bind_some]
    cases mid with
    | nil =>
      obtain rfl : rs = [] := List.eq_nil_of_length_eq_zero hmidlen.symm
      simp only [List.length_cons, List.length_nil] at hlen
      obtain rfl : as = [] := List.eq_nil_of_length_eq_zero (by omega)
      obtain rfl : bs = [] := List.eq_nil_of_length_eq_zero (by omega)
      exact ⟨[], rfl, by simp, rfl⟩
    | cons r mid =>
      rw [← hmidlen, List.length_cons] at hlen
      rw [value_cons] at hmidvalue
      have hrest : value mid + value as * value bs < (2 ^ 32) ^ mid.length := by
        rw [← hmidlen, List.length_cons, pow_succ' (2 ^ 32 : ℕ)] at hfit
        omega
      obtain ⟨out, hout, houtvalue, houtlen⟩ := ih (by rw [List.length_cons] at hlen; omega) hrest
      refine ⟨r :: out, congrArg (Option.map _) hout, ?_, by
        rw [← hmidlen, List.length_cons, List.length_cons, houtlen]⟩
      rw [value_cons, houtvalue]
      omega

theorem Normalized.head_of_one (hx : Normalized x) (h : x.IntegerLength = 1) :
    x.magnitude = (x.pIntegerArray.headD 0).toNat := by
  have harray : x.ArrayLength = 1 := by rw [hx.arrayLength, h]
  rw [BIG_INTEGER.magnitude, BIG_INTEGER.words, harray]
  cases x.pIntegerArray with
  | nil => rfl
  | cons w ws => simp

theorem Normalized.integerLength_of_small (hx : Normalized x) (h : x.magnitude < 256) :
    x.IntegerLength = 1 := by
  rw [hx.integerLength, Nat.log_of_lt h]

theorem Normalized.is_byte_iff (hx : Normalized x) {w : UInt32} (hw : w.toNat < 256) :
    x.IntegerLength = 1 ∧ x.pIntegerArray.headD 0 = w ↔ x.magnitude = w.toNat := by
  constructor
  · rintro ⟨hone, hhead⟩
    rw [hx.head_of_one hone, hhead]
  · intro h
    have hone := hx.integerLength_of_small (by omega)
    refine ⟨hone, UInt32.toNat_inj.mp ?_⟩
    rw [← hx.head_of_one hone, h]

theorem mulWords_general (hx : Sized x) (hy : Sized y) :
    ∃ r, (if x.pIntegerArray.length < x.ArrayLength ∨ y.pIntegerArray.length < y.ArrayLength then none
      else
        let R := BigInteger_AllocSize z (x.IntegerLength + y.IntegerLength)
        (mulRows x.words y.words R.pIntegerArray).map fun ws => { R with pIntegerArray := ws }) =
        some r ∧ 0 < r.ArrayLength ∧ r.ArrayLength ≤ r.pIntegerArray.length ∧
      r.magnitude = x.magnitude * y.magnitude := by
  have hxpos := hx.integerLength_pos
  have hypos := hy.integerLength_pos
  have hxlen := hx.arrayLength
  have hylen := hy.arrayLength
  have hxfits := hx.fits
  have hyfits := hy.fits
  have hproduct : x.magnitude * y.magnitude < (2 ^ 32) ^ ((x.IntegerLength + y.IntegerLength + 3) / 4) := by
    rw [base_pow]
    calc x.magnitude * y.magnitude
        < 256 ^ x.IntegerLength * 256 ^ y.IntegerLength :=
          Nat.mul_lt_mul'' hx.magnitude_lt hy.magnitude_lt
      _ = 256 ^ (x.IntegerLength + y.IntegerLength) := (Nat.pow_add ..).symm
      _ ≤ _ := Nat.pow_le_pow_right (by decide) (by omega)
  rw [if_neg (by omega), allocSize_eq (by omega)]
  generalize hn : (x.IntegerLength + y.IntegerLength + 3) / 4 = n at *
  generalize hL : max z.pIntegerArray.length n = L
  have hzeros := value_zeros L
  have hlength : (List.replicate L (0 : UInt32)).length = L := List.length_replicate
  obtain ⟨out, hout, hvalue, hlen⟩ :=
    @mulRows_spec x.words y.words (List.replicate L 0)
      (by rw [hx.length_words, hy.length_words, hlength]; omega)
      (by
        rw [hzeros, hlength, Nat.zero_add]
        exact hproduct.trans_le (Nat.pow_le_pow_right (by decide) (by omega)))
  rw [hlength] at hlen
  rw [hzeros, Nat.zero_add] at hvalue
  refine ⟨_, congrArg (Option.map _) hout, ?_, ?_, ?_⟩
  · show 0 < n
    omega
  · show n ≤ out.length
    omega
  · show value (out.take n) = _
    rw [value_take, hvalue]
    exact Nat.mod_eq_of_lt hproduct

theorem mulWords_spec (hx : Normalized x) (hy : Normalized y) (hz : z.Signed = 1 ∨ z.Signed = -1) :
    ∃ r, mulWords x y z = some r ∧ 0 < r.ArrayLength ∧ r.ArrayLength ≤ r.pIntegerArray.length ∧
      r.magnitude = x.magnitude * y.magnitude := by
  have hzero := hx.is_byte_iff (w := 0) (by decide)
  have hzero' := hy.is_byte_iff (w := 0) (by decide)
  have hone := hx.is_byte_iff (w := 1) (by decide)
  have hone' := hy.is_byte_iff (w := 1) (by decide)
  unfold mulWords
  split
  · next h =>
    obtain ⟨hnorm, hmag⟩ := allocSize_one hz
    rw [hzero, hzero'] at h
    refine ⟨_, rfl, hnorm.arrayLength_pos, hnorm.fits, ?_⟩
    rw [hmag]
    rcases h with h | h <;> simp [h]
  · split
    · next h =>
      obtain ⟨r, hr, hnorm, hwords, -, -, -, -⟩ := hy.copy (y := z)
      rw [hone] at h
      refine ⟨r, hr, hnorm.arrayLength_pos, hnorm.fits, ?_⟩
      rw [h, magnitude_of_words hwords]
      exact (Nat.one_mul _).symm
    · split
      · next h =>
        obtain ⟨r, hr, hnorm, hwords, -, -, -, -⟩ := hx.copy (y := z)
        rw [hone'] at h
        refine ⟨r, hr, hnorm.arrayLength_pos, hnorm.fits, ?_⟩
        rw [h, magnitude_of_words hwords]
        exact (Nat.mul_one _).symm
      · exact mulWords_general hx.sized hy.sized

theorem mul_spec (hx : Normalized x) (hy : Normalized y) (hz : z.Signed = 1 ∨ z.Signed = -1) :
    ∃ r, BigInteger_Mul x y z = some r ∧ Normalized r ∧ r.magnitude = x.magnitude * y.magnitude ∧
      r.toInt = x.toInt * y.toInt := by
  have hnull : ¬ (x.pIntegerArray = [] ∨ y.pIntegerArray = []) := fun h =>
    h.elim hx.pIntegerArray_ne hy.pIntegerArray_ne
  have hsign : x.Signed * y.Signed = 1 ∨ x.Signed * y.Signed = -1 := by
    obtain h | h := hx.sign <;> obtain h' | h' := hy.sign <;> simp [h, h']
  obtain ⟨t, ht, hpos, hfits, hmag⟩ := mulWords_spec hx hy hz
  obtain ⟨r, hr, hnorm, hrmag, -, hsigned⟩ :=
    clearHighBits_spec (x := { t with Signed := x.Signed * y.Signed }) hpos hfits hsign
  rw [BigInteger_Mul, if_neg hnull, ht, Option.bind_eq_bind, Option.bind_some]
  have hproduct : r.magnitude = x.magnitude * y.magnitude := hrmag.trans hmag
  refine ⟨r, hr, hnorm, hproduct, ?_⟩
  rw [← hrmag] at hsigned
  rw [toInt_of_sign hsigned, hproduct, BIG_INTEGER.toInt, BIG_INTEGER.toInt, Nat.cast_mul]
  ring

end Mul

end Ralink.BigInteger
