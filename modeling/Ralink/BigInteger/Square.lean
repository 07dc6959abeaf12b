import Ralink.BigInteger.Mul

/-! The squares of the words, the products of different words, doubled, and their sum. The carry of
the doubling is lost at a word of ones that a carry comes into. -/
namespace Ralink.BigInteger
open Words

def UINT32_HBITS (value : UInt32) : UInt32 := (value >>> 0x10) &&& 0xffff

def UINT32_LBITS (value : UInt32) : UInt32 := value &&& 0xffff

def squareWord (value : UInt32) : UInt32 × UInt32 :=
  let HBITS_Value := UINT32_HBITS value
  let LBITS_Value := UINT32_LBITS value
  let Temp1_Value := HBITS_Value * LBITS_Value
  let Temp2_Value := (Temp1_Value &&& 0x7fff) <<< 0x11
  let S0 := LBITS_Value * LBITS_Value + Temp2_Value
  let S1 := HBITS_Value * HBITS_Value + ((Temp1_Value >>> 0xf) &&& 0x1ffff)
  (S0, if S0 < Temp2_Value then S1 + 1 else S1)

def squareWords : List UInt32 → List UInt32 → Option (List UInt32)
  | [], S => some S
  | a :: as, _ :: _ :: S =>
    (squareWords as S).map fun S => (squareWord a).1 :: (squareWord a).2 :: S
  | _ :: _, _ => none

/-- In step 2 what the result holds is not read. -/
def firstTurn (TempValue64 : UInt64) (_ b : UInt32) (Carry64 : UInt64) : UInt32 × UInt64 :=
  let Result64_1 : UInt64 := b.toUInt64 * TempValue64
  let Result64_1 := Result64_1 + Carry64
  ((Result64_1 &&& 0xffffffff).toUInt32, Result64_1 >>> 32)

def putCarry (rs : List UInt32) (Carry64 : UInt64) : Option (List UInt32) :=
  if Carry64 > 0 then
    match rs with
    | [] => none
    | _ :: rs => some ((Carry64 &&& 0xffffffff).toUInt32 :: rs)
  else some rs

def splitTurn (TempValue64 : UInt64) (r b : UInt32) (Carry64 : UInt64) : UInt32 × UInt64 :=
  let Result64_1 : UInt64 := r.toUInt64 + Carry64
  let Result64_2 : UInt64 := b.toUInt64 * TempValue64
  let Carry64 := Result64_1 >>> 32
  let Result64_1 := Result64_1 &&& 0xffffffff
  let Result64_1 := Result64_1 + Result64_2
  ((Result64_1 &&& 0xffffffff).toUInt32, Carry64 + Result64_1 >>> 32)

def addCarry (rs : List UInt32) (Carry64 : UInt64) : Option (List UInt32) :=
  if Carry64 > 0 then
    match rs with
    | [] => none
    | r :: rs => some ((r + (Carry64 &&& 0xffffffff).toUInt32) :: rs)
  else some rs

/-- Step 3: the products of a word and those behind it, each row two words further up. -/
def crossRows : List UInt32 → List UInt32 → Option (List UInt32)
  | a :: b :: as, r :: rs =>
    (row (splitTurn a.toUInt64) addCarry (b :: as) rs 0).bind fun
      | [] => none
      | r' :: rs => (crossRows (b :: as) rs).map (r :: r' :: ·)
  | _ :: _ :: _, [] => none
  | _, rs => some rs

def crossWords : List UInt32 → List UInt32 → Option (List UInt32)
  | [_], _ :: rs => some (0 :: rs)
  | a :: as, _ :: rs =>
    (row (firstTurn a.toUInt64) putCarry as rs 0).bind fun
      | [] => none
      | r' :: rs => (crossRows as rs).map (0 :: r' :: ·)
  | _, _ => none

/-- The words of the copy `pBI_O`, shifted by one bit, beside the words it is a copy of. -/
def doubleWords : List UInt32 → List UInt32 → UInt32 → List UInt32
  | o :: os, r :: rs, Carry32 =>
    ((o <<< 1) ||| Carry32) :: doubleWords os rs (if (o <<< 1) ||| Carry32 < r then 1 else 0)
  | _, _, Carry32 => [Carry32]

/-- What the functions keep between calls. -/
structure Statics where
  pBI_U : BIG_INTEGER
  pBI_S : BIG_INTEGER
  pBI_O : BIG_INTEGER
  Bits_Of_R : Nat

def doubleCopy (pBI_O pBI_Result : BIG_INTEGER) : Option BIG_INTEGER :=
  if pBI_O.pIntegerArray.length ≤ pBI_O.ArrayLength then none
  else
    BigInteger_ClearHighBits
      { pBI_O.setWords (doubleWords pBI_O.words pBI_Result.words 0) with
        IntegerLength := pBI_O.IntegerLength + 1
        ArrayLength := pBI_O.ArrayLength + 1 }

def BigInteger_Square (pBI pBI_Result : BIG_INTEGER) (st : Statics) :
    Option (BIG_INTEGER × Statics) :=
  if pBI.pIntegerArray = [] then some (pBI_Result, st)
  else if pBI.IntegerLength = 1 ∧ pBI.pIntegerArray.headD 0 = 0 then do
    let pBI_Result ← BigInteger_ClearHighBits { BigInteger_AllocSize pBI_Result 1 with Signed := 1 }
    some (pBI_Result, st)
  else if pBI.pIntegerArray.length < pBI.ArrayLength then none
  else do
    let pBI_Result := BigInteger_AllocSize pBI_Result (pBI.IntegerLength * 2 + 20)
    let pBI_S := BigInteger_AllocSize st.pBI_S (pBI.IntegerLength * 2 + 20)
    let pBI_O := BigInteger_AllocSize st.pBI_O (pBI.IntegerLength * 2 + 20)
    let squares ← squareWords pBI.words pBI_S.pIntegerArray
    let pBI_S := { pBI_S with pIntegerArray := squares }
    let products ← crossWords pBI.words pBI_Result.pIntegerArray
    let pBI_Result ← BigInteger_ClearHighBits { pBI_Result with pIntegerArray := products }
    let pBI_O ← BigInteger_Copy pBI_Result pBI_O
    let pBI_O ← doubleCopy pBI_O pBI_Result
    let pBI_Result ← BigInteger_Add pBI_O pBI_S pBI_Result
    let pBI_Result ← BigInteger_ClearHighBits { pBI_Result with Signed := 1 }
    some (pBI_Result, { st with pBI_S := pBI_S, pBI_O := pBI_O })

def squares (ws : List UInt32) : ℕ := Nat.ofDigits (2 ^ 64) (ws.map fun w => w.toNat * w.toNat)

def crosses : List UInt32 → ℕ
  | [] => 0
  | a :: as => 2 ^ 32 * (a.toNat * value as) + 2 ^ 64 * crosses as

theorem squares_cons (a : UInt32) (as : List UInt32) :
    squares (a :: as) = a.toNat * a.toNat + 2 ^ 64 * squares as := by
  rw [squares, List.map_cons, Nat.ofDigits_cons]
  rfl

theorem value_mul_self (ws : List UInt32) :
    value ws * value ws = squares ws + 2 * crosses ws := by
  induction ws with
  | nil => rfl
  | cons a as ih =>
    have hsquare : value (a :: as) * value (a :: as) =
        a.toNat * a.toNat + 2 * (2 ^ 32 * (a.toNat * value as)) +
          2 ^ 64 * (value as * value as) := by
      rw [value_cons]
      ring
    rw [hsquare, ih, squares_cons, crosses]
    ring

section Loops

variable {a w : UInt32} {as bs rs ws : List UInt32}

theorem halves (w : UInt32) :
    (UINT32_HBITS w).toNat = w.toNat / 2 ^ 16 ∧ (UINT32_LBITS w).toNat = w.toNat % 2 ^ 16 := by
  have hw := toNat_lt w
  constructor
  · rw [UINT32_HBITS, UInt32.toNat_and, UInt32.toNat_shiftRight]
    show (w.toNat >>> 16) &&& (2 ^ 16 - 1) = _
    rw [Nat.and_two_pow_sub_one_eq_mod, Nat.shiftRight_eq_div_pow]
    omega
  · rw [UINT32_LBITS, UInt32.toNat_and]
    show w.toNat &&& (2 ^ 16 - 1) = _
    rw [Nat.and_two_pow_sub_one_eq_mod]

theorem toNat_mul_half {a b : UInt32} (ha : a.toNat < 2 ^ 16) (hb : b.toNat < 2 ^ 16) :
    (a * b).toNat = a.toNat * b.toNat ∧ a.toNat * b.toNat ≤ (2 ^ 16 - 1) * (2 ^ 16 - 1) := by
  have hle : a.toNat * b.toNat ≤ (2 ^ 16 - 1) * (2 ^ 16 - 1) := Nat.mul_le_mul (by omega) (by omega)
  refine ⟨?_, hle⟩
  rw [UInt32.toNat_mul]
  exact Nat.mod_eq_of_lt (by omega)

theorem shifted_parts (p : UInt32) :
    ((p &&& 0x7fff) <<< 0x11).toNat = p.toNat % 2 ^ 15 * 2 ^ 17 ∧
      ((p >>> 0xf) &&& 0x1ffff).toNat = p.toNat / 2 ^ 15 := by
  have hp := toNat_lt p
  constructor
  · rw [UInt32.toNat_shiftLeft, UInt32.toNat_and]
    show (p.toNat &&& (2 ^ 15 - 1)) <<< 17 % 2 ^ 32 = _
    rw [Nat.and_two_pow_sub_one_eq_mod, Nat.shiftLeft_eq]
    exact Nat.mod_eq_of_lt (by omega)
  · rw [UInt32.toNat_and, UInt32.toNat_shiftRight]
    show (p.toNat >>> 15) &&& (2 ^ 17 - 1) = _
    rw [Nat.and_two_pow_sub_one_eq_mod, Nat.shiftRight_eq_div_pow]
    omega

theorem squareWord_eq (w : UInt32) :
    (squareWord w).1.toNat + 2 ^ 32 * (squareWord w).2.toNat = w.toNat * w.toNat := by
  obtain ⟨hhigh, hlow⟩ := halves w
  have hw := toNat_lt w
  generalize hH : UINT32_HBITS w = H at *
  generalize hL : UINT32_LBITS w = L at *
  have hHlt : H.toNat < 2 ^ 16 := by omega
  have hLlt : L.toNat < 2 ^ 16 := by omega
  have hsquare : w.toNat * w.toNat =
      2 ^ 32 * (H.toNat * H.toNat) + 2 ^ 17 * (H.toNat * L.toNat) + L.toNat * L.toNat := by
    have hsplit : w.toNat = 2 ^ 16 * H.toNat + L.toNat := by omega
    rw [hsplit]
    ring
  obtain ⟨hHH, hHHle⟩ := toNat_mul_half hHlt hHlt
  obtain ⟨hHL, hHLle⟩ := toNat_mul_half hHlt hLlt
  obtain ⟨hLL, hLLle⟩ := toNat_mul_half hLlt hLlt
  obtain ⟨hT2, hT1⟩ := shifted_parts (H * L)
  rw [hHL] at hT1 hT2
  rw [hsquare, squareWord, hH, hL]
  generalize hTemp2 : ((H * L) &&& 0x7fff) <<< 0x11 = Temp2 at *
  have hS0 : (L * L + Temp2).toNat = (L.toNat * L.toNat + Temp2.toNat) % 2 ^ 32 := by
    rw [UInt32.toNat_add, hLL]
  have hS1 : (H * H + ((H * L) >>> 0xf &&& 0x1ffff)).toNat =
      H.toNat * H.toNat + H.toNat * L.toNat / 2 ^ 15 := by
    rw [UInt32.toNat_add, hHH, hT1]
    exact Nat.mod_eq_of_lt (by omega)
  dsimp only
  generalize L * L + Temp2 = S0 at *
  generalize H * H + ((H * L) >>> 0xf &&& 0x1ffff) = S1 at *
  split
  · next hlt =>
    have hinc : (S1 + 1).toNat = (S1.toNat + 1) % 2 ^ 32 := UInt32.toNat_add S1 1
    rw [UInt32.lt_iff_toNat_lt] at hlt
    rw [hinc, hS1]
    omega
  · next hge =>
    rw [UInt32.lt_iff_toNat_lt] at hge
    rw [hS1]
    omega

theorem squareWords_spec (hlen : 2 * as.length ≤ rs.length) (hzero : value rs = 0) :
    ∃ out, squareWords as rs = some out ∧ value out = squares as ∧ out.length = rs.length := by
  induction as generalizing rs with
  | nil => exact ⟨rs, rfl, hzero, rfl⟩
  | cons a as ih =>
    match rs with
    | [] => simp at hlen
    | [_] => simp at hlen; omega
    | r :: r' :: rs =>
      have hrest : value rs = 0 := by
        rw [value_cons, value_cons] at hzero
        omega
      obtain ⟨out, hout, hvalue, houtlen⟩ := ih (by simp at hlen; omega) hrest
      refine ⟨_, congrArg (Option.map _) hout, ?_, ?_⟩
      · rw [value_cons, value_cons, hvalue, squares_cons, ← squareWord_eq]
        ring
      · rw [List.length_cons, List.length_cons, houtlen]
        rfl

theorem toNat_wide_product (a b : UInt32) :
    (b.toUInt64 * a.toUInt64).toNat = b.toNat * a.toNat := by
  have hsmall := word_product_le (toNat_lt a) (toNat_lt b) (toNat_lt a) (toNat_lt a)
  rw [UInt64.toNat_mul, UInt32.toNat_toUInt64, UInt32.toNat_toUInt64]
  exact Nat.mod_eq_of_lt (by omega)

theorem firstTurn_accumulates (a : UInt32) : Accumulates (firstTurn a.toUInt64) a.toNat 0 := by
  intro b Carry hCarry
  have hsmall := word_product_le (toNat_lt a) (toNat_lt b) (toNat_lt 0) hCarry
  have hsum : (b.toUInt64 * a.toUInt64 + Carry).toNat = b.toNat * a.toNat + Carry.toNat := by
    rw [UInt64.toNat_add, toNat_wide_product]
    omega
  obtain ⟨hlow, hhigh⟩ := split_wide (b.toUInt64 * a.toUInt64 + Carry)
  rw [hsum] at hlow hhigh
  constructor
  · rw [firstTurn, hhigh]
    omega
  · rw [firstTurn, hlow, hhigh]
    show _ = 0 + b.toNat * a.toNat + Carry.toNat
    omega

theorem splitTurn_accumulates (a r : UInt32) : Accumulates (splitTurn a.toUInt64) a.toNat r := by
  intro b Carry hCarry
  have hr := toNat_lt r
  have hsmall := word_product_le (toNat_lt a) (toNat_lt b) hr hCarry
  have hsum : (r.toUInt64 + Carry).toNat = r.toNat + Carry.toNat := by
    rw [UInt64.toNat_add, UInt32.toNat_toUInt64]
    omega
  have hmask : ((r.toUInt64 + Carry) &&& 0xffffffff).toNat = (r.toNat + Carry.toNat) % 2 ^ 32 := by
    rw [UInt64.toNat_and, hsum]
    exact Nat.and_two_pow_sub_one_eq_mod _ 32
  have hsum' : (((r.toUInt64 + Carry) &&& 0xffffffff) + b.toUInt64 * a.toUInt64).toNat =
      (r.toNat + Carry.toNat) % 2 ^ 32 + b.toNat * a.toNat := by
    rw [UInt64.toNat_add, hmask, toNat_wide_product]
    omega
  obtain ⟨-, hhigh⟩ := split_wide (r.toUInt64 + Carry)
  obtain ⟨hlow, hhigh'⟩ :=
    split_wide (((r.toUInt64 + Carry) &&& 0xffffffff) + b.toUInt64 * a.toUInt64)
  rw [hsum] at hhigh
  rw [hsum'] at hlow hhigh'
  have hcarry : (splitTurn a.toUInt64 r b Carry).2.toNat =
      (r.toNat + Carry.toNat) / 2 ^ 32 +
        ((r.toNat + Carry.toNat) % 2 ^ 32 + b.toNat * a.toNat) / 2 ^ 32 := by
    rw [splitTurn, UInt64.toNat_add, hhigh, hhigh']
    omega
  rw [hcarry]
  constructor
  · omega
  · rw [splitTurn, hlow]
    omega

theorem putCarry_finishes (hzero : value rs = 0) : Finishes putCarry rs := by
  intro Carry hCarry hfit
  unfold putCarry
  by_cases hpos : Carry > 0
  · obtain ⟨hlow, -⟩ := split_wide Carry
    rw [gt_iff_lt, UInt64.lt_iff_toNat_lt] at hpos
    cases rs with
    | nil =>
      have hC : Carry.toNat = 0 := by simpa using hfit
      rw [hC] at hpos
      exact absurd hpos (by decide)
    | cons r rs =>
      rw [value_cons] at hzero
      rw [if_pos (UInt64.lt_iff_toNat_lt.mpr hpos)]
      refine ⟨_, rfl, ?_, rfl⟩
      rw [value_cons, value_cons, hlow]
      omega
  · have hC : Carry = 0 := by
      rw [gt_iff_lt, UInt64.lt_iff_toNat_lt] at hpos
      apply UInt64.toNat_inj.mp
      exact Nat.eq_zero_of_not_pos hpos
    rw [if_neg hpos]
    exact ⟨rs, rfl, by rw [hC]; rfl, rfl⟩

theorem addCarry_eq (hzero : value rs = 0) (Carry : UInt64) : addCarry rs Carry = putCarry rs Carry := by
  cases rs with
  | nil => rfl
  | cons r rs =>
    have hr : r = 0 := value_eq_zero_iff.mp hzero r (List.mem_cons_self ..)
    rw [addCarry, putCarry, hr, UInt32.zero_add]

theorem addCarry_finishes (hzero : value rs = 0) : Finishes addCarry rs := by
  intro Carry hCarry hfit
  rw [addCarry_eq hzero]
  exact putCarry_finishes hzero Carry hCarry hfit

theorem row_bound (hrs : value rs < (2 ^ 32) ^ bs.length) (a : UInt32) :
    value rs + value bs * a.toNat + 0 < (2 ^ 32) ^ (bs.length + 1) := by
  have ha := toNat_lt a
  have hbs := value_lt bs
  have hmul : value bs * a.toNat ≤ (2 ^ 32) ^ bs.length * (2 ^ 32 - 1) :=
    Nat.mul_le_mul hbs.le (by omega)
  rw [pow_succ (2 ^ 32 : ℕ)]
  omega

theorem crossRow_spec {turn : UInt32 → UInt32 → UInt64 → UInt32 × UInt64}
    {last : List UInt32 → UInt64 → Option (List UInt32)} (a : UInt32)
    (hturn : ∀ r ∈ rs, Accumulates turn a.toNat r) (hlast : ∀ rs, value rs = 0 → Finishes last rs)
    (hrs : value rs < (2 ^ 32) ^ bs.length) (hlen : 2 * bs.length + 1 ≤ rs.length) :
    ∃ r' out, row turn last bs rs 0 = some (r' :: out) ∧
      r'.toNat + 2 ^ 32 * value out = value rs + value bs * a.toNat ∧
      value out < (2 ^ 32) ^ bs.length ∧ out.length + 1 = rs.length := by
  have hbound := row_bound hrs a
  have hdrop : value (rs.drop bs.length) = 0 := by
    rw [value_drop, Nat.div_eq_of_lt hrs]
  obtain ⟨out, hout, hvalue, houtlen⟩ :=
    @row_spec _ _ _ _ 0 _ hturn (hlast _ hdrop) (by omega) (by decide)
      (hbound.trans_le (Nat.pow_le_pow_right (by decide) (by omega)))
  cases out with
  | nil =>
    rw [List.length_nil] at houtlen
    omega
  | cons r' out =>
    rw [value_cons] at hvalue
    refine ⟨r', out, hout, hvalue, ?_, houtlen⟩
    rw [pow_succ' (2 ^ 32 : ℕ)] at hbound
    have hzero : (0 : UInt64).toNat = 0 := rfl
    rw [← hzero, ← hvalue] at hbound
    omega

theorem crossRows_spec (hrs : value rs < (2 ^ 32) ^ as.length) (hlen : 2 * as.length ≤ rs.length) :
    ∃ out, crossRows as rs = some out ∧ value out = value rs + crosses as ∧
      out.length = rs.length := by
  induction as generalizing rs with
  | nil => exact ⟨rs, rfl, rfl, rfl⟩
  | cons a as ih =>
    match as, rs with
    | [], rs => exact ⟨rs, rfl, by simp [crosses], rfl⟩
    | b :: as, [] => simp at hlen
    | b :: as, r :: rs =>
      have hrest : value rs < (2 ^ 32) ^ (b :: as).length := by
        rw [value_cons, List.length_cons, pow_succ' (2 ^ 32 : ℕ)] at hrs
        omega
      rw [List.length_cons, @List.length_cons _ r rs] at hlen
      obtain ⟨r', mid, hmid, hmidvalue, hmidlt, hmidlen⟩ :=
        @crossRow_spec _ _ (splitTurn a.toUInt64) _ a (fun r _ => splitTurn_accumulates a r)
          (fun _ => addCarry_finishes) hrest (by omega)
      obtain ⟨out, hout, hvalue, houtlen⟩ := ih hmidlt (by omega)
      refine ⟨r :: r' :: out, ?_, ?_, ?_⟩
      · rw [crossRows, hmid, Option.bind_some]
        exact congrArg (Option.map _) hout
      · have hcross : crosses (a :: b :: as) =
            2 ^ 32 * (value (b :: as) * a.toNat) + 2 ^ 64 * crosses (b :: as) := by
          rw [crosses, Nat.mul_comm a.toNat]
        rw [hcross, value_cons, value_cons, hvalue, value_cons]
        omega
      · simp only [List.length_cons] at *
        omega

theorem crossWords_spec (hne : as ≠ []) (hzero : value rs = 0) (hlen : 2 * as.length ≤ rs.length) :
    ∃ out, crossWords as rs = some out ∧ value out = crosses as ∧ out.length = rs.length := by
  match as, rs with
  | [], _ => exact absurd rfl hne
  | a :: as, [] => simp at hlen
  | [a], r :: rs =>
    rw [value_cons] at hzero
    refine ⟨0 :: rs, rfl, ?_, rfl⟩
    rw [value_cons, crosses, crosses, value_nil]
    show 0 + _ = _
    omega
  | a :: b :: as, r :: rs =>
    have hwords := value_eq_zero_iff.mp hzero
    have hrest : value rs = 0 := value_eq_zero_iff.mpr fun w hw => hwords w (List.mem_cons_of_mem _ hw)
    rw [List.length_cons, @List.length_cons _ r rs] at hlen
    obtain ⟨r', mid, hmid, hmidvalue, hmidlt, hmidlen⟩ :=
      @crossRow_spec (b :: as) rs (firstTurn a.toUInt64) putCarry a
        (fun r hr => by
          rw [hwords r (List.mem_cons_of_mem _ hr)]
          exact firstTurn_accumulates a)
        (fun _ => putCarry_finishes) (by rw [hrest]; positivity) (by omega)
    obtain ⟨out, hout, hvalue, houtlen⟩ := crossRows_spec hmidlt (by omega)
    refine ⟨0 :: r' :: out, ?_, ?_, ?_⟩
    · rw [crossWords, hmid, Option.bind_some]
      · exact congrArg (Option.map _) hout
      · simp
    · have hcross : crosses (a :: b :: as) =
          2 ^ 32 * (value (b :: as) * a.toNat) + 2 ^ 64 * crosses (b :: as) := by
        rw [crosses, Nat.mul_comm a.toNat]
      rw [hcross, value_cons, value_cons, hvalue]
      show 0 + _ = _
      omega
    · simp only [List.length_cons] at *
      omega

end Loops

/-- No 33 ones in a row that begin with the highest bit of a word: no word of ones into which a
carry comes when the number is doubled. -/
def SoundDoubling (X : ℕ) : Prop := ∀ k, X / 2 ^ (32 * k + 31) % 2 ^ 33 ≠ 2 ^ 33 - 1

section Doubling

variable {w Carry : UInt32} {ws : List UInt32} {c c' X : ℕ}

theorem toNat_shift_or (hc : Carry.toNat ≤ 1) :
    ((w <<< 1) ||| Carry).toNat = (2 * w.toNat + Carry.toNat) % 2 ^ 32 := by
  have hw := toNat_lt w
  have hshift : (w <<< 1).toNat = (w.toNat % 2 ^ 31) <<< 1 := by
    rw [UInt32.toNat_shiftLeft, Nat.shiftLeft_eq]
    show w.toNat * 2 ^ 1 % 2 ^ 32 = _
    rw [Nat.shiftLeft_eq]
    omega
  rw [UInt32.toNat_or, hshift, ← Nat.shiftLeft_add_eq_or_of_lt (by omega), Nat.shiftLeft_eq]
  omega

theorem soundDoubling_step (hc : c ≤ 1) (hw : c' < 2 ^ 32) :
    SoundDoubling (c * 2 ^ 31 + 2 ^ 32 * (c' + 2 ^ 32 * X)) ↔
      ¬ (c = 1 ∧ c' = 2 ^ 32 - 1) ∧ SoundDoubling (c' / 2 ^ 31 * 2 ^ 31 + 2 ^ 32 * X) := by
  have hfirst : (c * 2 ^ 31 + 2 ^ 32 * (c' + 2 ^ 32 * X)) / 2 ^ (32 * 0 + 31) % 2 ^ 33 = c + 2 * c' := by
    omega
  have hnext : ∀ k, (c * 2 ^ 31 + 2 ^ 32 * (c' + 2 ^ 32 * X)) / 2 ^ (32 * (k + 1) + 31) =
      (c' / 2 ^ 31 * 2 ^ 31 + 2 ^ 32 * X) / 2 ^ (32 * k + 31) := by
    intro k
    have hleft : 2 ^ (32 * (k + 1) + 31) = 2 ^ 63 * 2 ^ (32 * k) := by ring
    have hright : 2 ^ (32 * k + 31) = 2 ^ 31 * 2 ^ (32 * k) := by ring
    have hdiv : (c * 2 ^ 31 + 2 ^ 32 * (c' + 2 ^ 32 * X)) / 2 ^ 63 =
        (c' / 2 ^ 31 * 2 ^ 31 + 2 ^ 32 * X) / 2 ^ 31 := by omega
    rw [hleft, hright, ← Nat.div_div_eq_div_mul, ← Nat.div_div_eq_div_mul, hdiv]
  constructor
  · intro h
    refine ⟨fun hand => h 0 ?_, fun k => ?_⟩
    · rw [hfirst]
      omega
    · rw [← hnext]
      exact h (k + 1)
  · rintro ⟨hhead, htail⟩ k
    cases k with
    | zero =>
      rw [hfirst]
      omega
    | succ k =>
      rw [hnext]
      exact htail k

theorem soundDoubling_shift : SoundDoubling (0 * 2 ^ 31 + 2 ^ 32 * X) ↔ SoundDoubling X := by
  have hnext : ∀ k, (0 * 2 ^ 31 + 2 ^ 32 * X) / 2 ^ (32 * (k + 1) + 31) = X / 2 ^ (32 * k + 31) := by
    intro k
    have hpow : 2 ^ (32 * (k + 1) + 31) = 2 ^ 32 * 2 ^ (32 * k + 31) := by ring
    rw [Nat.zero_mul, Nat.zero_add, hpow, Nat.mul_div_mul_left _ _ (by positivity)]
  constructor
  · intro h k
    rw [← hnext]
    exact h (k + 1)
  · intro h k
    cases k with
    | zero => omega
    | succ k =>
      rw [hnext]
      exact h k

@[simp] theorem doubleWords_nil : doubleWords [] [] Carry = [Carry] := by simp [doubleWords]

@[simp] theorem length_doubleWords : (doubleWords ws ws Carry).length = ws.length + 1 := by
  induction ws generalizing Carry with
  | nil => rw [doubleWords_nil]; rfl
  | cons w ws ih => rw [doubleWords, List.length_cons, ih, List.length_cons]

theorem doubleWords_parity (hc : Carry.toNat ≤ 1) :
    value (doubleWords ws ws Carry) % 2 = Carry.toNat := by
  cases ws with
  | nil =>
    rw [doubleWords_nil, value_cons, value_nil]
    omega
  | cons w ws =>
    have hhead := toNat_shift_or (w := w) hc
    rw [doubleWords, value_cons]
    omega

theorem doubleCarry_eq (hc : Carry.toNat ≤ 1) :
    (if (w <<< 1) ||| Carry < w then (1 : UInt32) else 0).toNat =
      if Carry.toNat = 1 ∧ w.toNat = 2 ^ 32 - 1 then 0 else w.toNat / 2 ^ 31 := by
  have hw := toNat_lt w
  have hhead := toNat_shift_or (w := w) hc
  have hone : (1 : UInt32).toNat = 1 := rfl
  have hzero : (0 : UInt32).toNat = 0 := rfl
  simp only [UInt32.lt_iff_toNat_lt, hhead]
  split
  · rw [hone]
    split <;> omega
  · rw [hzero]
    split <;> omega

theorem value_doubleWords_iff (hc : Carry.toNat ≤ 1) :
    value (doubleWords ws ws Carry) = 2 * value ws + Carry.toNat ↔
      SoundDoubling (Carry.toNat * 2 ^ 31 + 2 ^ 32 * value ws) := by
  induction ws generalizing Carry with
  | nil =>
    refine iff_of_true (by simp) ?_
    have hstep := @soundDoubling_step _ 0 0 hc (by decide)
    rw [value_nil]
    refine hstep.mpr ⟨by omega, fun k => ?_⟩
    simp
  | cons w ws ih =>
    have hw := toNat_lt w
    have hhead := toNat_shift_or (w := w) hc
    have hcarry := doubleCarry_eq (w := w) hc
    rw [doubleWords]
    generalize (if (w <<< 1) ||| Carry < w then (1 : UInt32) else 0) = Carry' at *
    have hCarry' : Carry'.toNat ≤ 1 := by
      rw [hcarry]
      split <;> omega
    have hparity := @doubleWords_parity _ ws hCarry'
    have hsplit : value (((w <<< 1) ||| Carry) :: doubleWords ws ws Carry') =
        2 * value (w :: ws) + Carry.toNat ↔
          value (doubleWords ws ws Carry') = 2 * value ws + w.toNat / 2 ^ 31 := by
      rw [value_cons, value_cons, hhead]
      omega
    rw [hsplit, value_cons, soundDoubling_step hc hw]
    by_cases hcorner : Carry.toNat = 1 ∧ w.toNat = 2 ^ 32 - 1
    · rw [if_pos hcorner] at hcarry
      exact iff_of_false (by omega) fun h => h.1 hcorner
    · rw [if_neg hcorner] at hcarry
      rw [← hcarry, ih hCarry']
      exact (and_iff_right hcorner).symm

theorem value_doubleWords_mod :
    value (doubleWords ws ws 0) % (2 ^ 32 * 2 ^ 32) = 2 * value ws % (2 ^ 32 * 2 ^ 32) := by
  have hzero : (0 : UInt32).toNat = 0 := rfl
  cases ws with
  | nil => rfl
  | cons w ws =>
    have hw := toNat_lt w
    have hhead := @toNat_shift_or w 0 (by decide)
    have hcarry := @doubleCarry_eq w 0 (by decide)
    rw [doubleWords]
    generalize (if (w <<< 1) ||| 0 < w then (1 : UInt32) else 0) = Carry' at *
    rw [hzero, if_neg (by omega)] at hcarry
    cases ws with
    | nil =>
      rw [doubleWords_nil, value_cons, value_cons, value_cons, value_nil]
      omega
    | cons w' ws =>
      have hw' := toNat_lt w'
      have hhead' := @toNat_shift_or w' Carry' (by rw [hcarry]; omega)
      rw [doubleWords, value_cons, value_cons, value_cons, value_cons]
      omega

theorem doubleWords_zeros {n : ℕ} :
    value (doubleWords (List.replicate n 0 ++ ws) (List.replicate n 0 ++ ws) 0) =
      (2 ^ 32) ^ n * value (doubleWords ws ws 0) := by
  induction n with
  | zero => simp
  | succ n ih =>
    have hcons : List.replicate (n + 1) (0 : UInt32) ++ ws = 0 :: (List.replicate n 0 ++ ws) := rfl
    rw [hcons, doubleWords, value_cons, pow_succ' (2 ^ 32 : ℕ), Nat.mul_assoc]
    have hrest : (if ((0 : UInt32) <<< 1) ||| 0 < 0 then (1 : UInt32) else 0) = 0 := rfl
    rw [hrest, ih]
    show 0 + _ = _
    omega

end Doubling

section Square

variable {x z : BIG_INTEGER} {st : Statics}

theorem Normalized.words_ne (hx : Normalized x) : x.words ≠ [] := by
  apply List.ne_nil_of_length_pos
  rw [hx.length_words]
  exact hx.arrayLength_pos

theorem Normalized.log_lt (hx : Normalized x) {n : ℕ} (hn : n ≠ 0) (h : x.magnitude < 256 ^ n) :
    x.IntegerLength ≤ n := by
  rw [hx.integerLength]
  by_cases hz : x.magnitude = 0
  · rw [hz]
    show 0 + 1 ≤ n
    omega
  · exact Nat.log_lt_of_lt_pow hz h

theorem magnitude_of_array {R : BIG_INTEGER} {out : List UInt32}
    (h : value out < (2 ^ 32) ^ R.ArrayLength) :
    BIG_INTEGER.magnitude { R with pIntegerArray := out } = value out := by
  show value (out.take R.ArrayLength) = _
  rw [value_take]
  exact Nat.mod_eq_of_lt h

theorem doubleCopy_spec {O R : BIG_INTEGER} (hO : Normalized O) (hwords : O.words = R.words)
    (hroom : O.ArrayLength < O.pIntegerArray.length) :
    ∃ r, doubleCopy O R = some r ∧ Normalized r ∧
      r.magnitude = value (doubleWords R.words R.words 0) ∧
      r.Signed = (if r.magnitude = 0 then 1 else O.Signed) ∧
      r.IntegerLength ≤ 4 * (O.ArrayLength + 1) := by
  have hlen : (doubleWords R.words R.words 0).length = O.ArrayLength + 1 := by
    rw [length_doubleWords, ← hwords, hO.length_words]
  have harray := @length_setWords O (doubleWords R.words R.words 0) (by omega)
  rw [doubleCopy, if_neg (by omega), hwords]
  obtain ⟨r, hr, hnorm, hmag, -, hsigned⟩ :=
    clearHighBits_spec
      (x := { O.setWords (doubleWords R.words R.words 0) with
        IntegerLength := O.IntegerLength + 1, ArrayLength := O.ArrayLength + 1 })
      (Nat.succ_pos _) (by rw [harray]; exact hroom) hO.sign
  have hmag' : r.magnitude = value (doubleWords R.words R.words 0) := by
    rw [hmag]
    show value (List.take (O.ArrayLength + 1) (_ ++ _)) = _
    rw [← hlen, List.take_left]
  rw [← hmag] at hsigned
  refine ⟨r, hr, hnorm, hmag', hsigned, ?_⟩
  apply hnorm.log_lt (by omega)
  rw [hmag', ← base_pow, ← hlen]
  exact value_lt _

structure Parts (x z : BIG_INTEGER) (R O S : BIG_INTEGER) : Prop where
  result : Normalized R
  resultMagnitude : R.magnitude = crosses x.words
  resultSigned : R.Signed =
    if crosses x.words = 0 then 1 else (BigInteger_AllocSize z (x.IntegerLength * 2 + 20)).Signed
  copy : Normalized O
  copyMagnitude : O.magnitude = value (doubleWords R.words R.words 0)
  copySigned : O.Signed = if O.magnitude = 0 then 1 else R.Signed
  squaresFit : S.ArrayLength ≤ S.pIntegerArray.length
  squaresLength : S.ArrayLength = (x.IntegerLength * 2 + 20 + 3) / 4
  squaresInteger : S.IntegerLength = x.IntegerLength * 2 + 20
  squaresMagnitude : S.magnitude = squares x.words
  squaresSmall : S.magnitude < 256 ^ S.IntegerLength
  squaresSigned : S.Signed = 1
  resultShort : R.ArrayLength ≤ (x.IntegerLength * 2 + 3) / 4
  copyShort : O.IntegerLength < S.IntegerLength

theorem square_eq (hx : Normalized x) (hne : x.magnitude ≠ 0) (hz : z.Signed = 1 ∨ z.Signed = -1)
    (hS : st.pBI_S.Signed = 1) :
    ∃ R O S, Parts x z R O S ∧
      BigInteger_Square x z st =
        (BigInteger_Add O S R).bind fun R =>
          (BigInteger_ClearHighBits { R with Signed := 1 }).bind fun R =>
            some (R, { st with pBI_S := S, pBI_O := O }) := by
  have hlen := hx.arrayLength
  have hpos := hx.integerLength_pos
  have hsum := value_mul_self x.words
  have hsquare : x.magnitude * x.magnitude < 256 ^ (x.IntegerLength * 2) := by
    rw [Nat.mul_comm x.IntegerLength, Nat.two_mul, Nat.pow_add]
    exact Nat.mul_lt_mul'' hx.magnitude_lt hx.magnitude_lt
  have hsquares : squares x.words < (2 ^ 32) ^ ((x.IntegerLength * 2 + 20 + 3) / 4) := by
    rw [base_pow]
    refine Nat.lt_of_le_of_lt ?_ (hsquare.trans_le (Nat.pow_le_pow_right (by decide) (by omega)))
    rw [BIG_INTEGER.magnitude]
    omega
  have hcrosses : crosses x.words < 256 ^ (x.IntegerLength * 2) := by
    refine Nat.lt_of_le_of_lt ?_ hsquare
    rw [BIG_INTEGER.magnitude]
    omega
  have hcrosses' : crosses x.words < (2 ^ 32) ^ ((x.IntegerLength * 2 + 20 + 3) / 4) := by
    rw [base_pow]
    exact hcrosses.trans_le (Nat.pow_le_pow_right (by decide) (by omega))
  have hzero : ¬ (x.IntegerLength = 1 ∧ x.pIntegerArray.headD 0 = 0) :=
    fun h => hne ((hx.is_byte_iff (w := 0) (by decide)).mp h)
  have hR0sign := @allocSize_sign _ (x.IntegerLength * 2 + 20) hz
  have hS0sign : (BigInteger_AllocSize st.pBI_S (x.IntegerLength * 2 + 20)).Signed = 1 := by
    rw [allocSize_eq (by omega), hS]
    exact ite_self _
  obtain ⟨hR0len, -, hR0fits, hR0zero⟩ :=
    @allocSize_spec z (x.IntegerLength * 2 + 20) (by omega)
  obtain ⟨hS0len, hS0int, hS0fits, hS0zero⟩ :=
    @allocSize_spec st.pBI_S (x.IntegerLength * 2 + 20) (by omega)
  obtain ⟨-, -, hO0fits, -⟩ :=
    @allocSize_spec st.pBI_O (x.IntegerLength * 2 + 20) (by omega)
  rw [BigInteger_Square, if_neg hx.pIntegerArray_ne, if_neg hzero, if_neg (Nat.not_lt_of_le hx.fits)]
  generalize hR0 : BigInteger_AllocSize z (x.IntegerLength * 2 + 20) = R0 at *
  generalize BigInteger_AllocSize st.pBI_S (x.IntegerLength * 2 + 20) = S0 at *
  generalize BigInteger_AllocSize st.pBI_O (x.IntegerLength * 2 + 20) = O0 at *
  obtain ⟨sq, hsq, hsqvalue, hsqlen⟩ :=
    @squareWords_spec x.words _ (by rw [hx.length_words]; omega) hS0zero
  obtain ⟨pr, hpr, hprvalue, hprlen⟩ :=
    crossWords_spec hx.words_ne hR0zero (by rw [hx.length_words]; omega)
  have hprmag : BIG_INTEGER.magnitude { R0 with pIntegerArray := pr } = crosses x.words := by
    rw [magnitude_of_array (by rw [hprvalue, hR0len]; exact hcrosses'), hprvalue]
  obtain ⟨R, hR, hRnorm, hRmag, -, hRsigned⟩ :=
    clearHighBits_spec (x := { R0 with pIntegerArray := pr }) (by show 0 < R0.ArrayLength; omega)
      (by show R0.ArrayLength ≤ pr.length; omega) hR0sign
  rw [hprmag] at hRmag hRsigned
  have hRshort : R.IntegerLength ≤ x.IntegerLength * 2 := hRnorm.log_lt (by omega) (by rw [hRmag]; exact hcrosses)
  have hRlen := hRnorm.arrayLength
  obtain ⟨O1, hO1, hO1norm, hO1words, hO1signed, -, hO1len, hO1array⟩ := hRnorm.copy (y := O0)
  obtain ⟨O, hO, hOnorm, hOmag, hOsigned, hOint⟩ :=
    doubleCopy_spec hO1norm hO1words (by omega)
  have hsqmag : BIG_INTEGER.magnitude { S0 with pIntegerArray := sq } = squares x.words := by
    rw [magnitude_of_array (by rw [hsqvalue, hS0len]; exact hsquares), hsqvalue]
  refine ⟨R, O, { S0 with pIntegerArray := sq }, ⟨hRnorm, hRmag, by rw [hR0]; exact hRsigned, hOnorm,
    hOmag, ?_, ?_, hS0len, hS0int, hsqmag, ?_, hS0sign, ?_, ?_⟩, ?_⟩
  · rw [hOsigned, hO1signed]
  · show S0.ArrayLength ≤ sq.length
    omega
  · rw [hsqmag]
    show squares x.words < 256 ^ S0.IntegerLength
    rw [hS0int]
    refine Nat.lt_of_le_of_lt ?_ (hsquare.trans_le (Nat.pow_le_pow_right (by decide) (by omega)))
    rw [BIG_INTEGER.magnitude]
    omega
  · omega
  · show O.IntegerLength < S0.IntegerLength
    omega
  · simp only [hsq, hpr, hR, hO1, hO, Option.bind_eq_bind, Option.bind_some]

variable {R O S : BIG_INTEGER}

theorem Parts.squaresPos (h : Parts x z R O S) : 0 < S.ArrayLength := by
  rw [h.squaresLength]
  omega

theorem Parts.compare (h : Parts x z R O S) : BigInteger_UnsignedCompare O S = some (-1) := by
  have hshort := h.copyShort
  rw [BigInteger_UnsignedCompare, if_neg (by omega), if_pos hshort]

theorem Parts.notNull (h : Parts x z R O S) : ¬ (O.pIntegerArray = [] ∨ S.pIntegerArray = []) := by
  have hS : 0 < S.pIntegerArray.length := h.squaresPos.trans_le h.squaresFit
  rintro (hnil | hnil)
  · exact h.copy.pIntegerArray_ne hnil
  · rw [hnil] at hS
    exact absurd hS (by decide)

theorem Parts.add_positive (h : Parts x z R O S) (hO : O.Signed = 1) :
    ∃ r, BigInteger_Add O S R = some r ∧ Normalized r ∧ r.magnitude = O.magnitude + squares x.words := by
  obtain ⟨r, hr, hnorm, hmag, -⟩ :=
    sumOf_spec (z := R) h.copy.fits h.copy.magnitude_lt h.squaresFit h.squaresSmall (.inl hO)
  rw [BigInteger_Add, if_neg h.notNull, h.compare, Option.bind_eq_bind, Option.bind_some, hO,
    h.squaresSigned, if_neg (by decide), if_pos (by decide), ← h.squaresMagnitude]
  exact ⟨r, hr, hnorm, hmag⟩

theorem differenceOf_positive {y : BIG_INTEGER} (hpos : 0 < x.IntegerLength)
    (hlen : x.ArrayLength = (x.IntegerLength + 3) / 4) (hfits : x.ArrayLength ≤ x.pIntegerArray.length)
    (hx : x.Signed = 1) (hy : Normalized y) (hy1 : y.Signed = 1) :
    ∃ r, differenceOf 1 x y z = some r ∧ Normalized r ∧
      r.magnitude = value (subWords x.words y.words 0) := by
  obtain ⟨p, hp, hpwords, hpsigned, hpint, hplen, hparray⟩ :=
    copy_eq (y := BigInteger_Init) hpos hlen hfits
  obtain ⟨q, hq, -, hqwords, -, -, -, -⟩ := hy.copy (y := BigInteger_Init)
  have hpfits : p.ArrayLength ≤ p.pIntegerArray.length := by
    rw [hplen, hparray]
    exact Nat.le_max_right _ _
  obtain ⟨R, hR, hRwords, hRsigned, -, hRlen, hRarray⟩ :=
    copy_eq (x := p) (y := z) (by omega) (by rw [hplen, hpint, hlen]) hpfits
  have hwritten : (subWords x.words y.words 0).length = R.ArrayLength := by
    rw [length_subWords, length_words hfits, hRlen, hplen]
  obtain ⟨r, hr, hnorm, hmag, -, -⟩ :=
    clear_setWords (x := R) (s := R.Signed) (by omega)
      (by rw [hRarray, hRlen]; exact Nat.le_max_right _ _) hwritten
      (by rw [hRsigned, hpsigned]; exact .inl hx)
  refine ⟨r, ?_, hnorm, hmag⟩
  rw [← hr]
  simp only [differenceOf, if_true, hp, hq, hR, Option.bind_eq_bind, Option.bind_some, hRwords,
    hpwords, hqwords]
  rw [if_neg]
  · rfl
  · rw [hx, hy1]
    decide

theorem Parts.add_negative (h : Parts x z R O S) (hO : O.Signed = -1) :
    ∃ r, BigInteger_Add O S R = some r ∧ Normalized r ∧
      r.magnitude = value (subWords S.words O.words 0) := by
  have hshort := h.copyShort
  obtain ⟨t, ht, htnorm, htwords, -, htint, -, -⟩ := h.copy.copy (y := BigInteger_Init)
  have hSlen : S.ArrayLength = (S.IntegerLength + 3) / 4 := by
    rw [h.squaresLength, h.squaresInteger]
  obtain ⟨r, hr, hnorm, hmag⟩ :=
    differenceOf_positive (z := R) (y := { t with Signed := 1 }) (by omega) hSlen h.squaresFit
      h.squaresSigned (htnorm.withSign (.inl rfl)) rfl
  have hcompare : BigInteger_UnsignedCompare S { t with Signed := 1 } = some 1 := by
    rw [BigInteger_UnsignedCompare, if_pos]
    show t.IntegerLength < S.IntegerLength
    omega
  have hnull : ¬ (S.pIntegerArray = [] ∨ t.pIntegerArray = []) := fun hor =>
    hor.elim (fun hnil => h.notNull (.inr hnil)) htnorm.pIntegerArray_ne
  refine ⟨r, ?_, hnorm, ?_⟩
  · rw [BigInteger_Add, if_neg h.notNull, h.compare, Option.bind_eq_bind, Option.bind_some, hO,
      h.squaresSigned, if_neg (by decide), if_neg (by decide), if_neg (by decide), if_pos ⟨rfl, rfl⟩,
      ht, Option.bind_eq_bind, Option.bind_some, subOneSign, if_neg hnull, hcompare,
      Option.bind_eq_bind, Option.bind_some, if_neg (by decide)]
    exact hr
  · rw [hmag, ← htwords]
    rfl

end Square

end Ralink.BigInteger
