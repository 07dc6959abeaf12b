import Ralink.BigInteger.Div

/-! A division on the numbers alone: the digit that is taken at each place, with the bytes as they
are read. Where no digit is too large and no borrow is misjudged, quotient and remainder are right.
-/
namespace Ralink.BigInteger
open Words

def secondHighByte (b : ℕ) : ℕ := byteRead b (byteLength b)

def mulStart (b rem Index : ℕ) : ℕ :=
  byteRead rem (byteLength b + Index) * 256 + byteRead rem (byteLength b + Index - 1)

def Passed (b rem Index : ℕ) : Prop :=
  ¬ (byteLength rem ≤ byteLength b + Index ∧ byteLength b + Index - byteLength rem ≤ 1) ∨
    mulStart b rem Index < secondHighByte b

instance (b rem Index : ℕ) : Decidable (Passed b rem Index) := by unfold Passed; infer_instance

def estimate (b rem Index : ℕ) : ℕ := min (mulStart b rem Index / secondHighByte b) 0x100

/-- From the estimate on, the first digit whose product is not below the remainder; `bw` is the
divisor at its place. -/
def foundDigit (b rem Index bw : ℕ) : ℕ := max (estimate b rem Index) ((rem + bw - 1) / bw)

/-- A digit that is one, or none at all, leaves the remainder. -/
def takenOf (found rem bw : ℕ) : ℕ :=
  if 1 < found then (if rem = found * bw then found else found - 1) else 0

def takenDigit (b rem Index : ℕ) : ℕ :=
  if Passed b rem Index then 0
  else takenOf (foundDigit b rem Index (b * 256 ^ (Index - 1))) rem (b * 256 ^ (Index - 1))

/-- The digit is found before the search ends, its product is not above the remainder, and the
difference is sound. For the highest byte of a word the search ends one earlier. -/
structure SoundDigit (b rem Index : ℕ) : Prop where
  found : ¬ Passed b rem Index →
    foundDigit b rem Index (b * 256 ^ (Index - 1)) ≤ if Index % 4 = 0 then 0x100 else 0x101
  enough : takenDigit b rem Index * (b * 256 ^ (Index - 1)) ≤ rem
  sound : SoundDifference (numberWords rem)
    (numberWords (takenDigit b rem Index * (b * 256 ^ (Index - 1))))

/-- From a place on, every digit is sound and the last remainder is below the divisor. The first
digit that is taken goes to a quotient of `limit` bytes which, when `limit` is not zero, is a zero
with a negative sign; its number, of `Index + 2` bytes, must not be the shorter one. -/
def SoundDivision (b : ℕ) : ℕ → ℕ → ℕ → Prop
  | _, 0, rem => rem < b
  | limit, Index + 1, rem =>
    rem < b ∨ (SoundDigit b rem (Index + 1) ∧
      (takenDigit b rem (Index + 1) ≠ 0 → limit ≤ Index + 2) ∧
      SoundDivision b (if takenDigit b rem (Index + 1) = 0 then limit else 0) Index
        (rem - takenDigit b rem (Index + 1) * (b * 256 ^ Index)))

instance (b rem Index : ℕ) : Decidable (SoundDigit b rem Index) :=
  decidable_of_iff
    ((¬ Passed b rem Index →
        foundDigit b rem Index (b * 256 ^ (Index - 1)) ≤ if Index % 4 = 0 then 0x100 else 0x101) ∧
      takenDigit b rem Index * (b * 256 ^ (Index - 1)) ≤ rem ∧
      SoundDifference (numberWords rem)
        (numberWords (takenDigit b rem Index * (b * 256 ^ (Index - 1)))))
    ⟨fun h => ⟨h.1, h.2.1, h.2.2⟩, fun h => ⟨h.found, h.enough, h.sound⟩⟩

def decideDivision (b : ℕ) : ∀ limit Index rem, Decidable (SoundDivision b limit Index rem)
  | _, 0, rem => inferInstanceAs (Decidable (rem < b))
  | limit, Index + 1, rem =>
    have := decideDivision b (if takenDigit b rem (Index + 1) = 0 then limit else 0) Index
      (rem - takenDigit b rem (Index + 1) * (b * 256 ^ Index))
    show Decidable (_ ∨ _ ∧ _ ∧ _) from inferInstance

instance (b limit Index rem : ℕ) : Decidable (SoundDivision b limit Index rem) :=
  decideDivision b limit Index rem

section Digits

variable {n Index i s m : Nat} {low high : UInt32}

def mulBI (n Index i : Nat) (low high : UInt32) : BIG_INTEGER where
  pIntegerArray := ((List.replicate n 0).set i low).set (i + 1) high
  ArrayLength := (Index + 4) / 4
  IntegerLength := Index + 1
  Signed := 1

theorem set_replicate_zero (n i : Nat) : (List.replicate n (0 : UInt32)).set i 0 = List.replicate n 0 := by
  rw [List.set_replicate_self]

theorem mulBI_blank (n Index i : Nat) :
    mulBI n Index i 0 0 = ⟨List.replicate n 0, (Index + 4) / 4, Index + 1, 1⟩ := by
  rw [mulBI, set_replicate_zero, set_replicate_zero]

theorem store_low (h : i < n) (w : UInt32) :
    (mulBI n Index i low high).store i w = some (mulBI n Index i w high) := by
  rw [BIG_INTEGER.store, mulBI]
  simp only [List.length_set, List.length_replicate, h, if_true]
  rw [List.set_comm _ _ (by omega), List.set_set, mulBI]

theorem store_high (h : i + 1 < n) (w : UInt32) :
    (mulBI n Index i low high).store (i + 1) w = some (mulBI n Index i low w) := by
  rw [BIG_INTEGER.store, mulBI]
  simp only [List.length_set, List.length_replicate, h, if_true]
  rw [List.set_set, mulBI]

theorem mulBI_magnitude (hi : i < (Index + 4) / 4) (hn : (Index + 4) / 4 ≤ n)
    (hhigh : i + 1 < (Index + 4) / 4 ∨ high = 0) :
    (mulBI n Index i low high).magnitude = (2 ^ 32) ^ i * (low.toNat + 2 ^ 32 * high.toNat) := by
  have htake : (mulBI n Index i low high).words =
      ((List.replicate ((Index + 4) / 4) 0).set i low).set (i + 1) high := by
    rw [BIG_INTEGER.words, mulBI, List.take_set, List.take_set, List.take_replicate,
      Nat.min_eq_left hn]
  have hlow := @value_set low (List.replicate ((Index + 4) / 4) 0) i
    (by rw [List.length_replicate]; exact hi)
  rw [List.getElem_replicate, value_zeros, UInt32.toNat_zero, Nat.mul_zero, Nat.zero_add,
    Nat.add_zero] at hlow
  rw [BIG_INTEGER.magnitude, htake]
  obtain hroom | rfl := hhigh
  · have hset := @value_set high ((List.replicate ((Index + 4) / 4) 0).set i low) (i + 1)
      (by rw [List.length_set, List.length_replicate]; exact hroom)
    rw [List.getElem_set_ne (by omega), List.getElem_replicate, hlow, UInt32.toNat_zero,
      Nat.mul_zero, Nat.add_zero, pow_succ (2 ^ 32 : ℕ)] at hset
    rw [hset, Nat.mul_add, Nat.mul_assoc]
  · rw [List.set_comm _ _ (by omega), set_replicate_zero, hlow, UInt32.toNat_zero, Nat.mul_zero,
      Nat.add_zero]

def digitHigh (MulIndex ShiftIndex : Nat) : UInt32 := if MulIndex > 0xff ∧ ShiftIndex = 3 then 1 else 0

theorem digitWord_value (hm : m ≤ 0x101) (hs : s ≤ 3) :
    (digitWord m s).toNat + 2 ^ 32 * (digitHigh m s).toNat = m * 256 ^ s := by
  have hword : (digitWord m s).toNat = m * 256 ^ s % 2 ^ 32 := by
    rw [digitWord, UInt32.toNat_shiftLeft, UInt32.toNat_ofNat', UInt32.toNat_ofNat',
      Nat.shiftLeft_eq, Nat.mod_eq_of_lt (a := m) (by omega), Nat.mod_eq_of_lt (a := 8 * s) (by omega),
      Nat.mod_eq_of_lt (a := 8 * s) (by omega), Nat.pow_mul]
  rw [hword, digitHigh]
  interval_cases s
  · rw [if_neg (by omega)]
    simp only [UInt32.toNat_zero]
    omega
  · rw [if_neg (by omega)]
    simp only [UInt32.toNat_zero]
    omega
  · rw [if_neg (by omega)]
    simp only [UInt32.toNat_zero]
    omega
  · split
    · simp only [UInt32.toNat_one]
      omega
    · simp only [UInt32.toNat_zero]
      omega

structure Place (Index i s : Nat) : Prop where
  pos : 0 < Index
  word : i = (Index - 1) / 4
  shift : s = (Index - 1) % 4

section

variable (h : Place Index i s)
include h

theorem Place.shift_eq_three : s = 3 ↔ Index % 4 = 0 := by
  have hpos := h.pos
  rw [h.shift]
  omega

theorem Place.room (h3 : s = 3) : i + 1 < (Index + 4) / 4 := by
  have hmod := h.shift_eq_three.mp h3
  have hpos := h.pos
  rw [h.word]
  omega

theorem Place.word_lt : i < (Index + 4) / 4 := by
  rw [h.word]
  omega

theorem Place.weight : (2 ^ 32) ^ i * 256 ^ s = 256 ^ (Index - 1) := by
  rw [base_pow, ← Nat.pow_add]
  congr 1
  rw [h.word, h.shift]
  omega

theorem Place.digit_magnitude (hn : (Index + 4) / 4 ≤ n) (hm : m ≤ 0x101) :
    (mulBI n Index i (digitWord m s) (digitHigh m s)).magnitude = m * 256 ^ (Index - 1) := by
  have hhigh : i + 1 < (Index + 4) / 4 ∨ digitHigh m s = 0 := by
    by_cases h3 : s = 3
    · exact .inl (h.room h3)
    · exact .inr (if_neg fun hc => h3 hc.2)
  have hs : s ≤ 3 := by
    rw [h.shift]
    omega
  rw [mulBI_magnitude h.word_lt hn hhigh, digitWord_value hm hs, ← h.weight]
  ring

theorem Place.digit_sized (hn : (Index + 4) / 4 ≤ n) (hm : m ≤ 0x101) :
    Sized (mulBI n Index i (digitWord m s) (digitHigh m s)) := by
  refine ⟨?_, Nat.succ_pos Index, rfl, ?_⟩
  · show (Index + 4) / 4 ≤ (((List.replicate n (0 : UInt32)).set i _).set (i + 1) _).length
    rw [List.length_set, List.length_set, List.length_replicate]
    exact hn
  · have hpos := h.pos
    rw [h.digit_magnitude hn hm]
    calc m * 256 ^ (Index - 1)
        < 256 ^ 2 * 256 ^ (Index - 1) := Nat.mul_lt_mul_of_pos_right (by omega) (by positivity)
      _ = 256 ^ (Index + 1) := by rw [← Nat.pow_add]; congr 1; omega

end

end Digits

section Turn

variable {B z M T : BIG_INTEGER} {d : Division} {b q r v i s n m e Index limit : Nat}
  (rest : List Nat) {A : BIG_INTEGER} {SecondHighByte : UInt8} {ComputeSize : Nat}

theorem mul_sized (hB : Normalized B) (hB1 : B.Signed = 1) (hb : 1 < B.magnitude) (hM : Sized M)
    (hM1 : M.Signed = 1) (hlen : M.IntegerLength ≠ 1) :
    ∃ t, BigInteger_Mul B M z = some t ∧ Normalized t ∧ t.magnitude = B.magnitude * M.magnitude ∧
      t.Signed = 1 := by
  have hzero := hB.is_byte_iff (w := 0) (by decide)
  have hone := hB.is_byte_iff (w := 1) (by decide)
  have hb0 : ¬ B.magnitude = (0 : UInt32).toNat := by
    show ¬ B.magnitude = 0
    omega
  have hb1 : ¬ B.magnitude = (1 : UInt32).toNat := by
    show ¬ B.magnitude = 1
    omega
  have hnull : ¬ (B.pIntegerArray = [] ∨ M.pIntegerArray = []) := fun h =>
    h.elim hB.pIntegerArray_ne hM.pIntegerArray_ne
  obtain ⟨t, ht, hpos, hfits, hmag⟩ := mulWords_general (z := z) hB.sized hM
  obtain ⟨r, hr, hnorm, hrmag, -, hsigned⟩ :=
    clearHighBits_spec (x := { t with Signed := 1 }) hpos hfits (.inl rfl)
  refine ⟨r, ?_, hnorm, hrmag.trans hmag, by rw [hsigned, ite_self]⟩
  rw [BigInteger_Mul, if_neg hnull, mulWords,
    if_neg (not_or.mpr ⟨fun h => hb0 (hzero.mp h), fun h => hlen h.1⟩),
    if_neg fun h => hb1 (hone.mp h), if_neg fun h => hlen h.1, ht, Option.bind_eq_bind,
    Option.bind_some, hB1, hM1]
  exact hr

structure Dividing (limit q r : ℕ) (d : Division) : Prop where
  result : Sized d.pBI_Result
  resultSigned : d.pBI_Result.Signed = 1 ∨
    (d.pBI_Result.Signed = -1 ∧ q = 0 ∧ d.pBI_Result.IntegerLength ≤ limit)
  resultMagnitude : d.pBI_Result.magnitude = q
  remainder : Normalized d.pBI_Remainder
  remainderInt : d.pBI_Remainder.toInt = r
  temp : d.pTempBI.Signed = 1 ∨ d.pTempBI.Signed = -1
  temp2 : d.pTempBI2.Signed = 1 ∨ d.pTempBI2.Signed = -1
  mul : d.pMulBI.Signed = 1

theorem Normalized.of_toInt {x : BIG_INTEGER} (hx : Normalized x) (h : x.toInt = r) :
    x.magnitude = r ∧ (0 < r → x.Signed = 1) := by
  obtain hs | hs := hx.sign
  · rw [toInt_pos hs] at h
    exact ⟨Nat.cast_inj.mp h, fun _ => hs⟩
  · rw [toInt_neg hs] at h
    constructor
    · omega
    · intro hr
      omega

theorem Dividing.remainderMagnitude (h : Dividing limit q r d) : d.pBI_Remainder.magnitude = r :=
  (h.remainder.of_toInt h.remainderInt).1

theorem Dividing.add_digit (h : Dividing limit q r d) (hM : Sized d.pMulBI)
    (hpos : 0 < d.pMulBI.magnitude) (hlimit : limit ≤ d.pMulBI.IntegerLength) :
    ∃ s, BigInteger_Add d.pBI_Result d.pMulBI z = some s ∧ Normalized s ∧ s.Signed = 1 ∧
      s.magnitude = q + d.pMulBI.magnitude := by
  obtain hs | ⟨hs, hq, hle⟩ := h.resultSigned
  · obtain ⟨c, hc⟩ := unsignedCompare_isSome h.result hM
    obtain ⟨s, hsum, hnorm, hmag, hsigned⟩ :=
      sumOf_spec (z := z) h.result.fits h.result.magnitude_lt hM.fits hM.magnitude_lt (.inl hs)
    have hnull : ¬ (d.pBI_Result.pIntegerArray = [] ∨ d.pMulBI.pIntegerArray = []) := fun hn =>
      hn.elim h.result.pIntegerArray_ne hM.pIntegerArray_ne
    refine ⟨s, ?_, hnorm, ?_, ?_⟩
    · rw [BigInteger_Add, if_neg hnull, hc, Option.bind_eq_bind, Option.bind_some, hs, h.mul,
        if_neg (by simp), if_pos (by decide)]
      exact hsum
    · rw [hsigned, hs, ite_self]
    · rw [hmag, h.resultMagnitude]
  · obtain ⟨s, hsum, hnorm, hmag, hsigned⟩ :=
      add_to_zero (z := z) h.result (h.resultMagnitude.trans hq) hs hM h.mul hpos (hle.trans hlimit)
    exact ⟨s, hsum, hnorm, hsigned, by rw [hmag, hq, Nat.zero_add]⟩

structure Divisor (B : BIG_INTEGER) : Prop extends Normalized B where
  positive : B.Signed = 1
  one_lt : 1 < B.magnitude

abbrev BIG_INTEGER.placed (B : BIG_INTEGER) (Index : ℕ) : ℕ := B.magnitude * 256 ^ (Index - 1)

structure Takes (B : BIG_INTEGER) (limit r Index v : ℕ) : Prop where
  limit : v ≠ 0 → limit ≤ Index + 1
  enough : v * B.placed Index ≤ r
  sound : SoundDifference (numberWords r) (numberWords (v * B.placed Index))

abbrev DigitTaken (B : BIG_INTEGER) (limit q r Index v : ℕ) : Division → Prop :=
  Dividing (if v = 0 then limit else 0) (q + v * 256 ^ (Index - 1)) (r - v * B.placed Index)

theorem Dividing.noDigit (h : Dividing limit q r d) : DigitTaken B limit q r Index 0 d := by
  rw [DigitTaken, if_pos rfl, Nat.zero_mul, Nat.zero_mul, Nat.add_zero, Nat.sub_zero]
  exact h

theorem takeDigit_spec (h : Dividing limit q r d) (hB : Divisor B)
    (hM : Sized d.pMulBI) (hlen : d.pMulBI.IntegerLength ≠ 1)
    (hpos : 0 < d.pMulBI.magnitude) (hlimit : limit ≤ d.pMulBI.IntegerLength)
    (hle : B.magnitude * d.pMulBI.magnitude ≤ r) (hr : 0 < r)
    (hsound : SoundDifference (numberWords r) (numberWords (B.magnitude * d.pMulBI.magnitude))) :
    ∃ d', takeDigit B d = some d' ∧
      Dividing 0 (q + d.pMulBI.magnitude) (r - B.magnitude * d.pMulBI.magnitude) d' := by
  have hr1 := (h.remainder.of_toInt h.remainderInt).2 hr
  obtain ⟨t, ht, htnorm, htmag, ht1⟩ :=
    mul_sized (z := d.pTempBI) hB.toNormalized hB.positive hB.one_lt hM h.mul hlen
  obtain ⟨t2, ht2, ht2norm, ht2int⟩ := sub_spec h.remainder htnorm h.temp2
  obtain ⟨R, hR, hRnorm, hRwords, hRsigned, -, -, -⟩ := ht2norm.copy (y := d.pBI_Remainder)
  obtain ⟨s, hs, hsnorm, hssigned, hsmag⟩ := h.add_digit (z := t2) hM hpos hlimit
  obtain ⟨Q, hQ, hQnorm, hQwords, hQsigned, -, -, -⟩ := hsnorm.copy (y := d.pBI_Result)
  have hwords : t.words = numberWords (B.magnitude * d.pMulBI.magnitude) := by
    rw [htnorm.words_eq, htmag]
  have hexact : t2.toInt = ((r - B.magnitude * d.pMulBI.magnitude : ℕ) : ℤ) := by
    have hsub := ht2int.mpr (.inr ⟨by
      rw [hwords, h.remainder.words_eq, h.remainderMagnitude]
      exact hsound, fun hneg => absurd (hr1.symm.trans hneg.1) (by decide)⟩)
    rw [hsub, h.remainderInt, toInt_pos ht1, htmag, Nat.cast_sub hle]
  refine ⟨⟨Q, R, t, s, d.pMulBI⟩, ?_, ?_⟩
  · simp only [takeDigit, Option.bind_eq_bind, ht, Option.bind_some, ht2, hR, hs, hQ]
  · refine ⟨hQnorm.sized, .inl ?_, ?_, hRnorm, ?_, .inl ht1, hsnorm.sign, h.mul⟩
    · rw [hQsigned, hssigned]
    · rw [magnitude_of_words hQwords, hsmag]
    · rw [BIG_INTEGER.toInt, hRsigned, magnitude_of_words hRwords]
      exact hexact

theorem compareNat_lt_one {x y : ℕ} : compareNat x y < 1 ↔ x ≤ y := by
  unfold compareNat
  split
  · omega
  · split <;> omega

theorem Dividing.withScratch (h : Dividing limit q r d) (hT : Normalized T) (hM : M.Signed = 1) :
    Dividing limit q r { d with pTempBI := T, pMulBI := M } :=
  ⟨h.result, h.resultSigned, h.resultMagnitude, h.remainder, h.remainderInt, hT.sign, h.temp2, hM⟩

theorem store_digit (hp : Place Index i s) (hn : (Index + 4) / 4 ≤ n) :
    ((mulBI n Index i 0 0).storeIf (m > 0xff ∧ s = 3) (i + 1) 1).bind
        (fun M => M.store i (digitWord m s)) =
      some (mulBI n Index i (digitWord m s) (digitHigh m s)) := by
  have hi := hp.word_lt
  by_cases hhigh : m > 0xff ∧ s = 3
  · have hroom := hp.room hhigh.2
    rw [BIG_INTEGER.storeIf, if_pos hhigh, store_high (by omega), Option.bind_some,
      store_low (by omega), digitHigh, if_pos hhigh]
  · rw [BIG_INTEGER.storeIf, if_neg hhigh, Option.bind_some, store_low (by omega), digitHigh,
      if_neg hhigh]

section

variable (h : Dividing limit q r d)
include h

theorem search_cons (hB : Divisor B) (hp : Place Index i s) (hn : (Index + 4) / 4 ≤ n)
    (hm : m ≤ 0x101) (hblank : d.pMulBI = mulBI n Index i 0 0) :
    ∃ t, Normalized t ∧
      searchDigit B s (m :: rest) i d =
        let M := mulBI n Index i (digitWord m s) (digitHigh m s)
        if r ≤ m * B.placed Index then
          if m > 1 then
            (stepBack m i s (compareNat r (m * B.placed Index)) M).bind fun M =>
              takeDigit B { d with pTempBI := t, pMulBI := M }
          else some { d with pTempBI := t, pMulBI := M }
        else
          (M.storeIf (m ≥ 0x100 ∧ s = 3) i 0).bind fun M =>
            let i := if m ≥ 0x100 ∧ s = 3 then i + 1 else i
            (M.store i 0).bind fun M =>
              searchDigit B s rest i { d with pTempBI := t, pMulBI := M } := by
  have hpos := hp.pos
  have hsized := hp.digit_sized hn hm
  obtain ⟨t, ht, htnorm, htmag, -⟩ :=
    mul_sized (z := d.pTempBI) hB.toNormalized hB.positive hB.one_lt hsized rfl
      (by show Index + 1 ≠ 1; omega)
  have hproduct : t.magnitude = m * B.placed Index := by
    rw [htmag, hp.digit_magnitude hn hm]
    ring
  have hcompare := unsignedCompare_eq h.remainder htnorm
  rw [h.remainderMagnitude, hproduct] at hcompare
  have hstore := store_digit (m := m) hp hn
  refine ⟨t, htnorm, ?_⟩
  rw [searchDigit, hblank, Option.bind_eq_bind, Option.bind_eq_bind, ← Option.bind_assoc, hstore,
    Option.bind_some, ht, Option.bind_some, hcompare, Option.bind_some]
  simp only [compareNat_lt_one]

theorem search_next (hB : Divisor B) (hp : Place Index i s) (hn : (Index + 4) / 4 ≤ n)
    (hm : m < if Index % 4 = 0 then 0x100 else 0x101) (hblank : d.pMulBI = mulBI n Index i 0 0)
    (hlt : m * B.placed Index < r) :
    ∃ d', searchDigit B s (m :: rest) i d = searchDigit B s rest i d' ∧ Dividing limit q r d' ∧
      d'.pMulBI = mulBI n Index i 0 0 := by
  have hlimit : ¬ (m > 0xff ∧ s = 3) := by
    rintro ⟨hhigh, h3⟩
    rw [if_pos (hp.shift_eq_three.mp h3)] at hm
    omega
  have hm' : m ≤ 0x101 := by
    split at hm <;> omega
  obtain ⟨t, ht, heq⟩ := search_cons rest h hB hp hn hm' hblank
  have hi := hp.word_lt
  refine ⟨_, ?_, h.withScratch ht (M := mulBI n Index i 0 0) rfl, rfl⟩
  rw [heq, if_neg (Nat.not_le_of_lt hlt)]
  simp only [BIG_INTEGER.storeIf, digitHigh, hlimit, show ¬ (m ≥ 0x100 ∧ s = 3) from hlimit, if_false,
    Option.bind_some]
  rw [store_low (by omega), Option.bind_some]

theorem search_found {rest : List Nat} (hB : Divisor B) (hp : Place Index i s)
    (hn : (Index + 4) / 4 ≤ n) (hm : m ≤ if Index % 4 = 0 then 0x100 else 0x101)
    (hblank : d.pMulBI = mulBI n Index i 0 0) (hge : r ≤ m * B.placed Index) (hr : 0 < r)
    (htakes : Takes B limit r Index (takenOf m r (B.placed Index))) :
    ∃ d', searchDigit B s (m :: rest) i d = some d' ∧
      DigitTaken B limit q r Index (takenOf m r (B.placed Index)) d' := by
  have hm' : m ≤ 0x101 := by
    split at hm <;> omega
  have hi := hp.word_lt
  obtain ⟨t, ht, heq⟩ := search_cons rest h hB hp hn hm' hblank
  rw [heq, if_pos hge]
  by_cases hone : m > 1
  · rw [if_pos hone]
    -- the digit that is written before it is taken
    obtain ⟨v, hv, hback, hvpos, hvle⟩ : ∃ v, takenOf m r (B.placed Index) = v ∧
        stepBack m i s (compareNat r (m * B.placed Index))
          (mulBI n Index i (digitWord m s) (digitHigh m s)) =
            some (mulBI n Index i (digitWord v s) (digitHigh v s)) ∧ 0 < v ∧ v ≤ 0x101 := by
      by_cases hexact : r = m * B.placed Index
      · refine ⟨m, by rw [takenOf, if_pos hone, if_pos hexact], ?_, by omega, hm'⟩
        rw [stepBack, if_neg (not_not_intro (compareNat_eq_zero.mpr hexact))]
      · refine ⟨m - 1, by rw [takenOf, if_pos hone, if_neg hexact], ?_, by omega, by omega⟩
        rw [stepBack, if_pos fun hc => hexact (compareNat_eq_zero.mp hc)]
        by_cases h3 : s = 3
        · have hroom := hp.room h3
          rw [if_pos (hp.shift_eq_three.mp h3)] at hm
          have hhigh : digitHigh (m - 1) s = 0 := if_neg (by omega)
          by_cases h100 : m = 0x100
          · rw [BIG_INTEGER.storeIf, if_pos ⟨h100, h3⟩, store_high (by omega), Option.bind_some,
              store_low (by omega), hhigh]
          · rw [BIG_INTEGER.storeIf, if_neg fun hc => h100 hc.1, Option.bind_some,
              store_low (by omega), hhigh, digitHigh, if_neg (by omega)]
        · have hhigh : ∀ k, digitHigh k s = 0 := fun k => if_neg fun hc => h3 hc.2
          rw [BIG_INTEGER.storeIf, if_neg fun hc => h3 hc.2, Option.bind_some, store_low (by omega),
            hhigh, hhigh]
    have hmag := hp.digit_magnitude hn hvle
    rw [hv] at htakes ⊢
    have hproduct : B.magnitude * (v * 256 ^ (Index - 1)) = v * B.placed Index := by
      ring
    have hpos := hp.pos
    rw [hback, Option.bind_some, DigitTaken, if_neg hvpos.ne', ← hproduct, ← hmag]
    refine takeDigit_spec (h.withScratch ht (M := mulBI n Index i (digitWord v s) (digitHigh v s)) rfl)
      hB (hp.digit_sized hn hvle) (by show Index + 1 ≠ 1; omega) ?_ (htakes.limit hvpos.ne') ?_ hr ?_
    · show 0 < BIG_INTEGER.magnitude (mulBI n Index i _ _)
      rw [hmag]
      positivity
    · show B.magnitude * BIG_INTEGER.magnitude (mulBI n Index i _ _) ≤ r
      rw [hmag, hproduct]
      exact htakes.enough
    · show SoundDifference _ (numberWords (B.magnitude * BIG_INTEGER.magnitude (mulBI n Index i _ _)))
      rw [hmag, hproduct]
      exact htakes.sound
  · have hzero : takenOf m r (B.placed Index) = 0 := if_neg hone
    rw [if_neg hone, hzero]
    exact ⟨_, rfl, (h.withScratch ht rfl).noDigit⟩

theorem search_spec {k : Nat} (hB : Divisor B) (hp : Place Index i s) (hn : (Index + 4) / 4 ≤ n)
    (hblank : d.pMulBI = mulBI n Index i 0 0) (hk : e + k = m)
    (hm : m ≤ if Index % 4 = 0 then 0x100 else 0x101)
    (hbelow : ∀ j, e ≤ j → j < m → j * B.placed Index < r) (hge : r ≤ m * B.placed Index)
    (hr : 0 < r) (htakes : Takes B limit r Index (takenOf m r (B.placed Index))) :
    ∃ d', searchDigit B s (List.range' e (0x102 - e)) i d = some d' ∧
      DigitTaken B limit q r Index (takenOf m r (B.placed Index)) d' := by
  have hm' : m ≤ 0x101 := by
    split at hm <;> omega
  induction k generalizing e d with
  | zero =>
    obtain rfl : e = m := by omega
    rw [show 0x102 - e = 0x101 - e + 1 by omega, List.range'_succ]
    exact search_found h hB hp hn hm hblank hge hr htakes
  | succ k ih =>
    have hlt := hbelow e (le_refl e) (by omega)
    obtain ⟨d', heq, hd', hblank'⟩ :=
      search_next (List.range' (e + 1) (0x102 - (e + 1))) h hB hp hn (by omega) hblank hlt
    rw [show 0x102 - e = 0x102 - (e + 1) + 1 by omega, List.range'_succ, heq]
    exact ih hd' hblank' (by omega) fun j hj hjm => hbelow j (by omega) hjm

end

theorem lt_ceil_iff {j bw : ℕ} (hbw : 0 < bw) : j < (r + bw - 1) / bw ↔ j * bw < r := by
  rw [← Nat.succ_le_iff, Nat.le_div_iff_mul_le hbw, Nat.succ_mul]
  omega

theorem estimateDigit_spec {SecondHighByte : UInt8} {start : Nat} (h : Dividing limit q r d)
    (hB : Divisor B) (hpos : 0 < Index)
    (hn : (Index + 4) / 4 ≤ n)
    (hblank : d.pMulBI = ⟨List.replicate n 0, (Index + 4) / 4, Index + 1, 1⟩)
    (hbyte : SecondHighByte.toNat = secondHighByte B.magnitude)
    (hne : secondHighByte B.magnitude ≠ 0) (hstart : start = mulStart B.magnitude r Index)
    (hwindow : byteLength r ≤ byteLength B.magnitude + Index ∧
      byteLength B.magnitude + Index - byteLength r ≤ 1) (hr : 0 < r)
    (hlimit : takenDigit B.magnitude r Index ≠ 0 → limit ≤ Index + 1)
    (hdigit : SoundDigit B.magnitude r Index) :
    ∃ d', estimateDigit B SecondHighByte Index start d = some d' ∧
      DigitTaken B limit q r Index (takenDigit B.magnitude r Index) d' := by
  have hword : (if Index > 0 then (Index - 1) / 4 else 0) = (Index - 1) / 4 := if_pos hpos
  have hshift : (if Index % 4 = 0 then 4 else Index % 4) - 1 = (Index - 1) % 4 := by
    split <;> omega
  have hp : Place Index ((Index - 1) / 4) ((Index - 1) % 4) := ⟨hpos, rfl, rfl⟩
  have hbw : 0 < B.placed Index := Nat.mul_pos (Nat.zero_lt_of_lt hB.one_lt) (by positivity)
  rw [estimateDigit, hword, hshift, hbyte]
  by_cases hpassed : start < secondHighByte B.magnitude
  · have htaken : takenDigit B.magnitude r Index = 0 := if_pos (.inr (hstart ▸ hpassed))
    rw [if_pos hpassed, htaken]
    exact ⟨d, rfl, h.noDigit⟩
  · have hnot : ¬ Passed B.magnitude r Index := fun hc =>
      hc.elim (fun hw => hw hwindow) fun hlt => hpassed (hstart ▸ hlt)
    have hfound := hdigit.found hnot
    have htakes : Takes B limit r Index (takenDigit B.magnitude r Index) :=
      ⟨hlimit, hdigit.enough, hdigit.sound⟩
    have hestimate : (if start / secondHighByte B.magnitude > 0xff then 0x100
        else start / secondHighByte B.magnitude) = estimate B.magnitude r Index := by
      rw [estimate, ← hstart]
      split <;> omega
    have hne' : SecondHighByte ≠ 0 := by
      rintro rfl
      exact hne hbyte.symm
    rw [takenDigit, if_neg hnot] at htakes ⊢
    rw [if_neg hpassed, if_neg hne']
    simp only [hestimate]
    generalize hm : foundDigit B.magnitude r Index (B.placed Index) = m at *
    have hle : estimate B.magnitude r Index ≤ m := by
      rw [← hm]
      exact Nat.le_max_left _ _
    have hceil : (r + B.placed Index - 1) / B.placed Index ≤ m := by
      rw [← hm]
      exact Nat.le_max_right _ _
    refine search_spec (k := m - estimate B.magnitude r Index) h hB hp hn
      (hblank.trans (mulBI_blank _ _ _).symm) (by omega) hfound ?_ ?_ hr htakes
    · intro j hj hjm
      apply (lt_ceil_iff hbw).mp
      rw [← hm] at hjm
      exact (lt_max_iff.mp hjm).resolve_left (Nat.not_lt_of_le hj)
    · by_contra hlt
      exact absurd ((lt_ceil_iff hbw).mpr (Nat.lt_of_not_le hlt)) (Nat.not_lt_of_le hceil)

theorem divideDigit_spec (h : Dividing limit q r d) (hB : Divisor B) (hpos : 0 < Index)
    (hcompute : ComputeSize = A.IntegerLength - B.IntegerLength + 1)
    (hlonger : B.IntegerLength ≤ A.IntegerLength)
    (hbyte : SecondHighByte.toNat = secondHighByte B.magnitude)
    (hne : secondHighByte B.magnitude ≠ 0) (hr : 0 < r)
    (hlimit : takenDigit B.magnitude r Index ≠ 0 → limit ≤ Index + 1)
    (hdigit : SoundDigit B.magnitude r Index) :
    ∃ d', divideDigit A B SecondHighByte ComputeSize Index d = some d' ∧
      DigitTaken B limit q r Index (takenDigit B.magnitude r Index) d' := by
  have hBlen : B.IntegerLength = byteLength B.magnitude := hB.integerLength
  have hRlen : d.pBI_Remainder.IntegerLength = byteLength r := by
    rw [h.remainder.integerLength, h.remainderMagnitude, byteLength]
  have hBpos := hB.integerLength_pos
  rw [divideDigit, hBlen, hRlen]
  by_cases hwindow : byteLength r ≤ byteLength B.magnitude + Index ∧
      byteLength B.magnitude + Index - byteLength r ≤ 1
  · have hplace : A.IntegerLength + Index - ComputeSize = byteLength B.magnitude + Index - 1 := by
      omega
    have hplace' : byteLength B.magnitude + Index - 1 + 1 = byteLength B.magnitude + Index := by
      omega
    obtain ⟨high, hhigh, hhighvalue⟩ :=
      getByteValue_eq h.remainder (byteLength B.magnitude + Index)
    obtain ⟨low, hlow, hlowvalue⟩ :=
      getByteValue_eq h.remainder (byteLength B.magnitude + Index - 1)
    rw [h.remainderMagnitude] at hhighvalue hlowvalue
    have hstart : high.toNat <<< 8 ||| low.toNat = mulStart B.magnitude r Index := by
      rw [← Nat.shiftLeft_add_eq_or_of_lt (UInt8.toNat_lt low), Nat.shiftLeft_eq, hhighvalue,
        hlowvalue, mulStart]
    have halloc := allocSize_eq (x := d.pMulBI) (Nat.succ_pos Index)
    rw [h.mul, ite_self] at halloc
    rw [if_pos hwindow]
    simp only [hplace, hplace', hhigh, hlow, Option.bind_eq_bind, Option.bind_some]
    refine estimateDigit_spec (n := max d.pMulBI.pIntegerArray.length ((Index + 4) / 4)) ?_ hB
      hpos (Nat.le_max_right _ _) halloc hbyte hne hstart hwindow hr hlimit hdigit
    exact ⟨h.result, h.resultSigned, h.resultMagnitude, h.remainder, h.remainderInt, h.temp, h.temp2,
      by show (BigInteger_AllocSize d.pMulBI (Index + 1)).Signed = 1; rw [halloc]⟩
  · have htaken : takenDigit B.magnitude r Index = 0 := if_pos (.inl hwindow)
    rw [if_neg hwindow, htaken]
    exact ⟨d, rfl, h.noDigit⟩

theorem divideFrom_spec (h : Dividing limit q r d) (hB : Divisor B)
    (hcompute : ComputeSize = A.IntegerLength - B.IntegerLength + 1)
    (hlonger : B.IntegerLength ≤ A.IntegerLength)
    (hbyte : SecondHighByte.toNat = secondHighByte B.magnitude)
    (hne : secondHighByte B.magnitude ≠ 0) (hsound : SoundDivision B.magnitude limit Index r) :
    ∃ d' limit' q' r', divideFrom A B SecondHighByte ComputeSize (Index + 1) d = some d' ∧
      Dividing limit' q' r' d' ∧ q * B.magnitude + r = q' * B.magnitude + r' ∧ r' < B.magnitude := by
  induction Index generalizing limit q r d with
  | zero =>
    have hlt : r < B.magnitude := hsound
    have hcompare := unsignedCompare_eq h.remainder hB.toNormalized
    rw [h.remainderMagnitude, compareNat_eq_neg.mpr hlt] at hcompare
    refine ⟨d, limit, q, r, ?_, h, rfl, hlt⟩
    rw [divideFrom, hcompare]
    rfl
  | succ Index ih =>
    have hcompare := unsignedCompare_eq h.remainder hB.toNormalized
    rw [h.remainderMagnitude] at hcompare
    rw [divideFrom, hcompare, Option.bind_eq_bind, Option.bind_some]
    by_cases hlt : r < B.magnitude
    · rw [if_pos (compareNat_eq_neg.mpr hlt)]
      exact ⟨d, limit, q, r, rfl, h, rfl, hlt⟩
    · obtain ⟨hdigit, hlimit, hrest⟩ := hsound.resolve_left hlt
      obtain ⟨d', hd', hnext⟩ :=
        divideDigit_spec h hB (show 0 < Index + 1 by omega) hcompute hlonger hbyte hne
          (lt_of_lt_of_le (Nat.zero_lt_of_lt hB.one_lt) (Nat.le_of_not_lt hlt)) hlimit hdigit
      rw [DigitTaken, BIG_INTEGER.placed, Nat.add_sub_cancel] at hnext
      obtain ⟨d'', limit', q', r', hrun, hend, heq, hr'⟩ := ih hnext hrest
      have henough := hdigit.enough
      rw [Nat.add_sub_cancel] at henough
      rw [if_neg fun hc => hlt (compareNat_eq_neg.mp hc), hd', Option.bind_some]
      refine ⟨d'', limit', q', r', hrun, hend, ?_, hr'⟩
      rw [← heq, Nat.add_mul]
      have hring : takenDigit B.magnitude r (Index + 1) * 256 ^ Index * B.magnitude =
          takenDigit B.magnitude r (Index + 1) * (B.magnitude * 256 ^ Index) := by ring
      omega

end Turn

/-- A division that is Euclidean, with quotient and remainder normalized. -/
def DivExact (A B Q R : BIG_INTEGER) : Prop :=
  ∃ q r, BigInteger_Div A B Q R = some (q, r) ∧ Normalized q ∧ Normalized r ∧
    A.toInt = q.toInt * B.toInt + r.toInt ∧ 0 ≤ r.toInt ∧ r.toInt < B.toInt

/-- What the division needs of the numbers and of the quotient's words before: the divisor is one
or not the smaller number, or the digits are sound, also for the sign left in the quotient. -/
def DivisionSound (A B Q : BIG_INTEGER) : Prop :=
  A.magnitude ≤ B.magnitude ∨ B.magnitude = 1 ∨
    (secondHighByte B.magnitude ≠ 0 ∧
      let ComputeSize := A.IntegerLength - B.IntegerLength + 1
      let Signed := (BigInteger_AllocSize Q ComputeSize).Signed
      (Signed = 1 ∨ Signed = -1) ∧
        SoundDivision B.magnitude (if Signed = 1 then 0 else ComputeSize) ComputeSize A.magnitude)

instance (A B Q : BIG_INTEGER) : Decidable (DivisionSound A B Q) := by
  unfold DivisionSound
  infer_instance

section Euclidean

variable {A B Q R x y : BIG_INTEGER}

theorem bin2BI_byte (b : UInt8) (x : BIG_INTEGER) :
    ∃ r, BigInteger_Bin2BI [b] x = some r ∧ Sized r ∧ r.magnitude = b.toNat := by
  obtain ⟨r, hr, hsized, -, hmag, -, -⟩ := bin2BI_spec (x := x) (List.cons_ne_nil b [])
  refine ⟨r, hr, hsized, ?_⟩
  rw [hmag, bigEndian, bigEndian, List.length_nil, Nat.pow_zero, Nat.mul_one, Nat.add_zero]

theorem divExact_of_words (hA : Normalized A) (hB : Normalized B) (hA0 : 0 ≤ A.toInt)
    (hB0 : 0 < B.toInt) (hdiv : divideWords A B Q R = some (x, y)) (hx : Sized x) (hy : Sized y)
    (heq : A.magnitude = x.magnitude * B.magnitude + y.magnitude)
    (hlt : y.magnitude < B.magnitude) : DivExact A B Q R := by
  have hB1 : B.Signed = 1 := by
    obtain hs | hs := hB.sign
    · exact hs
    · rw [toInt_neg hs] at hB0
      omega
  have hsign : A.Signed * B.Signed = 1 ∨ A.Signed * B.Signed = -1 := by
    rw [hB1, mul_one]
    exact hA.sign
  have hnull : ¬ (A.pIntegerArray = [] ∨ B.pIntegerArray = []) := fun h =>
    h.elim hA.pIntegerArray_ne hB.pIntegerArray_ne
  have hzero : ¬ (B.IntegerLength = 1 ∧ B.pIntegerArray.headD 0 = 0) := by
    intro h
    have hmag : B.magnitude = 0 := (hB.is_byte_iff (w := 0) (by decide)).mp h
    omega
  obtain ⟨q, hq, hqnorm, hqmag, -, hqsigned⟩ :=
    clearHighBits_spec (x := { x with Signed := A.Signed * B.Signed }) hx.arrayLength_pos hx.fits hsign
  obtain ⟨r, hr, hrnorm, hrmag, -, hrsigned⟩ :=
    clearHighBits_spec (x := { y with Signed := A.Signed * B.Signed }) hy.arrayLength_pos hy.fits hsign
  rw [← hqmag] at hqsigned
  rw [← hrmag] at hrsigned
  have hqint : q.toInt = A.Signed * x.magnitude := by
    rw [toInt_of_sign hqsigned, hqmag, hB1, mul_one]
    rfl
  have hrint : r.toInt = A.Signed * y.magnitude := by
    rw [toInt_of_sign hrsigned, hrmag, hB1, mul_one]
    rfl
  refine ⟨q, r, ?_, hqnorm, hrnorm, ?_, ?_, ?_⟩
  · rw [BigInteger_Div, if_neg hnull, if_neg hzero, hdiv, Option.bind_eq_bind, Option.bind_some]
    show (BigInteger_ClearHighBits { x with Signed := A.Signed * B.Signed }).bind _ = _
    rw [hq, Option.bind_some, hr]
    rfl
  · rw [hqint, hrint, toInt_pos hB1, BIG_INTEGER.toInt, heq]
    push_cast
    ring
  · rw [hrint]
    obtain hs | hs := hA.sign
    · rw [hs, one_mul]
      exact Int.natCast_nonneg _
    · rw [toInt_neg hs] at hA0
      have hmag : y.magnitude = 0 := by omega
      rw [hmag, Nat.cast_zero, mul_zero]
  · rw [hrint, toInt_pos hB1]
    obtain hs | hs := hA.sign
    · rw [hs, one_mul]
      exact Nat.cast_lt.mpr hlt
    · rw [hs]
      omega

theorem longDivision_spec (hA : Normalized A) (hB : Normalized B) (hA1 : A.Signed = 1)
    (hB1 : B.Signed = 1) (hb : 1 < B.magnitude) (hlt : B.magnitude < A.magnitude)
    (hbyte : secondHighByte B.magnitude ≠ 0)
    (hQ : (BigInteger_AllocSize Q (A.IntegerLength - B.IntegerLength + 1)).Signed = 1 ∨
      (BigInteger_AllocSize Q (A.IntegerLength - B.IntegerLength + 1)).Signed = -1)
    (hsound : SoundDivision B.magnitude
      (if (BigInteger_AllocSize Q (A.IntegerLength - B.IntegerLength + 1)).Signed = 1 then 0
        else A.IntegerLength - B.IntegerLength + 1)
      (A.IntegerLength - B.IntegerLength + 1) A.magnitude) :
    ∃ x y, longDivision A B Q R = some (x, y) ∧ Sized x ∧ Sized y ∧
      A.magnitude = x.magnitude * B.magnitude + y.magnitude ∧ y.magnitude < B.magnitude := by
  have hlonger : B.IntegerLength ≤ A.IntegerLength := by
    rw [hA.integerLength, hB.integerLength]
    exact Nat.succ_le_succ (Nat.log_mono_right hlt.le)
  have hApos := hA.integerLength_pos
  obtain ⟨rem, hrem, hremnorm, hremwords, hremsigned, -, -, -⟩ :=
    hA.copy (y := BigInteger_AllocSize R B.IntegerLength)
  obtain ⟨high, hhigh, hhighvalue⟩ := getByteValue_eq hB B.IntegerLength
  rw [hB.integerLength] at hhighvalue
  have halloc := allocSize_eq (x := Q) (Nat.succ_pos (A.IntegerLength - B.IntegerLength))
  have hfit := (allocSize_spec (x := Q) (Nat.succ_pos (A.IntegerLength - B.IntegerLength))).2.1.le
  set quotient := BigInteger_AllocSize Q (A.IntegerLength - B.IntegerLength + 1)
  have htemp := allocSize_eq (x := BigInteger_Init) (show 0 < A.IntegerLength * 2 by omega)
  set blank := BigInteger_AllocSize BigInteger_Init (A.IntegerLength * 2)
  have hblank1 : blank.Signed = 1 := by
    rw [htemp]
    rfl
  have hzero : quotient.magnitude = 0 := by
    rw [halloc, BIG_INTEGER.magnitude, BIG_INTEGER.words, List.take_replicate]
    exact value_zeros _
  have hresult : Sized quotient := by
    refine ⟨?_, ?_, ?_, ?_⟩
    · rw [halloc, List.length_replicate]
      exact Nat.le_max_right _ _
    · rw [halloc]
      exact Nat.succ_pos _
    · rw [halloc]
    · rw [hzero]
      positivity
  have hstart : Dividing
      (if quotient.Signed = 1 then 0
        else A.IntegerLength - B.IntegerLength + 1) 0 A.magnitude
      ⟨quotient, rem, blank, blank, blank⟩ := by
    refine ⟨hresult, hQ.imp_right fun hneg => ⟨hneg, rfl, ?_⟩, hzero, hremnorm, ?_, .inl hblank1,
      .inl hblank1, hblank1⟩
    · rw [if_neg (by rw [hneg]; decide)]
      exact hfit
    · show rem.toInt = A.magnitude
      rw [BIG_INTEGER.toInt, hremsigned, hA1, one_mul, magnitude_of_words hremwords]
  obtain ⟨d', _, q', r', hrun, hend, heq, hr'⟩ :=
    divideFrom_spec hstart ⟨hB, hB1, hb⟩ rfl hlonger hhighvalue hbyte hsound
  refine ⟨d'.pBI_Result, d'.pBI_Remainder, ?_, hend.result, hend.remainder.sized, ?_, ?_⟩
  · simp only [quotient, blank] at hrun
    simp only [longDivision, Option.bind_eq_bind, hrem, Option.bind_some, hhigh, hrun]
  · rw [hend.resultMagnitude, hend.remainderMagnitude, ← heq, Nat.zero_mul, Nat.zero_add]
  · rw [hend.remainderMagnitude]
    exact hr'

theorem divExact_of_sound (hA : Normalized A) (hB : Normalized B) (hA0 : 0 ≤ A.toInt)
    (hB0 : 0 < B.toInt) (hsound : DivisionSound A B Q) : DivExact A B Q R := by
  have hcompare := unsignedCompare_eq hA hB
  have hone := hB.is_byte_iff (w := 1) (by decide)
  have hB1 : B.Signed = 1 := by
    obtain hs | hs := hB.sign
    · exact hs
    · rw [toInt_neg hs] at hB0
      omega
  have hBpos : 0 < B.magnitude := by
    rw [toInt_pos hB1] at hB0
    exact Nat.cast_pos.mp hB0
  by_cases hb1 : B.magnitude = 1
  · obtain ⟨x, hx, hxnorm, hxwords, -, -, -, -⟩ := hA.copy (y := Q)
    obtain ⟨y, hy, hysized, hymag⟩ := bin2BI_byte 0 R
    refine divExact_of_words hA hB hA0 hB0 (x := x) (y := y) ?_ hxnorm.sized hysized ?_ ?_
    · rw [divideWords, if_pos (hone.mpr hb1), hx, Option.bind_eq_bind, Option.bind_some, hy]
      rfl
    · rw [magnitude_of_words hxwords, hb1, hymag, Nat.mul_one]
      rfl
    · rw [hymag]
      exact hBpos
  · have hnot : ¬ (B.IntegerLength = 1 ∧ B.pIntegerArray.headD 0 = 1) := fun h => hb1 (hone.mp h)
    rcases Nat.lt_trichotomy A.magnitude B.magnitude with hlt | heq | hgt
    · obtain ⟨x, hx, hxsized, hxmag⟩ := bin2BI_byte 0 Q
      obtain ⟨y, hy, hynorm, hywords, -, -, -, -⟩ := hA.copy (y := R)
      refine divExact_of_words hA hB hA0 hB0 (x := x) (y := y) ?_ hxsized hynorm.sized ?_ ?_
      · rw [divideWords, if_neg hnot, hcompare, compareNat_eq_neg.mpr hlt, Option.bind_eq_bind,
          Option.bind_some, if_neg (by decide), if_pos rfl, hx, Option.bind_eq_bind, Option.bind_some,
          hy]
        rfl
      · rw [hxmag, magnitude_of_words hywords]
        show A.magnitude = 0 * _ + _
        rw [Nat.zero_mul, Nat.zero_add]
      · rw [magnitude_of_words hywords]
        exact hlt
    · obtain ⟨x, hx, hxsized, hxmag⟩ := bin2BI_byte 1 Q
      obtain ⟨y, hy, hysized, hymag⟩ := bin2BI_byte 0 R
      refine divExact_of_words hA hB hA0 hB0 (x := x) (y := y) ?_ hxsized hysized ?_ ?_
      · rw [divideWords, if_neg hnot, hcompare, compareNat_eq_zero.mpr heq, Option.bind_eq_bind,
          Option.bind_some, if_pos rfl, hx, Option.bind_eq_bind, Option.bind_some, hy]
        rfl
      · rw [hxmag, hymag, heq]
        exact (Nat.one_mul _).symm
      · rw [hymag]
        exact hBpos
    · have hA1 : A.Signed = 1 := by
        obtain hs | hs := hA.sign
        · exact hs
        · rw [toInt_neg hs] at hA0
          omega
      obtain ⟨hbyte, hQ, hdigits⟩ := (hsound.resolve_left (Nat.not_le_of_lt hgt)).resolve_left hb1
      obtain ⟨x, y, hrun, hx, hy, heq, hlt⟩ :=
        longDivision_spec (R := R) hA hB hA1 hB1 (by omega) hgt hbyte hQ hdigits
      refine divExact_of_words hA hB hA0 hB0 ?_ hx hy heq hlt
      rw [divideWords, if_neg hnot, hcompare, compareNat_eq_one.mpr hgt, Option.bind_eq_bind,
        Option.bind_some, if_neg (by decide), if_neg (by decide)]
      exact hrun

theorem divideWords_zeroByte (hA : Normalized A) (hB : Normalized B) (hb : B.magnitude ≠ 1)
    (hlt : B.magnitude < A.magnitude) (hbyte : secondHighByte B.magnitude = 0) :
    divideWords A B Q R = none := by
  have hcompare := unsignedCompare_eq hA hB
  have hone := hB.is_byte_iff (w := 1) (by decide)
  have hlonger : B.IntegerLength ≤ A.IntegerLength := by
    rw [hA.integerLength, hB.integerLength]
    exact Nat.succ_le_succ (Nat.log_mono_right hlt.le)
  have hBpos := hB.integerLength_pos
  obtain ⟨rem, hrem, hremnorm, hremwords, -, hremlen, -, -⟩ :=
    hA.copy (y := BigInteger_AllocSize R B.IntegerLength)
  obtain ⟨s, hs, hsvalue⟩ := getByteValue_eq hB B.IntegerLength
  have hs0 : s = 0 := by
    apply UInt8.toNat_inj.mp
    rw [hsvalue, hB.integerLength]
    exact hbyte
  have hgt := unsignedCompare_eq hremnorm hB
  rw [magnitude_of_words hremwords, compareNat_eq_one.mpr hlt] at hgt
  obtain ⟨high, hhigh, -⟩ := getByteValue_eq hremnorm
    (A.IntegerLength + (A.IntegerLength - B.IntegerLength + 1) -
      (A.IntegerLength - B.IntegerLength + 1) + 1)
  obtain ⟨low, hlow, -⟩ := getByteValue_eq hremnorm
    (A.IntegerLength + (A.IntegerLength - B.IntegerLength + 1) -
      (A.IntegerLength - B.IntegerLength + 1))
  rw [divideWords, if_neg fun h => hb (hone.mp h), hcompare, compareNat_eq_one.mpr hlt,
    Option.bind_eq_bind, Option.bind_some, if_neg (by decide), if_neg (by decide)]
  simp only [longDivision, Option.bind_eq_bind, hrem, Option.bind_some, hs, divideFrom, hgt]
  rw [if_neg (by decide), divideDigit, if_pos (by show _ ∧ _; rw [hremlen]; omega)]
  simp only [Option.bind_eq_bind, hhigh, hlow, Option.bind_some, estimateDigit, hs0]
  rfl

/-- Division is Euclidean where every digit is sound. It divides by zero for every divisor above one
whose byte below the highest one is read as zero, which are all those of one byte. -/
theorem div_euclidean (hA : Normalized A) (hB : Normalized B) (hA0 : 0 ≤ A.toInt)
    (hB0 : 0 < B.toInt) :
    (DivisionSound A B Q → DivExact A B Q R) ∧
      (B.magnitude < A.magnitude → B.magnitude ≠ 1 → secondHighByte B.magnitude = 0 →
        ¬ DivExact A B Q R) := by
  refine ⟨divExact_of_sound hA hB hA0 hB0, fun hlt hb hbyte => ?_⟩
  rintro ⟨q, r, hdiv, -⟩
  have hnull : ¬ (A.pIntegerArray = [] ∨ B.pIntegerArray = []) := fun h =>
    h.elim hA.pIntegerArray_ne hB.pIntegerArray_ne
  have hzero : ¬ (B.IntegerLength = 1 ∧ B.pIntegerArray.headD 0 = 0) := by
    intro h
    have hmag : B.magnitude = 0 := (hB.is_byte_iff (w := 0) (by decide)).mp h
    rw [BIG_INTEGER.toInt, hmag] at hB0
    omega
  rw [BigInteger_Div, if_neg hnull, if_neg hzero, divideWords_zeroByte hA hB hb hlt hbyte] at hdiv
  cases hdiv

end Euclidean

def dividend : BIG_INTEGER := ⟨[0x10203], 1, 3, 1⟩

def divisor : BIG_INTEGER := ⟨[0x201], 1, 2, 1⟩

/-- The lower byte of the divisor is taken for the higher one: the digits are too large, and the
remainder is what went below zero. -/
theorem div_dividend : ¬ DivExact dividend divisor BigInteger_Init BigInteger_Init := by
  rintro ⟨q, r, hdiv, -, -, -, -, hlt⟩
  have hrun : (BigInteger_Div dividend divisor BigInteger_Init BigInteger_Init).map
      (fun p => decide (p.2.toInt < divisor.toInt)) = some false := by decide +kernel
  rw [hdiv] at hrun
  simp [hlt] at hrun

/-- A quotient object that kept a negative sign, with room for three words. -/
def usedQuotient : BIG_INTEGER := ⟨[3, 3, 3], 3, 12, -1⟩

def longDividend : BIG_INTEGER := ⟨[0xffca7fec, 0x8fedfc], 2, 7, 1⟩

def longDivisor : BIG_INTEGER := ⟨[0x17901], 1, 3, 1⟩

theorem normalized_of_log {x : BIG_INTEGER} (hfits : x.ArrayLength ≤ x.pIntegerArray.length)
    (hle : 256 ^ (x.IntegerLength - 1) ≤ x.magnitude)
    (hlt : x.magnitude < 256 ^ (x.IntegerLength - 1 + 1)) (hpos : 0 < x.IntegerLength)
    (harray : x.ArrayLength = (x.IntegerLength + 3) / 4) (hsigned : x.Signed = 1) :
    Normalized x := by
  have hlog := Nat.log_eq_of_pow_le_of_lt_pow hle hlt
  exact ⟨hfits, by omega, harray, .inl hsigned⟩

/-- A quotient of six bytes into an object that was negative; a divisor of one byte. -/
theorem div_euclidean_dividends :
    DivExact longDividend longDivisor usedQuotient BigInteger_Init ∧
      ¬ DivExact longDividend ⟨[2], 1, 1, 1⟩ usedQuotient BigInteger_Init := by
  have hdividend : Normalized longDividend := normalized_of_log (by decide) (by decide) (by decide)
    (by decide) rfl rfl
  refine ⟨(div_euclidean hdividend ?_ (by decide) (by decide)).1 ?_,
    (div_euclidean hdividend ?_ (by decide) (by decide)).2 (by decide) (by decide) ?_⟩
  · exact normalized_of_log (by decide) (by decide) (by decide) (by decide) rfl rfl
  · decide +kernel
  · exact normalized_of_log (by decide) (by decide) (by decide) (by decide) rfl rfl
  · decide +kernel

end Ralink.BigInteger
