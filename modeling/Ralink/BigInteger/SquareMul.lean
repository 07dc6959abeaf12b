import Ralink.BigInteger.Square

/-! When the square of a number is its product with itself. -/
namespace Ralink.BigInteger
open Words

section Lowest

variable {as bs ws : List UInt32} {r r' : UInt32} {j : ℕ}

theorem exists_lowest (h : value ws ≠ 0) :
    ∃ j w rest, ws = List.replicate j 0 ++ w :: rest ∧ w ≠ 0 := by
  induction ws with
  | nil => exact absurd rfl h
  | cons w ws ih =>
    by_cases hw : w = 0
    · subst hw
      have hrest : value ws ≠ 0 := by
        intro hz
        apply h
        rw [value_cons, hz]
        rfl
      obtain ⟨j, v, rest, heq, hv⟩ := ih hrest
      exact ⟨j + 1, v, rest, by rw [heq]; rfl, hv⟩
    · exact ⟨0, w, ws, rfl, hw⟩

theorem subWords_zeros (hzero : value (bs.take j) = 0) (hb : j ≤ bs.length) (ha : j ≤ as.length) :
    value (subWords as bs 0) = value (as.take j) + (2 ^ 32) ^ j * value (subWords (as.drop j) (bs.drop j) 0) := by
  induction j generalizing as bs with
  | zero => simp
  | succ j ih =>
    match as, bs with
    | [], _ => simp at ha
    | _ :: _, [] => simp at hb
    | a :: as, b :: bs =>
      rw [List.take_succ_cons, value_cons] at hzero
      have hb0 : b = 0 := UInt32.toNat_inj.mp (show b.toNat = 0 by omega)
      have hrest := @ih as bs (by omega) (Nat.le_of_succ_le_succ hb)
        (Nat.le_of_succ_le_succ ha)
      have hcons : subWords (a :: as) (b :: bs) 0 = a :: subWords as bs 0 := by
        rw [hb0, subWords, if_pos (by simp)]
        simp
      rw [hcons, value_cons, hrest, List.take_succ_cons, value_cons, List.drop_succ_cons,
        List.drop_succ_cons, pow_succ' (2 ^ 32 : ℕ)]
      ring

theorem subWords_two (r r' : UInt32) (as bs : List UInt32) :
    ∃ e, e ≤ 1 ∧ (1 < bs.length → e = 0) ∧
      (value (subWords (r :: r' :: as) bs 0) + value bs + 2 ^ 32 * e) % (2 ^ 32 * 2 ^ 32) =
        value (r :: r' :: as) % (2 ^ 32 * 2 ^ 32) := by
  have hzero : (0 : UInt32).toNat ≤ 1 := by decide
  match bs with
  | [] =>
    refine ⟨0, by decide, fun _ => rfl, ?_⟩
    rw [subWords, if_pos (by simp), subWords, if_pos (by simp)]
    simp only [UInt32.sub_zero, value_cons, value_nil]
    omega
  | [t] =>
    have hlow := (subWord_low (r := r) (t := t) hzero).1
    have htest := (subWord_test (r := r) (t := t) hzero).mpr (fun h => absurd h.1 (by decide))
    rw [subWords_cons hzero]
    by_cases hge : r ≥ t - 0
    · rw [if_neg (htest.mp hge)] at hlow
      refine ⟨0, by decide, fun _ => rfl, ?_⟩
      rw [if_pos hge, subWords, if_pos (by simp)]
      simp only [UInt32.sub_zero, value_cons, value_nil, UInt32.toNat_zero] at hlow ⊢
      omega
    · rw [if_pos (not_not.mp (htest.not.mp hge))] at hlow
      rw [if_neg hge, subWords]
      by_cases hge' : r' ≥ 1
      · have hle := UInt32.le_iff_toNat_le.mp hge'
        refine ⟨0, by decide, fun _ => rfl, ?_⟩
        rw [if_pos hge']
        simp only [value_cons, value_nil, UInt32.toNat_zero, toNat_sub_le hge'] at hlow ⊢
        simp only [UInt32.toNat_one] at hle ⊢
        omega
      · have hr' : r'.toNat = 0 := by
          rw [ge_iff_le, UInt32.le_iff_toNat_le] at hge'
          have hone : (1 : UInt32).toNat = 1 := rfl
          omega
        refine ⟨1, le_refl 1, fun h => absurd h (by simp), ?_⟩
        rw [if_neg hge']
        have htop : (0xffffffff - 1 : UInt32).toNat = 2 ^ 32 - 2 := rfl
        simp only [value_cons, value_nil, UInt32.toNat_zero, htop, hr'] at hlow ⊢
        omega
  | t :: t' :: ts =>
    have hlow := (subWord_low (r := r) (t := t) hzero).1
    have htest := (subWord_test (r := r) (t := t) hzero).mpr (fun h => absurd h.1 (by decide))
    refine ⟨0, by decide, fun _ => rfl, ?_⟩
    rw [subWords_cons hzero]
    generalize hCarry : (if r ≥ t - 0 then (0 : UInt32) else 1) = Carry
    have hCarry' : Carry.toNat = if r.toNat < t.toNat + (0 : UInt32).toNat then 1 else 0 := by
      rw [← hCarry]
      split <;> split <;> simp_all
    have hle : Carry.toNat ≤ 1 := by
      rw [hCarry']
      split <;> decide
    have hlow' := (subWord_low (r := r') (t := t') hle).1
    rw [subWords_cons hle]
    rw [← hCarry', UInt32.toNat_zero] at hlow
    simp only [value_cons]
    omega

end Lowest

section Square

variable {x y z z' R O S : BIG_INTEGER} {st : Statics}

theorem Parts.lowest (h : Parts x z R O S) (hcross : crosses x.words ≠ 0) :
    ∃ j Y D, crosses x.words = (2 ^ 32) ^ j * Y ∧ Y % 2 ^ 32 ≠ 0 ∧ O.magnitude = (2 ^ 32) ^ j * D ∧
      D % (2 ^ 32 * 2 ^ 32) = 2 * Y % (2 ^ 32 * 2 ^ 32) ∧ j < R.ArrayLength := by
  have hmag := h.resultMagnitude
  obtain ⟨j, w, rest, hwords, hw⟩ := @exists_lowest R.words (by
    rw [← BIG_INTEGER.magnitude, hmag]
    exact hcross)
  have hlen := h.result.length_words
  rw [hwords, List.length_append, List.length_replicate, List.length_cons] at hlen
  refine ⟨j, value (w :: rest), value (doubleWords (w :: rest) (w :: rest) 0), ?_, ?_, ?_,
    value_doubleWords_mod, by omega⟩
  · rw [← hmag, BIG_INTEGER.magnitude, hwords, value_append, value_zeros, List.length_replicate,
      Nat.zero_add]
  · intro hz
    have hlt := toNat_lt w
    rw [value_cons] at hz
    exact hw (UInt32.toNat_inj.mp (show w.toNat = 0 by omega))
  · rw [h.copyMagnitude, hwords, doubleWords_zeros]

theorem Parts.copy_ne (h : Parts x z R O S) (hcross : crosses x.words ≠ 0) : O.magnitude ≠ 0 := by
  obtain ⟨j, Y, D, -, hY, hO, hD, -⟩ := h.lowest hcross
  rw [hO]
  have hD0 : D ≠ 0 := by omega
  positivity

theorem Parts.negative_ne (h : Parts x z R O S) (hcross : crosses x.words ≠ 0) :
    value (subWords S.words O.words 0) ≠ squares x.words + 2 * crosses x.words := by
  obtain ⟨j, Y, D, hX, hY, hO, hD, hj⟩ := h.lowest hcross
  have hSlen := length_words h.squaresFit
  have hshort := h.resultShort
  have hsquares := h.squaresLength
  have hpos : 0 < (2 ^ 32) ^ j := by positivity
  have hOlen : j < O.words.length := by
    have hlt := value_lt O.words
    rw [← BIG_INTEGER.magnitude, hO] at hlt
    have hD1 : 1 ≤ D := by omega
    exact (Nat.pow_lt_pow_iff_right (by decide : 1 < 2 ^ 32)).mp
      ((Nat.le_mul_of_pos_right _ hD1).trans_lt hlt)
  have htake : value (O.words.take j) = 0 := by
    rw [value_take, ← BIG_INTEGER.magnitude, hO, Nat.mul_mod_right]
  have hdrop : value (O.words.drop j) = D := by
    rw [value_drop, ← BIG_INTEGER.magnitude, hO, Nat.mul_div_cancel_left _ hpos]
  have hsub := @subWords_zeros S.words _ _ htake hOlen.le (by omega)
  have hsplit := @value_append (S.words.take j) (S.words.drop j)
  rw [List.take_append_drop, List.length_take, Nat.min_eq_left (by omega)] at hsplit
  have hS : value S.words = squares x.words := h.squaresMagnitude
  obtain ⟨s0, s1, rest, hrest⟩ : ∃ s0 s1 rest, S.words.drop j = s0 :: s1 :: rest := by
    have hlen : 2 ≤ (S.words.drop j).length := by
      rw [List.length_drop]
      omega
    rcases hws : S.words.drop j with _ | ⟨s0, _ | ⟨s1, rest⟩⟩
    · simp [hws] at hlen
    · simp [hws] at hlen
    · exact ⟨s0, s1, rest, rfl⟩
  obtain ⟨e, he, hone, hmod⟩ := subWords_two s0 s1 rest (O.words.drop j)
  have hDlt : (O.words.drop j).length ≤ 1 → D < 2 ^ 32 := by
    intro hle
    rw [← hdrop]
    calc value (O.words.drop j) < (2 ^ 32) ^ (O.words.drop j).length := value_lt _
      _ ≤ (2 ^ 32) ^ 1 := Nat.pow_le_pow_right (by decide) hle
      _ = 2 ^ 32 := Nat.pow_one _
  rw [← hrest, hdrop] at hmod
  rw [hsub, ← hS, hsplit, hX]
  intro heq
  have hcancel : value (subWords (S.words.drop j) (O.words.drop j) 0) = value (S.words.drop j) + 2 * Y := by
    apply Nat.eq_of_mul_eq_mul_left hpos
    have hring : (2 ^ 32) ^ j * (value (S.words.drop j) + 2 * Y) =
        (2 ^ 32) ^ j * value (S.words.drop j) + 2 * ((2 ^ 32) ^ j * Y) := by ring
    rw [hring]
    omega
  rw [hcancel] at hmod
  obtain rfl | rfl : e = 0 ∨ e = 1 := by omega
  · omega
  · have hsmall := hDlt (by omega)
    omega

/-- What the square needs of the number and of what the result was before: no carry is lost, and
the result that is used is not negative where there are products to double. -/
def SquareSound (x z : BIG_INTEGER) : Prop :=
  ((BigInteger_AllocSize z (x.IntegerLength * 2 + 20)).Signed = 1 ∨ crosses x.words = 0) ∧
    SoundDoubling (crosses x.words)

theorem Parts.doubled_iff (h : Parts x z R O S) :
    O.magnitude = 2 * crosses x.words ↔ SoundDoubling (crosses x.words) := by
  have hiff := @value_doubleWords_iff 0 R.words (by decide)
  rw [UInt32.toNat_zero, soundDoubling_shift, ← BIG_INTEGER.magnitude, h.resultMagnitude,
    Nat.add_zero] at hiff
  rw [h.copyMagnitude, hiff]

theorem Parts.add_iff (h : Parts x z R O S) (hz : z.Signed = 1 ∨ z.Signed = -1) :
    ∃ r, BigInteger_Add O S R = some r ∧ Normalized r ∧
      (r.magnitude = x.magnitude * x.magnitude ↔ SquareSound x z) := by
  have hsquare : x.magnitude * x.magnitude = squares x.words + 2 * crosses x.words :=
    value_mul_self x.words
  have hR := h.resultSigned
  have hO := h.copySigned
  by_cases hpos : (BigInteger_AllocSize z (x.IntegerLength * 2 + 20)).Signed = 1 ∨ crosses x.words = 0
  · have hR1 : R.Signed = 1 := by
      rw [hR]
      split
      · rfl
      · next hne => exact hpos.resolve_right hne
    rw [hR1, ite_self] at hO
    obtain ⟨r, hr, hnorm, hmag⟩ := h.add_positive hO
    refine ⟨r, hr, hnorm, ?_⟩
    rw [SquareSound, and_iff_right hpos, ← h.doubled_iff, hmag, hsquare]
    omega
  · rw [not_or] at hpos
    have hsign := (@allocSize_sign _ (x.IntegerLength * 2 + 20) hz).resolve_left hpos.1
    rw [if_neg hpos.2, hsign] at hR
    rw [if_neg (h.copy_ne hpos.2), hR] at hO
    obtain ⟨r, hr, hnorm, hmag⟩ := h.add_negative hO
    refine ⟨r, hr, hnorm, iff_of_false ?_ fun hsound => ?_⟩
    · rw [hmag, hsquare]
      exact h.negative_ne hpos.2
    · exact hsound.1.elim hpos.1 hpos.2

theorem soundDoubling_zero : SoundDoubling 0 := by
  intro k
  rw [Nat.zero_div]
  decide

theorem square_spec (hx : Normalized x) (hz : z.Signed = 1 ∨ z.Signed = -1)
    (hS : st.pBI_S.Signed = 1) :
    ∃ r st', BigInteger_Square x z st = some (r, st') ∧ Normalized r ∧ r.Signed = 1 ∧
      st'.pBI_S.Signed = 1 ∧ st'.pBI_U = st.pBI_U ∧ st'.Bits_Of_R = st.Bits_Of_R ∧
      (r.magnitude = x.magnitude * x.magnitude ↔ SquareSound x z) := by
  by_cases hzero : x.magnitude = 0
  · have hsound : SquareSound x z := by
      have hsquare := value_mul_self x.words
      rw [← BIG_INTEGER.magnitude, hzero] at hsquare
      have hcross : crosses x.words = 0 := by omega
      rw [SquareSound, hcross]
      exact ⟨.inr rfl, soundDoubling_zero⟩
    obtain ⟨hnorm, hmag⟩ := allocSize_one hz
    obtain ⟨r, hr, hrnorm, hrmag, -, hsigned⟩ :=
      clearHighBits_spec (x := { BigInteger_AllocSize z 1 with Signed := 1 }) hnorm.arrayLength_pos
        hnorm.fits (.inl rfl)
    rw [BigInteger_Square, if_neg hx.pIntegerArray_ne,
      if_pos ((hx.is_byte_iff (w := 0) (by decide)).mpr hzero), hr]
    refine ⟨r, st, rfl, hrnorm, by rw [hsigned, ite_self], hS, rfl, rfl, iff_of_true ?_ hsound⟩
    rw [hrmag, hzero]
    exact hmag
  · obtain ⟨R, O, S, hparts, heq⟩ := square_eq hx hzero hz hS
    obtain ⟨r, hr, hnorm, hiff⟩ := hparts.add_iff hz
    obtain ⟨r', hr', hrnorm, hrmag, -, hsigned⟩ :=
      clearHighBits_spec (x := { r with Signed := 1 }) hnorm.arrayLength_pos hnorm.fits (.inl rfl)
    rw [heq, hr, Option.bind_some, hr', Option.bind_some]
    refine ⟨r', _, rfl, hrnorm, by rw [hsigned, ite_self], hparts.squaresSigned, rfl, rfl, ?_⟩
    rw [hrmag, ← hiff]
    rfl

def MulExact (x y z : BIG_INTEGER) : Prop :=
  ∃ r, BigInteger_Mul x y z = some r ∧ Normalized r ∧ r.toInt = x.toInt * y.toInt

def SquareAgrees (x z z' : BIG_INTEGER) (st : Statics) : Prop :=
  ∃ s m st', BigInteger_Square x z st = some (s, st') ∧ BigInteger_Mul x x z' = some m ∧
    Normalized s ∧ Normalized m ∧ s.toInt = m.toInt

/-- Products are always exact, and squares agree with them exactly when the square is sound. No
access leaves the words that were allocated. -/
theorem mul_square_iff (hx : Normalized x) (hy : Normalized y) (hz : z.Signed = 1 ∨ z.Signed = -1)
    (hz' : z'.Signed = 1 ∨ z'.Signed = -1) (hS : st.pBI_S.Signed = 1) :
    MulExact x y z' ∧ SquareAgrees x z z' st ↔ SquareSound x z := by
  obtain ⟨p, hp, hpnorm, -, hpint⟩ := mul_spec hx hy hz'
  obtain ⟨m, hm, hmnorm, -, hmint⟩ := mul_spec hx hx hz'
  obtain ⟨s, st', hs, hsnorm, hs1, -, -, -, hiff⟩ := square_spec hx hz hS
  have hsquare : s.toInt = m.toInt ↔ s.magnitude = x.magnitude * x.magnitude := by
    rw [hmint, toInt_pos hs1, BIG_INTEGER.toInt]
    have hsigned := hx.signed_mul_self
    have hring : x.Signed * (x.magnitude : ℤ) * (x.Signed * (x.magnitude : ℤ)) =
        x.Signed * x.Signed * ((x.magnitude * x.magnitude : ℕ) : ℤ) := by
      push_cast
      ring
    rw [hring, hsigned, one_mul]
    exact Nat.cast_inj
  rw [← hiff, ← hsquare]
  constructor
  · rintro ⟨-, s', m', st'', hs', hm', -, -, heq⟩
    rw [hs] at hs'
    rw [hm] at hm'
    cases hs'
    cases hm'
    exact heq
  · intro heq
    exact ⟨⟨p, hp, hpnorm, hpint⟩, s, m, st', hs, hm, hsnorm, hmnorm, heq⟩

end Square

/-- The products are `0x80000000`, `0xffffffff` and more above. -/
def lostCarry : BIG_INTEGER := ⟨[1, 0x80000000, 0xffffffff], 3, 12, 1⟩

def freshStatics : Statics := ⟨BigInteger_Init, BigInteger_Init, BigInteger_Init, 0⟩

theorem lostCarry_normalized : Normalized lostCarry := by
  have hlog : Nat.log 256 lostCarry.magnitude = 11 :=
    Nat.log_eq_of_pow_le_of_lt_pow (by decide) (by decide)
  exact ⟨by decide, by rw [hlog]; rfl, rfl, .inl rfl⟩

theorem square_lostCarry :
    ¬ (MulExact lostCarry lostCarry BigInteger_Init ∧
      SquareAgrees lostCarry BigInteger_Init BigInteger_Init freshStatics) := by
  rintro ⟨-, s, m, st', hs, hm, -, -, heq⟩
  have hsquare : (BigInteger_Square lostCarry BigInteger_Init freshStatics).map
      (fun p => p.1.toInt) ≠ (BigInteger_Mul lostCarry lostCarry BigInteger_Init).map BIG_INTEGER.toInt := by
    decide +kernel
  rw [hs, hm] at hsquare
  exact hsquare (congrArg some heq)

theorem mul_square_iff_lostCarry :
    MulExact lostCarry lostCarry BigInteger_Init ∧
        SquareAgrees lostCarry BigInteger_Init BigInteger_Init freshStatics ↔
      SquareSound lostCarry BigInteger_Init :=
  mul_square_iff lostCarry_normalized lostCarry_normalized (.inl rfl) (.inl rfl) rfl

end Ralink.BigInteger
