import Ralink.BigInteger.Div

/-! `BigInteger_BI2Bin` writes a number without zeros in front, and `BigInteger_Bin2BI` reads the
same number from what was written. The sign is not written. What is written does not depend on the
word in front of the array, but that word is fetched whenever bytes are written. -/
namespace Ralink.BigInteger
open Words

section Bytes

variable {as bs : List UInt8}

theorem bigEndian_inj (hlen : as.length = bs.length) (h : bigEndian as = bigEndian bs) : as = bs := by
  induction as generalizing bs with
  | nil => exact (List.length_eq_zero_iff.mp hlen.symm).symm
  | cons a as ih =>
    cases bs with
    | nil => cases hlen
    | cons b bs =>
      have htail : as.length = bs.length := Nat.succ.inj hlen
      have ha := bigEndian_lt as
      have hb := bigEndian_lt bs
      rw [bigEndian, bigEndian, htail, Nat.mul_comm, Nat.mul_comm b.toNat] at h
      rw [htail] at ha
      have hpos : 0 < 256 ^ bs.length := by positivity
      have hhead : a.toNat = b.toNat := by
        have hdiv := congrArg (· / 256 ^ bs.length) h
        simpa only [Nat.mul_add_div hpos, Nat.div_eq_of_lt ha, Nat.div_eq_of_lt hb,
          Nat.add_zero] using hdiv
      rw [hhead] at h
      rw [UInt8.toNat_inj.mp hhead, ih htail (Nat.add_left_cancel h)]

/-- The bytes behind the zeros in front; the last one always counts. -/
def significant : List UInt8 → List UInt8
  | b :: c :: rest => if b = 0 then significant (c :: rest) else b :: c :: rest
  | bs => bs

theorem bigEndian_significant (bs : List UInt8) : bigEndian (significant bs) = bigEndian bs := by
  induction bs with
  | nil => rfl
  | cons b bs ih =>
    cases bs with
    | nil => rfl
    | cons c rest =>
      rw [significant]
      split
      · next hb =>
        rw [ih, hb]
        exact (Nat.zero_add _).symm.trans (congrArg (· + _) (Nat.zero_mul _).symm)
      · rfl

theorem length_significant (hne : bs ≠ []) :
    (significant bs).length = Nat.log 256 (bigEndian bs) + 1 := by
  induction bs with
  | nil => exact absurd rfl hne
  | cons b bs ih =>
    cases bs with
    | nil =>
      have hb : bigEndian [b] < 256 := bigEndian_lt [b]
      rw [Nat.log_of_lt hb]
      rfl
    | cons c rest =>
      rw [significant]
      split
      · next hb =>
        have hzero := bigEndian_significant (b :: c :: rest)
        rw [significant, if_pos hb, bigEndian_significant] at hzero
        rw [ih (List.cons_ne_nil c rest), hzero]
      · next hb =>
        have hpos : 1 ≤ b.toNat := by
          rw [Nat.one_le_iff_ne_zero]
          exact fun h => hb (UInt8.toNat_inj.mp h)
        have hle : 256 ^ (c :: rest).length ≤ bigEndian (b :: c :: rest) :=
          (Nat.le_mul_of_pos_left _ hpos).trans (Nat.le_add_right _ _)
        rw [Nat.log_eq_of_pow_le_of_lt_pow hle (bigEndian_lt _)]
        rfl

end Bytes

section BI2Bin

variable {front : Option UInt32} {ws : List UInt32} {x : BIG_INTEGER} {bs pValue : List UInt8}
  {Length : Nat}

/-- From byte `s` of a word on, the bytes of the word and of the words below it. -/
theorem emptyWords_spec {Number : UInt32} {left s i : Nat} (hs : 1 ≤ s) (hs4 : s ≤ 4)
    (hleft : left = 4 * i + s) (hi : i ≤ ws.length) :
    ∃ bytes, emptyWords front left Number s i ws = front.map (fun _ => bytes) ∧ bytes.length = left ∧
      bigEndian bytes = (value (ws.take i) + (2 ^ 32) ^ i * Number.toNat) % 256 ^ left := by
  induction left generalizing Number s i with
  | zero => omega
  | succ left ih =>
    have hbyte := @toNat_UINT32_GETBYTE Number _ (show s - 1 < 4 by omega)
    have hlow := value_lt (ws.take i)
    have hpow : (2 ^ 32) ^ i * 256 ^ (s - 1) = 256 ^ left := by
      rw [base_pow, ← Nat.pow_add]
      congr 1
      omega
    have hwhole : (value (ws.take i) + (2 ^ 32) ^ i * Number.toNat) / 256 ^ left % 256 =
        Number.toNat / 256 ^ (s - 1) % 256 := by
      rw [List.length_take, Nat.min_eq_left hi] at hlow
      rw [← hpow, ← Nat.div_div_eq_div_mul, Nat.add_mul_div_left _ _ (by positivity),
        Nat.div_eq_of_lt hlow, Nat.zero_add]
    have hjoin : ∀ bytes : List UInt8, bytes.length = left →
        bigEndian bytes = (value (ws.take i) + (2 ^ 32) ^ i * Number.toNat) % 256 ^ left →
        bigEndian (UINT32_GETBYTE Number (UInt32.ofNat (s - 1)) :: bytes) =
          (value (ws.take i) + (2 ^ 32) ^ i * Number.toNat) % 256 ^ (left + 1) := by
      intro bytes hlen hvalue
      rw [bigEndian, hlen, hvalue, hbyte, ← hwhole, pow_succ (256 : ℕ), Nat.mod_mul, Nat.mul_comm,
        Nat.add_comm]
    rw [emptyWords.eq_def]
    dsimp only
    by_cases hone : s - 1 = 0
    · rw [if_pos hone]
      cases i with
      | zero =>
        obtain rfl : left = 0 := by omega
        refine ⟨_, ?_, rfl, hjoin [] rfl (Nat.mod_one _).symm⟩
        cases front <;> rfl
      | succ below =>
        have hat : below < ws.length := by omega
        obtain ⟨bytes, hbytes, hlen, hvalue⟩ :=
          @ih ws[below] 4 below (by decide) le_rfl (by omega) hat.le
        refine ⟨_ :: bytes, ?_, by rw [List.length_cons, hlen], hjoin bytes hlen ?_⟩
        · have hbelow : ((below + 1 : ℕ) : ℤ) - 1 = below := by omega
          have hfetch : fetchWord front ws below = some ws[below] := List.getElem?_eq_getElem hat
          rw [hbelow, hfetch, Option.bind_some, hbytes, Option.map_map]
          rfl
        · have hmultiple : (2 ^ 32) ^ (below + 1) * Number.toNat = 256 ^ left * Number.toNat := by
            rw [base_pow]
            congr 2
            omega
          rw [hvalue, value_take_succ hat, hmultiple, Nat.add_mul_mod_self_left]
    · obtain ⟨bytes, hbytes, hlen, hvalue⟩ :=
        @ih Number (s - 1) i (by omega) (by omega) (by omega) hi
      refine ⟨_ :: bytes, ?_, by rw [List.length_cons, hlen], hjoin bytes hlen hvalue⟩
      rw [if_neg hone, hbytes, Option.map_map]
      rfl

theorem bi2Bin_spec (hx : Sized x) (hsign : x.Signed = 1 ∨ x.Signed = -1)
    (hLength : x.IntegerLength ≤ Length) (hroom : Length ≤ pValue.length) :
    ∃ bytes, BigInteger_BI2Bin front x pValue Length =
        front.map (fun _ => (bytes ++ pValue.drop bytes.length, bytes.length)) ∧
      bytes.length = Nat.log 256 x.magnitude + 1 ∧ bigEndian bytes = x.magnitude := by
  obtain ⟨y, hy, hynorm, hymag, -, -⟩ := clearHighBits_spec hx.arrayLength_pos hx.fits hsign
  have hlen : y.IntegerLength = Nat.log 256 x.magnitude + 1 := by
    rw [hynorm.integerLength, hymag]
  have hle : y.IntegerLength ≤ x.IntegerLength := by
    rw [hlen]
    exact Nat.log_lt_of_lt_pow' hx.integerLength_pos.ne' hx.magnitude_lt
  have hfits := hynorm.fits
  have hpos := hynorm.arrayLength_pos
  have harray := hynorm.arrayLength
  have hlast : y.ArrayLength - 1 < y.pIntegerArray.length := by omega
  generalize hs : (if y.IntegerLength % 4 = 0 then 4 else y.IntegerLength % 4) = s
  have hs4 : 1 ≤ s ∧ s ≤ 4 ∧ y.IntegerLength = 4 * (y.ArrayLength - 1) + s := by
    have hbytes := hynorm.integerLength_pos
    split at hs <;> omega
  obtain ⟨bytes, hbytes, hlength, hbig⟩ :=
    @emptyWords_spec front y.pIntegerArray y.pIntegerArray[y.ArrayLength - 1] y.IntegerLength s
      (y.ArrayLength - 1) hs4.1 hs4.2.1 hs4.2.2 hlast.le
  refine ⟨bytes, ?_, hlength.trans hlen, ?_⟩
  · rw [BigInteger_BI2Bin, if_neg (by omega), if_neg hx.pIntegerArray_ne, hy, Option.bind_eq_bind,
      Option.bind_some]
    have hshort : ¬ pValue.length < y.IntegerLength := by omega
    have hplace : (y.ArrayLength : ℤ) - 1 = (y.ArrayLength - 1 : ℕ) := by omega
    have hfetch : fetchWord front y.pIntegerArray (y.ArrayLength - 1 : ℕ) =
        some y.pIntegerArray[y.ArrayLength - 1] := List.getElem?_eq_getElem hlast
    simp only [hs, hplace, hfetch, hbytes, Option.bind_eq_bind, Option.bind_some, if_neg hshort,
      hlength]
    cases front <;> rfl
  · rw [hbig, ← value_take_succ hlast, Nat.sub_add_cancel hpos]
    exact (Nat.mod_eq_of_lt hynorm.magnitude_lt).trans hymag

/-- What is written of a number that was read are its bytes without the zeros in front. -/
theorem bi2Bin_bin2BI (hne : bs ≠ []) (hsign : x.Signed = 1 ∨ x.Signed = -1)
    (hroom : Length ≤ pValue.length) :
    ∃ r, BigInteger_Bin2BI bs x = some r ∧ r.magnitude = bigEndian bs ∧
      BigInteger_BI2Bin front r pValue Length = if Length < bs.length then some (pValue, 0)
        else front.map fun _ =>
          (significant bs ++ pValue.drop (significant bs).length, (significant bs).length) := by
  obtain ⟨r, hr, hsized, hlen, hmag, hsigned, -⟩ := bin2BI_spec (x := x) hne
  refine ⟨r, hr, hmag, ?_⟩
  split
  · next hshort => rw [BigInteger_BI2Bin, if_pos (by rw [hlen]; exact hshort)]
  · next hlong =>
    obtain ⟨bytes, hbytes, hlength, hvalue⟩ := bi2Bin_spec hsized
      (by rw [hsigned]; exact allocSize_sign hsign) (by rw [hlen]; exact Nat.not_lt.mp hlong) hroom
    rw [hmag] at hlength hvalue
    obtain rfl : bytes = significant bs := bigEndian_inj
      (hlength.trans (length_significant hne).symm) (hvalue.trans (bigEndian_significant bs).symm)
    exact hbytes

/-- What is read of a number that was written are its words. -/
theorem bin2BI_bi2Bin (hx : Normalized x) (hLength : x.IntegerLength ≤ Length)
    (hroom : Length ≤ pValue.length) :
    ∃ bytes, BigInteger_BI2Bin front x pValue Length =
        front.map (fun _ => (bytes ++ pValue.drop bytes.length, bytes.length)) ∧
      ∀ y, ∃ r, BigInteger_Bin2BI bytes y = some r ∧ r.words = x.words ∧
        r.ArrayLength = x.ArrayLength ∧ r.IntegerLength = x.IntegerLength := by
  obtain ⟨bytes, hbytes, hlength, hvalue⟩ := bi2Bin_spec hx.sized hx.sign hLength hroom
  rw [← hx.integerLength] at hlength
  refine ⟨bytes, hbytes, fun y => ?_⟩
  obtain ⟨r, hr, hsized, hlen, hmag, -⟩ := @bin2BI_spec bytes y
    (List.ne_nil_of_length_pos (by rw [hlength]; exact hx.integerLength_pos))
  rw [hlength] at hlen
  have harray : r.ArrayLength = x.ArrayLength := by
    rw [hsized.arrayLength, hx.arrayLength, hlen]
  refine ⟨r, hr, ?_, harray, hlen⟩
  have hwords : r.words.length = x.words.length := by
    rw [hsized.length_words, hx.length_words, harray]
  exact (value_inj hwords).mp (hmag.trans hvalue)

end BI2Bin

/-- The two conversions undo each other, up to zeros in front and the sign. Nothing is written when
the buffer has no room for all bytes that were read; else the word in front of the array must be one
that can be read. -/
theorem bytes_roundTrip (front : Option UInt32) (x : BIG_INTEGER) (hsign : x.Signed = 1 ∨ x.Signed = -1)
    (pValue : List UInt8) (Length : Nat) (hroom : Length ≤ pValue.length) :
    (∀ bs ≠ [], ∃ r, BigInteger_Bin2BI bs x = some r ∧ r.magnitude = bigEndian bs ∧
      BigInteger_BI2Bin front r pValue Length = if Length < bs.length then some (pValue, 0)
        else front.map fun _ =>
          (significant bs ++ pValue.drop (significant bs).length, (significant bs).length)) ∧
    (Normalized x → x.IntegerLength ≤ Length → ∃ bytes, BigInteger_BI2Bin front x pValue Length =
        front.map (fun _ => (bytes ++ pValue.drop bytes.length, bytes.length)) ∧
      ∀ y, ∃ r, BigInteger_Bin2BI bytes y = some r ∧ r.words = x.words ∧
        r.ArrayLength = x.ArrayLength ∧ r.IntegerLength = x.IntegerLength) :=
  ⟨fun _ hne => bi2Bin_bin2BI hne hsign hroom, fun hx hLength => bin2BI_bi2Bin hx hLength hroom⟩

/-- Three bytes that are read and written, and a number of two words with a zero word above them that
is written and read. -/
theorem bytes_roundTrip_of_zeros :
    (∃ r, BigInteger_Bin2BI [0, 0, 5] BigInteger_Init = some r ∧
      r.magnitude = bigEndian [0, 0, 5] ∧
        BigInteger_BI2Bin (some 0xdead) r [9, 9, 9] 3 = some ([5, 9, 9], 1)) ∧
    ∃ bytes, BigInteger_BI2Bin (some 0xdead) ⟨[7, 0x102, 0], 2, 6, -1⟩ [9, 9, 9, 9, 9, 9, 9, 9] 7 =
        some (bytes ++ [9, 9, 9, 9, 9, 9, 9, 9].drop bytes.length, bytes.length) ∧
      ∀ y, ∃ r, BigInteger_Bin2BI bytes y = some r ∧ r.words = [7, 0x102] ∧
        r.ArrayLength = 2 ∧ r.IntegerLength = 6 := by
  have hlog : Nat.log 256 (BIG_INTEGER.magnitude ⟨[7, 0x102, 0], 2, 6, -1⟩) = 5 :=
    Nat.log_eq_of_pow_le_of_lt_pow (by decide) (by decide)
  exact ⟨(bytes_roundTrip (some 0xdead) BigInteger_Init (.inl rfl) [9, 9, 9] 3 (by decide)).1
      [0, 0, 5] (by decide),
    (bytes_roundTrip (some 0xdead) ⟨[7, 0x102, 0], 2, 6, -1⟩ (.inr rfl) [9, 9, 9, 9, 9, 9, 9, 9] 7
      (by decide)).2 ⟨by decide, by rw [hlog], rfl, .inr rfl⟩ (by decide)⟩

end Ralink.BigInteger
