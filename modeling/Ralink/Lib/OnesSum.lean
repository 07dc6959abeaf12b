import Mathlib.Tactic
import Mathlib.Data.Nat.ModEq

/-! Words added with the carry brought round to the lowest bit. The sum is known up to a multiple of
`2 ^ w - 1`, and whether it is zero tells whether every word is. -/
namespace Ralink.OnesSum

variable {w : Nat} (x : BitVec (w + w)) (a b : BitVec w)

/-- Two words with the carry out of the highest bit added to the lowest. -/
def addC (a b : BitVec w) : BitVec w :=
  if a.toNat + b.toNat < 2 ^ w then a + b else a + b + 1

def sum (init : BitVec w) (l : List (BitVec w)) : BitVec w := l.foldl addC init

def halves (x : BitVec (w + w)) : List (BitVec w) := [x.extractLsb' 0 w, x.extractLsb' w w]

def fold (x : BitVec (w + w)) : BitVec w := addC (x.extractLsb' 0 w) (x.extractLsb' w w)

def Verifies (l : List (BitVec w)) : Prop := sum 0 l = BitVec.allOnes w

instance (l : List (BitVec w)) : Decidable (Verifies l) := inferInstanceAs (Decidable (_ = _))

def total (l : List (BitVec w)) : Nat := (l.map BitVec.toNat).sum

@[simp] theorem total_nil : total ([] : List (BitVec w)) = 0 := rfl

@[simp] theorem total_cons (x : BitVec w) (l : List (BitVec w)) :
    total (x :: l) = x.toNat + total l := rfl

@[simp] theorem total_append (l l' : List (BitVec w)) : total (l ++ l') = total l + total l' := by
  rw [total, List.map_append, List.sum_append]
  rfl

theorem toNat_addC : (addC a b).toNat =
    if a.toNat + b.toNat < 2 ^ w then a.toNat + b.toNat else a.toNat + b.toNat - (2 ^ w - 1) := by
  have ha := a.isLt
  have hb := b.isLt
  rw [addC]
  split
  · next h => rw [BitVec.toNat_add, Nat.mod_eq_of_lt h]
  · next h =>
    cases w with
    | zero => omega
    | succ w =>
      have hone : (1 : BitVec (w + 1)).toNat = 1 := by simp
      rw [BitVec.toNat_add, BitVec.toNat_add, hone, Nat.mod_add_mod]
      have hround : a.toNat + b.toNat + 1 = a.toNat + b.toNat - (2 ^ (w + 1) - 1) + 2 ^ (w + 1) := by
        omega
      rw [hround, Nat.add_mod_right, Nat.mod_eq_of_lt (by omega)]

theorem addC_modEq : (addC a b).toNat ≡ a.toNat + b.toNat [MOD 2 ^ w - 1] := by
  rw [toNat_addC]
  split
  · exact Nat.ModEq.refl _
  · next h =>
    have hge : 2 ^ w - 1 ≤ a.toNat + b.toNat := le_trans (Nat.sub_le _ 1) (not_lt.mp h)
    rw [Nat.ModEq, ← Nat.mod_eq_sub_mod hge]

theorem addC_eq_zero {a b : BitVec w} : addC a b = 0 ↔ a = 0 ∧ b = 0 := by
  have ha := a.isLt
  have hb := b.isLt
  have hpos := Nat.two_pow_pos w
  rw [← BitVec.toNat_inj, ← BitVec.toNat_inj, ← BitVec.toNat_inj, toNat_addC]
  have hzero : (0 : BitVec w).toNat = 0 := by simp
  rw [hzero]
  split <;> omega

theorem sum_modEq (init : BitVec w) (l : List (BitVec w)) :
    (sum init l).toNat ≡ init.toNat + total l [MOD 2 ^ w - 1] := by
  induction l generalizing init with
  | nil => exact Nat.ModEq.refl _
  | cons x l ih =>
    calc (sum (addC init x) l).toNat ≡ (addC init x).toNat + total l [MOD 2 ^ w - 1] := ih _
      _ ≡ init.toNat + x.toNat + total l [MOD 2 ^ w - 1] :=
          (addC_modEq init x).add_right _
      _ = init.toNat + total (x :: l) := by rw [total_cons, Nat.add_assoc]

theorem sum_eq_zero {init : BitVec w} {l : List (BitVec w)} :
    sum init l = 0 ↔ init = 0 ∧ ∀ x ∈ l, x = 0 := by
  induction l generalizing init with
  | nil => simp [sum]
  | cons x l ih =>
    have hstep : sum init (x :: l) = sum (addC init x) l := rfl
    rw [hstep, ih, addC_eq_zero, List.forall_mem_cons, and_assoc]

theorem eq_allOnes_iff (hw : 0 < w) {x : BitVec w} :
    x = BitVec.allOnes w ↔ 2 ^ w - 1 ∣ x.toNat ∧ x ≠ 0 := by
  have hx := x.isLt
  have hpow := Nat.one_lt_two_pow (Nat.pos_iff_ne_zero.mp hw)
  have hzero : (0 : BitVec w).toNat = 0 := by simp
  rw [ne_eq, ← BitVec.toNat_inj, BitVec.toNat_allOnes, ← BitVec.toNat_inj, hzero]
  constructor
  · intro h
    refine ⟨h ▸ dvd_refl _, ?_⟩
    omega
  · rintro ⟨⟨k, hk⟩, hne⟩
    have hone : k = 1 := by
      apply le_antisymm
      · by_contra hk2
        have hmul := Nat.mul_le_mul_left (2 ^ w - 1) (not_le.mp hk2)
        omega
      · exact Nat.pos_of_ne_zero fun hk0 => hne (by rw [hk, hk0, Nat.mul_zero])
    rw [hk, hone, Nat.mul_one]

theorem verifies_iff (hw : 0 < w) {l : List (BitVec w)} :
    Verifies l ↔ 2 ^ w - 1 ∣ total l ∧ ∃ x ∈ l, x ≠ 0 := by
  have hsum := sum_modEq 0 l
  have hzero : (0 : BitVec w).toNat = 0 := by simp
  rw [hzero, Nat.zero_add] at hsum
  rw [Verifies, eq_allOnes_iff hw, hsum.dvd_iff (dvd_refl _), ne_eq, sum_eq_zero]
  simp

theorem toNat_complement (x : BitVec w) : (~~~x).toNat + x.toNat = 2 ^ w - 1 := by
  have hx := x.isLt
  rw [BitVec.toNat_not]
  omega

theorem toNat_halves : x.toNat = (x.extractLsb' 0 w).toNat + 2 ^ w * (x.extractLsb' w w).toNat := by
  have hx := x.isLt
  rw [Nat.pow_add] at hx
  have hhigh : x.toNat / 2 ^ w < 2 ^ w := Nat.div_lt_of_lt_mul hx
  rw [BitVec.extractLsb'_toNat, BitVec.extractLsb'_toNat, Nat.shiftRight_zero,
    Nat.shiftRight_eq_div_pow, Nat.mod_eq_of_lt hhigh, Nat.mod_add_div]

theorem pow_modEq_one (w : Nat) : 2 ^ w ≡ 1 [MOD 2 ^ w - 1] := by
  have hpos := Nat.two_pow_pos w
  have hsplit : 2 ^ w - 1 + 1 = 2 ^ w := Nat.sub_add_cancel hpos
  have hadd : 2 ^ w - 1 + 1 ≡ 0 + 1 [MOD 2 ^ w - 1] :=
    (Nat.modEq_zero_iff_dvd.mpr (dvd_refl _)).add_right 1
  rwa [hsplit] at hadd

theorem total_halves : total (halves x) ≡ x.toNat [MOD 2 ^ w - 1] := by
  have hhigh := (pow_modEq_one w).mul_right (x.extractLsb' w w).toNat
  rw [Nat.one_mul] at hhigh
  rw [toNat_halves x]
  exact (hhigh.symm.add_left _)

theorem total_flatMap_halves (l : List (BitVec (w + w))) :
    total (l.flatMap halves) ≡ total l [MOD 2 ^ w - 1] := by
  induction l with
  | nil => exact Nat.ModEq.refl _
  | cons x l ih =>
    rw [List.flatMap_cons, total_append, total_cons]
    exact (total_halves x).add ih

theorem halves_eq_zero {x : BitVec (w + w)} : (∀ y ∈ halves x, y = 0) ↔ x = 0 := by
  have hsplit := toNat_halves x
  constructor
  · intro h
    have hlow : x.extractLsb' 0 w = 0 := h _ (by simp [halves])
    have hhigh : x.extractLsb' w w = 0 := h _ (by simp [halves])
    apply BitVec.eq_of_toNat_eq
    rw [hsplit, hlow, hhigh]
    simp
  · rintro rfl y hy
    simpa [halves] using hy

theorem fold_modEq : (fold x).toNat ≡ x.toNat [MOD 2 ^ w - 1] :=
  (addC_modEq _ _).trans (total_halves x)

theorem fold_eq_zero {x : BitVec (w + w)} : fold x = 0 ↔ x = 0 := by
  rw [← halves_eq_zero, fold, addC_eq_zero]
  simp [halves]

theorem dvd_double (w : Nat) : 2 ^ w - 1 ∣ 2 ^ (w + w) - 1 := by
  have h := Nat.sub_dvd_pow_sub_pow (2 ^ w) 1 2
  rwa [one_pow, ← pow_mul, Nat.mul_two] at h

def swap (x : BitVec (w + w)) : BitVec (w + w) := x.extractLsb' 0 w ++ x.extractLsb' w w

theorem toNat_swap : (swap x).toNat =
    2 ^ w * (x.extractLsb' 0 w).toNat + (x.extractLsb' w w).toNat := by
  have hlow := (x.extractLsb' w w).isLt
  rw [swap, BitVec.toNat_append, ← Nat.shiftLeft_add_eq_or_of_lt hlow, Nat.shiftLeft_eq,
    Nat.mul_comm]

theorem swap_modEq : (swap x).toNat ≡ 2 ^ w * x.toNat [MOD 2 ^ (w + w) - 1] := by
  have hround := (pow_modEq_one (w + w)).mul_right (x.extractLsb' w w).toNat
  rw [Nat.one_mul] at hround
  calc (swap x).toNat = 2 ^ w * (x.extractLsb' 0 w).toNat + (x.extractLsb' w w).toNat :=
        toNat_swap x
    _ ≡ 2 ^ w * (x.extractLsb' 0 w).toNat + 2 ^ (w + w) * (x.extractLsb' w w).toNat
        [MOD 2 ^ (w + w) - 1] := hround.symm.add_left _
    _ = 2 ^ w * x.toNat := by rw [toNat_halves x]; ring

theorem total_map_swap (l : List (BitVec (w + w))) :
    total (l.map swap) ≡ 2 ^ w * total l [MOD 2 ^ (w + w) - 1] := by
  induction l with
  | nil => exact Nat.ModEq.refl _
  | cons x l ih =>
    rw [List.map_cons, total_cons, total_cons, Nat.mul_add]
    exact (swap_modEq x).add ih

theorem swap_swap : swap (swap x) = x := by
  apply BitVec.eq_of_getLsbD_eq
  intro i hi
  simp only [swap, BitVec.getLsbD_append, BitVec.getLsbD_extractLsb']
  by_cases hlow : i < w
  · simp [hlow]
  · have hrest : i - w < w := by omega
    have hback : w + (i - w) = i := by omega
    simp [hlow, hrest, hback, BitVec.getLsbD_eq_getElem hi]

theorem swap_eq_zero {x : BitVec (w + w)} : swap x = 0 ↔ x = 0 := by
  have hzero : swap (0 : BitVec (w + w)) = 0 := by
    apply BitVec.eq_of_toNat_eq
    rw [toNat_swap]
    simp
  constructor
  · intro h
    rw [← swap_swap x, h, hzero]
  · rintro rfl
    exact hzero

theorem verifies_map_swap (hw : 0 < w) {l : List (BitVec (w + w))} :
    Verifies (l.map swap) ↔ Verifies l := by
  have hpos : 0 < w + w := Nat.add_pos_left hw w
  have hcoprime : Nat.Coprime (2 ^ (w + w) - 1) (2 ^ w) := by
    have hone := Nat.one_lt_two_pow (Nat.pos_iff_ne_zero.mp hpos)
    have hnext : Nat.Coprime (2 ^ (w + w) - 1) (2 ^ (w + w) - 1 + 1) :=
      Nat.coprime_self_add_right.mpr (Nat.coprime_one_right _)
    rw [Nat.sub_add_cancel hone.le] at hnext
    exact hnext.coprime_dvd_right (pow_dvd_pow 2 (Nat.le_add_right w w))
  rw [verifies_iff hpos, verifies_iff hpos, (total_map_swap l).dvd_iff (dvd_refl _),
    hcoprime.dvd_mul_left]
  refine and_congr_right fun _ => ?_
  constructor
  · rintro ⟨y, hy, hne⟩
    obtain ⟨x, hx, rfl⟩ := List.mem_map.mp hy
    exact ⟨x, hx, fun h0 => hne (swap_eq_zero.mpr h0)⟩
  · rintro ⟨x, hx, hne⟩
    exact ⟨swap x, List.mem_map_of_mem hx, fun h0 => hne (swap_eq_zero.mp h0)⟩

end Ralink.OnesSum

/-! The words that bytes stand for, in network order and as a little-endian processor loads them,
and what becomes of their sum where bytes are written over others. -/
namespace Ralink.OnesSum

/-- In network order; an odd byte has a zero behind it. -/
def netWords : List UInt8 → List (BitVec 16)
  | [] => []
  | [a] => [a.toBitVec ++ 0#8]
  | a :: b :: l => (a.toBitVec ++ b.toBitVec) :: netWords l

def loads : List UInt8 → List (BitVec 32)
  | a :: b :: c :: d :: l => ((d.toBitVec ++ c.toBitVec) ++ (b.toBitVec ++ a.toBitVec)) :: loads l
  | _ => []

variable {as bs l : List UInt8} {i : Nat}

theorem netWords_append (h : 2 ∣ as.length) : netWords (as ++ bs) = netWords as ++ netWords bs := by
  induction as using netWords.induct with
  | case1 => rfl
  | case2 a =>
    rw [List.length_singleton] at h
    omega
  | case3 a b as ih =>
    have has : 2 ∣ as.length := by
      simp only [List.length_cons] at h
      omega
    exact congrArg (_ :: ·) (ih has)

theorem eq_nil_of_short (h : 4 ∣ l.length)
    (hshort : ∀ a b c d l', l = a :: b :: c :: d :: l' → False) : l = [] := by
  match l with
  | [] => rfl
  | [_] | [_, _] | [_, _, _] =>
    simp only [List.length_cons, List.length_nil] at h
    omega
  | a :: b :: c :: d :: l' => exact (hshort a b c d l' rfl).elim

theorem loads_append (h : 4 ∣ as.length) : loads (as ++ bs) = loads as ++ loads bs := by
  induction as using loads.induct with
  | case1 a b c d as ih =>
    have has : 4 ∣ as.length := by
      simp only [List.length_cons] at h
      omega
    exact congrArg (_ :: ·) (ih has)
  | case2 as hshort =>
    rw [eq_nil_of_short h hshort]
    rfl

theorem swap_bytes (a b : BitVec 8) : swap (w := 8) (b ++ a) = a ++ b := by
  unfold swap
  rw [BitVec.extractLsb'_append_eq_right, BitVec.extractLsb'_append_eq_left]

theorem netWords_eq (h : 4 ∣ l.length) :
    netWords l = ((loads l).flatMap (halves (w := 16))).map (swap (w := 8)) := by
  induction l using loads.induct with
  | case1 a b c d l ih =>
    have hl : 4 ∣ l.length := by
      simp only [List.length_cons] at h
      omega
    have hhalves : halves (w := 16) ((d.toBitVec ++ c.toBitVec) ++ (b.toBitVec ++ a.toBitVec)) =
        [b.toBitVec ++ a.toBitVec, d.toBitVec ++ c.toBitVec] := by
      unfold halves
      rw [BitVec.extractLsb'_append_eq_right, BitVec.extractLsb'_append_eq_left]
    rw [netWords, netWords, loads, List.flatMap_cons, hhalves, List.map_append, ih hl, List.map_cons,
      List.map_cons, List.map_nil, swap_bytes, swap_bytes]
    rfl
  | case2 l hshort =>
    rw [eq_nil_of_short h hshort]
    rfl

theorem total_netWords (h : 4 ∣ l.length) :
    total (netWords l) ≡ 2 ^ 8 * total (loads l) [MOD 2 ^ 16 - 1] := by
  rw [netWords_eq h]
  calc total (((loads l).flatMap (halves (w := 16))).map (swap (w := 8)))
      ≡ 2 ^ 8 * total ((loads l).flatMap (halves (w := 16))) [MOD 2 ^ 16 - 1] :=
        total_map_swap (w := 8) _
    _ ≡ 2 ^ 8 * total (loads l) [MOD 2 ^ 16 - 1] :=
        (total_flatMap_halves (w := 16) (loads l)).mul_left _

theorem total_overwrite (hi : 2 ∣ i) (hbs : 2 ∣ bs.length) (h : i + bs.length ≤ l.length) :
    total (netWords (l.take i ++ bs ++ l.drop (i + bs.length))) +
        total (netWords ((l.drop i).take bs.length)) =
      total (netWords l) + total (netWords bs) := by
  have hhead : 2 ∣ (l.take i).length := by
    rw [List.length_take]
    omega
  have hold : 2 ∣ ((l.drop i).take bs.length).length := by
    rw [List.length_take, List.length_drop]
    omega
  have hsplit : l = l.take i ++ ((l.drop i).take bs.length ++ l.drop (i + bs.length)) := by
    rw [← List.drop_drop, List.take_append_drop, List.take_append_drop]
  have hl : total (netWords l) = total (netWords (l.take i)) +
      (total (netWords ((l.drop i).take bs.length)) + total (netWords (l.drop (i + bs.length)))) := by
    conv_lhs => rw [hsplit]
    rw [netWords_append hhead, total_append, netWords_append hold, total_append]
  rw [hl, List.append_assoc, netWords_append hhead, total_append, netWords_append hbs, total_append]
  omega

end Ralink.OnesSum
