import Mathlib.Data.List.Basic
import Mathlib.Logic.Function.Basic
import Mathlib.Data.List.Range
import Mathlib.Data.List.Perm.Subperm

/-! A register is a word. A field of it is read by a shift and a mask, and replaced by clearing its
bits and setting them anew; a group of flags is a mask. -/
namespace BitReg

variable {w : Nat}

/-- The `len` bits from `off` on. -/
def mask (w off len : Nat) : BitVec w :=
  (List.range len).foldl (fun m i => m ||| 1#w <<< (off + i)) 0#w

/-- `data` in the place of the field of `len` bits from `off` on. -/
def modifyBits (v data : BitVec w) (off len : Nat) : BitVec w :=
  v &&& ~~~ mask w off len ||| data <<< off &&& mask w off len

def field (v : BitVec w) (off len : Nat) : BitVec len := (v >>> off).setWidth len

theorem getLsbD_mask (off len k : Nat) :
    (mask w off len).getLsbD k = (decide (k < w) && decide (off ≤ k) && decide (k < off + len)) := by
  induction len with
  | zero => simp [mask]
  | succ len ih =>
    have hstep : mask w off (len + 1) = mask w off len ||| 1#w <<< (off + len) := by
      simp [mask, List.range_succ]
    rw [hstep, BitVec.getLsbD_or, ih, ← BitVec.twoPow_eq, BitVec.getLsbD_twoPow]
    by_cases hk : off + len = k
    · subst hk; simp
    · have : (k < off + (len + 1)) ↔ (k < off + len) := by omega
      simp [hk, this]

theorem getLsbD_modifyBits (v data : BitVec w) (off len k : Nat) :
    (modifyBits v data off len).getLsbD k =
      if off ≤ k ∧ k < off + len then decide (k < w) && data.getLsbD (k - off)
      else v.getLsbD k := by
  simp only [modifyBits, BitVec.getLsbD_or, BitVec.getLsbD_and, BitVec.getLsbD_not, getLsbD_mask,
    BitVec.getLsbD_shiftLeft]
  by_cases hw : k < w
  · by_cases hin : off ≤ k ∧ k < off + len
    · simp [hw, hin]
    · rw [if_neg hin]
      have : ¬ (off ≤ k) ∨ ¬ (k < off + len) := by omega
      rcases this with h | h <;> simp [hw, h]
  · have hv : v.getLsbD k = false := BitVec.getLsbD_of_ge v k (by omega)
    simp [hw, hv]

theorem getLsbD_field (v : BitVec w) (off : Nat) {len k : Nat} (hk : k < len) :
    (field v off len).getLsbD k = v.getLsbD (off + k) := by
  simp only [field, BitVec.getLsbD_setWidth, hk, decide_true, Bool.true_and, BitVec.getLsbD_ushiftRight]

theorem field_modifyBits (v data : BitVec w) {off len : Nat} (h : off + len ≤ w) :
    field (modifyBits v data off len) off len = data.setWidth len := by
  apply BitVec.eq_of_getLsbD_eq
  intro k hk
  rw [getLsbD_field _ _ hk, getLsbD_modifyBits, if_pos (by omega)]
  simp [hk, show off + k < w by omega]

theorem field_modifyBits_of_disjoint (v data : BitVec w) {off len off' len' : Nat}
    (h : off' + len' ≤ off ∨ off + len ≤ off') :
    field (modifyBits v data off len) off' len' = field v off' len' := by
  apply BitVec.eq_of_getLsbD_eq
  intro k hk
  rw [getLsbD_field _ _ hk, getLsbD_field _ _ hk, getLsbD_modifyBits, if_neg (by omega)]

section Flags

variable (v : BitVec w) {m n : BitVec w}

theorem or_and_of_subset (h : m &&& n = n) : (v ||| m) &&& n = n := by
  rw [BitVec.and_or_distrib_right, h]
  ext k hk
  cases hn : n[k] <;> simp [hn]

theorem andNot_and_of_subset (h : m &&& n = n) : v &&& ~~~ m &&& n = 0#w := by
  rw [BitVec.and_assoc, ← h, ← BitVec.and_assoc (~~~ m)]
  ext k hk
  simp

theorem bit_of_and_eq_zero (h : m &&& n = 0#w) {k : Nat} (hk : k < w) :
    ¬ (m[k] = true ∧ n[k] = true) := by
  intro hb
  have := congrArg (fun x => x[k]) h
  simp [hb.1, hb.2] at this

theorem or_and_of_disjoint (h : m &&& n = 0#w) : (v ||| m) &&& n = v &&& n := by
  ext k hk
  have := bit_of_and_eq_zero h hk
  cases hm : m[k] <;> cases hn : n[k] <;> simp_all

theorem andNot_and_of_disjoint (h : m &&& n = 0#w) : v &&& ~~~ m &&& n = v &&& n := by
  ext k hk
  have := bit_of_and_eq_zero h hk
  cases hm : m[k] <;> cases hn : n[k] <;> simp_all

end Flags

end BitReg

/-! The numbers below a bound, each with a bit in an array of bytes. The lowest number whose bit is
clear can be taken, and any number can be given back. -/
namespace Bitmap
open Function

abbrev Bytes := Nat → BitVec 8

def empty : Bytes := fun _ => 0

def used (b : Bytes) (g : Nat) : Bool := (b (g / 8)).getLsbD (g % 8)

def setBit (b : Bytes) (g : Nat) : Bytes := update b (g / 8) (b (g / 8) ||| 1#8 <<< (g % 8))

def clearBit (b : Bytes) (g : Nat) : Bytes := update b (g / 8) (b (g / 8) &&& ~~~ (1#8 <<< (g % 8)))

/-- The lowest number below `n` that is not in use. -/
def firstFree (n : Nat) (b : Bytes) : Option Nat := (List.range n).find? fun g => !used b g

variable {b : Bytes} {n g h : Nat}

@[simp] theorem used_empty (g : Nat) : used empty g = false := by simp [used, empty]

theorem div_mod_ne (hne : g ≠ h) (hdiv : h / 8 = g / 8) : g % 8 ≠ h % 8 := by omega

@[simp] theorem used_setBit : used (setBit b g) h = (decide (h = g) || used b h) := by
  by_cases hdiv : h / 8 = g / 8
  · rw [used, setBit, hdiv, update_self, BitVec.getLsbD_or, ← BitVec.twoPow_eq, BitVec.getLsbD_twoPow]
    by_cases hgh : h = g
    · subst hgh; simp [Nat.mod_lt]
    · have := div_mod_ne (Ne.symm hgh) hdiv
      simp [hgh, this, used, hdiv]
  · have hgh : h ≠ g := by rintro rfl; exact hdiv rfl
    simp [used, setBit, update_of_ne hdiv, hgh]

@[simp] theorem used_clearBit : used (clearBit b g) h = (!decide (h = g) && used b h) := by
  by_cases hdiv : h / 8 = g / 8
  · rw [used, clearBit, hdiv, update_self, BitVec.getLsbD_and, BitVec.getLsbD_not,
      ← BitVec.twoPow_eq, BitVec.getLsbD_twoPow]
    by_cases hgh : h = g
    · subst hgh; simp [Nat.mod_lt]
    · have := div_mod_ne (Ne.symm hgh) hdiv
      simp [hgh, this, used, hdiv, Nat.mod_lt]
  · have hgh : h ≠ g := by rintro rfl; exact hdiv rfl
    simp [used, clearBit, update_of_ne hdiv, hgh]

theorem firstFree_spec (h : firstFree n b = some g) : g < n ∧ used b g = false := by
  have hs := List.find?_some h
  exact ⟨List.mem_range.mp (List.mem_of_find?_eq_some h), by simpa using hs⟩

theorem firstFree_eq_none : firstFree n b = none ↔ ∀ g < n, used b g = true := by
  simp [firstFree]

theorem le_length_of_forall_mem {l : List Nat} (h : ∀ g < n, g ∈ l) : n ≤ l.length := by
  have hsub : List.range n ⊆ l := fun g hg => h g (List.mem_range.mp hg)
  simpa using (List.subperm_of_subset List.nodup_range hsub).length_le

end Bitmap
