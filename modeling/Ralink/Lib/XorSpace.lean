import Mathlib.Algebra.Module.ZMod
import Mathlib.Tactic

/-! A group in which every element is its own inverse, such as bytes with exclusive or. A column of
four of its elements is mixed through a linear map, and the mixing is undone through the same map.
-/
namespace XorSpace

section Columns

variable {V : Type*} [AddCommGroup V] [Module (ZMod 2) V] (x : V →ₗ[ZMod 2] V)

/-- Twice the first, three times the second, and the two others. -/
def mix (a b c d : V) : V := x a + (b + x b) + c + d

def unmix (a b c d : V) : V :=
  (x (x (x a)) + x (x a) + x a) + (x (x (x b)) + x b + b) + (x (x (x c)) + x (x c) + c) +
    (x (x (x d)) + d)

variable (a b c d : V)

theorem unmix_mix :
    unmix x (mix x a b c d) (mix x b c d a) (mix x c d a b) (mix x d a b c) = a := by
  simp only [unmix, mix, map_add]
  conv_rhs => rw [← one_smul (ZMod 2) a]
  match_scalars <;> decide

theorem mix_unmix :
    mix x (unmix x a b c d) (unmix x b c d a) (unmix x c d a b) (unmix x d a b c) = a := by
  simp only [unmix, mix, map_add]
  conv_rhs => rw [← one_smul (ZMod 2) a]
  match_scalars <;> decide

end Columns

/-- A byte whose sum with another one is their exclusive or. -/
structure XorByte where
  byte : UInt8

namespace XorByte

instance : Add XorByte := ⟨fun a b => ⟨a.byte ^^^ b.byte⟩⟩

instance : Zero XorByte := ⟨⟨0⟩⟩

instance : Neg XorByte := ⟨id⟩

instance : AddCommGroup XorByte where
  nsmul := nsmulRec
  zsmul := zsmulRec
  add_assoc a b c := congrArg mk (UInt8.xor_assoc a.byte b.byte c.byte)
  add_comm a b := congrArg mk (UInt8.xor_comm a.byte b.byte)
  zero_add _ := congrArg mk UInt8.zero_xor
  add_zero _ := congrArg mk UInt8.xor_zero
  neg_add_cancel _ := congrArg mk UInt8.xor_self

instance : Module (ZMod 2) XorByte := AddCommGroup.zmodModule fun a => by
  rw [two_nsmul]
  exact neg_add_cancel a

/-- A function of bytes that goes through exclusive or. -/
def linear (f : UInt8 → UInt8) (hf : ∀ a b, f (a ^^^ b) = f a ^^^ f b) :
    XorByte →ₗ[ZMod 2] XorByte :=
  AddMonoidHom.toZModLinearMap 2
    (AddMonoidHom.mk' (fun a : XorByte => ⟨f a.byte⟩) fun a b => congrArg mk (hf a.byte b.byte))

end XorByte

theorem forall_byte {p : UInt8 → Prop} [DecidablePred p]
    (h : (List.range 256).all fun n => p (UInt8.ofNat n)) (b : UInt8) : p b := by
  have hb := List.all_eq_true.mp h b.toNat (List.mem_range.mpr b.toNat_lt)
  rw [UInt8.ofNat_toNat] at hb
  exact of_decide_eq_true hb

/-- Twice a byte in the field of 256 elements, reduced if the high bit falls out. -/
def double (b : UInt8) : UInt8 := (b <<< 1) ^^^ if b &&& 0x80 = 0x80 then 0x1b else 0

theorem high_bit (b : UInt8) : b &&& 0x80 = 0 ∨ b &&& 0x80 = 0x80 := by
  revert b
  exact forall_byte (by decide +kernel)

theorem and_xor (a b c : UInt8) : (a ^^^ b) &&& c = (a &&& c) ^^^ (b &&& c) := by
  apply UInt8.toBitVec_inj.mp
  refine BitVec.eq_of_getLsbD_eq fun i _ => ?_
  simp [Bool.and_xor_distrib_right]

theorem double_xor (a b : UInt8) : double (a ^^^ b) = double a ^^^ double b := by
  have hreduce : (if (a ^^^ b) &&& 0x80 = 0x80 then 0x1b else (0 : UInt8)) =
      (if a &&& 0x80 = 0x80 then 0x1b else 0) ^^^ (if b &&& 0x80 = 0x80 then 0x1b else 0) := by
    rw [and_xor]
    rcases high_bit a with ha | ha
    · rcases high_bit b with hb | hb
      · rw [ha, hb]; rfl
      · rw [ha, hb]; rfl
    · rcases high_bit b with hb | hb
      · rw [ha, hb]; rfl
      · rw [ha, hb]; rfl
  unfold double
  rw [hreduce, UInt8.shiftLeft_xor]
  ac_rfl

section Bytes

/-- The first entry of a mixed column, whose others are found by turning the column round. -/
def mixByte (a b c d : UInt8) : UInt8 := double a ^^^ (b ^^^ double b) ^^^ c ^^^ d

def unmixByte (a b c d : UInt8) : UInt8 :=
  (double (double (double a)) ^^^ double (double a) ^^^ double a) ^^^
    (double (double (double b)) ^^^ double b ^^^ b) ^^^
    (double (double (double c)) ^^^ double (double c) ^^^ c) ^^^ (double (double (double d)) ^^^ d)

variable (a b c d : UInt8)

theorem unmixByte_mixByte :
    unmixByte (mixByte a b c d) (mixByte b c d a) (mixByte c d a b) (mixByte d a b c) = a :=
  congrArg XorByte.byte (unmix_mix (XorByte.linear double double_xor) ⟨a⟩ ⟨b⟩ ⟨c⟩ ⟨d⟩)

theorem mixByte_unmixByte :
    mixByte (unmixByte a b c d) (unmixByte b c d a) (unmixByte c d a b) (unmixByte d a b c) = a :=
  congrArg XorByte.byte (mix_unmix (XorByte.linear double double_xor) ⟨a⟩ ⟨b⟩ ⟨c⟩ ⟨d⟩)

end Bytes

end XorSpace
