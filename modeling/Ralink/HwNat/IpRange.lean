import Ralink.HwNat.Classify

/-! What the three writers of address rules make of a range: the rule is written either way, and the
mantissa loses what does not fit. -/
namespace Ralink.HwNat

/-- The size of the range as mantissa and exponent. -/
def Encodes (ipS ipE : BitVec 32) : Prop :=
  ipE.toNat + 1 - ipS.toNat < 2 ^ 32 ∧ ∃ m i, m < 2 ^ 8 ∧ ipE.toNat + 1 - ipS.toNat = m * 2 ^ i

/-- The rule compares the address and covers just the range. -/
def Rule.Covers (rule : Rule) (dir : L3RuleDir) (ipS ipE : BitVec 32) : Prop :=
  match rule with
  | .l3Ip _ dir' ip rngM rngE =>
    dir' = dir ∧ ∀ a, ipRange ip rngM rngE a = true ↔ ipS ≤ a ∧ a ≤ ipE
  | _ => False

/-- The entries are none or the one for the range. -/
def RangeEntry (rules : List Rule) (dir : L3RuleDir) (ipS ipE : BitVec 32) : Prop :=
  rules = [] ∨ ∃ rule, rules = [rule] ∧ rule.Covers dir ipS ipE

/-- The engine gets no new entry or the one for the range. -/
def RangeInserted (p p' : Ppe) (e : Engine) (dir : L3RuleDir) (ipS ipE : BitVec 32) : Prop :=
  p'.getEnd e = p.getEnd e ∨
    ∃ rule, p'.policyTbl (p.getEnd e).toNat = some rule ∧ rule.Covers dir ipS ipE

def AcType.dir : AcType → L3RuleDir
  | .preAc => .sip
  | .postAc => .dip

def MtrType.dir : MtrType → L3RuleDir
  | .preMtr => .sip
  | .postMtr => .dip

section LowestBit

variable {range : BitVec 32} {i k fuel : Nat}

theorem getLsbD_lowestBit (h : lowestBit range i fuel < i + fuel) :
    range.getLsbD (lowestBit range i fuel) = true := by
  induction fuel generalizing i with
  | zero => exact absurd h (lt_irrefl i)
  | succ fuel ih =>
    rw [lowestBit] at h ⊢
    split
    · assumption
    · next hbit =>
      rw [if_neg hbit] at h
      exact ih (by omega)

theorem getLsbD_below (hle : i ≤ k) (hlt : k < lowestBit range i fuel) :
    range.getLsbD k = false := by
  induction fuel generalizing i with
  | zero => exact absurd (lt_of_le_of_lt hle hlt) (lt_irrefl i)
  | succ fuel ih =>
    rw [lowestBit] at hlt
    split at hlt
    · omega
    · next hbit =>
      rcases Nat.eq_or_lt_of_le hle with rfl | hlt'
      · exact Bool.eq_false_iff.mpr hbit
      · exact ih hlt' hlt

theorem shift_lowestBit : range.toNat / 2 ^ lowestBit range 0 32 * 2 ^ lowestBit range 0 32 =
    range.toNat := by
  apply Nat.eq_of_testBit_eq
  intro k
  rw [Nat.testBit_mul_two_pow, Nat.testBit_div_two_pow]
  by_cases hk : lowestBit range 0 32 ≤ k
  · simp [hk]
  · have hbelow : range.getLsbD k = false := getLsbD_below (Nat.zero_le k) (not_le.mp hk)
    simpa [hk, BitVec.getLsbD] using hbelow

theorem lowestBit_lt (h : range ≠ 0) : lowestBit range 0 32 < 32 := by
  by_contra hge
  apply h
  apply BitVec.eq_of_getLsbD_eq
  intro k hk
  rw [getLsbD_below (Nat.zero_le k) (lt_of_lt_of_le hk (not_lt.mp hge))]
  exact (Nat.zero_testBit k).symm

theorem le_lowestBit (h : range ≠ 0) {m : Nat} (hm : range.toNat = m * 2 ^ i) :
    i ≤ lowestBit range 0 32 := by
  by_contra hlt
  have hbit : range.getLsbD (lowestBit range 0 32) = true :=
    getLsbD_lowestBit (by have := lowestBit_lt h; omega)
  rw [BitVec.getLsbD, hm, Nat.testBit_mul_two_pow] at hbit
  simp [not_le.mpr (not_le.mp hlt)] at hbit

theorem shift_lt_iff (h : range ≠ 0) : range.toNat / 2 ^ lowestBit range 0 32 < 2 ^ 8 ↔
    ∃ m i, m < 2 ^ 8 ∧ range.toNat = m * 2 ^ i := by
  constructor
  · intro hlt
    exact ⟨_, _, hlt, shift_lowestBit.symm⟩
  · rintro ⟨m, i, hm, hrange⟩
    have hi := le_lowestBit h hrange
    have hdiv : range.toNat / 2 ^ i = m := by
      rw [hrange, Nat.mul_div_cancel m (Nat.two_pow_pos i)]
    calc range.toNat / 2 ^ lowestBit range 0 32 ≤ range.toNat / 2 ^ i :=
          Nat.div_le_div_left (Nat.pow_le_pow_right (by decide) hi) (Nat.two_pow_pos i)
      _ < 2 ^ 8 := by rw [hdiv]; exact hm

end LowestBit

section Range

variable {ipS ipE : BitVec 32} {com : CommonField} {dir : L3RuleDir} {p : Ppe} {e : Engine}

theorem range_toNat (h : ipS ≤ ipE) :
    (ipE + 1 - ipS).toNat = (ipE.toNat + 1 - ipS.toNat) % 2 ^ 32 := by
  have hle : ipS.toNat ≤ ipE.toNat := h
  bv_omega

def encodedSize (ipS ipE : BitVec 32) : Nat :=
  (calIpRange ipS ipE).1.toNat * 2 ^ (calIpRange ipS ipE).2.toNat

theorem encodedSize_zero (h : ipE + 1 - ipS = 0) : encodedSize ipS ipE = 0 := by
  rw [encodedSize, calIpRange, h]
  decide

theorem encodedSize_eq (h : ipE + 1 - ipS ≠ 0) : encodedSize ipS ipE =
    (ipE + 1 - ipS).toNat / 2 ^ lowestBit (ipE + 1 - ipS) 0 32 % 2 ^ 8 *
      2 ^ lowestBit (ipE + 1 - ipS) 0 32 := by
  have hlt := lowestBit_lt h
  rw [encodedSize, calIpRange, if_pos (Nat.ne_of_lt hlt), BitVec.toNat_setWidth, BitVec.toNat_ushiftRight,
    Nat.shiftRight_eq_div_pow, BitVec.toNat_ofNat, Nat.mod_eq_of_lt hlt]

theorem encodedSize_le (h : ipS ≤ ipE) : encodedSize ipS ipE ≤ ipE.toNat + 1 - ipS.toNat := by
  by_cases hzero : ipE + 1 - ipS = 0
  · rw [encodedSize_zero hzero]
    exact Nat.zero_le _
  · rw [encodedSize_eq hzero]
    calc _ ≤ (ipE + 1 - ipS).toNat / 2 ^ lowestBit (ipE + 1 - ipS) 0 32 *
            2 ^ lowestBit (ipE + 1 - ipS) 0 32 := Nat.mul_le_mul_right _ (Nat.mod_le _ _)
      _ = (ipE + 1 - ipS).toNat := shift_lowestBit
      _ ≤ ipE.toNat + 1 - ipS.toNat := by
          rw [range_toNat h]
          exact Nat.mod_le _ _

theorem encodedSize_iff (h : ipS ≤ ipE) :
    encodedSize ipS ipE = ipE.toNat + 1 - ipS.toNat ↔ Encodes ipS ipE := by
  have hle : ipS.toNat ≤ ipE.toNat := h
  have hmod := range_toNat h
  have hbound := ipE.isLt
  by_cases hzero : ipE + 1 - ipS = 0
  · rw [encodedSize_zero hzero, Encodes]
    rw [hzero] at hmod
    have hsize : ¬ ipE.toNat + 1 - ipS.toNat < 2 ^ 32 := by
      intro hlt
      rw [Nat.mod_eq_of_lt hlt] at hmod
      have hnone : (0 : BitVec 32).toNat = 0 := rfl
      omega
    exact iff_of_false (by omega) (fun henc => hsize henc.1)
  · have hsize : ipE.toNat + 1 - ipS.toNat < 2 ^ 32 := by
      have hne : (ipE + 1 - ipS).toNat ≠ 0 := fun h0 => hzero (BitVec.eq_of_toNat_eq h0)
      rw [hmod] at hne
      by_contra hge
      exact hne (by rw [show ipE.toNat + 1 - ipS.toNat = 2 ^ 32 by omega, Nat.mod_self])
    rw [Nat.mod_eq_of_lt hsize] at hmod
    rw [Encodes, encodedSize_eq hzero, ← hmod, ← shift_lt_iff hzero]
    constructor
    · intro heq
      refine ⟨hmod ▸ hsize, ?_⟩
      have hpow := Nat.two_pow_pos (lowestBit (ipE + 1 - ipS) 0 32)
      have hsame := Nat.eq_of_mul_eq_mul_right hpow (heq.trans shift_lowestBit.symm)
      rw [← hsame]
      exact Nat.mod_lt _ (by decide)
    · rintro ⟨-, hfits⟩
      rw [Nat.mod_eq_of_lt hfits]
      exact shift_lowestBit

theorem ipRange_iff (h : ipS ≤ ipE) :
    (∀ a, ipRange ipS (calIpRange ipS ipE).1 (calIpRange ipS ipE).2 a = true ↔
      ipS ≤ a ∧ a ≤ ipE) ↔ Encodes ipS ipE := by
  rw [← encodedSize_iff h]
  have hle : ipS.toNat ≤ ipE.toNat := h
  constructor
  · intro hcovers
    have hlast := (hcovers ipE).mpr ⟨h, BitVec.le_refl ipE⟩
    have hsize := encodedSize_le h
    simp only [ipRange, decide_eq_true_eq] at hlast
    have hin : ipE.toNat < ipS.toNat + encodedSize ipS ipE := hlast.2
    omega
  · intro hsize a
    have hexact : ExactIp ipS ipE := ⟨h, hsize⟩
    rw [ipRange_exact hexact, decide_eq_true_eq]

theorem covers_iff (h : ipS ≤ ipE) :
    (Rule.l3Ip com dir ipS (calIpRange ipS ipE).1 (calIpRange ipS ipE).2).Covers dir ipS ipE ↔
      Encodes ipS ipE := by
  rw [← ipRange_iff h]
  exact and_iff_right rfl

theorem rangeEntry_iff (h : ipS ≤ ipE) :
    RangeEntry [.l3Ip com dir ipS (calIpRange ipS ipE).1 (calIpRange ipS ipE).2] dir ipS ipE ↔
      Encodes ipS ipE := by
  rw [← covers_iff h]
  constructor
  · rintro (hnone | ⟨rule, hrule, hcovers⟩)
    · exact absurd hnone (List.cons_ne_nil _ _)
    · rw [← List.head_eq_of_cons_eq hrule] at hcovers
      exact hcovers
  · intro hcovers
    exact .inr ⟨_, rfl, hcovers⟩

theorem rangeInserted_iff {com : CommonField} {dir : L3RuleDir} {p p' : Ppe} {e : Engine}
    (htbl : p'.policyTbl = (p.insEntry e
      (.l3Ip com dir ipS (calIpRange ipS ipE).1 (calIpRange ipS ipE).2)).policyTbl)
    (hend : p'.getEnd e = p.getEnd e + 1) (h : ipS ≤ ipE) :
    RangeInserted p p' e dir ipS ipE ↔ Encodes ipS ipE := by
  have hslot : p'.policyTbl (p.getEnd e).toNat =
      some (.l3Ip com dir ipS (calIpRange ipS ipE).1 (calIpRange ipS ipE).2) := by
    rw [htbl]
    have hindex : ((p.getEnd e).setWidth 32).toNat = (p.getEnd e).toNat := by
      generalize p.getEnd e = v
      bv_omega
    simp [Ppe.insEntry, Ppe.setEnd, Ppe.regModifyBits, Ppe.regWrite, hindex]
  rw [← covers_iff h]
  constructor
  · rintro (hsame | ⟨rule, hrule, hcovers⟩)
    · rw [hend] at hsame
      generalize p.getEnd e = v at hsame
      bv_omega
    · rw [hslot] at hrule
      rw [← Option.some.inj hrule] at hcovers
      exact hcovers
  · intro hcovers
    exact .inr ⟨_, hslot, hcovers⟩

theorem Ppe.getEnd_insEntry {rule : Rule} : (p.insEntry e rule).getEnd e = p.getEnd e + 1 := by
  rw [Ppe.insEntry, Ppe.getEnd_setEnd, Function.update_self]
  generalize p.getEnd e = v
  bv_omega

theorem acInsIp_range {node : AcPlcyNode} {p : Ppe} (h : node.IpS ≤ node.IpE) :
    RangeInserted p (acInsIp node p) node.Type_.engine node.Type_.dir node.IpS node.IpE ↔
      Encodes node.IpS node.IpE := by
  cases hpos : node.Type_ with
  | preAc | postAc =>
    refine @rangeInserted_iff node.IpS node.IpE (acCom node) _ _ _ _ ?_ ?_ h
    · rw [acInsIp, hpos]
      rfl
    · rw [acInsIp, hpos]
      exact Ppe.getEnd_insEntry

theorem mtrInsIp_range {node : MtrPlcyNode} {p : Ppe} (h : node.IpS ≤ node.IpE) :
    RangeInserted p (mtrInsIp node p) node.Type_.engine node.Type_.dir node.IpS node.IpE ↔
      Encodes node.IpS node.IpE := by
  cases hpos : node.Type_ with
  | preMtr | postMtr =>
    refine @rangeInserted_iff node.IpS node.IpE (mtrCom node) _ _ _ _ ?_ ?_ h
    · rw [mtrInsIp, hpos]
      rfl
    · rw [mtrInsIp, hpos]
      exact Ppe.getEnd_insEntry

/-- The encoding of a range and the rules written with it are exact exactly when eight bits hold
the mantissa; otherwise a rule is written all the same. -/
theorem calIpRange_exact_iff (ipS ipE : BitVec 32) (h : ipS ≤ ipE) :
    (ipS.toNat + (calIpRange ipS ipE).1.toNat * 2 ^ (calIpRange ipS ipE).2.toNat =
        ipE.toNat + 1 ↔ Encodes ipS ipE) ∧
      (∀ cfg (node : AclPlcyNode) last, node.SipS = ipS → node.SipE = ipE →
        (RangeEntry (node.aclSetIpEntry cfg .sip last) .sip ipS ipE ↔ Encodes ipS ipE)) ∧
      (∀ cfg (node : AclPlcyNode) last, node.DipS = ipS → node.DipE = ipE →
        (RangeEntry (node.aclSetIpEntry cfg .dip last) .dip ipS ipE ↔ Encodes ipS ipE)) ∧
      (∀ (node : AcPlcyNode) p, node.IpS = ipS → node.IpE = ipE →
        (RangeInserted p (acInsIp node p) node.Type_.engine node.Type_.dir ipS ipE ↔
          Encodes ipS ipE)) ∧
      ∀ (node : MtrPlcyNode) p, node.IpS = ipS → node.IpE = ipE →
        (RangeInserted p (mtrInsIp node p) node.Type_.engine node.Type_.dir ipS ipE ↔
          Encodes ipS ipE) := by
  refine ⟨?_, ?_, ?_, ?_, ?_⟩
  · rw [← encodedSize_iff h, encodedSize]
    have hle : ipS.toNat ≤ ipE.toNat := h
    omega
  · rintro cfg node last rfl rfl
    exact rangeEntry_iff h
  · rintro cfg node last rfl rfl
    exact rangeEntry_iff h
  · rintro node p rfl rfl
    exact acInsIp_range h
  · rintro node p rfl rfl
    exact mtrInsIp_range h

/-- The range of one private network is exact. -/
theorem calIpRange_exact_private : (0x0A000000 : BitVec 32) ≤ 0x0AFFFFFF ∧
    (0x0A000000#32 |>.toNat) + (calIpRange 0x0A000000 0x0AFFFFFF).1.toNat *
        2 ^ (calIpRange 0x0A000000 0x0AFFFFFF).2.toNat = (0x0AFFFFFF#32).toNat + 1 :=
  ⟨by decide, (calIpRange_exact_iff 0x0A000000 0x0AFFFFFF (by decide)).1.mpr
    ⟨by decide, 1, 24, by decide, by decide⟩⟩

/-- Of the 257 addresses of this range the rule covers the first. -/
theorem calIpRange_truncated :
    calIpRange 0x0A000000 0x0A000100 = (1, 0) ∧
      ¬ (0x0A000000#32).toNat + (calIpRange 0x0A000000 0x0A000100).1.toNat *
        2 ^ (calIpRange 0x0A000000 0x0A000100).2.toNat = (0x0A000100#32).toNat + 1 ∧
      ipRange 0x0A000000 1 0 0x0A000100 = false := by decide

end Range

end Ralink.HwNat
