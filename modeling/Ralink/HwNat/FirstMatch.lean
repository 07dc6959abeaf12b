import Ralink.HwNat.AclPolicy

/-! What the rules of the list accept, each field by itself: one that is left at zero accepts every
value. The classifier looks at the end of the TOS range where it should look at the VLAN. -/
namespace Ralink.HwNat

def FieldAccepts {α : Type} (unset field value : α) : Prop := field = unset ∨ field = value

def RangeAccepts {w : Nat} (s e v : BitVec w) : Prop := e = 0 ∨ s ≤ v ∧ v ≤ e

namespace AclPlcyNode

variable (node : AclPlcyNode) (key : AclClassifyKey)

/-- The fields of the longest rule but for the VLAN. -/
def OtherFieldsAccept : Prop :=
  FieldAccepts zeroMac node.Mac key.Mac ∧ FieldAccepts zeroMac node.DMac key.DMac ∧
    FieldAccepts 0 node.Protocol key.Protocol ∧ RangeAccepts node.SipS node.SipE key.Sip ∧
    RangeAccepts node.DipS node.DipE key.Dip ∧ RangeAccepts node.DpS node.DpE key.Dp ∧
    RangeAccepts node.SpS node.SpE key.Sp ∧ RangeAccepts node.TosS node.TosE key.Tos ∧
    FieldAccepts 0 node.Ethertype key.Ethertype ∧ node.Proto = key.Proto

def Accepts : Prop :=
  match node.RuleType with
  | .add .sdmacAny => node.Mac = key.Mac
  | .add .etypeAny => node.Ethertype = key.Ethertype
  | .add .smacDipAny =>
    FieldAccepts zeroMac node.Mac key.Mac ∧ RangeAccepts node.DipS node.DipE key.Dip
  | .add .smacDipTcp | .add .smacDipUdp =>
    FieldAccepts zeroMac node.Mac key.Mac ∧ RangeAccepts node.DipS node.DipE key.Dip ∧
      RangeAccepts node.DpS node.DpE key.Dp ∧ node.Proto = key.Proto
  | .add .sipDipAny =>
    RangeAccepts node.SipS node.SipE key.Sip ∧ RangeAccepts node.DipS node.DipE key.Dip
  | .add .sipDipTcp | .add .sipDipUdp =>
    RangeAccepts node.SipS node.SipE key.Sip ∧ RangeAccepts node.DipS node.DipE key.Dip ∧
      RangeAccepts node.DpS node.DpE key.Dp ∧ node.Proto = key.Proto
  | .add .smacDmacEtypeVidSipDipTosPort =>
    node.OtherFieldsAccept key ∧ FieldAccepts 0 node.Vid key.Vid
  | .del _ | .cleanTbl | .getAllEntries => False

/-- Only the VLAN decides, it is not the packet's, and the two tests for a VLAN that is not set
differ. -/
def Misjudged : Prop :=
  node.RuleType = .add .smacDmacEtypeVidSipDipTosPort ∧ node.OtherFieldsAccept key ∧
    node.Vid ≠ key.Vid ∧ ¬ (node.Vid = 0 ↔ node.TosE = 0)

def withUp (ups : AclPlcyNode → BitVec 3) : AclPlcyNode := { node with up := ups node }

end AclPlcyNode

/-- No rule up to the first one that accepts is misjudged. -/
def NoneMisjudged (l : List AclPlcyNode) (key : AclClassifyKey) : Prop :=
  ∀ before node after, l = before ++ node :: after → (∀ m ∈ before, ¬ m.Accepts key) →
    ¬ node.Misjudged key

open Classical in
noncomputable def firstAccepting (l : List AclPlcyNode) (key : AclClassifyKey) : Option AclPlcyNode :=
  l.find? fun node => decide (node.Accepts key)

noncomputable def firstUp (l : List AclPlcyNode) (key : AclClassifyKey) : BitVec 3 :=
  match firstAccepting l key with
  | some node => node.up
  | none => 0

section FirstMatch

variable {node : AclPlcyNode} {key : AclClassifyKey} {l : List AclPlcyNode}
  (ups : AclPlcyNode → BitVec 3)

theorem inRange_accepts {w : Nat} {s e v : BitVec w} : inRange s e v = true ↔ RangeAccepts s e v := by
  rw [inRange, decide_eq_true_eq, RangeAccepts, or_comm]

theorem aclMatches_longest (h : node.RuleType = .add .smacDmacEtypeVidSipDipTosPort) :
    aclMatches node key = true ↔
      node.OtherFieldsAccept key ∧ (node.Vid = key.Vid ∨ node.TosE = 0) := by
  simp only [aclMatches, h, AclPlcyNode.OtherFieldsAccept, FieldAccepts, ← inRange_accepts,
    Bool.decide_and, Bool.decide_or, Bool.decide_eq_true, Bool.and_eq_true, Bool.or_eq_true,
    decide_eq_true_eq]
  grind

theorem aclMatches_iff : (aclMatches node key = true ↔ node.Accepts key) ↔ ¬ node.Misjudged key := by
  by_cases hlongest : node.RuleType = .add .smacDmacEtypeVidSipDipTosPort
  · rw [aclMatches_longest hlongest, AclPlcyNode.Accepts, AclPlcyNode.Misjudged, hlongest]
    simp only [FieldAccepts]
    tauto
  · have hnot : ¬ node.Misjudged key := fun h => hlongest h.1
    refine iff_of_true ?_ hnot
    unfold aclMatches AclPlcyNode.Accepts
    split
    case h_9 h => exact absurd h hlongest
    all_goals simp [*, FieldAccepts, inRange_accepts, or_comm]

theorem noneMisjudged_cons :
    NoneMisjudged (node :: l) key ↔
      ¬ node.Misjudged key ∧ (node.Accepts key ∨ NoneMisjudged l key) := by
  constructor
  · intro h
    refine ⟨h [] node l rfl (fun m hm => absurd hm List.not_mem_nil), ?_⟩
    by_cases haccepts : node.Accepts key
    · exact .inl haccepts
    · right
      intro before m after hl hbefore
      apply h (node :: before) m after (by rw [hl, List.cons_append])
      intro m' hm'
      rcases List.mem_cons.mp hm' with rfl | hm'
      · exact haccepts
      · exact hbefore m' hm'
  · rintro ⟨hnode, hrest⟩ before m after hl hbefore
    cases before with
    | nil =>
      obtain ⟨rfl, -⟩ := List.cons.inj hl
      exact hnode
    | cons first before =>
      obtain ⟨rfl, htail⟩ := List.cons.inj hl
      have hfirst := hbefore node List.mem_cons_self
      apply hrest.resolve_left hfirst before m after htail
      intro m' hm'
      exact hbefore m' (List.mem_cons_of_mem _ hm')

open Classical in
theorem firstAccepting_accepts {m : AclPlcyNode} (h : firstAccepting l key = some m) :
    m.Accepts key := by
  have hfound := List.find?_some h
  exact of_decide_eq_true hfound

open Classical in
theorem firstAccepting_cons_of_accepts (h : node.Accepts key) :
    firstAccepting (node :: l) key = some node :=
  List.find?_cons_of_pos (decide_eq_true h)

open Classical in
theorem firstAccepting_cons_of_not (h : ¬ node.Accepts key) :
    firstAccepting (node :: l) key = firstAccepting l key := by
  apply List.find?_cons_of_neg
  exact fun hd => h (of_decide_eq_true hd)

theorem find_first_iff :
    l.find? (aclMatches · key) = firstAccepting l key ↔ NoneMisjudged l key := by
  induction l with
  | nil =>
    refine iff_of_true rfl ?_
    intro before node after h
    cases before <;> cases h
  | cons node l ih =>
    have hnode := @aclMatches_iff node key
    rw [noneMisjudged_cons, ← ih, ← hnode]
    by_cases hmatch : aclMatches node key = true
    · have hfind : (node :: l).find? (aclMatches · key) = some node :=
        List.find?_cons_of_pos hmatch
      rw [hfind]
      by_cases haccepts : node.Accepts key
      · simp [hmatch, haccepts, firstAccepting_cons_of_accepts haccepts]
      · have hother : ¬ some node = firstAccepting l key := fun h =>
          haccepts (firstAccepting_accepts h.symm)
        simp [hmatch, haccepts, firstAccepting_cons_of_not haccepts, hother]
    · have hfind : (node :: l).find? (aclMatches · key) = l.find? (aclMatches · key) :=
        List.find?_cons_of_neg hmatch
      rw [hfind]
      by_cases haccepts : node.Accepts key
      · have hother : ¬ l.find? (aclMatches · key) = some node := by
          intro h
          have hfound := List.find?_some h
          exact hmatch hfound
        simp [hmatch, haccepts, firstAccepting_cons_of_accepts haccepts, hother]
      · simp [hmatch, haccepts, firstAccepting_cons_of_not haccepts]

theorem eq_of_up {a b : Option AclPlcyNode}
    (h : ∀ ups : AclPlcyNode → BitVec 3, (a.map ups).getD 0 = (b.map ups).getD 0) : a = b := by
  cases a with
  | none =>
    cases b with
    | none => rfl
    | some n => exact absurd (h fun _ => 1) (by simp)
  | some m =>
    cases b with
    | none => exact absurd (h fun _ => 1) (by simp)
    | some n =>
      by_cases hmn : n = m
      · rw [hmn]
      · exact absurd (h fun x => if x = m then 1 else 0) (by simp [hmn])

theorem aclClassify_map :
    aclClassify (l.map (·.withUp ups)) key = ((l.find? (aclMatches · key)).map ups).getD 0 := by
  have hmap : (l.map (·.withUp ups)).find? (aclMatches · key) =
      (l.find? (aclMatches · key)).map (·.withUp ups) := List.find?_map
  rw [aclClassify, hmap]
  cases l.find? (aclMatches · key) <;> rfl

open Classical in
theorem firstUp_map :
    firstUp (l.map (·.withUp ups)) key = ((firstAccepting l key).map ups).getD 0 := by
  have hmap : firstAccepting (l.map (·.withUp ups)) key =
      (firstAccepting l key).map (·.withUp ups) := List.find?_map
  rw [firstUp, hmap]
  cases firstAccepting l key <;> rfl

/-- The first rule that accepts decides, whatever priorities the rules carry, exactly when no rule
up to it is misjudged. -/
theorem aclClassify_first_iff (l : List AclPlcyNode) (key : AclClassifyKey) :
    ((∀ ups, aclClassify (l.map (·.withUp ups)) key = firstUp (l.map (·.withUp ups)) key) ↔
        NoneMisjudged l key) ∧
      (NoneMisjudged l key → aclClassify l key = firstUp l key) := by
  refine ⟨⟨?_, ?_⟩, ?_⟩
  · intro h
    apply find_first_iff.mp
    apply eq_of_up
    intro ups
    rw [← aclClassify_map, h, firstUp_map]
  · intro h ups
    rw [aclClassify_map, firstUp_map, find_first_iff.mpr h]
  · intro h
    rw [aclClassify, find_first_iff.mpr h]
    rfl

/-- A rule for VLAN 5 without a TOS range takes the packets of VLAN 7. -/
theorem aclClassify_other_vlan :
    aclClassify [{ RuleType := .add .smacDmacEtypeVidSipDipTosPort, Vid := 5, up := 3 }]
        { Vid := 7 } = 3 ∧
      firstUp [{ RuleType := .add .smacDmacEtypeVidSipDipTosPort, Vid := 5, up := 3 }]
        { Vid := 7 } = 0 := by
  refine ⟨by decide, ?_⟩
  have hnone : firstAccepting [{ RuleType := .add .smacDmacEtypeVidSipDipTosPort, Vid := 5, up := 3 }]
      { Vid := 7 } = none := by
    rw [firstAccepting_cons_of_not]
    · rfl
    · rintro ⟨-, hvid⟩
      exact absurd hvid (by unfold FieldAccepts; decide)
  rw [firstUp, hnone]

end FirstMatch

end Ralink.HwNat
