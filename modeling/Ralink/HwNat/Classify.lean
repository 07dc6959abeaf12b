import Ralink.HwNat.RuleRoom

/-! What the classifier and the hardware compare for each kind of rule, against what the existence
check and the deletion compare. -/
namespace Ralink.HwNat

/-- The node as a rule of a kind, and as the node its deletion is asked with. -/
def AclPlcyNode.toAdd (node : AclPlcyNode) (kind : AclKind) : AclPlcyNode :=
  { node with RuleType := .add kind }

def AclPlcyNode.toDel (node : AclPlcyNode) (kind : AclKind) : AclPlcyNode :=
  { node with RuleType := .del kind }

/-- The fields that `AclClassify` or the entries of a rule compare. -/
def sameFields (a b : AclPlcyNode) : AclKind → Bool
  | .sdmacAny => a.Mac = b.Mac
  | .etypeAny => a.Ethertype = b.Ethertype ∧ a.Vid = b.Vid
  | .smacDipAny => a.Mac = b.Mac ∧ a.DipS = b.DipS ∧ a.DipE = b.DipE
  | .smacDipTcp | .smacDipUdp =>
    a.Mac = b.Mac ∧ a.DipS = b.DipS ∧ a.DipE = b.DipE ∧ a.DpS = b.DpS ∧ a.DpE = b.DpE
      ∧ a.Proto = b.Proto
  | .sipDipAny => a.SipS = b.SipS ∧ a.SipE = b.SipE ∧ a.DipS = b.DipS ∧ a.DipE = b.DipE
  | .sipDipTcp | .sipDipUdp =>
    a.SipS = b.SipS ∧ a.SipE = b.SipE ∧ a.DipS = b.DipS ∧ a.DipE = b.DipE ∧ a.DpS = b.DpS
      ∧ a.DpE = b.DpE ∧ a.Proto = b.Proto
  | .smacDmacEtypeVidSipDipTosPort =>
    a.Mac = b.Mac ∧ a.DMac = b.DMac ∧ a.Ethertype = b.Ethertype ∧ a.Vid = b.Vid
      ∧ a.TosS = b.TosS ∧ a.TosE = b.TosE ∧ a.SipS = b.SipS ∧ a.SipE = b.SipE
      ∧ a.DipS = b.DipS ∧ a.DipE = b.DipE ∧ a.SpS = b.SpS ∧ a.SpE = b.SpE ∧ a.DpS = b.DpS
      ∧ a.DpE = b.DpE ∧ a.Protocol = b.Protocol ∧ a.Proto = b.Proto

/-- The node is a rule of the kind with the values of `node`. -/
def aclSame (node : AclPlcyNode) (kind : AclKind) (m : AclPlcyNode) : Bool :=
  m.RuleType = .add kind ∧ sameFields m node kind

/-- An add that succeeds leaves the rule in the list. -/
def AclAddHolds (cfg : Build) (s : Driver) (node : AclPlcyNode) (kind : AclKind) (mem : Bool) :
    Prop :=
  (s.call cfg (.aclAddNode (node.toAdd kind) mem)).1 = .success →
    (s.step cfg (.aclAddNode (node.toAdd kind) mem)).acl.any (aclSame node kind)

/-- For a rule that is not in the list, adding and deleting it gives the list back. -/
def AclAddDelRestores (cfg : Build) (s : Driver) (node : AclPlcyNode) (kind : AclKind)
    (mem : Bool) : Prop :=
  ¬ s.acl.any (aclSame node kind) →
    ((s.step cfg (.aclAddNode (node.toAdd kind) mem)).step cfg
      (.aclDelNode (node.toDel kind))).acl = s.acl

/-! The calls as the add and the deletion of a store that is scanned. -/

theorem acl_call_add (cfg : Build) (s : Driver) (node : AclPlcyNode) (mem : Bool) :
    ((s.call cfg (.aclAddNode node mem)).1 = .success ↔
      (Scan.add (aclExists node) s.acl s.acl node mem).1) ∧
    (s.step cfg (.aclAddNode node mem)).acl =
      (Scan.add (aclExists node) s.acl s.acl node mem).2 := by
  simp only [Driver.step, Driver.call, Driver.withAcl, aclAddNode, aclExistNode, Scan.add,
    List.find?_isSome, List.any_eq_true]
  split
  · simp
  · cases mem <;> simp

theorem acl_call_del (cfg : Build) (s : Driver) (node : AclPlcyNode) :
    (s.step cfg (.aclDelNode node)).acl = (Scan.delete (aclDeletes node) s.acl).2 := by
  simp only [Driver.step, Driver.call, Driver.withAcl, aclDelNode, Scan.delete]
  split
  · next h => exact (List.eraseP_of_forall_not (by simpa using h)).symm
  · rfl

theorem aclSame_toAdd (node : AclPlcyNode) (kind : AclKind) :
    aclSame node kind (node.toAdd kind) := by
  cases kind <;> simp [aclSame, sameFields, AclPlcyNode.toAdd]

theorem aclDeletes_toAdd (node : AclPlcyNode) (kind : AclKind) :
    aclDeletes (node.toDel kind) (node.toAdd kind) := by
  cases kind <;> simp [aclDeletes, AclPlcyNode.toDel, AclPlcyNode.toAdd]

variable {cfg : Build} {s : Driver} {node : AclPlcyNode} {kind : AclKind} {mem : Bool}

theorem aclAddHolds_iff : AclAddHolds cfg s node kind mem ↔
    s.acl.any (aclSame node kind) ∨ ∀ m ∈ s.acl, ¬ aclExists (node.toAdd kind) m := by
  obtain ⟨hres, hlist⟩ := acl_call_add cfg s (node.toAdd kind) mem
  rw [AclAddHolds, hres, hlist]
  exact Scan.add_holds_iff (aclSame_toAdd node kind) rfl

theorem aclAddDelRestores_iff : AclAddDelRestores cfg s node kind mem ↔
    s.acl.any (aclSame node kind) ∨ ∀ m ∈ s.acl, ¬ aclDeletes (node.toDel kind) m := by
  rw [AclAddDelRestores, acl_call_del, (acl_call_add cfg s (node.toAdd kind) mem).2]
  exact Scan.add_delete_iff (aclSame_toAdd node kind) (aclDeletes_toAdd node kind)
    fun _ => List.eraseP_eq_self_iff

/-- The two halves of what a set promises, each with the condition under which it is kept. -/
theorem aclStore_iff (cfg : Build) (s : Driver) (node : AclPlcyNode) (kind : AclKind) (mem : Bool) :
    (AclAddHolds cfg s node kind mem ↔
      s.acl.any (aclSame node kind) ∨ ∀ m ∈ s.acl, ¬ aclExists (node.toAdd kind) m) ∧
    (AclAddDelRestores cfg s node kind mem ↔
      s.acl.any (aclSame node kind) ∨ ∀ m ∈ s.acl, ¬ aclDeletes (node.toDel kind) m) :=
  ⟨aclAddHolds_iff, aclAddDelRestores_iff⟩

/-- A rule for a source address and an address range, and then one for the same source
address alone: the second add succeeds and adds nothing. -/
theorem aclStore_loses_rule :
    ¬ AclAddHolds ⟨false, false⟩
      (Run.exec (Driver.step ⟨false, false⟩) (ppeInitMod ⟨false, false⟩ kconfigSizes Ppe.zero)
        [.aclAddNode { RuleType := .add .smacDipAny, Mac := #v[0, 1, 2, 3, 4, 5],
                       DipS := 1, DipE := 2 } true])
      { RuleType := .add .sdmacAny, Mac := #v[0, 1, 2, 3, 4, 5] } .sdmacAny true := by
  rw [aclAddHolds_iff, Run.exec_cons, Run.exec_nil, (acl_call_add _ _ _ _).2]
  rintro (hsame | hno)
  · exact absurd hsame (by decide)
  · exact hno { RuleType := .add .smacDipAny, Mac := #v[0, 1, 2, 3, 4, 5], DipS := 1, DipE := 2 }
      (List.mem_singleton.mpr rfl) (by decide)

end Ralink.HwNat

/-! When the entries in the policy table give every packet the user priority that the classifier
gives it. The two differ in when a field counts as not set, in the fields that they compare at all,
and in the priority of a packet that is denied. -/
namespace Ralink.HwNat

/-- The size of the range is what mantissa and exponent say. -/
def ExactIp (ipS ipE : BitVec 32) : Prop :=
  ipS ≤ ipE ∧ (calIpRange ipS ipE).1.toNat * 2 ^ (calIpRange ipS ipE).2.toNat =
    ipE.toNat + 1 - ipS.toNat

instance (ipS ipE : BitVec 32) : Decidable (ExactIp ipS ipE) :=
  inferInstanceAs (Decidable (_ ∧ _))

/-- A range is compared by both, or by neither. -/
def RangeAgrees {w : Nat} (s e : BitVec w) : Prop :=
  if s ≠ 0 then e ≠ 0 else e = 0 ∨ e = BitVec.allOnes w

namespace AclPlcyNode

variable (cfg : Build) (node : AclPlcyNode)

/-- The address ranges that the rule has entries for are exact. -/
def IpExact : Prop :=
  (.sip ∈ node.ruleFields cfg → ExactIp node.SipS node.SipE) ∧
    (.dip ∈ node.ruleFields cfg → ExactIp node.DipS node.DipE)

def InOrder : AclField → Prop
  | .tos => node.TosS ≤ node.TosE
  | .sport _ => node.SpS ≤ node.SpE
  | .dport _ => node.DpS ≤ node.DpE
  | _ => True

/-- A range of the rule holds no value, so that nothing matches either way. -/
def MatchesNone : AclKind → Prop
  | .sdmacAny | .etypeAny | .smacDipAny | .sipDipAny => False
  | .smacDipTcp | .smacDipUdp | .sipDipTcp | .sipDipUdp => node.DpE ≠ 0 ∧ node.DpE < node.DpS
  | .smacDmacEtypeVidSipDipTosPort =>
    node.DpE ≠ 0 ∧ node.DpE < node.DpS ∨ node.SpE ≠ 0 ∧ node.SpE < node.SpS ∨
      node.TosE ≠ 0 ∧ node.TosE < node.TosS

/-- The entries compare what the classifier does. -/
def FieldsAgree : AclKind → Prop
  | .sdmacAny => False
  | .etypeAny => node.Ethertype ≠ 0 ∧ node.Vid = 0
  | .smacDipAny => node.Mac ≠ zeroMac ∧ node.DipE ≠ 0
  | .smacDipTcp => node.Mac ≠ zeroMac ∧ node.DipE ≠ 0 ∧ node.DpE ≠ 0 ∧ node.Proto = .tcp
  | .smacDipUdp => node.Mac ≠ zeroMac ∧ node.DipE ≠ 0 ∧ node.DpE ≠ 0 ∧ node.Proto = .udp
  | .sipDipAny => node.SipE ≠ 0 ∧ node.DipE ≠ 0
  | .sipDipTcp => node.SipE ≠ 0 ∧ node.DipE ≠ 0 ∧ node.DpE ≠ 0 ∧ node.Proto = .tcp
  | .sipDipUdp => node.SipE ≠ 0 ∧ node.DipE ≠ 0 ∧ node.DpE ≠ 0 ∧ node.Proto = .udp
  | .smacDmacEtypeVidSipDipTosPort =>
    RangeAgrees node.SipS node.SipE ∧ RangeAgrees node.DipS node.DipE ∧
      RangeAgrees node.TosS node.TosE ∧ RangeAgrees node.SpS node.SpE ∧
      (if node.setFields cfg = [] then node.DpE ≠ 0
        else RangeAgrees node.DpS node.DpE ∧ (node.SpS ≠ 0 ∨ node.DpS ≠ 0)) ∧
      (node.Vid ≠ 0 ↔ node.TosE ≠ 0) ∧
      (node.Ethertype ≠ 0 ∨ (node.tagged cfg).SpecialTag = 0) ∧
      node.Protocol.toNat < 256 ∧ (node.Proto = .tcp ∨ node.Proto = .udp)

/-- The rule is for all ports, a rule that denies has no priority of its own, and the
entries compare what the classifier does; or nothing matches the rule. -/
def Agrees (kind : AclKind) : Prop :=
  node.MatchesNone kind ∨
    (cfg.rt6855 ∨ node.pn = PN_DONT_CARE) ∧ (node.Method = .deny → node.up = 0) ∧
      node.FieldsAgree cfg kind

end AclPlcyNode

section Fields

variable {cfg : Build} {node : AclPlcyNode} {pkt : Packet}

theorem ipRange_exact {ipS ipE : BitVec 32} (h : ExactIp ipS ipE) (a : BitVec 32) :
    ipRange ipS (calIpRange ipS ipE).1 (calIpRange ipS ipE).2 a = decide (ipS ≤ a ∧ a ≤ ipE) := by
  obtain ⟨hle, hsize⟩ := h
  unfold ipRange
  rw [hsize]
  apply decide_eq_decide.mpr
  simp only [BitVec.le_def] at hle ⊢
  omega

theorem rangeAgrees_iff {w : Nat} {s e : BitVec w} (h : RangeAgrees s e) (v : BitVec w) :
    inRange s e v = true ↔ (s ≠ 0 → s ≤ v ∧ v ≤ e) := by
  unfold RangeAgrees at h
  unfold inRange
  rw [decide_eq_true_eq]
  split at h
  · next hs =>
    rw [or_iff_left h]
    exact ⟨fun hv _ => hv, fun hv => hv hs⟩
  · next hs =>
    refine iff_of_true ?_ fun hne => absurd hne hs
    rcases h with h | h
    · exact .inr h
    · left
      rw [not_not.mp hs, h]
      exact ⟨BitVec.not_lt.mp BitVec.not_lt_zero, BitVec.not_lt.mp BitVec.not_allOnes_lt⟩

theorem inRange_iff {w : Nat} {s e : BitVec w} (h : e ≠ 0) (v : BitVec w) :
    inRange s e v = true ↔ s ≤ v ∧ v ≤ e := by
  unfold inRange
  rw [decide_eq_true_eq]
  exact or_iff_left h

theorem fieldMatches_iff (hpn : cfg.rt6855 ∨ node.pn = PN_DONT_CARE) (field : AclField) :
    node.fieldMatches cfg pkt field = true ↔
      match field with
      | .smac => node.Mac = pkt.key.Mac
      | .dmac => node.DMac = pkt.key.DMac
      | .sdmac => node.Mac = pkt.key.Mac ∨ node.Mac = pkt.key.DMac
      | .others =>
        (node.Vid ≠ 0 → node.Vid = pkt.key.Vid) ∧
          (node.Ethertype ≠ 0 → node.Ethertype = pkt.key.Ethertype) ∧
          (node.Ethertype = 0 → node.SpecialTag ≠ 0 → node.SpecialTag = pkt.tag)
      | .tos => node.TosS ≤ pkt.key.Tos ∧ pkt.key.Tos ≤ node.TosE
      | .sip => ipRange node.SipS (calIpRange node.SipS node.SipE).1
          (calIpRange node.SipS node.SipE).2 pkt.key.Sip
      | .dip => ipRange node.DipS (calIpRange node.DipS node.DipE).1
          (calIpRange node.DipS node.DipE).2 pkt.key.Dip
      | .protocol => pkt.key.Protocol = (node.Protocol.setWidth 8).setWidth 16
      | .sport .TCP => pkt.key.Proto = .tcp ∧ node.SpS ≤ pkt.key.Sp ∧ pkt.key.Sp ≤ node.SpE
      | .sport .UDP => pkt.key.Proto = .udp ∧ node.SpS ≤ pkt.key.Sp ∧ pkt.key.Sp ≤ node.SpE
      | .sport .ANY => (pkt.key.Proto = .tcp ∨ pkt.key.Proto = .udp) ∧
          node.SpS ≤ pkt.key.Sp ∧ pkt.key.Sp ≤ node.SpE
      | .dport .TCP => pkt.key.Proto = .tcp ∧ node.DpS ≤ pkt.key.Dp ∧ pkt.key.Dp ≤ node.DpE
      | .dport .UDP => pkt.key.Proto = .udp ∧ node.DpS ≤ pkt.key.Dp ∧ pkt.key.Dp ≤ node.DpE
      | .dport .ANY => (pkt.key.Proto = .tcp ∨ pkt.key.Proto = .udp) ∧
          node.DpS ≤ pkt.key.Dp ∧ pkt.key.Dp ≤ node.DpE := by
  have hcom : (if cfg.rt6855 then PN_DONT_CARE else node.pn) = PN_DONT_CARE := by
    rcases hpn with h | h <;> simp [h]
  cases field with
  | smac | dmac | sdmac | tos | sip | dip | protocol =>
    simp [AclPlcyNode.fieldMatches, AclPlcyNode.fieldEntry, AclPlcyNode.aclSetMacEntry,
      AclPlcyNode.aclSetIpEntry, AclPlcyNode.aclSetPortEntry, Rule.matches, Rule.compares,
      Rule.com, AclPlcyNode.com, hcom, L4Type.matches, L4RuleDir.matches]
  | others =>
    have hentry : node.fieldMatches cfg pkt .others =
        (Rule.l2Others (node.com cfg .entryEndFp)
          (if node.Vid ≠ 0 then
            { (if node.Ethertype ≠ 0 then { etypPprot := node.Ethertype, e := true }
                else if node.SpecialTag ≠ 0 then { etypPprot := node.SpecialTag, s := true }
                else {} : L2Others) with vid := node.Vid, v := true }
            else if node.Ethertype ≠ 0 then { etypPprot := node.Ethertype, e := true }
              else if node.SpecialTag ≠ 0 then { etypPprot := node.SpecialTag, s := true }
              else {})).compares pkt := by
      simp [AclPlcyNode.fieldMatches, AclPlcyNode.fieldEntry, AclPlcyNode.aclSetMacEntry,
        Rule.matches, Rule.com, AclPlcyNode.com, hcom]
    rw [hentry]
    by_cases hv : node.Vid = 0#12 <;> by_cases he : node.Ethertype = 0#16 <;>
      by_cases hs : node.SpecialTag = 0#16 <;> simp [Rule.compares, hv, he, hs]
  | sport proto | dport proto =>
    cases proto <;>
      simp [AclPlcyNode.fieldMatches, AclPlcyNode.fieldEntry, AclPlcyNode.aclSetPortEntry,
        Rule.matches, Rule.compares, Rule.com, AclPlcyNode.com, hcom, L4Type.matches,
        L4RuleDir.matches]

theorem inOrder_of_fieldMatches {field : AclField} (h : node.fieldMatches cfg pkt field = true) :
    node.InOrder field := by
  cases field with
  | tos =>
    simp [AclPlcyNode.fieldMatches, AclPlcyNode.fieldEntry, AclPlcyNode.aclSetIpEntry,
      Rule.matches, Rule.compares, Rule.com, AclPlcyNode.com] at h
    exact BitVec.le_trans h.2.1 h.2.2
  | sport proto | dport proto =>
    simp [AclPlcyNode.fieldMatches, AclPlcyNode.fieldEntry, AclPlcyNode.aclSetPortEntry,
      Rule.matches, Rule.compares, Rule.com, AclPlcyNode.com, L4RuleDir.matches] at h
    exact BitVec.le_trans h.2.2.1 h.2.2.2
  | _ => trivial

theorem all_false {fields : List AclField} (field : AclField) (hmem : field ∈ fields)
    (h : ¬ node.InOrder field) : fields.all (node.fieldMatches cfg pkt) = false :=
  Bool.eq_false_iff.mpr fun hall => h (inOrder_of_fieldMatches (List.all_eq_true.mp hall _ hmem))

theorem inRange_empty {w : Nat} {s e : BitVec w} (he : e ≠ 0) (hlt : e < s) (v : BitVec w) :
    inRange s e v = false := by
  unfold inRange
  rw [decide_eq_false_iff_not]
  rintro (⟨hs, hv⟩ | h0)
  · exact BitVec.not_lt.mpr (BitVec.le_trans hs hv) hlt
  · exact he h0

end Fields

section Rules

variable {cfg : Build} {node : AclPlcyNode} {kind : AclKind}

theorem compiled_of_ne (hkind : node.RuleType = .add kind)
    (hne : kind ≠ .smacDmacEtypeVidSipDipTosPort) : node.compiled cfg = node := by
  refine if_neg fun h => hne ?_
  rw [hkind] at h
  exact AclCmd.add.inj h

theorem chain_agrees_fixed (hkind : node.RuleType = .add kind)
    (hne : kind ≠ .smacDmacEtypeVidSipDipTosPort) (hip : node.IpExact cfg)
    (hpn : cfg.rt6855 ∨ node.pn = PN_DONT_CARE) (hf : node.FieldsAgree cfg kind) (pkt : Packet) :
    (node.ruleFields cfg).all ((node.compiled cfg).fieldMatches cfg pkt) = true ↔
      aclMatches node pkt.key = true := by
  rw [compiled_of_ne hkind hne]
  cases kind with
  | sdmacAny => exact hf.elim
  | etypeAny =>
    simp only [AclPlcyNode.ruleFields, hkind, List.all_cons, List.all_nil, Bool.and_true,
      fieldMatches_iff hpn, aclMatches, decide_eq_true_eq]
    obtain ⟨he, hv⟩ := hf
    grind
  | smacDipAny =>
    have hdip := hip.2 (by simp [AclPlcyNode.ruleFields, hkind])
    simp only [AclPlcyNode.ruleFields, hkind, List.all_cons, List.all_nil, Bool.and_true,
      Bool.and_eq_true, fieldMatches_iff hpn, ipRange_exact hdip, aclMatches, decide_eq_true_eq,
      inRange_iff hf.2]
    have hmac := hf.1
    grind
  | smacDipTcp | smacDipUdp =>
    have hdip := hip.2 (by simp [AclPlcyNode.ruleFields, hkind])
    obtain ⟨hmac, hde, hpe, hproto⟩ := hf
    simp only [AclPlcyNode.ruleFields, hkind, List.all_cons, List.all_nil, Bool.and_true,
      Bool.and_eq_true, fieldMatches_iff hpn, ipRange_exact hdip, aclMatches, decide_eq_true_eq,
      inRange_iff hde, inRange_iff hpe]
    grind
  | sipDipAny =>
    have hsip := hip.1 (by simp [AclPlcyNode.ruleFields, hkind])
    have hdip := hip.2 (by simp [AclPlcyNode.ruleFields, hkind])
    obtain ⟨hse, hde⟩ := hf
    simp only [AclPlcyNode.ruleFields, hkind, List.all_cons, List.all_nil, Bool.and_true,
      Bool.and_eq_true, fieldMatches_iff hpn, ipRange_exact hsip, ipRange_exact hdip, aclMatches,
      decide_eq_true_eq, inRange_iff hse, inRange_iff hde]
  | sipDipTcp | sipDipUdp =>
    have hsip := hip.1 (by simp [AclPlcyNode.ruleFields, hkind])
    have hdip := hip.2 (by simp [AclPlcyNode.ruleFields, hkind])
    obtain ⟨hse, hde, hpe, hproto⟩ := hf
    simp only [AclPlcyNode.ruleFields, hkind, List.all_cons, List.all_nil, Bool.and_true,
      Bool.and_eq_true, fieldMatches_iff hpn, ipRange_exact hsip, ipRange_exact hdip, aclMatches,
      decide_eq_true_eq, inRange_iff hse, inRange_iff hde, inRange_iff hpe]
    grind
  | smacDmacEtypeVidSipDipTosPort => exact absurd rfl hne

theorem all_ifSet {q : AclField → Bool} (isSet : Bool) (field : AclField) :
    (AclPlcyNode.ifSet isSet field).all q = true ↔ (isSet = true → q field = true) := by
  cases isSet <;> simp [AclPlcyNode.ifSet]

theorem all_setFields {q : AclField → Bool} : (node.setFields cfg).all q = true ↔
    (node.Mac ≠ zeroMac → q .smac) ∧ (node.DMac ≠ zeroMac → q .dmac) ∧
      (node.comparesTags cfg → q .others) ∧ (node.TosS ≠ 0 → q .tos) ∧ (node.SipS ≠ 0 → q .sip) ∧
      (node.DipS ≠ 0 → q .dip) ∧ (node.Protocol ≠ 0 → q .protocol) ∧
      (node.SpS ≠ 0 → q (.sport (AclPlcyNode.tcpUdp node.Proto))) ∧
      (node.DpS ≠ 0 → q (.dport (AclPlcyNode.tcpUdp node.Proto))) := by
  simp only [AclPlcyNode.setFields, AclPlcyNode.layer34, List.all_append, Bool.and_eq_true,
    all_ifSet, decide_eq_true_eq]

theorem ifSet_true {isSet : Prop} [Decidable isSet] (h : isSet) (field : AclField) :
    AclPlcyNode.ifSet isSet field = [field] := if_pos (decide_eq_true h)

theorem sip_mem_setFields (h : node.SipS ≠ 0) : AclField.sip ∈ node.setFields cfg := by
  simp only [AclPlcyNode.setFields, AclPlcyNode.layer34, ifSet_true h, List.mem_append,
    List.mem_singleton, true_or, or_true]

theorem dip_mem_setFields (h : node.DipS ≠ 0) : AclField.dip ∈ node.setFields cfg := by
  simp only [AclPlcyNode.setFields, AclPlcyNode.layer34, ifSet_true h, List.mem_append,
    List.mem_singleton, true_or, or_true]

theorem range_mem_setFields (cfg : Build) (node : AclPlcyNode) :
    (node.TosS ≠ 0 → AclField.tos ∈ node.setFields cfg) ∧
      (node.SpS ≠ 0 → .sport (AclPlcyNode.tcpUdp node.Proto) ∈ node.setFields cfg) ∧
      (node.DpS ≠ 0 → .dport (AclPlcyNode.tcpUdp node.Proto) ∈ node.setFields cfg) := by
  refine ⟨fun h => ?_, fun h => ?_, fun h => ?_⟩ <;>
    simp only [AclPlcyNode.setFields, AclPlcyNode.layer34, ifSet_true h, List.mem_append,
      List.mem_singleton, true_or, or_true]

theorem tagged_fields (cfg : Build) (node : AclPlcyNode) :
    (node.tagged cfg).Mac = node.Mac ∧ (node.tagged cfg).DMac = node.DMac ∧
      (node.tagged cfg).Ethertype = node.Ethertype ∧ (node.tagged cfg).Vid = node.Vid ∧
      (node.tagged cfg).TosS = node.TosS ∧ (node.tagged cfg).TosE = node.TosE ∧
      (node.tagged cfg).SipS = node.SipS ∧ (node.tagged cfg).SipE = node.SipE ∧
      (node.tagged cfg).DipS = node.DipS ∧ (node.tagged cfg).DipE = node.DipE ∧
      (node.tagged cfg).Protocol = node.Protocol ∧ (node.tagged cfg).SpS = node.SpS ∧
      (node.tagged cfg).SpE = node.SpE ∧ (node.tagged cfg).DpS = node.DpS ∧
      (node.tagged cfg).DpE = node.DpE ∧ (node.tagged cfg).Proto = node.Proto ∧
      (node.tagged cfg).pn = node.pn := by
  unfold AclPlcyNode.tagged
  split <;> simp

theorem protocol_iff {prot v : BitVec 16} (h : prot.toNat < 256) :
    v = (prot.setWidth 8).setWidth 16 ↔ prot = v := by
  have hsame : (prot.setWidth 8).setWidth 16 = prot := by
    apply BitVec.eq_of_toNat_eq
    simp only [BitVec.toNat_setWidth]
    omega
  rw [hsame]
  exact eq_comm

theorem port_iff (pkt : Packet) (hpn : cfg.rt6855 ∨ node.pn = PN_DONT_CARE)
    (hproto : node.Proto = .tcp ∨ node.Proto = .udp) :
    (node.fieldMatches cfg pkt (.sport (AclPlcyNode.tcpUdp node.Proto)) = true ↔
      node.Proto = pkt.key.Proto ∧ node.SpS ≤ pkt.key.Sp ∧ pkt.key.Sp ≤ node.SpE) ∧
    (node.fieldMatches cfg pkt (.dport (AclPlcyNode.tcpUdp node.Proto)) = true ↔
      node.Proto = pkt.key.Proto ∧ node.DpS ≤ pkt.key.Dp ∧ pkt.key.Dp ≤ node.DpE) := by
  rcases hproto with h | h <;> rw [h] <;>
    simp only [AclPlcyNode.tcpUdp, fieldMatches_iff hpn, eq_comm (b := pkt.key.Proto)] <;> simp

theorem tags_iff (htag : node.Ethertype ≠ 0 ∨ (node.tagged cfg).SpecialTag = 0)
    (hpn : cfg.rt6855 ∨ node.pn = PN_DONT_CARE) :
    (node.comparesTags cfg = true → (node.tagged cfg).fieldMatches cfg pkt .others = true) ↔
      (node.Vid ≠ 0 → node.Vid = pkt.key.Vid) ∧
        (node.Ethertype ≠ 0 → node.Ethertype = pkt.key.Ethertype) := by
  obtain ⟨-, -, tEth, tVid, -, -, -, -, -, -, -, -, -, -, -, -, tpn⟩ := tagged_fields cfg node
  have hpn' : cfg.rt6855 ∨ (node.tagged cfg).pn = PN_DONT_CARE := by rwa [tpn]
  rw [fieldMatches_iff hpn', tEth, tVid, AclPlcyNode.comparesTags, decide_eq_true_eq]
  grind

theorem chain_agrees_all (hkind : node.RuleType = .add .smacDmacEtypeVidSipDipTosPort)
    (hip : node.IpExact cfg) (hpn : cfg.rt6855 ∨ node.pn = PN_DONT_CARE)
    (hf : node.FieldsAgree cfg .smacDmacEtypeVidSipDipTosPort) (pkt : Packet) :
    (node.ruleFields cfg).all ((node.compiled cfg).fieldMatches cfg pkt) = true ↔
      aclMatches node pkt.key = true := by
  obtain ⟨hsip, hdip, htos, hsp, hdp, hvid, htag, hprot, hproto⟩ := hf
  obtain ⟨tMac, tDMac, tEth, tVid, tTosS, tTosE, tSipS, tSipE, tDipS, tDipE, tProt, tSpS, tSpE,
    tDpS, tDpE, tProto, tpn⟩ := tagged_fields cfg node
  have hpn' : cfg.rt6855 ∨ (node.tagged cfg).pn = PN_DONT_CARE := by rwa [tpn]
  obtain ⟨hsport, hdport⟩ := port_iff pkt hpn' (by rwa [tProto])
  rw [tProto] at hsport hdport
  rw [tSpS, tSpE] at hsport
  rw [tDpS, tDpE] at hdport
  have hfields : node.ruleFields cfg = if node.setFields cfg = [] then
      [.dport (AclPlcyNode.tcpUdp node.Proto)] else node.setFields cfg := by
    simp [AclPlcyNode.ruleFields, hkind]
  have hcls : aclMatches node pkt.key = true ↔
      (node.Mac = pkt.key.Mac ∨ node.Mac = zeroMac) ∧ (node.DMac = pkt.key.DMac ∨ node.DMac = zeroMac)
      ∧ (node.Protocol = pkt.key.Protocol ∨ node.Protocol = 0)
      ∧ inRange node.SipS node.SipE pkt.key.Sip ∧ inRange node.DipS node.DipE pkt.key.Dip
      ∧ inRange node.DpS node.DpE pkt.key.Dp ∧ inRange node.SpS node.SpE pkt.key.Sp
      ∧ inRange node.TosS node.TosE pkt.key.Tos ∧ (node.Vid = pkt.key.Vid ∨ node.TosE = 0)
      ∧ (node.Ethertype = pkt.key.Ethertype ∨ node.Ethertype = 0) ∧ node.Proto = pkt.key.Proto := by
    simp only [aclMatches, hkind, decide_eq_true_eq]
  rw [AclPlcyNode.compiled, if_pos hkind, hfields, hcls, rangeAgrees_iff hsip, rangeAgrees_iff hdip,
    rangeAgrees_iff htos, rangeAgrees_iff hsp]
  split
  · next hnil =>
    -- no field is set, and the one entry compares the destination port
    rw [if_pos hnil] at hdp
    have hnone : (node.setFields cfg).all (fun _ => false) = true := by rw [hnil]; rfl
    have hunset := all_setFields.mp hnone
    have htags : ¬ (node.Vid ≠ 0 ∨ node.Ethertype ≠ 0) := by
      intro hset
      have hcmp : node.comparesTags cfg = true := by
        rw [AclPlcyNode.comparesTags, decide_eq_true_eq]
        grind
      exact absurd (hunset.2.2.1 hcmp) Bool.false_ne_true
    rw [List.all_cons, List.all_nil, Bool.and_true, hdport, inRange_iff hdp]
    simp only [Bool.false_eq_true, imp_false, not_not] at hunset
    grind
  · next hne =>
    rw [if_neg hne] at hfields
    have hsip' : node.SipS ≠ 0 → ExactIp node.SipS node.SipE := fun h =>
      hip.1 (hfields ▸ sip_mem_setFields h)
    have hdip' : node.DipS ≠ 0 → ExactIp node.DipS node.DipE := fun h =>
      hip.2 (hfields ▸ dip_mem_setFields h)
    rw [if_neg hne] at hdp
    rw [all_setFields, tags_iff htag hpn, hsport, hdport, rangeAgrees_iff hdp.1]
    simp only [fieldMatches_iff hpn', tMac, tDMac, tTosS, tTosE, tSipS, tSipE, tDipS, tDipE,
      tProt, protocol_iff hprot]
    have hsipR : (node.SipS ≠ 0 → (ipRange node.SipS (calIpRange node.SipS node.SipE).1
        (calIpRange node.SipS node.SipE).2 pkt.key.Sip = true)) ↔
        (node.SipS ≠ 0 → node.SipS ≤ pkt.key.Sip ∧ pkt.key.Sip ≤ node.SipE) :=
      imp_congr_right fun h => by rw [ipRange_exact (hsip' h), decide_eq_true_eq]
    have hdipR : (node.DipS ≠ 0 → (ipRange node.DipS (calIpRange node.DipS node.DipE).1
        (calIpRange node.DipS node.DipE).2 pkt.key.Dip = true)) ↔
        (node.DipS ≠ 0 → node.DipS ≤ pkt.key.Dip ∧ pkt.key.Dip ≤ node.DipE) :=
      imp_congr_right fun h => by rw [ipRange_exact (hdip' h), decide_eq_true_eq]
    rw [hsipR, hdipR]
    have hports := hdp.2
    grind

theorem not_matches (hkind : node.RuleType = .add kind) (h : node.MatchesNone kind) (pkt : Packet) :
    (node.ruleFields cfg).all ((node.compiled cfg).fieldMatches cfg pkt) = false ∧
      aclMatches node pkt.key = false := by
  cases kind with
  | sdmacAny | etypeAny | smacDipAny | sipDipAny => exact h.elim
  | smacDipTcp | sipDipTcp =>
    rw [compiled_of_ne hkind (by decide)]
    refine ⟨all_false (.dport .TCP) ?_ (BitVec.not_le.mpr h.2), ?_⟩
    · simp [AclPlcyNode.ruleFields, hkind]
    · simp [aclMatches, hkind, inRange_empty h.1 h.2]
  | smacDipUdp | sipDipUdp =>
    rw [compiled_of_ne hkind (by decide)]
    refine ⟨all_false (.dport .UDP) ?_ (BitVec.not_le.mpr h.2), ?_⟩
    · simp [AclPlcyNode.ruleFields, hkind]
    · simp [aclMatches, hkind, inRange_empty h.1 h.2]
  | smacDmacEtypeVidSipDipTosPort =>
    obtain ⟨htos, hsp, hdp⟩ := range_mem_setFields cfg node
    obtain ⟨tMac, tDMac, tEth, tVid, tTosS, tTosE, tSipS, tSipE, tDipS, tDipE, tProt, tSpS, tSpE,
      tDpS, tDpE, tProto, tpn⟩ := tagged_fields cfg node
    have hmem : ∀ field ∈ node.setFields cfg, field ∈ node.ruleFields cfg := by
      intro field hfield
      simp only [AclPlcyNode.ruleFields, hkind]
      rwa [if_neg (List.ne_nil_of_mem hfield)]
    have hzero : ∀ {w : Nat} {s e : BitVec w}, e < s → s ≠ 0 := by
      intro w s e hlt h0
      rw [h0] at hlt
      exact BitVec.not_lt_zero hlt
    rw [AclPlcyNode.compiled, if_pos hkind]
    rcases h with ⟨he, hlt⟩ | ⟨he, hlt⟩ | ⟨he, hlt⟩
    · refine ⟨all_false _ (hmem _ (hdp (hzero hlt))) ?_, ?_⟩
      · rw [AclPlcyNode.InOrder, tDpS, tDpE]
        exact BitVec.not_le.mpr hlt
      · simp [aclMatches, hkind, inRange_empty he hlt]
    · refine ⟨all_false _ (hmem _ (hsp (hzero hlt))) ?_, ?_⟩
      · rw [AclPlcyNode.InOrder, tSpS, tSpE]
        exact BitVec.not_le.mpr hlt
      · simp [aclMatches, hkind, inRange_empty he hlt]
    · refine ⟨all_false _ (hmem _ (htos (hzero hlt))) ?_, ?_⟩
      · rw [AclPlcyNode.InOrder, tTosS, tTosE]
        exact BitVec.not_le.mpr hlt
      · simp [aclMatches, hkind, inRange_empty he hlt]

theorem chain_agrees (hkind : node.RuleType = .add kind) (hip : node.IpExact cfg)
    (hf : node.Agrees cfg kind) (pkt : Packet) :
    (node.ruleFields cfg).all ((node.compiled cfg).fieldMatches cfg pkt) =
        aclMatches node pkt.key ∧
      (aclMatches node pkt.key = true → (node.entryEnd .entryEndFp).up = node.up) := by
  rcases hf with hnone | ⟨hpn, hdeny, hfields⟩
  · obtain ⟨hchain, hcls⟩ := not_matches hkind hnone pkt
    exact ⟨hchain.trans hcls.symm, fun h => absurd h (by rw [hcls]; decide)⟩
  · constructor
    · rw [Bool.eq_iff_iff]
      by_cases hall : kind = .smacDmacEtypeVidSipDipTosPort
      · subst hall
        exact chain_agrees_all hkind hip hpn hfields pkt
      · exact chain_agrees_fixed hkind hall hip hpn hfields pkt
    · intro _
      unfold AclPlcyNode.entryEnd
      cases hmethod : node.Method with
      | allow | priority => rfl
      | deny => exact (hdeny hmethod).symm

end Rules
/-- What the ACL's two calls are asked with. -/
inductive AclCall where
  | add (node : AclPlcyNode) (kind : AclKind) (mem : Bool)
  | del (node : AclPlcyNode) (kind : AclKind)

def AclCall.call : AclCall → Call
  | .add node kind mem => .aclAddNode (node.toAdd kind) mem
  | .del node kind => .aclDelNode (node.toDel kind)

def Driver.aclStep (cfg : Build) (s : Driver) (c : AclCall) : Driver := s.step cfg c.call

def AclCall.IpExact (cfg : Build) (_ : Driver) : AclCall → Prop
  | .add node kind _ => (node.toAdd kind).IpExact cfg
  | .del _ _ => True

/-- A rule that comes into the list is one whose chain and the classifier agree on, and the
entries of the list are no more than indices of the policy table can tell apart. -/
def AclCall.Safe (cfg : Build) (s : Driver) : AclCall → Prop
  | .add node kind mem =>
    aclExistNode s.acl (node.toAdd kind) = none → mem →
      (node.toAdd kind).Agrees cfg kind ∧ aclSize cfg (s.acl ++ [node.toAdd kind]) < 512
  | .del node kind => aclSize cfg (s.acl.eraseP (aclDeletes (node.toDel kind))) < 512

def AllKinds (l : List AclPlcyNode) : Prop := ∀ node ∈ l, ∃ kind, node.RuleType = .add kind

structure AclSynced (cfg : Build) (s : Driver) : Prop where
  laid : Laid s.ppe
  table : s.ppe.aclTable = aclEntries cfg s.acl
  rules : ∀ node ∈ s.acl, ∃ kind, node.RuleType = .add kind ∧ node.IpExact cfg ∧
    node.Agrees cfg kind

section Runs

variable {cfg : Build} {s : Driver} {l : List AclPlcyNode}

def aclDefaults (l : List AclPlcyNode) : List Rule :=
  match l.getLast? with
  | none => []
  | some node => if node.Method = .allow then aclInsDflAllow ++ aclInsDflDeny else []

theorem aclEntries_eq (cfg : Build) (l : List AclPlcyNode) :
    aclEntries cfg l = l.flatMap (·.aclIns cfg) ++ aclDefaults l := rfl

theorem up_of_mem_aclDefaults {rule : Rule} (h : rule ∈ aclDefaults l) : rule.com.last.up = 0 := by
  have hmem : rule ∈ aclInsDflAllow ++ aclInsDflDeny := by
    unfold aclDefaults at h
    split at h
    · cases h
    · split at h
      · exact h
      · cases h
  simp only [aclInsDflAllow, aclInsDflDeny, List.mem_append, List.mem_singleton] at hmem
  rcases hmem with rfl | rfl <;> rfl

theorem hwClassify_eq (table : List Rule) (pkt : Packet) : hwClassify table pkt =
    ((Chains.lookup Rule.ends (Rule.matches pkt) true table).map (·.com.last.up)).getD 0 := by
  unfold hwClassify
  cases Chains.lookup Rule.ends (Rule.matches pkt) true table <;> rfl

theorem hwClassify_aclEntries
    (h : ∀ node ∈ l, ∃ kind, node.RuleType = .add kind ∧ node.IpExact cfg ∧ node.Agrees cfg kind)
    (pkt : Packet) : hwClassify (aclEntries cfg l) pkt = aclClassify l pkt.key := by
  have hagree : ∀ node ∈ l, (node.aclIns cfg).all (Rule.matches pkt) = aclMatches node pkt.key ∧
      (aclMatches node pkt.key = true → (node.entryEnd .entryEndFp).up = node.up) := by
    intro node hnode
    obtain ⟨kind, hkind, hip, hf⟩ := h node hnode
    obtain ⟨-, -, -, hall⟩ := AclPlcyNode.aclIns_isChain cfg hkind
    rw [hall pkt]
    exact chain_agrees hkind hip hf pkt
  have hchain : ∀ node ∈ l, ∃ last, Chains.IsChain Rule.ends (node.aclIns cfg) last ∧
      last.com.last.up = (node.entryEnd .entryEndFp).up := by
    intro node hnode
    obtain ⟨kind, hkind, -⟩ := h node hnode
    obtain ⟨last, hlast, hchain, -⟩ := AclPlcyNode.aclIns_isChain cfg hkind
    exact ⟨last, hchain, congrArg EntryEnd.up hlast⟩
  have hfind : (l.find? fun node => (node.aclIns cfg).all (Rule.matches pkt)) =
      l.find? (aclMatches · pkt.key) := List.find?_congr fun node hnode => (hagree node hnode).1
  rw [hwClassify_eq, aclEntries_eq, Chains.lookup_flatMap hchain, hfind, aclClassify]
  cases hf : l.find? (aclMatches · pkt.key) with
  | some node =>
    have hmatch : aclMatches node pkt.key = true :=
      List.find?_some (p := (aclMatches · pkt.key)) hf
    exact (hagree node (List.mem_of_find?_eq_some hf)).2 hmatch
  | none =>
    rw [Option.map_none, Option.none_or]
    cases hd : Chains.lookup Rule.ends (Rule.matches pkt) true (aclDefaults l) with
    | none => rfl
    | some rule => exact up_of_mem_aclDefaults (Chains.mem_of_lookup hd)

theorem aclTable_syncAclTbl {p : Ppe} (h : Laid p) (hsize : aclSize cfg l < 512) :
    (syncAclTbl cfg l p).aclTable = aclEntries cfg l := by
  have hstart : p.parts.start .preAcl = 0 := by
    have hstr := h.start .preAcl
    rw [h.zero] at hstr
    exact hstr
  have hholds := Parts.relay_self p.parts .preAcl (aclEntries cfg l)
    (by rw [hstart, aclEntries_length]; simpa using hsize)
  rw [← (syncAclTbl_parts cfg h l).1] at hholds
  exact hholds.read

theorem AclSynced.sync (h : AclSynced cfg s) {l : List AclPlcyNode}
    (hrules : ∀ node ∈ l, ∃ kind, node.RuleType = .add kind ∧ node.IpExact cfg ∧
      node.Agrees cfg kind) (hsize : aclSize cfg l < 512) :
    AclSynced cfg { s with acl := l, ppe := syncAclTbl cfg l s.ppe } :=
  ⟨(relays_acl h.laid l).2, aclTable_syncAclTbl h.laid hsize, hrules⟩

theorem AclSynced.step (h : AclSynced cfg s) {c : AclCall} (hip : c.IpExact cfg s)
    (hsafe : c.Safe cfg s) : AclSynced cfg (s.aclStep cfg c) := by
  cases c with
  | add node kind mem =>
    unfold Driver.aclStep AclCall.call
    rw [step_aclAdd]
    split
    · next hgo =>
      obtain ⟨hagrees, hsize⟩ := hsafe hgo.1 hgo.2
      refine h.sync (fun n hn => ?_) hsize
      rcases List.mem_append.mp hn with hn | hn
      · exact h.rules n hn
      · rw [List.mem_singleton.mp hn]
        exact ⟨kind, rfl, hip, hagrees⟩
    · exact h
  | del node kind =>
    simp only [Driver.aclStep, AclCall.call, Driver.step, Driver.call, Driver.withAcl, aclDelNode]
    split
    · exact h
    · exact h.sync (fun n hn => h.rules n (List.mem_of_mem_eraseP hn)) hsafe

theorem AllKinds.step (h : AllKinds s.acl) (c : AclCall) : AllKinds (s.aclStep cfg c).acl := by
  cases c with
  | add node kind mem =>
    unfold Driver.aclStep AclCall.call
    rw [step_aclAdd]
    split
    · intro n hn
      rcases List.mem_append.mp hn with hn | hn
      · exact h n hn
      · rw [List.mem_singleton.mp hn]
        exact ⟨kind, rfl⟩
    · exact h
  | del node kind =>
    unfold Driver.aclStep AclCall.call
    rw [acl_call_del]
    exact fun n hn => h n (List.mem_of_mem_eraseP hn)

theorem aclSynced_init (cfg : Build) (sizes : RuleSizes) (p : Ppe) :
    AclSynced cfg (ppeInitMod cfg sizes p) := by
  obtain ⟨hl, hholds⟩ := laid_ppeSetRuleSize p sizes.preAcl sizes.preMtr sizes.preAc sizes.postMtr
    sizes.postAc
  obtain ⟨hlaid, hempty⟩ := laid_ppeEngStart cfg hl hholds
  exact ⟨hlaid, (hempty .preAcl).read, fun node hnode => nomatch hnode⟩

theorem allKinds_run (cfg : Build) (calls : List AclCall) (h : AllKinds s.acl) :
    AllKinds (Run.exec (Driver.aclStep cfg) s calls).acl :=
  Run.exec_inv (I := fun s : Driver => AllKinds s.acl) (P := fun _ _ => True)
    (fun _ c h _ => h.step c) h (Run.AllSteps.of_forall fun _ _ _ => trivial)

theorem aclSynced_run {calls : List AclCall} (h : AclSynced cfg s)
    (hip : Run.AllSteps (Driver.aclStep cfg) (fun s c => c.IpExact cfg s) s calls)
    (hsafe : Run.AllSteps (Driver.aclStep cfg) (fun s c => c.Safe cfg s) s calls) :
    AclSynced cfg (Run.exec (Driver.aclStep cfg) s calls) :=
  Run.exec_inv (fun _ _ h hp => h.step hp.1 hp.2) h (hip.and hsafe)

/-- In every state of a run, each rule of the list is one chain of entries; and while the
rules that are added are exact in their addresses and of those that both sides read alike,
the policy table gives every packet the user priority that the classifier gives it. -/
theorem aclTable_agrees (cfg : Build) (sizes : RuleSizes) (p : Ppe) (calls : List AclCall) :
    (∀ n, ∀ node ∈ (Run.exec (Driver.aclStep cfg) (ppeInitMod cfg sizes p) (calls.take n)).acl,
      ∃ last, Chains.IsChain Rule.ends (node.aclIns cfg) last) ∧
    (Run.AllSteps (Driver.aclStep cfg) (fun s c => c.IpExact cfg s) (ppeInitMod cfg sizes p) calls →
      Run.AllSteps (Driver.aclStep cfg) (fun s c => c.Safe cfg s) (ppeInitMod cfg sizes p) calls →
      ∀ n pkt,
        hwClassify (Run.exec (Driver.aclStep cfg) (ppeInitMod cfg sizes p) (calls.take n)).ppe.aclTable
          pkt =
        aclClassify (Run.exec (Driver.aclStep cfg) (ppeInitMod cfg sizes p) (calls.take n)).acl
          pkt.key) := by
  constructor
  · intro n node hnode
    have hinit : AllKinds (ppeInitMod cfg sizes p).acl := fun node hnode => nomatch hnode
    obtain ⟨kind, hkind⟩ := allKinds_run cfg (calls.take n) hinit node hnode
    obtain ⟨last, -, hchain, -⟩ := AclPlcyNode.aclIns_isChain cfg hkind
    exact ⟨last, hchain⟩
  · intro hip hsafe n pkt
    have hsynced := aclSynced_run (aclSynced_init cfg sizes p) (hip.take n) (hsafe.take n)
    rw [hsynced.table]
    exact hwClassify_aclEntries hsynced.rules pkt

end Runs

/-- A rule for a source address and a destination, that gives priority 3. -/
def smacDipRule (mac : Mac) : AclPlcyNode :=
  { RuleType := .add .smacDipAny, Mac := mac, DipS := 1, DipE := 1, up := 3, pn := PN_DONT_CARE }

/-- A run that adds such a rule and deletes it. -/
theorem aclTable_agrees_smacDip : ∀ n pkt,
    hwClassify (Run.exec (Driver.aclStep ⟨false, false⟩)
      (ppeInitMod ⟨false, false⟩ kconfigSizes Ppe.zero)
      ([AclCall.add (smacDipRule #v[0, 1, 2, 3, 4, 5]) .smacDipAny true,
        .del (smacDipRule #v[0, 1, 2, 3, 4, 5]) .smacDipAny].take n)).ppe.aclTable pkt =
    aclClassify (Run.exec (Driver.aclStep ⟨false, false⟩)
      (ppeInitMod ⟨false, false⟩ kconfigSizes Ppe.zero)
      ([AclCall.add (smacDipRule #v[0, 1, 2, 3, 4, 5]) .smacDipAny true,
        .del (smacDipRule #v[0, 1, 2, 3, 4, 5]) .smacDipAny].take n)).acl pkt.key := by
  refine (aclTable_agrees ⟨false, false⟩ kconfigSizes Ppe.zero _).2 ⟨?_, trivial, trivial⟩
    ⟨?_, ?_, trivial⟩
  · exact ⟨fun h => absurd h (by decide), fun _ => by decide⟩
  · intro _ _
    exact ⟨.inr ⟨.inr rfl, by decide, by decide, by decide⟩, by decide⟩
  · show aclSize _ _ < 512
    decide +kernel

/-- The same rule without a source address: the classifier takes it for one that is for all
addresses, the entry compares the address that is zero. -/
theorem aclTable_disagrees :
    Run.AllSteps (Driver.aclStep ⟨false, false⟩) (fun s c => c.IpExact ⟨false, false⟩ s)
      (ppeInitMod ⟨false, false⟩ kconfigSizes Ppe.zero)
      [.add (smacDipRule zeroMac) .smacDipAny true] ∧
    ¬ ∀ pkt : Packet,
      hwClassify (Run.exec (Driver.aclStep ⟨false, false⟩)
        (ppeInitMod ⟨false, false⟩ kconfigSizes Ppe.zero)
        [.add (smacDipRule zeroMac) .smacDipAny true]).ppe.aclTable pkt =
      aclClassify (Run.exec (Driver.aclStep ⟨false, false⟩)
        (ppeInitMod ⟨false, false⟩ kconfigSizes Ppe.zero)
        [.add (smacDipRule zeroMac) .smacDipAny true]).acl pkt.key := by
  refine ⟨⟨⟨fun h => absurd h (by decide), fun _ => by decide⟩, trivial⟩, fun h => ?_⟩
  have hpkt := h ⟨{ Mac := #v[0, 1, 2, 3, 4, 5], Dip := 1 }, 0, 0⟩
  revert hpkt
  decide +kernel

end Ralink.HwNat
