import Mathlib.Tactic
import Ralink.HwNat.AclPolicy
import Ralink.Lib.Scan

/-! The fields that a rule compares, and the entries it is compiled to as one chain: an entry for
each of the fields, all but the last continued by the next. -/
namespace Ralink.HwNat

/-- What one entry compares. -/
inductive AclField where
  | smac
  | dmac
  | sdmac
  | others
  | tos
  | sip
  | dip
  | protocol
  | sport (proto : FoeTblTcpUdp)
  | dport (proto : FoeTblTcpUdp)
  deriving DecidableEq

namespace AclPlcyNode

variable (cfg : Build) (node : AclPlcyNode)

def fieldEntry (field : AclField) (last : FoeTblEE) : List Rule :=
  match field with
  | .smac => node.aclSetMacEntry cfg .smac last
  | .dmac => node.aclSetMacEntry cfg .dmac last
  | .sdmac => node.aclSetMacEntry cfg .sdmac last
  | .others => node.aclSetMacEntry cfg .others last
  | .tos => node.aclSetIpEntry cfg .ipQos last
  | .sip => node.aclSetIpEntry cfg .sip last
  | .dip => node.aclSetIpEntry cfg .dip last
  | .protocol => node.aclSetPortEntry cfg .dontCare .ANY last
  | .sport proto => node.aclSetPortEntry cfg .sport proto last
  | .dport proto => node.aclSetPortEntry cfg .dport proto last

def chain : List AclField → List Rule
  | [] => []
  | [field] => node.fieldEntry cfg field .entryEndFp
  | field :: field' :: fields => node.fieldEntry cfg field .notEntryEnd ++ chain (field' :: fields)

def ifSet (isSet : Bool) (field : AclField) : List AclField := if isSet then [field] else []

/-- The fields behind the addresses and the tags that are set. -/
def layer34 : List AclField :=
  ifSet (node.TosS ≠ 0) .tos ++ (ifSet (node.SipS ≠ 0) .sip ++ (ifSet (node.DipS ≠ 0) .dip ++
    (ifSet (node.Protocol ≠ 0) .protocol ++ (ifSet (node.SpS ≠ 0) (.sport (tcpUdp node.Proto)) ++
      ifSet (node.DpS ≠ 0) (.dport (tcpUdp node.Proto))))))

/-- Whether the rule with all fields compares tags: where only a special tag is set, an
entry of an address ends the chain before it. -/
def comparesTags : Bool :=
  node.Ethertype ≠ 0 ∨ node.Vid ≠ 0 ∨
    (node.tagged cfg).SpecialTag ≠ 0 ∧
      (node.layer34 ≠ [] ∨ node.Mac = zeroMac ∧ node.DMac = zeroMac)

/-- The fields of the rule that has them all, those that are set. -/
def setFields : List AclField :=
  ifSet (node.Mac ≠ zeroMac) .smac ++ (ifSet (node.DMac ≠ zeroMac) .dmac ++
    (ifSet (node.comparesTags cfg) .others ++ node.layer34))

def ruleFields : List AclField :=
  match node.RuleType with
  | .add .sdmacAny => [.sdmac]
  | .add .etypeAny => [.others]
  | .add .smacDipAny => [.smac, .dip]
  | .add .smacDipTcp => [.smac, .dip, .dport .TCP]
  | .add .smacDipUdp => [.smac, .dip, .dport .UDP]
  | .add .sipDipAny => [.sip, .dip]
  | .add .sipDipTcp => [.sip, .dip, .dport .TCP]
  | .add .sipDipUdp => [.sip, .dip, .dport .UDP]
  | .add .smacDmacEtypeVidSipDipTosPort =>
    if node.setFields cfg = [] then [.dport (tcpUdp node.Proto)] else node.setFields cfg
  | .del _ | .cleanTbl | .getAllEntries => []

def compiled : AclPlcyNode :=
  if node.RuleType = .add .smacDmacEtypeVidSipDipTosPort then node.tagged cfg else node

variable {cfg node}

variable {isSet : Bool} {field : AclField} {fields : List AclField}

theorem chain_cons (h : fields ≠ []) :
    node.chain cfg (field :: fields) =
      node.fieldEntry cfg field .notEntryEnd ++ node.chain cfg fields := by
  cases fields with
  | nil => exact absurd rfl h
  | cons field' fields => rfl

def chainOr (cfg : Build) (node : AclPlcyNode) (fields : List AclField) (rest : List Rule) :
    List Rule :=
  if fields = [] then rest else node.chain cfg fields

theorem optEntry_chainOr (field : AclField) {later : Bool} {rest entries : List Rule}
    (h : isSet = true → (later = true ↔ fields ≠ []))
    (hrest : entries = chainOr cfg node fields rest) :
    optEntry isSet later (node.fieldEntry cfg field) entries =
      chainOr cfg node (ifSet isSet field ++ fields) rest := by
  subst hrest
  cases isSet with
  | false => rfl
  | true =>
    cases later with
    | true =>
      have hne := (h rfl).mp rfl
      simp [optEntry, chainOr, ifSet, hne, chain_cons]
    | false =>
      have hnil : fields = [] := by
        by_contra hne
        exact absurd ((h rfl).mpr hne) (by decide)
      subst hnil
      simp [optEntry, chainOr, ifSet, chain]

theorem ifSet_append_ne_nil : ifSet isSet field ++ fields ≠ [] ↔ isSet = true ∨ fields ≠ [] := by
  cases isSet <;> simp [ifSet]

theorem ifSet_ne_nil : ifSet isSet field ≠ [] ↔ isSet = true := by
  cases isSet <;> simp [ifSet]

theorem layer34_ne_nil (node : AclPlcyNode) :
    node.layer34 ≠ [] ↔ node.TosS ≠ 0 ∨ node.SipS ≠ 0 ∨ node.DipS ≠ 0 ∨
    node.Protocol ≠ 0 ∨ node.SpS ≠ 0 ∨ node.DpS ≠ 0 := by
  simp only [layer34, ifSet_append_ne_nil, ifSet_ne_nil, decide_eq_true_eq]

theorem layer34_chainOr (cfg : Build) (node : AclPlcyNode) :
    (optEntry (node.TosS ≠ 0)
        (node.Protocol ≠ 0 ∨ node.SipS ≠ 0 ∨ node.DipS ≠ 0 ∨ node.SpS ≠ 0 ∨ node.DpS ≠ 0)
        (node.aclSetIpEntry cfg .ipQos) <|
      optEntry (node.SipS ≠ 0) (node.Protocol ≠ 0 ∨ node.DipS ≠ 0 ∨ node.SpS ≠ 0 ∨ node.DpS ≠ 0)
        (node.aclSetIpEntry cfg .sip) <|
      optEntry (node.DipS ≠ 0) (node.Protocol ≠ 0 ∨ node.SpS ≠ 0 ∨ node.DpS ≠ 0)
        (node.aclSetIpEntry cfg .dip) <|
      optEntry (node.Protocol ≠ 0) (node.SpS ≠ 0 ∨ node.DpS ≠ 0)
        (node.aclSetPortEntry cfg .dontCare .ANY) <|
      optEntry (node.SpS ≠ 0) (node.DpS ≠ 0)
        (node.aclSetPortEntry cfg .sport (tcpUdp node.Proto)) <|
      node.aclSetPortEntry cfg .dport (tcpUdp node.Proto) .entryEndFp) =
    chainOr cfg node node.layer34
      (node.aclSetPortEntry cfg .dport (tcpUdp node.Proto) .entryEndFp) := by
  have hdp : node.aclSetPortEntry cfg .dport (tcpUdp node.Proto) .entryEndFp =
      chainOr cfg node (ifSet (node.DpS ≠ 0) (.dport (tcpUdp node.Proto)))
        (node.aclSetPortEntry cfg .dport (tcpUdp node.Proto) .entryEndFp) := by
    unfold chainOr
    split
    · rfl
    · next h =>
      rw [ifSet, if_pos (ifSet_ne_nil.mp h)]
      rfl
  apply optEntry_chainOr .tos
  · intro _
    simp only [ifSet_append_ne_nil, ifSet_ne_nil, decide_eq_true_eq]
    grind
  apply optEntry_chainOr .sip
  · intro _
    simp only [ifSet_append_ne_nil, ifSet_ne_nil, decide_eq_true_eq]
    grind
  apply optEntry_chainOr .dip
  · intro _
    simp only [ifSet_append_ne_nil, ifSet_ne_nil, decide_eq_true_eq]
  apply optEntry_chainOr .protocol
  · intro _
    simp only [ifSet_append_ne_nil, ifSet_ne_nil, decide_eq_true_eq]
  apply optEntry_chainOr (.sport (tcpUdp node.Proto))
  · intro _
    simp only [ifSet_ne_nil]
  exact hdp

@[simp] theorem tagged_tagged (cfg : Build) (node : AclPlcyNode) :
    (node.tagged cfg).tagged cfg = node.tagged cfg := by
  by_cases h : cfg.rt6855 ∧ node.pn ≠ PN_DONT_CARE
  · simp [tagged, h]
  · rw [tagged, tagged, if_neg h, if_neg h]

@[simp] theorem tagged_setFields (cfg : Build) (node : AclPlcyNode) :
    (node.tagged cfg).setFields cfg = node.setFields cfg := by
  unfold setFields comparesTags
  rw [tagged_tagged]
  unfold tagged
  split <;> rfl

theorem tagged_chainOr {n : AclPlcyNode} (htag : n.tagged cfg = n) :
    n.aclInsSmacETypTOSSipSpDipDp cfg =
      chainOr cfg n (n.setFields cfg)
        (n.aclSetPortEntry cfg .dport (tcpUdp n.Proto) .entryEndFp) := by
  have h34 := layer34_ne_nil n
  unfold aclInsSmacETypTOSSipSpDipDp
  rw [htag]
  dsimp only
  rw [layer34_chainOr]
  by_cases hskip : n.layer34 = [] ∧ n.Ethertype = 0 ∧ n.Vid = 0 ∧
      ¬ (n.Mac = zeroMac ∧ n.DMac = zeroMac)
  · -- the chain ends with an address, before the tags
    obtain ⟨hnil, he, hv, hmac⟩ := hskip
    have hzero : n.TosS = 0 ∧ n.SipS = 0 ∧ n.DipS = 0 ∧ n.Protocol = 0 ∧ n.SpS = 0 ∧ n.DpS = 0 := by
      grind
    obtain ⟨htos, hsip, hdip, hprot, hsp, hdp⟩ := hzero
    have hothers : n.comparesTags cfg = false := by
      rw [comparesTags]
      exact decide_eq_false (by grind)
    unfold setFields
    rw [hothers, hnil]
    by_cases hd : n.DMac = zeroMac
    · have hm : n.Mac ≠ zeroMac := fun hm => hmac ⟨hm, hd⟩
      simp [optEntry, chainOr, ifSet, chain, fieldEntry, he, hv, hd, hm, htos, hsip, hdip, hprot,
        hsp, hdp]
    · by_cases hm : n.Mac = zeroMac <;>
        simp [optEntry, chainOr, ifSet, chain, fieldEntry, he, hv, hd, hm, htos, hsip, hdip, hprot,
          hsp, hdp]
  · have hothers : n.comparesTags cfg =
        decide (n.Ethertype ≠ 0 ∨ n.Vid ≠ 0 ∨ n.SpecialTag ≠ 0) := by
      rw [comparesTags, htag]
      apply decide_eq_decide.mpr
      grind
    unfold setFields
    rw [hothers]
    apply optEntry_chainOr .smac
    · intro _
      simp only [ifSet_append_ne_nil, decide_eq_true_eq]
      grind
    apply optEntry_chainOr .dmac
    · intro _
      simp only [ifSet_append_ne_nil, decide_eq_true_eq]
      grind
    apply optEntry_chainOr .others
    · intro _
      simp only [decide_eq_true_eq]
      grind
    rfl

theorem aclIns_eq_chain (cfg : Build) (node : AclPlcyNode) :
    node.aclIns cfg = (node.compiled cfg).chain cfg (node.ruleFields cfg) := by
  unfold aclIns ruleFields compiled
  cases h : node.RuleType with
  | add kind =>
    cases kind with
    | sdmacAny | etypeAny => rfl
    | smacDipAny | smacDipTcp | smacDipUdp =>
      simp only [aclInsSmacDipDp, dipDp, h]
      rfl
    | sipDipAny | sipDipTcp | sipDipUdp =>
      simp only [aclInsSipDipDp, dipDp, h]
      rfl
    | smacDmacEtypeVidSipDipTosPort =>
      have hcode : node.aclInsSmacETypTOSSipSpDipDp cfg =
          (node.tagged cfg).aclInsSmacETypTOSSipSpDipDp cfg := by
        unfold aclInsSmacETypTOSSipSpDipDp
        rw [tagged_tagged]
      have hproto : (node.tagged cfg).Proto = node.Proto := by
        unfold tagged
        split <;> rfl
      rw [if_pos rfl]
      dsimp only
      rw [hcode, tagged_chainOr (tagged_tagged cfg node), tagged_setFields, hproto, chainOr]
      split <;> rfl
  | del kind | cleanTbl | getAllEntries => rfl

theorem fieldEntry_length (field : AclField) (last : FoeTblEE) :
    (node.fieldEntry cfg field last).length = 1 := by
  cases field <;> rfl

theorem chain_length (fields : List AclField) : (node.chain cfg fields).length = fields.length := by
  induction fields with
  | nil => rfl
  | cons field fields ih =>
    by_cases h : fields = []
    · subst h
      exact fieldEntry_length field .entryEndFp
    · rw [chain_cons h, List.length_append, fieldEntry_length, ih, List.length_cons, Nat.add_comm]

end AclPlcyNode
end Ralink.HwNat

/-! A packet against the entries of the ACL's part of the policy table: which entry matches it, the
chain that decides, and the chain that each rule is compiled to as a test of its fields. -/
namespace Ralink.HwNat

/-- What the classifier is given of a packet, the port it comes from and its special tag. -/
structure Packet where
  key : AclClassifyKey
  port : BitVec 3
  tag : BitVec 16

/-- The addresses from `ip` on, as many as mantissa and exponent say. -/
def ipRange (ip : BitVec 32) (rngM : BitVec 8) (rngE : BitVec 5) (a : BitVec 32) : Bool :=
  ip.toNat ≤ a.toNat ∧ a.toNat < ip.toNat + rngM.toNat * 2 ^ rngE.toNat

/-- The protocols of a rule for layer 4. The packet's TCP flags are not looked at. -/
def L4Type.matches (key : AclClassifyKey) : L4Type → Bool
  | .ipProt prot => key.Protocol = prot.setWidth 16
  | .udp => key.Proto = .udp
  | .tcp _ _ _ => key.Proto = .tcp
  | .tcpUdp _ _ _ => key.Proto = .tcp ∨ key.Proto = .udp

def L4RuleDir.matches (key : AclClassifyKey) (pStart pEnd : BitVec 16) : L4RuleDir → Bool
  | .dport => pStart ≤ key.Dp ∧ key.Dp ≤ pEnd
  | .sport => pStart ≤ key.Sp ∧ key.Sp ≤ pEnd
  | .sdport => pStart ≤ key.Dp ∧ key.Dp ≤ pEnd ∨ pStart ≤ key.Sp ∧ key.Sp ≤ pEnd
  | .dontCare => true

/-- What an entry compares, apart from its common fields. -/
def Rule.compares (pkt : Packet) : Rule → Bool
  | .l2Mac _ dir mac =>
    match dir with
    | .smac => mac = macReverse pkt.key.Mac
    | .dmac => mac = macReverse pkt.key.DMac
    | .sdmac => mac = macReverse pkt.key.Mac ∨ mac = macReverse pkt.key.DMac
    | .others => true
  | .l2Others _ others =>
    (others.v → others.vid = pkt.key.Vid) ∧ (others.e → others.etypPprot = pkt.key.Ethertype)
      ∧ (others.s → others.etypPprot = pkt.tag)
  | .l3Ip _ dir ip rngM rngE =>
    match dir with
    | .sip => ipRange ip rngM rngE pkt.key.Sip
    | .dip => ipRange ip rngM rngE pkt.key.Dip
    | .sdip => ipRange ip rngM rngE pkt.key.Sip ∨ ipRange ip rngM rngE pkt.key.Dip
    | .ipQos => true
  | .l3Qos _ tosS tosE => tosS ≤ pkt.key.Tos ∧ pkt.key.Tos ≤ tosE
  | .l4 _ dir pStart pEnd type => type.matches pkt.key && dir.matches pkt.key pStart pEnd

/-- An entry is for a port or for all, and asks for a match or for none. -/
def Rule.matches (pkt : Packet) (rule : Rule) : Bool :=
  (rule.com.pn = PN_DONT_CARE ∨ rule.com.pn = pkt.port) ∧ rule.compares pkt = rule.com.equal

def Rule.ends (rule : Rule) : Bool := rule.com.last.ee

/-- The entries of the ACL, from the start of its part to its end. -/
def Ppe.aclTable (p : Ppe) : List Rule :=
  (List.range ((p.getEnd .preAcl).toNat - (p.getStr .preAcl).toNat)).filterMap fun i =>
    p.policyTbl ((p.getStr .preAcl).toNat + i)

/-- The user priority that the chain ending with an entry gives. -/
def EntryEnd.up : EntryEnd → BitVec 3
  | .fpp _ up => up
  | _ => 0

/-- The user priority that the hardware gives a packet: that of the first chain that
matches, 0 when none does. -/
def hwClassify (table : List Rule) (pkt : Packet) : BitVec 3 :=
  match Chains.lookup Rule.ends (Rule.matches pkt) true table with
  | some rule => rule.com.last.up
  | none => 0

namespace AclPlcyNode

variable {cfg : Build} {node : AclPlcyNode}

def fieldMatches (cfg : Build) (node : AclPlcyNode) (pkt : Packet) (field : AclField) : Bool :=
  (node.fieldEntry cfg field .entryEndFp).all (·.matches pkt)

theorem fieldEntry_eq (cfg : Build) (node : AclPlcyNode) (field : AclField) (last : FoeTblEE) :
    ∃ rule, node.fieldEntry cfg field last = [rule] ∧ rule.com.last = node.entryEnd last ∧
      ∀ pkt, rule.matches pkt = node.fieldMatches cfg pkt field := by
  unfold fieldMatches
  cases field <;> exact ⟨_, rfl, rfl, fun pkt => (Bool.and_true _).symm⟩

theorem entryEnd_ee (node : AclPlcyNode) : (node.entryEnd .entryEndFp).ee = true := by
  unfold entryEnd
  cases node.Method <;> rfl

theorem chain_isChain {fields : List AclField} (h : fields ≠ []) :
    ∃ last, last.com.last = node.entryEnd .entryEndFp ∧
      Chains.IsChain Rule.ends (node.chain cfg fields) last ∧
      ∀ pkt, (node.chain cfg fields).all (Rule.matches pkt) =
        fields.all (node.fieldMatches cfg pkt) := by
  induction fields with
  | nil => exact absurd rfl h
  | cons field fields ih =>
    by_cases hnil : fields = []
    · subst hnil
      obtain ⟨rule, hentry, hlast, hmatch⟩ := fieldEntry_eq cfg node field .entryEndFp
      refine ⟨rule, hlast, ⟨[], hentry, by simp, ?_⟩, fun pkt => ?_⟩
      · rw [Rule.ends, hlast]
        exact entryEnd_ee node
      · simp [chain, hentry, hmatch]
    · obtain ⟨last, hlast, ⟨init, hchain, hinit, hend⟩, hall⟩ := ih hnil
      obtain ⟨rule, hentry, hnext, hmatch⟩ := fieldEntry_eq cfg node field .notEntryEnd
      refine ⟨last, hlast, ⟨rule :: init, ?_, ?_, hend⟩, fun pkt => ?_⟩
      · rw [chain_cons hnil, hentry, hchain]
        rfl
      · intro e he
        rcases List.mem_cons.mp he with rfl | he
        · rw [Rule.ends, hnext]
          rfl
        · exact hinit e he
      · rw [chain_cons hnil, hentry, List.singleton_append, List.all_cons, hall, hmatch,
          List.all_cons]

theorem ruleFields_ne_nil {kind : AclKind} (h : node.RuleType = .add kind) :
    node.ruleFields cfg ≠ [] := by
  unfold ruleFields
  rw [h]
  cases kind <;> try exact List.cons_ne_nil _ _
  dsimp only
  split
  · exact List.cons_ne_nil _ _
  · assumption

theorem compiled_entryEnd (cfg : Build) (node : AclPlcyNode) (last : FoeTblEE) :
    (node.compiled cfg).entryEnd last = node.entryEnd last := by
  unfold compiled tagged
  split
  · split <;> rfl
  · rfl

theorem aclIns_isChain {kind : AclKind} (cfg : Build) (h : node.RuleType = .add kind) :
    ∃ last, last.com.last = node.entryEnd .entryEndFp ∧
      Chains.IsChain Rule.ends (node.aclIns cfg) last ∧
      ∀ pkt, (node.aclIns cfg).all (Rule.matches pkt) =
        (node.ruleFields cfg).all ((node.compiled cfg).fieldMatches cfg pkt) := by
  rw [aclIns_eq_chain, ← compiled_entryEnd cfg]
  exact chain_isChain (ruleFields_ne_nil h)

end AclPlcyNode
end Ralink.HwNat
