import Ralink.HwNat.Policy

/-! The list of rules of `acl_policy.c`, the entries that each rule is compiled to, and the
classifier that reads the list itself. -/
namespace Ralink.HwNat

inductive PolicyResult where
  | success
  | fail
  | tblFull
  deriving DecidableEq

/-- What a rule compares, as the names of its ioctl codes have it. -/
inductive AclKind where
  | smacDipAny
  | smacDipTcp
  | smacDipUdp
  | sipDipAny
  | sipDipTcp
  | sipDipUdp
  | sdmacAny
  | etypeAny
  | smacDmacEtypeVidSipDipTosPort
  deriving DecidableEq

/-- The ioctl codes: `ACL_ADD_` and `ACL_DEL_` with a kind, and the two others. -/
inductive AclCmd where
  | add (kind : AclKind)
  | del (kind : AclKind)
  | cleanTbl
  | getAllEntries
  deriving DecidableEq

inductive AclRuleMethod where
  | allow
  | deny
  | priority
  deriving DecidableEq

inductive AclProtoType where
  | any
  | tcp
  | udp
  deriving DecidableEq

structure AclPlcyNode where
  Method : AclRuleMethod := .allow
  Proto : AclProtoType := .any
  RuleType : AclCmd
  Mac : Mac := zeroMac
  DMac : HwNat.Mac := zeroMac
  Ethertype : BitVec 16 := 0
  SpecialTag : BitVec 16 := 0
  Protocol : BitVec 16 := 0
  SipS : BitVec 32 := 0
  SipE : BitVec 32 := 0
  DipS : BitVec 32 := 0
  DipE : BitVec 32 := 0
  SpS : BitVec 16 := 0
  SpE : BitVec 16 := 0
  DpS : BitVec 16 := 0
  DpE : BitVec 16 := 0
  FoeTb : BitVec 16 := 0
  TosS : BitVec 8 := 0
  TosE : BitVec 8 := 0
  Vid : BitVec 12 := 0
  up : BitVec 3 := 0
  pn : BitVec 3 := 0
  deriving DecidableEq

structure AclClassifyKey where
  Proto : AclProtoType := .any
  Mac : Mac := zeroMac
  DMac : HwNat.Mac := zeroMac
  Ethertype : BitVec 16 := 0
  Protocol : BitVec 16 := 0
  Sip : BitVec 32 := 0
  Dip : BitVec 32 := 0
  Sp : BitVec 16 := 0
  Dp : BitVec 16 := 0
  Tos : BitVec 8 := 0
  Vid : BitVec 12 := 0
  deriving DecidableEq

/-- `enum FoeTblEE`. -/
inductive FoeTblEE where
  | notEntryEnd
  | entryEndFp
  | entryEndFoe
  deriving DecidableEq

/-- `enum FoeTblTcpUdp`. -/
inductive FoeTblTcpUdp where
  | TCP
  | UDP
  | ANY
  deriving DecidableEq

namespace AclPlcyNode

variable (node : AclPlcyNode)

/-- The switch over `End` that the functions below end with. -/
def entryEnd : FoeTblEE → EntryEnd
  | .entryEndFoe => .foe (node.FoeTb.setWidth 6)
  | .entryEndFp =>
    match node.Method with
    | .allow => .fpp .allow node.up
    | .priority => .fpp .frcPriOnly node.up
    | .deny => .fpp .drop 0
  | .notEntryEnd => .next

def com (cfg : Build) (last : FoeTblEE) : CommonField :=
  ⟨node.entryEnd last, true, if cfg.rt6855 then PN_DONT_CARE else node.pn⟩

variable (cfg : Build)

/-! The functions that insert entries are given as the entries they insert, in order. -/

def aclSetMacEntry (dir : L2RuleDir) (last : FoeTblEE) : List Rule :=
  match dir with
  | .others =>
    let others : L2Others :=
      if node.Ethertype ≠ 0 then { etypPprot := node.Ethertype, e := true }
      else if node.SpecialTag ≠ 0 then { etypPprot := node.SpecialTag, s := true }
      else {}
    [.l2Others (node.com cfg last)
      (if node.Vid ≠ 0 then { others with vid := node.Vid, v := true } else others)]
  | .dmac => [.l2Mac (node.com cfg last) .dmac (macReverse node.DMac)]
  | dir => [.l2Mac (node.com cfg last) dir (macReverse node.Mac)]

def aclSetIpEntry (dir : L3RuleDir) (last : FoeTblEE) : List Rule :=
  match dir with
  | .sip =>
    let (m, e) := calIpRange node.SipS node.SipE
    [.l3Ip (node.com cfg last) .sip node.SipS m e]
  | .dip =>
    let (m, e) := calIpRange node.DipS node.DipE
    [.l3Ip (node.com cfg last) .dip node.DipS m e]
  | .ipQos => [.l3Qos (node.com cfg last) node.TosS node.TosE]
  | .sdip => []

def aclSetPortEntry (dir : L4RuleDir) (proto : FoeTblTcpUdp) (last : FoeTblEE) : List Rule :=
  let type : L4Type :=
    match proto with
    | .TCP => .tcp .equal 0 0x3F
    | .UDP => .udp
    | .ANY => .tcpUdp .equal 0 0x3F
  match dir with
  | .sport => [.l4 (node.com cfg last) .sport node.SpS node.SpE type]
  | .dport => [.l4 (node.com cfg last) .dport node.DpS node.DpE type]
  | .dontCare => [.l4 (node.com cfg last) .dontCare 0 0 (.ipProt (node.Protocol.setWidth 8))]
  | .sdport => []

def aclInsSDmac : List Rule := node.aclSetMacEntry cfg .sdmac .entryEndFp

def aclInsEthertype : List Rule := node.aclSetMacEntry cfg .others .entryEndFp

/-- How the two functions below end: with the address, or with the port behind it. -/
def dipDp : List Rule :=
  if node.RuleType = .add .smacDipAny ∨ node.RuleType = .add .sipDipAny then
    node.aclSetIpEntry cfg .dip .entryEndFp
  else
    node.aclSetIpEntry cfg .dip .notEntryEnd ++
      if node.RuleType = .add .smacDipTcp ∨ node.RuleType = .add .sipDipTcp then
        node.aclSetPortEntry cfg .dport .TCP .entryEndFp
      else if node.RuleType = .add .smacDipUdp ∨ node.RuleType = .add .sipDipUdp then
        node.aclSetPortEntry cfg .dport .UDP .entryEndFp
      else []

def aclInsSmacDipDp : List Rule := node.aclSetMacEntry cfg .smac .notEntryEnd ++ node.dipDp cfg

def aclInsSipDipDp : List Rule := node.aclSetIpEntry cfg .sip .notEntryEnd ++ node.dipDp cfg

/-- An optional field: its entry is the last when no field behind it is set. -/
def optEntry (isSet later : Bool) (entry : FoeTblEE → List Rule) (rest : List Rule) : List Rule :=
  if isSet then
    if later then entry .notEntryEnd ++ rest else entry .entryEndFp
  else rest

def tcpUdp : AclProtoType → FoeTblTcpUdp
  | .tcp => .TCP
  | .udp => .UDP
  | .any => .ANY

/-- The tag that stands for the port is kept in the rule; no other function reads it there. -/
def tagged : AclPlcyNode :=
  if cfg.rt6855 ∧ node.pn ≠ PN_DONT_CARE then
    { node with SpecialTag := 0x8100 ||| node.pn.setWidth 16 }
  else node

def aclInsSmacETypTOSSipSpDipDp : List Rule :=
  let node := node.tagged cfg
  let dmac := node.DMac ≠ zeroMac
  let prot := node.Protocol ≠ 0
  let etype := node.Ethertype ≠ 0
  let vid := node.Vid ≠ 0
  let sip := node.SipS ≠ 0
  let dip := node.DipS ≠ 0
  let tos := node.TosS ≠ 0
  let sp := node.SpS ≠ 0
  let dp := node.DpS ≠ 0
  optEntry (node.Mac ≠ zeroMac)
      (dmac ∨ prot ∨ etype ∨ vid ∨ sip ∨ dip ∨ tos ∨ sp ∨ dp) (node.aclSetMacEntry cfg .smac) <|
  optEntry dmac (etype ∨ prot ∨ vid ∨ sip ∨ dip ∨ tos ∨ sp ∨ dp) (node.aclSetMacEntry cfg .dmac) <|
  optEntry (etype ∨ vid ∨ node.SpecialTag ≠ 0)
      (prot ∨ sip ∨ dip ∨ tos ∨ sp ∨ dp) (node.aclSetMacEntry cfg .others) <|
  optEntry tos (prot ∨ sip ∨ dip ∨ sp ∨ dp) (node.aclSetIpEntry cfg .ipQos) <|
  optEntry sip (prot ∨ dip ∨ sp ∨ dp) (node.aclSetIpEntry cfg .sip) <|
  optEntry dip (prot ∨ sp ∨ dp) (node.aclSetIpEntry cfg .dip) <|
  optEntry prot (sp ∨ dp) (node.aclSetPortEntry cfg .dontCare .ANY) <|
  optEntry sp dp (node.aclSetPortEntry cfg .sport (tcpUdp node.Proto)) <|
  node.aclSetPortEntry cfg .dport (tcpUdp node.Proto) .entryEndFp

/-- The switch of `SyncAclTbl`. -/
def aclIns : List Rule :=
  match node.RuleType with
  | .add .sdmacAny => node.aclInsSDmac cfg
  | .add .etypeAny => node.aclInsEthertype cfg
  | .add .smacDipAny | .add .smacDipTcp | .add .smacDipUdp => node.aclInsSmacDipDp cfg
  | .add .sipDipAny | .add .sipDipTcp | .add .sipDipUdp => node.aclInsSipDipDp cfg
  | .add .smacDmacEtypeVidSipDipTosPort => node.aclInsSmacETypTOSSipSpDipDp cfg
  | .del _ | .cleanTbl | .getAllEntries => []

end AclPlcyNode

def ETH_P_ARP : BitVec 16 := 0x0806

def aclInsDflAllow : List Rule :=
  [.l2Others ⟨.fpp .allow 0, true, PN_DONT_CARE⟩ { e := true, etypPprot := ETH_P_ARP }]

def aclInsDflDeny : List Rule := [.l2Others ⟨.fpp .drop 0, true, PN_DONT_CARE⟩ {}]

/-- The entries that `SyncAclTbl` inserts. Those behind the rules depend on the last rule. -/
def aclEntries (cfg : Build) (l : List AclPlcyNode) : List Rule :=
  l.flatMap (·.aclIns cfg) ++
    match l.getLast? with
    | none => []
    | some node => if node.Method = .allow then aclInsDflAllow ++ aclInsDflDeny else []

def syncAclTbl (cfg : Build) (l : List AclPlcyNode) (p : Ppe) : Ppe :=
  let p := ppeSetPreAclEbl cfg p false
  let p := p.insEntries .preAcl (aclEntries cfg l)
  if l = [] then p else ppeSetPreAclEbl cfg p true

/-- Whether `AclExistNode` stops at `node`. -/
def aclExists (newNode node : AclPlcyNode) : Bool :=
  match newNode.RuleType with
  | .add .sdmacAny => node.Mac = newNode.Mac
  | .add .etypeAny => node.Ethertype = newNode.Ethertype
  | .add .smacDipAny =>
    node.Mac = newNode.Mac ∧ node.DipS = newNode.DipS ∧ node.DipE = newNode.DipE
      ∧ node.Proto = newNode.Proto
  | .add .smacDipTcp | .add .smacDipUdp =>
    node.Mac = newNode.Mac ∧ node.DipS = newNode.DipS ∧ node.DipE = newNode.DipE
      ∧ node.DpS = newNode.DpS ∧ node.Proto = newNode.Proto
  | .add .sipDipAny =>
    node.SipS = newNode.SipS ∧ node.SipE = newNode.SipE ∧ node.DipS = newNode.DipS
      ∧ node.DipE = newNode.DipE ∧ node.Proto = newNode.Proto
  | .add .sipDipTcp | .add .sipDipUdp =>
    node.SipS = newNode.SipS ∧ node.SipE = newNode.SipE ∧ node.DipS = newNode.DipS
      ∧ node.DipE = newNode.DipE ∧ node.DpS = newNode.DpS ∧ node.Proto = newNode.Proto
  | .add .smacDmacEtypeVidSipDipTosPort =>
    node.Mac = newNode.Mac ∧ node.DMac = newNode.DMac ∧ node.Ethertype = newNode.Ethertype
      ∧ node.Vid = newNode.Vid ∧ node.SipS = newNode.SipS ∧ node.Protocol = newNode.Protocol
      ∧ node.SipE = newNode.SipE ∧ node.TosS = newNode.TosS ∧ node.TosE = newNode.TosE
      ∧ node.DipS = newNode.DipS ∧ node.DipE = newNode.DipE ∧ node.DpS = newNode.DpS
      ∧ node.DpE = newNode.DpE ∧ node.SpS = newNode.SpS ∧ node.SpE = newNode.SpE
      ∧ node.Proto = newNode.Proto
  | .del _ | .cleanTbl | .getAllEntries => false

def aclExistNode (l : List AclPlcyNode) (newNode : AclPlcyNode) : Option AclPlcyNode :=
  l.find? (aclExists newNode)

/-- Whether `AclDelNode` stops at `node`. -/
def aclDeletes (delNode node : AclPlcyNode) : Bool :=
  match delNode.RuleType with
  | .del .sdmacAny => node.Mac = delNode.Mac
  | .del .etypeAny => node.Ethertype = delNode.Ethertype
  | .del .smacDipAny =>
    node.Mac = delNode.Mac ∧ node.DipS = delNode.DipS ∧ node.DipE = delNode.DipE
  | .del .smacDipTcp | .del .smacDipUdp =>
    node.Mac = delNode.Mac ∧ node.DipS = delNode.DipS ∧ node.DipE = delNode.DipE
      ∧ node.DpS = delNode.DpS ∧ node.DpE = delNode.DpE ∧ node.Proto = delNode.Proto
  | .del .sipDipAny =>
    node.SipS = delNode.SipS ∧ node.SipE = delNode.SipE ∧ node.DipS = delNode.DipS
      ∧ node.DipE = delNode.DipE
  | .del .sipDipTcp | .del .sipDipUdp =>
    node.SipS = delNode.SipS ∧ node.SipE = delNode.SipE ∧ node.DipS = delNode.DipS
      ∧ node.DipE = delNode.DipE ∧ node.DpS = delNode.DpS ∧ node.DpE = delNode.DpE
      ∧ node.Proto = delNode.Proto
  | .del .smacDmacEtypeVidSipDipTosPort =>
    node.Mac = delNode.Mac ∧ node.DMac = delNode.DMac ∧ node.Vid = delNode.Vid
      ∧ node.Protocol = delNode.Protocol ∧ node.SipS = delNode.SipS ∧ node.SipE = delNode.SipE
      ∧ node.SpS = delNode.SpS ∧ node.SpE = delNode.SpE ∧ node.TosS = delNode.TosS
      ∧ node.TosE = delNode.TosE ∧ node.DipS = delNode.DipS ∧ node.DipE = delNode.DipE
      ∧ node.DpS = delNode.DpS ∧ node.DpE = delNode.DpE ∧ node.Ethertype = delNode.Ethertype
      ∧ node.Proto = delNode.Proto
  | .add _ | .cleanTbl | .getAllEntries => false

/-- A field of a rule that is a range, as the classifier reads it. -/
def inRange {w : Nat} (s e v : BitVec w) : Bool := s ≤ v ∧ v ≤ e ∨ e = 0

/-- Whether `AclClassify` stops at the rule. -/
def aclMatches (node : AclPlcyNode) (key : AclClassifyKey) : Bool :=
  match node.RuleType with
  | .add .sdmacAny => node.Mac = key.Mac
  | .add .etypeAny => node.Ethertype = key.Ethertype
  | .add .smacDipAny =>
    (node.Mac = key.Mac ∨ node.Mac = zeroMac) ∧ inRange node.DipS node.DipE key.Dip
  | .add .smacDipTcp | .add .smacDipUdp =>
    (node.Mac = key.Mac ∨ node.Mac = zeroMac) ∧ inRange node.DipS node.DipE key.Dip
      ∧ inRange node.DpS node.DpE key.Dp ∧ node.Proto = key.Proto
  | .add .sipDipAny => inRange node.SipS node.SipE key.Sip ∧ inRange node.DipS node.DipE key.Dip
  | .add .sipDipTcp | .add .sipDipUdp =>
    inRange node.SipS node.SipE key.Sip ∧ inRange node.DipS node.DipE key.Dip
      ∧ inRange node.DpS node.DpE key.Dp ∧ node.Proto = key.Proto
  | .add .smacDmacEtypeVidSipDipTosPort =>
    (node.Mac = key.Mac ∨ node.Mac = zeroMac) ∧ (node.DMac = key.DMac ∨ node.DMac = zeroMac)
      ∧ (node.Protocol = key.Protocol ∨ node.Protocol = 0)
      ∧ inRange node.SipS node.SipE key.Sip ∧ inRange node.DipS node.DipE key.Dip
      ∧ inRange node.DpS node.DpE key.Dp ∧ inRange node.SpS node.SpE key.Sp
      ∧ inRange node.TosS node.TosE key.Tos ∧ (node.Vid = key.Vid ∨ node.TosE = 0)
      ∧ (node.Ethertype = key.Ethertype ∨ node.Ethertype = 0) ∧ node.Proto = key.Proto
  | .del _ | .cleanTbl | .getAllEntries => false

def aclClassify (l : List AclPlcyNode) (key : AclClassifyKey) : BitVec 3 :=
  match l.find? (aclMatches · key) with
  | some node => node.up
  | none => 0

variable (cfg : Build)

/-- The list and the hardware. `mem` tells whether `kmalloc` succeeds. -/
def aclAddNode (l : List AclPlcyNode) (p : Ppe) (newNode : AclPlcyNode) (mem : Bool) :
    PolicyResult × List AclPlcyNode × Ppe :=
  if (aclExistNode l newNode).isSome then (.success, l, p)
  else if ¬ mem then (.fail, l, p)
  else (.success, l ++ [newNode], syncAclTbl cfg (l ++ [newNode]) p)

def aclDelNode (l : List AclPlcyNode) (p : Ppe) (delNode : AclPlcyNode) :
    PolicyResult × List AclPlcyNode × Ppe :=
  match l.find? (aclDeletes delNode) with
  | none => (.fail, l, p)
  | some _ =>
    let l := l.eraseP (aclDeletes delNode)
    (.success, l, syncAclTbl cfg l p)

def aclCleanTbl (p : Ppe) : PolicyResult × List AclPlcyNode × Ppe :=
  (.success, [], ppeSetPreAclEbl cfg p false)

end Ralink.HwNat
