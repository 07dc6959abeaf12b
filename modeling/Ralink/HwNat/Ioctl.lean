import Ralink.HwNat.AcMtrPolicy

/-! The commands of the three devices, with the checks that a new rule has room in the part of its
engine. -/
namespace Ralink.HwNat

section Acl

variable (cfg : Build) (s : Driver)

def aclBndryCheck (newNode : AclPlcyNode) : PolicyResult :=
  let curAclEnd := (s.ppe.getEnd .preAcl).toNat
  let maxAclEnd := (s.ppe.getStr .preMtr).toNat
  if (aclExistNode s.acl newNode).isSome then .success
  else
    let ruleSize :=
      match newNode.RuleType with
      | .add .sdmacAny | .add .etypeAny => 1
      | .add .smacDipAny | .add .sipDipAny => 2
      | .add .smacDipTcp | .add .smacDipUdp | .add .sipDipTcp | .add .sipDipUdp => 3
      | .add .smacDmacEtypeVidSipDipTosPort => 7
      | .del _ | .cleanTbl | .getAllEntries => 0
    if curAclEnd + ruleSize ≥ maxAclEnd then .tblFull else .success

def runIoctlAddHandler (newNode : AclPlcyNode) (proto : AclProtoType) (mem : Bool) :
    PolicyResult × Driver :=
  let newNode := { newNode with Proto := proto }
  if aclBndryCheck s newNode ≠ .tblFull then s.call cfg (.aclAddNode newNode mem)
  else (.tblFull, s)

def runIoctlDelHandler (delNode : AclPlcyNode) (proto : AclProtoType) : PolicyResult × Driver :=
  s.call cfg (.aclDelNode { delNode with Proto := proto })

/-- The protocol that `AclIoctl` gives the handlers for a command; that of the caller's
rule, `l4`, only for the rule with all fields. -/
def AclKind.proto (l4 : AclProtoType) : AclKind → AclProtoType
  | .sdmacAny | .etypeAny | .smacDipAny | .sipDipAny => .any
  | .smacDipTcp | .sipDipTcp => .tcp
  | .smacDipUdp | .sipDipUdp => .udp
  | .smacDmacEtypeVidSipDipTosPort => l4

/-- What the command is given are the fields of `opt` other than `RuleType`, `SpecialTag`
and `FoeTb`. -/
def aclIoctl (cmd : AclCmd) (opt : AclPlcyNode) (mem : Bool) : Option PolicyResult × Driver :=
  let node := { opt with RuleType := cmd, SpecialTag := 0 }
  match cmd with
  | .add kind =>
    let (result, s) := runIoctlAddHandler cfg s node (kind.proto opt.Proto) mem
    (some result, s)
  | .del kind =>
    let (result, s) := runIoctlDelHandler cfg s node (kind.proto opt.Proto)
    (some result, s)
  | .cleanTbl => (none, (s.call cfg .aclCleanTbl).2)
  | .getAllEntries => (none, s)

end Acl

/-- The direction in the names of the commands. -/
inductive Link where
  | ul
  | dl
  deriving DecidableEq

section Ac

variable (cfg : Build) (s : Driver)

inductive AcCmd where
  | addEntry (rule : AcRuleType) (link : Link)
  | delEntry (rule : AcRuleType) (link : Link)
  | getCnt (rule : AcRuleType) (link : Link) (type : AcCntType)
  | cleanTbl
  deriving DecidableEq

structure AcArgs where
  mac : Mac := zeroMac
  ip_s : BitVec 32 := 0
  ip_e : BitVec 32 := 0
  vid : BitVec 12 := 0

/-- `AcParam`, the same for adding, deleting and counting. -/
def acParam : Link → AcType
  | .ul => .preAc
  | .dl => .postAc

def acBndryCheck (newNode : AcPlcyNode) : PolicyResult :=
  if (acExistNode s.ac.list newNode).isSome then .success
  else
    let (curAcEnd, maxAcEnd) :=
      match newNode.Type_ with
      | .preAc => ((s.ppe.getEnd .preAc).toNat, (s.ppe.getStr .postMtr).toNat)
      | .postAc => ((s.ppe.getEnd .postAc).toNat, 511)
    if curAcEnd + 1 ≥ maxAcEnd then .tblFull else .success

def AcArgs.node (opt : AcArgs) (rule : AcRuleType) (link : Link) : AcPlcyNode :=
  { Type_ := acParam link, RuleType := rule, Mac := macReverse opt.mac, IpS := opt.ip_s,
    IpE := opt.ip_e, VLAN := opt.vid }

def acIoctl (cmd : AcCmd) (opt : AcArgs) (mem : Bool) : Option PolicyResult × Driver :=
  match cmd with
  | .addEntry rule link =>
    let node := opt.node rule link
    if acBndryCheck s node ≠ .tblFull then
      let (result, s) := s.call cfg (.acAddNode node mem)
      (some result, s)
    else (some .tblFull, s)
  | .delEntry rule link =>
    let (result, s) := s.call cfg (.acDelNode (opt.node rule link))
    (some result, s)
  | .getCnt _ _ _ => (none, s)
  | .cleanTbl => (none, (s.call cfg .acCleanTbl).2)

end Ac

section Mtr

variable (cfg : Build) (s : Driver)

/-- The entries that the commands add and delete. -/
inductive MtrEntry where
  | mac (link : Link)
  | ip (link : Link)
  | syn
  | fin
  | udp
  | icmp
  deriving DecidableEq

inductive MtrCmd where
  | addEntry (entry : MtrEntry)
  | delEntry (entry : MtrEntry)
  | getAllEntries
  | cleanTbl
  deriving DecidableEq

structure MtrArgs where
  mac : Mac := zeroMac
  ip_s : BitVec 32 := 0
  ip_e : BitVec 32 := 0
  info : MtrInfo := .byteBase 0 0

/-- `MtrParam`. -/
def mtrParam : MtrEntry → MtrType × MtrRuleType
  | .mac .ul => (.preMtr, .macGroup)
  | .mac .dl => (.postMtr, .macGroup)
  | .ip .ul => (.preMtr, .ipGroup)
  | .ip .dl => (.postMtr, .ipGroup)
  | .syn => (.preMtr, .syn)
  | .fin => (.preMtr, .fin)
  | .udp => (.preMtr, .protocolUdp)
  | .icmp => (.preMtr, .protocolIcmp)

def mtrBndryCheck (newNode : MtrPlcyNode) : PolicyResult :=
  if (mtrExistNode s.mtr.list newNode).isSome then .success
  else
    let (curMtrEnd, maxMtrEnd) :=
      match newNode.Type_ with
      | .preMtr => ((s.ppe.getEnd .preMtr).toNat, (s.ppe.getStr .postAc).toNat)
      | .postMtr => ((s.ppe.getEnd .postMtr).toNat, (s.ppe.getStr .postAc).toNat)
    if curMtrEnd + 1 ≥ maxMtrEnd then .tblFull else .success

def MtrArgs.node (opt : MtrArgs) (entry : MtrEntry) : MtrPlcyNode :=
  { Type_ := (mtrParam entry).1, RuleType := (mtrParam entry).2, Mac := macReverse opt.mac,
    IpS := opt.ip_s, IpE := opt.ip_e, info := opt.info }

/-- The result of an addition is that of the check. -/
def mtrIoctl (cmd : MtrCmd) (opt : MtrArgs) (mem : Bool) : Option PolicyResult × Driver :=
  match cmd with
  | .addEntry entry =>
    let node := opt.node entry
    let result := mtrBndryCheck s node
    if result ≠ .tblFull then (some result, (s.call cfg (.mtrAddNode node mem)).2)
    else (some result, s)
  | .delEntry entry =>
    let (result, s) := s.call cfg (.mtrDelNode (opt.node entry))
    (some result, s)
  | .getAllEntries => (none, s)
  | .cleanTbl => (none, (s.call cfg .mtrCleanTbl).2)

end Mtr

/-- A command of one of the devices. `mem` tells whether `kmalloc` succeeds. -/
inductive Ioctl where
  | acl (cmd : AclCmd) (opt : AclPlcyNode) (mem : Bool)
  | ac (cmd : AcCmd) (opt : AcArgs) (mem : Bool)
  | mtr (cmd : MtrCmd) (opt : MtrArgs) (mem : Bool)

/-- What a command returns, and the state after it. -/
def Driver.ioctl (cfg : Build) (s : Driver) : Ioctl → Option PolicyResult × Driver
  | .acl cmd opt mem => aclIoctl cfg s cmd opt mem
  | .ac cmd opt mem => acIoctl cfg s cmd opt mem
  | .mtr cmd opt mem => mtrIoctl cfg s cmd opt mem

def Driver.stepIoctl (cfg : Build) (s : Driver) (c : Ioctl) : Driver := (s.ioctl cfg c).2

end Ralink.HwNat
