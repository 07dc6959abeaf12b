import Mathlib.Data.List.Defs
import Ralink.HwNat.AclPolicy
import Ralink.Lib.Run

/-! The lists of `ac_policy.c` and `mtr_policy.c`. A rule of either list has a group of 64, taken
from a bitmap when the rule is added; the counters and the meters are kept by group. -/
namespace Ralink.HwNat

/-- A list of rules and the bitmap that their groups are taken from. -/
structure GroupTable (α : Type) where
  list : List α := []
  freeList : Bitmap.Bytes := Bitmap.empty

namespace GroupTable

variable {α : Type} (t : GroupTable α)

/-- `PpeGetFreeAcGrp` and `PpeGetFreeMtrGrp`. -/
def getFreeGrp : Int × Bitmap.Bytes :=
  match Bitmap.firstFree 64 t.freeList with
  | some g => (g, Bitmap.setBit t.freeList g)
  | none => (-1, t.freeList)

/-- The rule goes to the tail of the list, with the group it was given. -/
def insert (node : Int → α) : GroupTable α :=
  ⟨t.list ++ [node t.getFreeGrp.1], t.getFreeGrp.2⟩

/-- The first rule that `found` holds of goes, and its group is free again. -/
def remove (found : α → Bool) (group : α → Nat) : Option (GroupTable α) :=
  (t.list.find? found).map fun node =>
    ⟨t.list.eraseP found, Bitmap.clearBit t.freeList (group node)⟩

def clean : GroupTable α := { t with list := [] }

end GroupTable

inductive AcRuleType where
  | macGroup
  | ipGroup
  | vlanGroup
  deriving DecidableEq

inductive AcType where
  | preAc
  | postAc
  deriving DecidableEq

structure AcPlcyNode where
  Type_ : AcType
  RuleType : AcRuleType
  Mac : Mac := zeroMac
  IpS : BitVec 32 := 0
  IpE : BitVec 32 := 0
  VLAN : BitVec 12 := 0
  AgIdx : BitVec 8 := 0
  deriving DecidableEq

def AcType.engine : AcType → Engine
  | .preAc => .preAc
  | .postAc => .postAc

abbrev AcTable := GroupTable AcPlcyNode

section Ac

variable (cfg : Build) (node : AcPlcyNode) (p : Ppe)

def acCom : CommonField := ⟨.ac (node.AgIdx.setWidth 6), true, PN_DONT_CARE⟩

def acInsMac : Ppe :=
  match node.Type_ with
  | .preAc => p.insEntry .preAc (.l2Mac (acCom node) .smac node.Mac)
  | .postAc => p.insEntry .postAc (.l2Mac (acCom node) .dmac node.Mac)

def acInsIp : Ppe :=
  let (m, e) := calIpRange node.IpS node.IpE
  match node.Type_ with
  | .preAc => p.insEntry .preAc (.l3Ip (acCom node) .sip node.IpS m e)
  | .postAc => p.insEntry .postAc (.l3Ip (acCom node) .dip node.IpS m e)

def acInsVlan : Ppe :=
  let rule : Rule := .l2Others (acCom node) { vid := node.VLAN, v := true }
  match node.Type_ with
  | .preAc => p.insEntry .preAc rule
  | .postAc => p.insEntry .postAc rule

def acIns : Ppe :=
  match node.RuleType with
  | .macGroup => acInsMac node p
  | .ipGroup => acInsIp node p
  | .vlanGroup => acInsVlan node p

def syncAcTbl (l : List AcPlcyNode) (p : Ppe) : Ppe :=
  let p := ppeSetPreAcEbl cfg p false
  let p := ppeSetPostAcEbl cfg p false
  let p := l.foldl (fun p node => acIns node p) p
  let preRuleFound := l.any (·.Type_ = .preAc)
  let postRuleFound := l.any (·.Type_ = .postAc)
  let p := if preRuleFound then ppeSetPreAcEbl cfg p true else p
  if postRuleFound then ppeSetPostAcEbl cfg p true else p

/-- The fields that the three scans compare for a rule type. -/
def acKeyEq (a node : AcPlcyNode) : Bool :=
  match a.RuleType with
  | .macGroup => node.Mac = a.Mac
  | .ipGroup => node.IpS = a.IpS ∧ node.IpE = a.IpE
  | .vlanGroup => node.VLAN = a.VLAN

/-- Whether `AcExistNode` stops at `node`. -/
def acExists (newNode node : AcPlcyNode) : Bool := acKeyEq newNode node ∧ node.Type_ = newNode.Type_

/-- Whether `AcDelNode` stops at `node`. -/
def acDeletes (delNode node : AcPlcyNode) : Bool := acKeyEq delNode node

/-- Whether `AcGetCnt` stops at `node`. -/
def acCounts (searchNode node : AcPlcyNode) : Bool :=
  acKeyEq searchNode node ∧ node.Type_ = searchNode.Type_

def acExistNode (l : List AcPlcyNode) (newNode : AcPlcyNode) : Option AcPlcyNode :=
  l.find? (acExists newNode)

def acAddNode (t : AcTable) (p : Ppe) (newNode : AcPlcyNode) (mem : Bool) :
    PolicyResult × AcTable × Ppe :=
  if (acExistNode t.list newNode).isSome then (.success, t, p)
  else if ¬ mem then (.fail, t, p)
  else
    let t := t.insert fun g => { newNode with AgIdx := BitVec.ofInt 8 g }
    (.success, t, syncAcTbl cfg t.list p)

def acDelNode (t : AcTable) (p : Ppe) (delNode : AcPlcyNode) : PolicyResult × AcTable × Ppe :=
  match t.remove (acDeletes delNode) (·.AgIdx.toNat) with
  | none => (.fail, t, p)
  | some t => (.success, t, syncAcTbl cfg t.list p)

def acCleanTbl (t : AcTable) (p : Ppe) : PolicyResult × AcTable × Ppe :=
  (.success, t.clean, ppeSetPostAcEbl cfg (ppeSetPreAcEbl cfg p false) false)

inductive AcCntType where
  | byteCnt
  | pktCnt
  deriving DecidableEq

/-- The counters at `AC_BASE`: the word at an offset. -/
abbrev Counters := Nat → BitVec 32

def acGetCnt (l : List AcPlcyNode) (cnt : Counters) (searchNode : AcPlcyNode) (type : AcCntType) :
    BitVec 32 :=
  match l.find? (acCounts searchNode) with
  | none => 0
  | some node =>
    match type with
    | .byteCnt => cnt (node.AgIdx.toNat * 8)
    | .pktCnt => cnt (node.AgIdx.toNat * 8 + 4)

end Ac

inductive MtrRuleType where
  | macGroup
  | ipGroup
  | syn
  | fin
  | protocolUdp
  | protocolIcmp
  deriving DecidableEq

inductive MtrType where
  | preMtr
  | postMtr
  deriving DecidableEq

/-- `mtr_info`: the rate, by bytes or by packets. -/
inductive MtrInfo where
  | byteBase (maxBkSize : BitVec 2) (tokenRate : BitVec 14)
  | pktBase (maxBkSize : BitVec 7) (mtrIntval : BitVec 3)
  deriving DecidableEq

structure MtrPlcyNode where
  Type_ : MtrType
  RuleType : MtrRuleType
  Mac : Mac := zeroMac
  IpS : BitVec 32 := 0
  IpE : BitVec 32 := 0
  MgNum : BitVec 32 := 0
  info : MtrInfo := .byteBase 0 0
  deriving DecidableEq

def MtrType.engine : MtrType → Engine
  | .preMtr => .preMtr
  | .postMtr => .postMtr

abbrev MtrTable := GroupTable MtrPlcyNode

section Mtr

variable (cfg : Build) (node : MtrPlcyNode) (p : Ppe)

def mtrCom : CommonField := ⟨.mtr true (node.MgNum.setWidth 6), true, PN_DONT_CARE⟩

/-- The word for the meter; its lowest bit is the mode. -/
def ppeInsMtrTbl : Ppe :=
  let mtrEntry : BitVec 32 :=
    match node.info with
    | .byteBase maxBkSize tokenRate => tokenRate.setWidth 32 <<< 3 ||| maxBkSize.setWidth 32 <<< 1
    | .pktBase maxBkSize intval => intval.setWidth 32 <<< 8 ||| maxBkSize.setWidth 32 <<< 1 ||| 1
  { p with meterTbl := Function.update p.meterTbl (node.MgNum * 4) mtrEntry }

def mtrInsMac : Ppe :=
  ppeInsMtrTbl node <|
    match node.Type_ with
    | .preMtr => p.insEntry .preMtr (.l2Mac (mtrCom node) .smac node.Mac)
    | .postMtr => p.insEntry .postMtr (.l2Mac (mtrCom node) .dmac node.Mac)

def mtrInsIp : Ppe :=
  let (m, e) := calIpRange node.IpS node.IpE
  ppeInsMtrTbl node <|
    match node.Type_ with
    | .preMtr => p.insEntry .preMtr (.l3Ip (mtrCom node) .sip node.IpS m e)
    | .postMtr => p.insEntry .postMtr (.l3Ip (mtrCom node) .dip node.IpS m e)

/-- `MtrInsSYN`, `MtrInsFIN` and `MtrInsProtocol`: an entry for the engine before routing
only. -/
def mtrInsL4 (type : L4Type) : Ppe :=
  ppeInsMtrTbl node <|
    match node.Type_ with
    | .preMtr => p.insEntry .preMtr (.l4 (mtrCom node) .dontCare 0 0 type)
    | .postMtr => p

def mtrInsSYN : Ppe := mtrInsL4 node p (.tcp .inSet TCP_SYN 0)
def mtrInsFIN : Ppe := mtrInsL4 node p (.tcp .inSet TCP_FIN 0)

def mtrInsProtocol : Ppe :=
  mtrInsL4 node p (.ipProt (if node.RuleType = .protocolUdp then 0x11
    else if node.RuleType = .protocolIcmp then 1 else 0))

def mtrIns : Ppe :=
  match node.RuleType with
  | .macGroup => mtrInsMac node p
  | .ipGroup => mtrInsIp node p
  | .syn => mtrInsSYN node p
  | .fin => mtrInsFIN node p
  | .protocolUdp | .protocolIcmp => mtrInsProtocol node p

def syncMtrTbl (l : List MtrPlcyNode) (p : Ppe) : Ppe :=
  let p := ppeSetPreMtrEbl cfg p false
  let p := ppeSetPostMtrEbl cfg p false
  let p := l.foldl (fun p node => mtrIns node p) p
  let preRuleFound := l.any (·.Type_ = .preMtr)
  let postRuleFound := l.any (·.Type_ = .postMtr)
  if preRuleFound then ppeSetPreMtrEbl cfg p true
  else if postRuleFound then ppeSetPostMtrEbl cfg p true
  else p

/-- Whether `MtrExistNode` stops at `node`. -/
def mtrExists (newNode node : MtrPlcyNode) : Bool :=
  match newNode.RuleType with
  | .macGroup => node.Mac = newNode.Mac ∧ node.Type_ = newNode.Type_
  | .ipGroup => node.IpS = newNode.IpS ∧ node.IpE = newNode.IpE ∧ node.Type_ = newNode.Type_
  | .syn => node.RuleType = .syn
  | .fin => node.RuleType = .fin
  | .protocolUdp => node.RuleType = .protocolUdp
  | .protocolIcmp => node.RuleType = .protocolIcmp

/-- Whether `MtrDelNode` stops at `node`. -/
def mtrDeletes (delNode node : MtrPlcyNode) : Bool :=
  match delNode.RuleType with
  | .macGroup => node.Mac = delNode.Mac
  | .ipGroup => node.IpS = delNode.IpS ∧ node.IpE = delNode.IpE
  | .syn => node.RuleType = .syn
  | .fin => node.RuleType = .fin
  | .protocolUdp => node.RuleType = .protocolUdp
  | .protocolIcmp => node.RuleType = .protocolIcmp

def mtrExistNode (l : List MtrPlcyNode) (newNode : MtrPlcyNode) : Option MtrPlcyNode :=
  l.find? (mtrExists newNode)

/-- A rule that is there already gets the new rate. -/
def mtrSetInfo (l : List MtrPlcyNode) (newNode : MtrPlcyNode) : List MtrPlcyNode :=
  l.replaceF fun node =>
    if mtrExists newNode node then some { node with info := newNode.info } else none

def mtrAddNode (t : MtrTable) (p : Ppe) (newNode : MtrPlcyNode) (mem : Bool) :
    PolicyResult × MtrTable × Ppe :=
  if (mtrExistNode t.list newNode).isSome then
    let t := { t with list := mtrSetInfo t.list newNode }
    (.success, t, syncMtrTbl cfg t.list p)
  else if ¬ mem then (.fail, t, p)
  else
    let t := t.insert fun g => { newNode with MgNum := BitVec.ofInt 32 g }
    (.success, t, syncMtrTbl cfg t.list p)

def mtrDelNode (t : MtrTable) (p : Ppe) (delNode : MtrPlcyNode) : PolicyResult × MtrTable × Ppe :=
  match t.remove (mtrDeletes delNode) (·.MgNum.toNat) with
  | none => (.fail, t, p)
  | some t => (.success, t, syncMtrTbl cfg t.list p)

def mtrCleanTbl (t : MtrTable) (p : Ppe) : PolicyResult × MtrTable × Ppe :=
  (.success, t.clean, ppeSetPostMtrEbl cfg (ppeSetPreMtrEbl cfg p false) false)

end Mtr
end Ralink.HwNat

/-! The three lists with the hardware they share, the nine calls that change them, and the state
that loading the module leaves. -/
namespace Ralink.HwNat

structure Driver where
  ppe : Ppe
  acl : List AclPlcyNode := []
  ac : AcTable := {}
  mtr : MtrTable := {}

/-- The calls of the policy files. `mem` tells whether `kmalloc` succeeds. -/
inductive Call where
  | aclAddNode (node : AclPlcyNode) (mem : Bool)
  | aclDelNode (node : AclPlcyNode)
  | aclCleanTbl
  | acAddNode (node : AcPlcyNode) (mem : Bool)
  | acDelNode (node : AcPlcyNode)
  | acCleanTbl
  | mtrAddNode (node : MtrPlcyNode) (mem : Bool)
  | mtrDelNode (node : MtrPlcyNode)
  | mtrCleanTbl

namespace Driver

variable (cfg : Build) (s : Driver)

def withAcl (r : PolicyResult × List AclPlcyNode × Ppe) : PolicyResult × Driver :=
  (r.1, { s with acl := r.2.1, ppe := r.2.2 })

def withAc (r : PolicyResult × AcTable × Ppe) : PolicyResult × Driver :=
  (r.1, { s with ac := r.2.1, ppe := r.2.2 })

def withMtr (r : PolicyResult × MtrTable × Ppe) : PolicyResult × Driver :=
  (r.1, { s with mtr := r.2.1, ppe := r.2.2 })

/-- What a call returns, and the state after it. -/
def call : Call → PolicyResult × Driver
  | .aclAddNode node mem => s.withAcl (aclAddNode cfg s.acl s.ppe node mem)
  | .aclDelNode node => s.withAcl (aclDelNode cfg s.acl s.ppe node)
  | .aclCleanTbl => s.withAcl (aclCleanTbl cfg s.ppe)
  | .acAddNode node mem => s.withAc (acAddNode cfg s.ac s.ppe node mem)
  | .acDelNode node => s.withAc (acDelNode cfg s.ac s.ppe node)
  | .acCleanTbl => s.withAc (acCleanTbl cfg s.ac s.ppe)
  | .mtrAddNode node mem => s.withMtr (mtrAddNode cfg s.mtr s.ppe node mem)
  | .mtrDelNode node => s.withMtr (mtrDelNode cfg s.mtr s.ppe node)
  | .mtrCleanTbl => s.withMtr (mtrCleanTbl cfg s.mtr s.ppe)

def step (c : Call) : Driver := (s.call cfg c).2

end Driver

/-- `PpeEngStart` turns the five engines off. -/
def ppeEngStart (cfg : Build) (p : Ppe) : Ppe :=
  let p := ppeSetPreAclEbl cfg p false
  let p := ppeSetPreMtrEbl cfg p false
  let p := ppeSetPostMtrEbl cfg p false
  let p := ppeSetPreAcEbl cfg p false
  ppeSetPostAcEbl cfg p false

/-- The sizes of the five parts of the policy table. -/
structure RuleSizes where
  preAcl : BitVec 16
  preMtr : BitVec 16
  preAc : BitVec 16
  postMtr : BitVec 16
  postAc : BitVec 16

/-- The defaults of the configuration; their sum is the last index of the table. -/
def kconfigSizes : RuleSizes := ⟨383, 32, 32, 32, 32⟩

def Ppe.zero : Ppe := ⟨fun _ => 0, fun _ => none, fun _ => 0, fun _ => 0⟩

def ppeInitMod (cfg : Build) (sizes : RuleSizes) (p : Ppe) : Driver where
  ppe := ppeEngStart cfg
    (p.ppeSetRuleSize sizes.preAcl sizes.preMtr sizes.preAc sizes.postMtr sizes.postAc)

end Ralink.HwNat
