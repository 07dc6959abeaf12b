import Ralink.Lib.BitReg

/-! The data of `policy.h`: the hardware rules that the ACL, the accounting and the metering engines
share, and the options of the build that the driver looks at. -/
namespace Ralink.HwNat

/-- `ipv6` is `CONFIG_RA_HW_NAT_IPV6`, `rt6855` is `CONFIG_RALINK_RT6855` or
`CONFIG_RALINK_RT6855A`. -/
structure Build where
  ipv6 : Bool
  rt6855 : Bool
  deriving DecidableEq

/-- The engines that a part of the policy table belongs to, in the order of the parts. -/
inductive Engine where
  | preAcl
  | preMtr
  | preAc
  | postMtr
  | postAc
  deriving DecidableEq

abbrev Mac := Vector UInt8 6

def zeroMac : Mac := Vector.replicate 6 0

/-- `MacReverse` exchanges the bytes `i` and `5 - i`. -/
def macReverse (mac : Mac) : Mac := mac.reverse

@[simp] theorem macReverse_inj (mac mac' : Mac) : macReverse mac = macReverse mac' ↔ mac = mac' := by
  constructor
  · intro h
    simpa [macReverse] using congrArg Vector.reverse h
  · rintro rfl
    rfl

inductive L2RuleDir where
  | others
  | dmac
  | smac
  | sdmac
  deriving DecidableEq

inductive L3RuleDir where
  | ipQos
  | dip
  | sip
  | sdip
  deriving DecidableEq

inductive L4RuleDir where
  | dontCare
  | dport
  | sport
  | sdport
  deriving DecidableEq

inductive TcpFlagOp where
  | equal
  | notEqual
  | inSet
  | notInSet
  deriving DecidableEq

inductive FpnType where
  | cpu
  | ge1
  | ge2
  | frcPriOnly
  | allow
  | drop
  deriving DecidableEq

def PN_DONT_CARE : BitVec 3 := 7

def TCP_FIN : BitVec 6 := 1
def TCP_SYN : BitVec 6 := 2

/-- The first byte of an entry. Only in the first form is its bit `ee` zero. -/
inductive EntryEnd where
  | next
  | mtr (dop : Bool) (mg : BitVec 6)
  | ac (ag : BitVec 6)
  | fpp (fpn : FpnType) (up : BitVec 3)
  | foe (foeTb : BitVec 6)
  deriving DecidableEq

def EntryEnd.ee : EntryEnd → Bool
  | .next => false
  | _ => true

structure CommonField where
  last : EntryEnd
  equal : Bool
  pn : BitVec 3
  deriving DecidableEq

/-- What a rule of direction `OTHERS` compares: `v` the VLAN, `s` the special tag and `e` the
Ethernet type, the last two held in `etypPprot`. -/
structure L2Others where
  v : Bool := false
  s : Bool := false
  e : Bool := false
  vid : BitVec 12 := 0
  etypPprot : BitVec 16 := 0
  deriving DecidableEq

/-- The last two bytes of a rule for layer 4, by the type in `tu`. -/
inductive L4Type where
  | ipProt (prot : BitVec 8)
  | udp
  | tcp (fop : TcpFlagOp) (f fm : BitVec 6)
  | tcpUdp (fop : TcpFlagOp) (f fm : BitVec 6)
  deriving DecidableEq

/-- An entry of the policy table. -/
inductive Rule where
  | l2Mac (com : CommonField) (dir : L2RuleDir) (mac : Mac)
  | l2Others (com : CommonField) (others : L2Others)
  | l3Ip (com : CommonField) (dir : L3RuleDir) (ip : BitVec 32) (rngM : BitVec 8) (rngE : BitVec 5)
  | l3Qos (com : CommonField) (tosS tosE : BitVec 8)
  | l4 (com : CommonField) (dir : L4RuleDir) (pStart pEnd : BitVec 16) (type : L4Type)
  deriving DecidableEq

def Rule.com : Rule → CommonField
  | .l2Mac com _ _ | .l2Others com _ | .l3Ip com _ _ _ _ | .l3Qos com _ _ | .l4 com _ _ _ _ => com

/-- The lowest bit of `range` from `i` on; 32 when there is none. -/
def lowestBit (range : BitVec 32) (i : Nat) : Nat → Nat
  | 0 => i
  | fuel + 1 => if range.getLsbD i then i else lowestBit range (i + 1) fuel

/-- The range of addresses as mantissa and exponent. -/
def calIpRange (startIp endIp : BitVec 32) : BitVec 8 × BitVec 5 :=
  let range := endIp + 1 - startIp
  let i := lowestBit range 0 32
  if i ≠ 32 then ((range >>> i).setWidth 8, BitVec.ofNat 5 i) else (0, 0)

example : calIpRange 0x0A000100 0x0A0001FF = (1, 8) := by decide

end Ralink.HwNat

/-! The registers of the packet processing engine that the policy code writes: the flags of
`PPE_FLOW_SET`, the register of each engine that holds where its rules start and end in the policy
table, and the table itself. -/
namespace Ralink.HwNat
open BitReg Function

inductive Reg where
  | flowSet
  | polCfg
  | part (e : Engine)
  deriving DecidableEq

/-- The hardware, and the five variables `pre_acl_start_addr` to `post_ac_start_addr`. -/
structure Ppe where
  reg : Reg → BitVec 32
  policyTbl : Nat → Option Rule
  meterTbl : BitVec 32 → BitVec 32
  startAddr : Engine → BitVec 16

namespace Ppe

def regRead (p : Ppe) (r : Reg) : BitVec 32 := p.reg r

def regWrite (p : Ppe) (r : Reg) (v : BitVec 32) : Ppe := { p with reg := update p.reg r v }

def regModifyBits (p : Ppe) (r : Reg) (data : BitVec 32) (off len : Nat) : Ppe :=
  p.regWrite r (modifyBits (p.regRead r) data off len)

/-- `PpeGetPreAclStr` and its likes. -/
def getStr (p : Ppe) (e : Engine) : BitVec 9 := field (p.regRead (.part e)) 0 9

/-- `PpeGetPreAclEnd` and its likes. -/
def getEnd (p : Ppe) (e : Engine) : BitVec 9 := field (p.regRead (.part e)) 16 9

/-- `PpeSetPreAclEnd` and its likes. -/
def setEnd (p : Ppe) (e : Engine) (v : BitVec 32) : Ppe := p.regModifyBits (.part e) v 16 9

/-- Both ends of a part put to `addr`. -/
def rstPtr (p : Ppe) (e : Engine) (addr : BitVec 16) : Ppe :=
  (p.regModifyBits (.part e) (addr.setWidth 32) 0 9).regModifyBits (.part e) (addr.setWidth 32) 16 9

def ppeRstPreAclPtr (p : Ppe) : Ppe := p.rstPtr .preAcl 0
def ppeRstPreAcPtr (p : Ppe) : Ppe := p.rstPtr .preAc (p.startAddr .preAc)
def ppeRstPostAcPtr (p : Ppe) : Ppe := p.rstPtr .postAc (p.startAddr .postAc)
def ppeRstPreMtrPtr (p : Ppe) : Ppe := p.rstPtr .preMtr (p.startAddr .preMtr)
def ppeRstPostMtrPtr (p : Ppe) : Ppe := p.rstPtr .postMtr (p.startAddr .postMtr)

def ppeSetRuleSize (p : Ppe) (preAcl preMeter preAc postMeter _postAc : BitVec 16) : Ppe :=
  let p := { p with
    startAddr := fun
      | .preAcl => 0
      | .preMtr => 0 + preAcl
      | .preAc => 0 + preAcl + preMeter
      | .postMtr => 0 + preAcl + preMeter + preAc
      | .postAc => 0 + preAcl + preMeter + preAc + postMeter }
  p.ppeRstPreAclPtr.ppeRstPreMtrPtr.ppeRstPreAcPtr.ppeRstPostMtrPtr.ppeRstPostAcPtr

/-- What `PpeInsAclEntry`, `PpeInsMtrEntry` and `PpeInsAcEntry` do with the part they are
for: the rule goes behind the others. -/
def insEntry (p : Ppe) (e : Engine) (rule : Rule) : Ppe :=
  let index := (p.getEnd e).setWidth 32
  { p with policyTbl := update p.policyTbl index.toNat (some rule) }.setEnd e (index + 1)

def insEntries (p : Ppe) (e : Engine) (rules : List Rule) : Ppe := rules.foldl (·.insEntry e) p

end Ppe

/-- The flags of an engine in `PPE_FLOW_SET`: `BIT_FUC_`, `BIT_FMC_` and `BIT_FBC_`. -/
def flowBits : Engine → BitVec 32
  | .postAc => 1 <<< 16 ||| 1 <<< 8 ||| 1 <<< 0
  | .postMtr => 1 <<< 17 ||| 1 <<< 9 ||| 1 <<< 1
  | .preAc => 1 <<< 19 ||| 1 <<< 11 ||| 1 <<< 3
  | .preMtr => 1 <<< 20 ||| 1 <<< 12 ||| 1 <<< 4
  | .preAcl => 1 <<< 21 ||| 1 <<< 13 ||| 1 <<< 5

def BIT_IPV6_PE_EN : BitVec 32 := 1 <<< 25

/-- The flags that turning an engine on sets and turning it off clears. -/
def eblBits (cfg : Build) (e : Engine) : BitVec 32 :=
  if cfg.ipv6 then flowBits e ||| BIT_IPV6_PE_EN else flowBits e

def DFL_POL_AC_PRD : BitVec 32 := 0xFFFF

variable (cfg : Build) (p : Ppe) (ebl : Bool)

/-- The body of the five functions that turn an engine on or off. The register is read
before `start` or `stop` runs and written after it. -/
def setEbl (e : Engine) (start stop : Ppe → Ppe) : Ppe :=
  let flowSet := p.regRead .flowSet
  if ebl then (start p).regWrite .flowSet (flowSet ||| eblBits cfg e)
  else (stop p).regWrite .flowSet (flowSet &&& ~~~ eblBits cfg e)

def ppeSetPreAclEbl : Ppe := setEbl cfg p ebl .preAcl id Ppe.ppeRstPreAclPtr
def ppeSetPreMtrEbl : Ppe := setEbl cfg p ebl .preMtr id Ppe.ppeRstPreMtrPtr
def ppeSetPostMtrEbl : Ppe := setEbl cfg p ebl .postMtr id Ppe.ppeRstPostMtrPtr

/-- The accounting engines have a period and a flag of their own in `PPE_POL_CFG`. -/
def polCfg (p : Ppe) (prd : BitVec 32) (flag : BitVec 32) (bit : Nat) : Ppe :=
  (p.regModifyBits .polCfg prd 16 16).regModifyBits .polCfg flag bit 1

def ppeSetPreAcEbl : Ppe :=
  setEbl cfg p ebl .preAc (polCfg · DFL_POL_AC_PRD 1 13) fun p => (polCfg p 0 0 13).ppeRstPreAcPtr

def ppeSetPostAcEbl : Ppe :=
  setEbl cfg p ebl .postAc (polCfg · DFL_POL_AC_PRD 1 12) fun p => (polCfg p 0 0 12).ppeRstPostAcPtr

end Ralink.HwNat
