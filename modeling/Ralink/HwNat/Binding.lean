import Ralink.HwNat.ForcePort
import Ralink.HwNat.Tunnel

/-! `PpeTxHandler` fills the entry of a flow from a packet that is to be sent, and binds it when
nothing refuses. The entry is filled in place, and what was written before a refusal stays. -/
namespace Ralink.HwNat
open Function

def be16At (l : List UInt8) (i : Nat) : Nat := (l.getD i 0).toNat * 256 + (l.getD (i + 1) 0).toNat

def be32At (l : List UInt8) (i : Nat) : Nat := be16At l i * 65536 + be16At l (i + 2)

theorem noOptions_whole : ([] : List (BitVec 32)).length + 5 = (5 : BitVec 4).toNat := rfl

namespace PktParseResult

variable (r : PktParseResult)

def saddr : Nat := be32At r.iph 12
def daddr : Nat := be32At r.iph 16
def tos : Nat := (r.iph.getD 1 0).toNat
def ttl : Nat := (r.iph.getD 8 0).toNat
def protocol : UInt8 := r.iph.getD 9 0

/-- `ntohs(frag_off) >> 13`. -/
def fragFlag : Nat := be16At r.iph 6 >>> 13

/-- The header without the options, which are not copied. -/
def iphdr : IpHdr where
  version := BitVec.ofNat 4 ((r.iph.getD 0 0).toNat / 16)
  ihl := 5
  tos := BitVec.ofNat 8 r.tos
  tot_len := htons (BitVec.ofNat 16 (be16At r.iph 2))
  id := htons (BitVec.ofNat 16 (be16At r.iph 4))
  frag_off := htons (BitVec.ofNat 16 (be16At r.iph 6))
  ttl := BitVec.ofNat 8 r.ttl
  protocol := BitVec.ofNat 8 r.protocol.toNat
  check := htons (BitVec.ofNat 16 (be16At r.iph 10))
  saddr := htonl (BitVec.ofNat 32 r.saddr)
  daddr := htonl (BitVec.ofNat 32 r.daddr)
  options := []
  whole := noOptions_whole

def priority : Nat := (r.ip6h.getD 0 0).toNat % 16
def hop_limit : Nat := (r.ip6h.getD 7 0).toNat

/-- The three bytes of `flow_lbl` as they are copied into a word. -/
def flow_lbl : Nat :=
  (r.ip6h.getD 1 0).toNat + (r.ip6h.getD 2 0).toNat * 256 + (r.ip6h.getD 3 0).toNat * 65536

/-- `priority << 4 | (flow_lbl[0] >> 4)`. -/
def trafficClass : Nat := r.priority <<< 4 ||| (r.ip6h.getD 1 0).toNat >>> 4

/-- The words of the two addresses of IPv6, which follow each other: the first is `addr6 0`. -/
def addr6 (i : Nat) : Nat := be32At r.ip6h (8 + 4 * i)

def isIpv4 : Bool := r.pkt_type = .IPV4_HNAT || r.pkt_type = .IPV4_HNAPT

def isRoute : Bool := r.pkt_type = .IPV6_3T_ROUTE || r.pkt_type = .IPV6_5T_ROUTE

/-- The packet is sent inside of a packet of the other version. -/
def isTunnel : Bool := r.pkt_type = .IPV6_6RD || r.pkt_type = .IPV4_DSLITE

def overIpv4 : Bool := r.eth_type = ETH_P_IP || (r.eth_type = ETH_P_PPP_SES && r.ppp_tag = PPP_IP)

def overIpv6 : Bool :=
  r.eth_type = ETH_P_IPV6 || (r.eth_type = ETH_P_PPP_SES && r.ppp_tag = PPP_IPV6)

end PktParseResult

/-- `enum VlanAction`. -/
def VLAN_INSERT : Nat := 2
def VLAN_DELETE : Nat := 3

/-- `enum FoeTblTcpUdp`. -/
def FOE_TCP : Nat := 0
def FOE_UDP : Nat := 1

def DFL_FOE_TTL_REGEN : Nat := 1

def wordField (w : Nat) : BitField := ⟨w, 0, 32⟩

/-- The registers that are read, the one of RT3052 through `rw_rf_reg`. -/
structure TxRegs where
  chip_rev : Nat
  phy_val : Nat
  foe_ts : Nat

section FillIn

variable (cfg : TxBuild) (r : PktParseResult) (e : FoeWords)

/-- The two parts of an address are not continuous. -/
def FoeSetMacInfo (word : Nat) (mac : List UInt8) : List (BitField × Nat) :=
  if cfg.hnatV2 then [(wordField word, be32At mac 0), (⟨word + 1, 16, 16⟩, be16At mac 4)]
  else [(⟨word, 0, 16⟩, be16At mac 0), (wordField (word + 1), be32At mac 2)]

/-- From `vlan1` on: it is in word 11 of `ipv4_hnapt` and in word 15 of the other structures. -/
def layer2At (word : Nat) : List (BitField × Nat) :=
  FoeSetMacInfo cfg (word + 1) r.dmac ++ FoeSetMacInfo cfg (word + 3) r.smac ++
    [(⟨word, 0, 16⟩, r.vlan1), (⟨word + 4, 0, 16⟩, r.pppoe_sid), (⟨word + 2, 0, 16⟩, r.vlan2),
      (⟨word, 16, 16⟩, r.vlan_tag), (vlanLayerField, r.vlan_layer),
      (psnField, if r.pppoe_gap ≠ 0 then 1 else 0), (dvpField, 1)]

/-- The one structure without `CONFIG_HNAT_V2`. -/
def layer2V1 : List (BitField × Nat) :=
  FoeSetMacInfo cfg 8 r.dmac ++ FoeSetMacInfo cfg 10 r.smac ++
    [(⟨8, 16, 16⟩, r.vlan1), (⟨10, 16, 16⟩, r.pppoe_sid), (⟨13, 0, 16⟩, r.vlan2),
      (v1Field, if r.vlan1_gap ≠ 0 then VLAN_INSERT else VLAN_DELETE),
      (v2Field, if r.vlan2_gap ≠ 0 then VLAN_INSERT else VLAN_DELETE),
      (pppoeField, if r.pppoe_gap ≠ 0 then VLAN_INSERT else VLAN_DELETE)]

/-- The entry as it is left when 0 is returned, or, as an error, when 1 is. -/
def PpeFillInL2Info : Except FoeWords FoeWords :=
  if stateField.get e = STATE_BIND then .error e
  else if cfg.hnatV2 then
    if r.isIpv4 ∧ ¬ hasType cfg e .IPV4_DSLITE then .ok (assign (layer2At cfg r 11) e)
    else if cfg.ipv6 then .ok (assign (layer2At cfg r 15) e)
    else .error e
  else .ok (assign (layer2V1 cfg r) e)

/-- The inner header of a packet that came through a tunnel: the outer one is to be removed. -/
def untunnel (dscp : Nat) : List (BitField × Nat) :=
  [(drmField, 1), (rmtField, 1), (dscpField 14, dscp)]

def sixRdHeader : List (BitField × Nat) :=
  [(wordField 10, r.saddr), (wordField 11, r.daddr), (⟨12, 0, 16⟩, (PpeGetChkBase r.iphdr).toNat),
    (⟨13, 0, 3⟩, r.fragFlag), (⟨12, 24, 8⟩, r.ttl), (⟨12, 16, 8⟩, r.tos)]

def layer3Ipv4 : List (BitField × Nat) :=
  if r.isIpv4 then
    if hasType cfg e .IPV4_DSLITE then
      if cfg.hnatV2 ∧ cfg.ipv6 then untunnel r.tos else []
    else
      (if cfg.hnatV2 then [(drmField, 1)] else []) ++
        [(wordField 5, r.saddr), (wordField 6, r.daddr), (dscpField 4, r.tos)]
  else if cfg.hnatV2 ∧ cfg.ipv6 ∧ r.pkt_type = .IPV6_6RD then
    sixRdHeader r ++ [(pktTypeField cfg, FoeIPAct.IPV6_6RD.code)]
  else []

def addrs6At (word : Nat) : List (BitField × Nat) :=
  [0, 1, 2, 3, 4, 5, 6, 7].map fun i => (wordField (word + i), r.addr6 i)

def dsLiteHeader : List (BitField × Nat) :=
  addrs6At r 4 ++ [(⟨12, 0, 24⟩, r.flow_lbl), (⟨12, 24, 4⟩, r.priority), (⟨13, 0, 8⟩, r.hop_limit)]

def layer3Ipv6 : List (BitField × Nat) :=
  if cfg.hnatV2 then
    if r.isRoute then
      if hasType cfg e .IPV6_6RD then untunnel r.trafficClass
      else (drmField, 1) :: addrs6At r 1 ++ [(dscpField 14, r.trafficClass)]
    else if r.pkt_type = .IPV4_DSLITE then
      dsLiteHeader r ++ [(pktTypeField cfg, FoeIPAct.IPV4_DSLITE.code)]
    else []
  else []

def PpeFillInL3Info : Except FoeWords FoeWords :=
  if r.overIpv4 then .ok (assign (layer3Ipv4 cfg r e) e)
  else if cfg.ipv6 ∧ r.overIpv6 then .ok (assign (layer3Ipv6 cfg r e) e)
  else .error e

/-- The revisions of the chips that send UDP flows through the engine. -/
def udpAllowed (regs : TxRegs) : Bool :=
  if cfg.chip = .RT6855A then true
  else if cfg.chip = .RT3352 then ! decide (regs.chip_rev ≤ 0x0104)
  else if cfg.chip = .RT3052 then ! decide (regs.phy_val &&& 0xFF ≤ 0x53)
  else false

def layer4Ports (l4 : List UInt8) (udp : Nat) : List (BitField × Nat) :=
  [(⟨7, 16, 16⟩, be16At l4 0), (⟨7, 0, 16⟩, be16At l4 2), (udpField, udp)]

def PpeFillInL4Info (regs : TxRegs) : Except FoeWords FoeWords :=
  if r.pkt_type = .IPV4_HNAPT then
    if cfg.hnatV2 ∧ hasType cfg e .IPV4_DSLITE then .ok e
    else if r.protocol = PROTO_TCP then .ok (assign (layer4Ports r.th FOE_TCP) e)
    else if r.protocol = PROTO_UDP then
      if udpAllowed cfg regs then .ok (assign (layer4Ports r.uh FOE_UDP) e)
      else .error (assign (layer4Ports r.uh FOE_UDP) e)
    else .ok e
  else .ok e

end FillIn

def DP_WDSI0 : Nat := 49

/-- The kinds of one driver's interfaces: which there are besides the first, and their ports. -/
structure IfPorts where
  mesh : Option Nat
  apcli : Option Nat
  wds : Option Nat
  first : Nat

/-- The bounds are those of `rt_linux.h`, and `cb` is a signed character. -/
def IfPorts.offset (p : IfPorts) (cb : BitVec 8) : Nat :=
  let num (min : Int) (port : Nat) : Nat := (BitVec.ofInt 32 (cb.toInt - min + port)).toNat
  if 0x30 ≤ cb.toInt ∧ p.mesh.isSome then num 0x30 (p.mesh.getD 0)
  else if 0x20 ≤ cb.toInt ∧ p.apcli.isSome then num 0x20 (p.apcli.getD 0)
  else if 0x10 ≤ cb.toInt ∧ p.wds.isSome then num 0x10 (p.wds.getD 0)
  else num 0 p.first

def startsWith (n : Nat) (digit : Char) : Bool := (Nat.toDigits 10 n).head? = some digit

section ExtIfNum

theorem raPorts_pos : 0 < 16 := by decide

theorem wdsPorts_pos : 0 < 4 := by decide

variable (cfg : TxBuild)

def raIfs : IfPorts where
  mesh := if cfg.ext.mesh then some DP_MESH0 else none
  apcli := if cfg.ext.apcli then some DP_APCLI0 else none
  wds := if cfg.ext.wds then some (DP_WDS ⟨0, wdsPorts_pos⟩) else none
  first := DP_RA ⟨0, raPorts_pos⟩

def raiIfs : IfPorts where
  mesh := if cfg.ext.rtdevMesh then some DP_MESHI0 else none
  apcli := if cfg.ext.rtdevApcli then some DP_APCLII0 else none
  wds := if cfg.rtdevWds then some DP_WDSI0 else none
  first := DP_RAI ⟨0, raPorts_pos⟩

/-- The port of an interface, unless it is unknown. -/
def extIfOffset (cb : BitVec 8) : NetDev → Option Nat
  | .rai _ => some (if cfg.ext.rtdev then (raiIfs cfg).offset cb else (raIfs cfg).offset cb)
  | .ra _ => some ((raIfs cfg).offset cb)
  | .eth n =>
    if cfg.ext.hwNatPci ∧ startsWith n '0' then some DP_PCI
    else if startsWith n '2' then some DP_GMAC
    else if cfg.gmac2 ∧ startsWith n '3' then some DP_GMAC2
    else none
  | _ => none

/-- `act_dp` of an IPv4 entry and of an IPv6 entry. -/
def actDpField : BitField := if cfg.hnatV2 then ⟨10, 26, 6⟩ else ⟨12, 24, 6⟩
def actDpField6 : BitField := ⟨13, 26, 6⟩

def PpeSetExtIfNum (dev : NetDev) (cb : BitVec 8) (e : FoeWords) : Except FoeWords FoeWords :=
  if cfg.ext.hwNatWifi ∨ cfg.ext.hwNatPci then
    match extIfOffset cfg cb dev with
    | none => .error e
    | some offset =>
      if IS_IPV4_GRP cfg e then .ok ((actDpField cfg).set offset e)
      else if cfg.hnatV2 ∧ cfg.ipv6 then
        if hasType cfg e .IPV4_DSLITE || hasType cfg e .IPV6_3T_ROUTE || hasType cfg e .IPV6_5T_ROUTE ||
            hasType cfg e .IPV6_6RD then .ok (actDpField6.set offset e)
        else .error e
      else .ok e
  else .ok e

/-- `sp` is the priority of the user. -/
def PpeSetEntryBind (regs : TxRegs) (sp : Nat) (e : FoeWords) : FoeWords :=
  let e := assign ([(timeStampField cfg, regs.foe_ts &&& 0xFFFF), (ttlField, DFL_FOE_TTL_REGEN)] ++
    (if cfg.hnatV2 then [(cahField, 1)] else []) ++
    (if cfg.acl2Up then [(upField, sp), (fpField, 1)] else [])) e
  if cfg.preBind then prebField.set 1 e else stateField.set STATE_BIND e

end ExtIfNum

/-- What is known of the flow of a packet: why it came to the CPU, and its entry. -/
structure FoeInfo where
  MAGIC_TAG : Nat
  AI : Nat
  ALG : Nat
  SP : Nat
  FOE_Entry : Nat
  deriving DecidableEq

/-- `memset(FOE_INFO_START_ADDR(skb), 0, FOE_INFO_LEN)`. -/
def FoeInfo.cleared : FoeInfo := ⟨0, 0, 0, 0, 0⟩

def FOE_MAGIC_PCI : Nat := 0x7273
def FOE_MAGIC_WLAN : Nat := 0x7274
def FOE_MAGIC_GE : Nat := 0x7275
def HIT_BIND_KEEPALIVE_MC_NEW_HDR : Nat := 0x14
def HIT_BIND_KEEPALIVE_DUP_OLD_HDR : Nat := 0x15
def HIT_BIND_KEEPALIVE : Nat := 0x98
def HIT_PRE_BIND : Nat := 0x1A

def TxBuild.HIT_UNBIND_RATE_REACH (cfg : TxBuild) : Nat := if cfg.hnatV2 then 0x0F else 0x95

def TxBuild.DFL_FOE_KA (cfg : TxBuild) : Nat := if cfg.hnatV2 then 3 else 0

/-- A packet for the handler; `cb` is the number of its interface in the control block. -/
structure TxPkt where
  skb : TxSkb
  dev : NetDev
  cb : BitVec 8
  info : FoeInfo

abbrev FoeTable := Nat → FoeWords

structure TxDone where
  ret : Nat
  info : FoeInfo
  table : FoeTable

section Handler

variable (cfg : TxBuild) (v : HnatVars) (regs : TxRegs) (pkt : TxPkt) (gmac_no : Nat)

def FoeInfo.isMagicTagValid (info : FoeInfo) : Bool :=
  info.MAGIC_TAG = FOE_MAGIC_PCI || info.MAGIC_TAG = FOE_MAGIC_GE || info.MAGIC_TAG = FOE_MAGIC_WLAN

/-- The flow is fast enough, and no ALG is interested in it. -/
def asksForBind : Bool :=
  pkt.info.isMagicTagValid && pkt.info.AI = cfg.HIT_UNBIND_RATE_REACH && pkt.info.ALG = 0

/-- A copy of a packet that was sent, which the hardware made to keep the flow alive. -/
def isKeepAliveCopy : Bool :=
  pkt.info.isMagicTagValid &&
    if cfg.hnatV2 then
      pkt.info.AI = HIT_BIND_KEEPALIVE_MC_NEW_HDR || pkt.info.AI = HIT_BIND_KEEPALIVE_DUP_OLD_HDR
    else pkt.info.AI = HIT_BIND_KEEPALIVE && cfg.DFL_FOE_KA = 0

/-- The five functions, of which each may refuse. -/
def fillEntry (r : PktParseResult) (e : FoeWords) : Except FoeWords FoeWords := do
  let e ← PpeFillInL2Info cfg r e
  let e ← PpeFillInL3Info cfg r e
  let e ← PpeFillInL4Info cfg r e regs
  let e ← PpeSetForcePortInfo cfg v pkt.dev r gmac_no e
  PpeSetExtIfNum cfg pkt.dev pkt.cb e

def PpeTxHandler (table : FoeTable) : TxDone :=
  let n := pkt.info.FOE_Entry
  if asksForBind cfg pkt then
    match PpeParseLayerInfo cfg pkt.skb with
    | none => ⟨1, .cleared, table⟩
    | some r =>
      match fillEntry cfg v regs pkt gmac_no r (table n) with
      | .error e => ⟨1, .cleared, update table n e⟩
      | .ok e => ⟨1, pkt.info, update table n (PpeSetEntryBind cfg regs pkt.info.SP e)⟩
  else if isKeepAliveCopy cfg pkt then ⟨0, .cleared, table⟩
  else if pkt.info.isMagicTagValid ∧ pkt.info.AI = cfg.HIT_UNBIND_RATE_REACH ∧ pkt.info.ALG = 1 then
    ⟨1, pkt.info, table⟩
  else if cfg.chip = .MT7621 ∧ pkt.info.AI = HIT_PRE_BIND then
    ⟨1, pkt.info, update table n (stateField.set STATE_BIND (prebField.set 0 (table n)))⟩
  else ⟨1, pkt.info, table⟩

end Handler

section Refusal

variable (cfg : TxBuild) (v : HnatVars) (regs : TxRegs) (pkt : TxPkt) (gmac_no : Nat)

/-- All checks are passed, or a flow that was prepared before is bound. -/
def bindsEntry (table : FoeTable) : Bool :=
  if asksForBind cfg pkt then
    match PpeParseLayerInfo cfg pkt.skb with
    | none => false
    | some r => (fillEntry cfg v regs pkt gmac_no r (table pkt.info.FOE_Entry)).toBool
  else cfg.chip = .MT7621 && pkt.info.AI = HIT_PRE_BIND

/-- The words of an entry that packets are matched with: the addresses, and the ports where the type has
them. -/
def keyWords (e : FoeWords) : List Nat :=
  if hasType cfg e .IPV4_HNAPT then [1, 2, 3]
  else if hasType cfg e .IPV4_HNAT then [1, 2]
  else if hasType cfg e .IPV6_1T_ROUTE then [1, 2, 5, 6]
  else if cfg.hnatV2 = false then []
  else if hasType cfg e .IPV4_DSLITE then [1, 2, 3]
  else if hasType cfg e .IPV6_3T_ROUTE then [1, 2, 3, 4, 5, 6, 7, 8]
  else if hasType cfg e .IPV6_5T_ROUTE || hasType cfg e .IPV6_6RD then [1, 2, 3, 4, 5, 6, 7, 8, 9]
  else []

/-- The words that a packet of its kind is filled into, as far as a key can lie there. -/
def filledWords (r : PktParseResult) (e : FoeWords) : List Nat :=
  if r.isIpv4 then if cfg.hnatV2 ∧ hasType cfg e .IPV4_DSLITE then [] else [4, 5, 6, 7]
  else if cfg.hnatV2 = false then []
  else if r.isRoute then if hasType cfg e .IPV6_6RD then [] else [1, 2, 3, 4, 5, 6, 7, 8]
  else if r.pkt_type = .IPV4_DSLITE then [4, 5, 6, 7, 8, 9]
  else []

/-- The state, the type, and what packets are matched with. -/
structure SameFlow (e e' : FoeWords) : Prop where
  state : stateField.get e' = stateField.get e
  pktType : (pktTypeField cfg).get e' = (pktTypeField cfg).get e
  udp : udpField.get e' = udpField.get e
  key : ∀ w ∈ keyWords cfg e, e' w = e w

/-- `iblk2.dp` is written in word 4, as if the entry were one of IPv4. -/
def dpInKey : Bool := cfg.chip = .MT7621 && cpuServed v pkt.dev

/-- What is kept of a flow by a packet that is filled into its entry. The type becomes at most that of
the tunnel and the flag that of the protocol. In the key only the words change that the packet is filled
into, and those of a route get the addresses of the packet. -/
structure KeepsFlow (r : PktParseResult) (e e' : FoeWords) : Prop where
  state : stateField.get e' = stateField.get e
  pktType : (pktTypeField cfg).get e' = (pktTypeField cfg).get e ∨
    r.isTunnel = true ∧ (pktTypeField cfg).get e' = r.pkt_type.code
  udp : udpField.get e' = udpField.get e ∨
    r.pkt_type = .IPV4_HNAPT ∧ udpField.get e' = if r.protocol = PROTO_UDP then FOE_UDP else FOE_TCP
  key : ∀ w ∈ keyWords cfg e, (w = 4 → dpInKey cfg v pkt = false) →
    e' w = e w ∨ w ∈ filledWords cfg r e ∧
      (r.isRoute = true → e' w = BitVec.ofNat 32 (r.addr6 (w - 1)))

end Refusal

def entryLeft : Except FoeWords FoeWords → FoeWords
  | .ok e => e
  | .error e => e

theorem entryLeft_bind {P : FoeWords → Prop} {x : Except FoeWords FoeWords}
    {f : FoeWords → Except FoeWords FoeWords} (hx : P (entryLeft x))
    (hf : ∀ e, P e → P (entryLeft (f e))) : P (entryLeft (x >>= f)) := by
  cases x with
  | error e => exact hx
  | ok e => exact hf e hx

section Steps

variable {cfg : TxBuild} {v : HnatVars} {regs : TxRegs} {pkt : TxPkt} {gmac_no : Nat}
  {r : PktParseResult} {e e₁ e₂ : FoeWords} {ws : List (BitField × Nat)} {b : BitField} {w : Nat}

def headerFields (cfg : TxBuild) : List BitField := [stateField, pktTypeField cfg, udpField]

theorem headerFields_bits (hb : b ∈ headerFields cfg) : b.word = 0 ∧ 25 ≤ b.off := by
  simp only [headerFields, List.mem_cons, List.not_mem_nil, or_false] at hb
  rcases hb with rfl | rfl | rfl
  · exact ⟨rfl, by decide⟩
  · rw [pktTypeField]
    split
    · exact ⟨rfl, by decide⟩
    · exact ⟨rfl, by decide⟩
  · exact ⟨rfl, by decide⟩

def lastKeyWord (cfg : TxBuild) : Nat := if cfg.hnatV2 then 9 else 6

theorem keyWords_range (hw : w ∈ keyWords cfg e) : 1 ≤ w ∧ w ≤ lastKeyWord cfg := by
  have hall : ∀ w ∈ keyWords cfg e, 1 ≤ w ∧ w ≤ lastKeyWord cfg := by
    rw [keyWords, lastKeyWord]
    cases cfg.hnatV2 with
    | false =>
      simp only [if_true]
      split_ifs <;> decide
    | true =>
      simp only [reduceCtorEq, if_false, if_true]
      split_ifs <;> decide
  exact hall w hw

theorem not_ipv4_of_key_four (hw : 4 ∈ keyWords cfg e) :
    cfg.hnatV2 = true ∧ IS_IPV4_GRP cfg e = false := by
  by_contra hnot
  rw [not_and_or, Bool.not_eq_true, Bool.not_eq_false, IS_IPV4_GRP, Bool.or_eq_true] at hnot
  apply absurd hw
  rw [keyWords]
  split_ifs
  · decide
  · decide
  · decide
  · decide
  · rcases hnot with hn | hn | hn <;> contradiction
  · rcases hnot with hn | hn | hn <;> contradiction
  · rcases hnot with hn | hn | hn <;> contradiction
  · decide

theorem filledWords_pos (hw : w ∈ filledWords cfg r e) : 0 < w := by
  have hall : ∀ w ∈ filledWords cfg r e, 0 < w := by
    rw [filledWords]
    split_ifs <;> decide
  exact hall w hw

def BitField.OffFlow (cfg : TxBuild) (x : BitField) : Prop :=
  x.word = 0 ∧ x.off + x.len ≤ 25 ∨ lastKeyWord cfg < x.word

structure LeavesFlow (cfg : TxBuild) (e e' : FoeWords) : Prop where
  header : ∀ b ∈ headerFields cfg, b.get e' = b.get e
  key : ∀ w, 1 ≤ w → w ≤ lastKeyWord cfg → e' w = e w

theorem leavesFlow_refl : LeavesFlow cfg e e := ⟨fun _ _ => rfl, fun _ _ _ => rfl⟩

theorem get_assign_header (h : ∀ x ∈ ws, x.1.word = 0 → x.1.off + x.1.len ≤ 25)
    (hb : b ∈ headerFields cfg) : b.get (assign ws e) = b.get e := by
  obtain ⟨hword, hoff⟩ := headerFields_bits hb
  apply get_assign
  intro x hx
  by_cases hzero : x.1.word = 0
  · exact Or.inr (Or.inr ((h x hx hzero).trans hoff))
  · exact Or.inl (hword ▸ hzero)

theorem get_of_word (h : e₁ 0 = e 0) (hb : b ∈ headerFields cfg) : b.get e₁ = b.get e := by
  rw [BitField.get, BitField.get, (headerFields_bits hb).1, h]

theorem leavesFlow_assign (h : ∀ x ∈ ws, x.1.OffFlow cfg) : LeavesFlow cfg e (assign ws e) := by
  constructor
  · intro b hb
    apply get_assign_header _ hb
    intro x hx hzero
    rcases h x hx with hlow | hbehind
    · exact hlow.2
    · omega
  · intro w hlow hhigh
    apply assign_word
    intro x hx
    rcases h x hx with hfirst | hbehind <;> omega

theorem keepsFlow_refl : KeepsFlow cfg v pkt r e e :=
  ⟨rfl, Or.inl rfl, Or.inl rfl, fun _ _ _ => Or.inl rfl⟩

namespace KeepsFlow

section

variable (h : KeepsFlow cfg v pkt r e e₁)
include h

theorem of_header (hheader : ∀ b ∈ headerFields cfg, b.get e₂ = b.get e₁)
    (hkey : ∀ w ∈ keyWords cfg e, (w = 4 → dpInKey cfg v pkt = false) →
      e₂ w = e₁ w ∨ w ∈ filledWords cfg r e ∧
        (r.isRoute = true → e₂ w = BitVec.ofNat 32 (r.addr6 (w - 1)))) :
    KeepsFlow cfg v pkt r e e₂ where
  state := (hheader _ (by simp [headerFields])).trans h.state
  pktType := by
    rw [hheader (pktTypeField cfg) (by simp [headerFields])]
    exact h.pktType
  udp := by
    rw [hheader udpField (by simp [headerFields])]
    exact h.udp
  key := by
    intro w hw hfour
    rcases hkey w hw hfour with hsame | hfilled
    · rw [hsame]
      exact h.key w hw hfour
    · exact Or.inr hfilled

theorem leaves (hl : LeavesFlow cfg e₁ e₂) : KeepsFlow cfg v pkt r e e₂ := by
  apply h.of_header hl.header
  intro w hw _
  obtain ⟨hlow, hhigh⟩ := keyWords_range hw
  exact Or.inl (hl.key w hlow hhigh)

theorem hasType_eq (hr : r.isTunnel = false) (t : FoeIPAct) :
    hasType cfg e₁ t = hasType cfg e t := by
  rcases h.pktType with heq | ⟨htunnel, -⟩
  · rw [hasType, hasType, heq]
  · rw [hr] at htunnel
    cases htunnel

theorem fills (hr : r.isRoute = false)
    (hws : ∀ x ∈ ws, x.1.OffFlow cfg ∨ x.1.word ∈ filledWords cfg r e) :
    KeepsFlow cfg v pkt r e (assign ws e₁) := by
  apply h.of_header
  · intro b hb
    apply get_assign_header _ hb
    intro x hx hzero
    rcases hws x hx with (hlow | hbehind) | hfilled
    · exact hlow.2
    · omega
    · have hpos := filledWords_pos hfilled
      omega
  · intro w hw _
    by_cases hfilled : w ∈ filledWords cfg r e
    · exact Or.inr ⟨hfilled, fun hroute => absurd hroute (by simp [hr])⟩
    · obtain ⟨hlow, hhigh⟩ := keyWords_range hw
      apply Or.inl
      apply assign_word
      rintro x hx rfl
      rcases hws x hx with (hfirst | hbehind) | hin
      · omega
      · omega
      · exact hfilled hin

theorem setType (hV2 : cfg.hnatV2 = true) (hr : r.isTunnel = true) :
    KeepsFlow cfg v pkt r e ((pktTypeField cfg).set r.pkt_type.code e₁) := by
  have hfield : pktTypeField cfg = ⟨0, 25, 3⟩ := if_pos hV2
  have hcode : r.pkt_type.code < 2 ^ 3 := by cases r.pkt_type <;> decide
  constructor
  · rw [hfield, BitField.get_set_of_apart (by decide)]
    exact h.state
  · refine Or.inr ⟨hr, ?_⟩
    rw [hfield, BitField.get_set (by decide), Nat.mod_eq_of_lt hcode]
  · rw [hfield, BitField.get_set_of_apart (by decide)]
    exact h.udp
  · intro w hw hfour
    have hpos := (keyWords_range hw).1
    rw [hfield, BitField.set_of_ne (show w ≠ 0 by omega)]
    exact h.key w hw hfour

theorem setUdp (hr : r.pkt_type = .IPV4_HNAPT) :
    KeepsFlow cfg v pkt r e
      (udpField.set (if r.protocol = PROTO_UDP then FOE_UDP else FOE_TCP) e₁) := by
  have htype : udpField.Apart (pktTypeField cfg) := by
    rw [pktTypeField]
    split <;> decide
  constructor
  · rw [BitField.get_set_of_apart (by decide)]
    exact h.state
  · rw [BitField.get_set_of_apart htype]
    exact h.pktType
  · refine Or.inr ⟨hr, ?_⟩
    rw [BitField.get_set (by decide)]
    split <;> rfl
  · intro w hw hfour
    have hpos := (keyWords_range hw).1
    rw [BitField.set_of_ne (show w ≠ 0 by omega)]
    exact h.key w hw hfour

end

end KeepsFlow

theorem layer2At_offFlow (hV2 : cfg.hnatV2 = true) {word : Nat} (hword : 11 ≤ word) :
    ∀ x ∈ layer2At cfg r word, x.1.OffFlow cfg := by
  simp [layer2At, FoeSetMacInfo, hV2, wordField, vlanLayerField, psnField, dvpField, BitField.OffFlow,
    lastKeyWord]
  omega

theorem layer2V1_offFlow (hV2 : cfg.hnatV2 = false) :
    ∀ x ∈ layer2V1 cfg r, x.1.OffFlow cfg := by
  simp [layer2V1, FoeSetMacInfo, hV2, wordField, v1Field, v2Field, pppoeField, BitField.OffFlow,
    lastKeyWord]

theorem PpeFillInL2Info_leaves (cfg : TxBuild) (r : PktParseResult) (e : FoeWords) :
    LeavesFlow cfg e (entryLeft (PpeFillInL2Info cfg r e)) := by
  rw [PpeFillInL2Info]
  split
  · exact leavesFlow_refl
  · split
    · next hV2 =>
      split
      · exact leavesFlow_assign (layer2At_offFlow hV2 (Nat.le_refl 11))
      · split
        · exact leavesFlow_assign (layer2At_offFlow hV2 (by decide))
        · exact leavesFlow_refl
    · next hV2 =>
      rw [Bool.not_eq_true] at hV2
      exact leavesFlow_assign (layer2V1_offFlow hV2)

theorem isIpv4_alone (h : r.isIpv4 = true) : r.isRoute = false ∧ r.isTunnel = false := by
  rw [PktParseResult.isIpv4, Bool.or_eq_true, decide_eq_true_eq, decide_eq_true_eq] at h
  rw [PktParseResult.isRoute, PktParseResult.isTunnel]
  rcases h with h | h <;> rw [h] <;> decide

theorem isRoute_alone (h : r.isRoute = true) : r.isIpv4 = false ∧ r.isTunnel = false := by
  rw [PktParseResult.isRoute, Bool.or_eq_true, decide_eq_true_eq, decide_eq_true_eq] at h
  rw [PktParseResult.isIpv4, PktParseResult.isTunnel]
  rcases h with h | h <;> rw [h] <;> decide

theorem isTunnel_alone (h : r.isTunnel = true) : r.isIpv4 = false ∧ r.isRoute = false := by
  rw [PktParseResult.isTunnel, Bool.or_eq_true, decide_eq_true_eq, decide_eq_true_eq] at h
  rw [PktParseResult.isIpv4, PktParseResult.isRoute]
  rcases h with h | h <;> rw [h] <;> decide

theorem untunnel_offFlow (dscp : Nat) : ∀ x ∈ untunnel dscp, x.1.OffFlow cfg := by
  simp [untunnel, BitField.OffFlow, drmField, rmtField, dscpField, lastKeyWord]
  split <;> decide

theorem layer3Ipv4_keeps (h : KeepsFlow cfg v pkt r e e₁) :
    KeepsFlow cfg v pkt r e (assign (layer3Ipv4 cfg r e₁) e₁) := by
  rw [layer3Ipv4]
  split
  · next hipv4 =>
    obtain ⟨hroute, htunnel⟩ := isIpv4_alone hipv4
    rw [h.hasType_eq htunnel]
    split
    · split
      · exact h.leaves (leavesFlow_assign (untunnel_offFlow r.tos))
      · exact h
    · next htype =>
      apply h.fills hroute
      have hfilled : filledWords cfg r e = [4, 5, 6, 7] := by
        rw [filledWords, if_pos hipv4, if_neg (fun hd => htype hd.2)]
      rw [hfilled]
      split <;> simp [drmField, wordField, dscpField, BitField.OffFlow]
  · split
    · next hrd =>
      obtain ⟨hV2, -, hkind⟩ := hrd
      have htunnel : r.isTunnel = true := by
        rw [PktParseResult.isTunnel, hkind]
        rfl
      rw [assign_append, ← hkind]
      apply KeepsFlow.setType _ hV2 htunnel
      apply h.fills (isTunnel_alone htunnel).2
      simp [sixRdHeader, wordField, BitField.OffFlow, lastKeyWord, hV2]
    · exact h

theorem wordField_get : (wordField w).get e = (e w).toNat := by
  simp [BitField.get, wordField, BitReg.field]

theorem wordField_set {a n : Nat} :
    (wordField a).set n e w = if w = a then BitVec.ofNat 32 n else e w := by
  by_cases hw : w = a
  · subst hw
    rw [if_pos rfl]
    apply BitVec.eq_of_toNat_eq
    have hget : (wordField w).get ((wordField w).set n e) = n % 2 ^ 32 :=
      BitField.get_set (show 0 + 32 ≤ 32 by decide)
    rw [wordField_get] at hget
    rw [hget, BitVec.toNat_ofNat]
  · rw [if_neg hw]
    exact BitField.set_of_ne hw

theorem addrs6_word (hlow : 1 ≤ w) (hhigh : w ≤ 9) {dscp : Nat} :
    assign ((drmField, 1) :: addrs6At r 1 ++ [(dscpField 14, dscp)]) e w =
      if w ≤ 8 then BitVec.ofNat 32 (r.addr6 (w - 1)) else e w := by
  have hdrm : drmField.set 1 e w = e w := BitField.set_of_ne (show w ≠ 0 by omega)
  have hdscp (e : FoeWords) : (dscpField 14).set dscp e w = e w :=
    BitField.set_of_ne (show w ≠ 14 by omega)
  simp only [addrs6At, assign, List.map_cons, List.map_nil, List.cons_append, List.nil_append,
    List.foldl_cons, List.foldl_nil, hdscp, wordField_set, hdrm]
  interval_cases w <;> simp

section

variable (h : KeepsFlow cfg v pkt r e e₁)
include h

theorem layer3Ipv6_keeps : KeepsFlow cfg v pkt r e (assign (layer3Ipv6 cfg r e₁) e₁) := by
  rw [layer3Ipv6]
  split
  · next hV2 =>
    split
    · next hroute =>
      obtain ⟨hipv4, htunnel⟩ := isRoute_alone hroute
      rw [h.hasType_eq htunnel]
      split
      · exact h.leaves (leavesFlow_assign (untunnel_offFlow r.trafficClass))
      · next htype =>
        have hfilled : filledWords cfg r e = [1, 2, 3, 4, 5, 6, 7, 8] := by
          rw [filledWords, hipv4, hV2, hroute]
          exact if_neg htype
        apply h.of_header
        · intro b hb
          apply get_assign_header _ hb
          simp [addrs6At, wordField, drmField, dscpField]
        · intro w hw _
          obtain ⟨hlow, hhigh⟩ := keyWords_range hw
          rw [lastKeyWord, if_pos hV2] at hhigh
          rw [addrs6_word hlow hhigh, hfilled]
          split
          · next hle =>
            refine Or.inr ⟨?_, fun _ => rfl⟩
            interval_cases w <;> decide
          · exact Or.inl rfl
    · split
      · next hkind =>
        have htunnel : r.isTunnel = true := by
          rw [PktParseResult.isTunnel, hkind]
          rfl
        rw [assign_append, ← hkind]
        apply KeepsFlow.setType _ hV2 htunnel
        apply h.fills (isTunnel_alone htunnel).2
        have hfilled : filledWords cfg r e = [4, 5, 6, 7, 8, 9] := by
          rw [filledWords, (isTunnel_alone htunnel).1, (isTunnel_alone htunnel).2, hV2]
          exact if_pos hkind
        rw [hfilled]
        simp [dsLiteHeader, addrs6At, wordField, BitField.OffFlow, lastKeyWord, hV2]
      · exact h
  · exact h

theorem PpeFillInL3Info_keeps : KeepsFlow cfg v pkt r e (entryLeft (PpeFillInL3Info cfg r e₁)) := by
  rw [PpeFillInL3Info]
  split
  · exact layer3Ipv4_keeps h
  · split
    · exact layer3Ipv6_keeps h
    · exact h

theorem layer4Ports_keeps (hr : r.pkt_type = .IPV4_HNAPT)
    (hd : ¬ (cfg.hnatV2 ∧ hasType cfg e₁ .IPV4_DSLITE)) {l4 : List UInt8} {udp : Nat}
    (hudp : udp = if r.protocol = PROTO_UDP then FOE_UDP else FOE_TCP) :
    KeepsFlow cfg v pkt r e (assign (layer4Ports l4 udp) e₁) := by
  have hipv4 : r.isIpv4 = true := by
    rw [PktParseResult.isIpv4, hr]
    rfl
  obtain ⟨hroute, htunnel⟩ := isIpv4_alone hipv4
  rw [h.hasType_eq htunnel] at hd
  have hfilled : filledWords cfg r e = [4, 5, 6, 7] := by
    rw [filledWords, if_pos hipv4, if_neg hd]
  have hports : KeepsFlow cfg v pkt r e
      (assign [(⟨7, 16, 16⟩, be16At l4 0), (⟨7, 0, 16⟩, be16At l4 2)] e₁) := by
    apply h.fills hroute
    rw [hfilled]
    simp
  rw [hudp]
  exact hports.setUdp hr

theorem PpeFillInL4Info_keeps :
    KeepsFlow cfg v pkt r e (entryLeft (PpeFillInL4Info cfg r e₁ regs)) := by
  rw [PpeFillInL4Info]
  split
  · next hr =>
    split
    · exact h
    · next hd =>
      split
      · next htcp =>
        apply layer4Ports_keeps h hr hd
        rw [htcp]
        rfl
      · split
        · next hudp =>
          have hports : KeepsFlow cfg v pkt r e (assign (layer4Ports r.uh FOE_UDP) e₁) :=
            layer4Ports_keeps h hr hd (if_pos hudp).symm
          split
          · exact hports
          · exact hports
        · exact h
  · exact h

end

theorem setInfoBlk2_word {word fpidx port_mg port_ag : Nat} (hw : w ≠ word) :
    PpeSetInfoBlk2 cfg word fpidx port_mg port_ag e w = e w := by
  have hdp (n : Nat) : (dpField cfg word).set n e w = e w := by
    apply BitField.set_of_ne
    rw [dpField]
    split <;> exact hw
  have hfpidx : (fpidxField word).set fpidx e w = e w := BitField.set_of_ne hw
  rw [PpeSetInfoBlk2, BitField.set_of_ne (show w ≠ word from hw), BitField.set_of_ne (show w ≠ word from hw)]
  split_ifs
  · exact hdp 1
  · exact hdp 2
  · exact hdp 0
  · exact hfpidx
  · rfl

theorem dp_word (hw : w ≠ 4) (n : Nat) : (dpField cfg 4).set n e w = e w := by
  apply BitField.set_of_ne
  rw [dpField]
  split <;> exact hw

theorem bindIf_word {binds : Bool} {port : FoeWords → FoeWords} (h : port e w = e w) :
    entryLeft (bindIf binds port e) w = e w := by
  cases binds
  · rfl
  · exact h

theorem forceCpu_word (hw : w ≠ 14)
    (hfour : w = 4 → IS_IPV4_GRP cfg e = false ∧ cfg.chip = .MT7620) :
    entryLeft (forceCpu cfg r e) w = e w := by
  rw [forceCpu]
  split_ifs with hext hchip hipv4 hipv6
  · apply setInfoBlk2_word
    intro heq
    rw [(hfour heq).1] at hipv4
    cases hipv4
  · exact setInfoBlk2_word hw
  · rfl
  · exact dp_word (fun heq => hchip (hfour heq).2) 0
  · rfl

theorem forceGmac2_word (hw : w ≠ 14)
    (hfour : w = 4 → IS_IPV4_GRP cfg e = false ∧ cfg.chip = .MT7621) :
    entryLeft (forceGmac2 cfg v gmac_no e) w = e w := by
  have hport (port : Nat) : gmacPort cfg port e w = e w := by
    rw [gmacPort]
    split_ifs with hchip hipv4 hipv6
    · apply setInfoBlk2_word
      intro heq
      rw [(hfour heq).1] at hipv4
      cases hipv4
    · exact setInfoBlk2_word hw
    · rfl
    · exact dp_word (fun heq => hchip (hfour heq).2) port
  rw [forceGmac2]
  split_ifs
  · exact bindIf_word (hport 1)
  · exact bindIf_word (hport 2)
  · rfl

theorem forceOnePort_word (hw : w ≠ 4) : entryLeft (forceOnePort cfg v e) w = e w := by
  rw [forceOnePort]
  split_ifs
  · exact bindIf_word (dp_word hw 1)
  · exact bindIf_word (dp_word hw 1)
  · rfl

theorem forceTwoPorts_word (hw : w ≠ 4) : entryLeft (forceTwoPorts cfg v e) w = e w := by
  rw [forceTwoPorts]
  split_ifs
  · exact bindIf_word (dp_word hw 1)
  · exact bindIf_word (dp_word hw 2)
  · exact dp_word hw 1

theorem forceIpv4Grp_word (hw : w ≠ 4) : entryLeft (forceIpv4Grp cfg v e) w = e w := by
  rw [forceIpv4Grp]
  split_ifs
  · exact bindIf_word (setInfoBlk2_word hw)
  · exact bindIf_word (setInfoBlk2_word hw)
  · exact setInfoBlk2_word hw

theorem forceIpv6Grp_word (hw : w ≠ 14) : entryLeft (forceIpv6Grp cfg v e) w = e w := by
  rw [forceIpv6Grp]
  split_ifs
  · exact bindIf_word (setInfoBlk2_word hw)
  · exact setInfoBlk2_word hw

theorem PpeSetForcePortInfo_word {dev : NetDev} (hw : w ≠ 14)
    (hfour : w = 4 → cfg.hnatV2 = true ∧ IS_IPV4_GRP cfg e = false ∧
      (cfg.chip = .MT7621 → cpuServed v dev = false)) :
    entryLeft (PpeSetForcePortInfo cfg v dev r gmac_no e) w = e w := by
  rw [PpeSetForcePortInfo]
  have hfd : (if cfg.hnatV2 then e else fdField.set 1 e) w = e w := by
    split
    · rfl
    · next hV2 => exact BitField.set_of_ne fun heq => hV2 (hfour heq).1
  have hgrp : w = 4 → IS_IPV4_GRP cfg (if cfg.hnatV2 then e else fdField.set 1 e) = false := by
    intro heq
    rw [if_pos (hfour heq).1]
    exact (hfour heq).2.1
  generalize (if cfg.hnatV2 then e else fdField.set 1 e) = e' at hfd hgrp
  rw [← hfd]
  have hchip (heq : w = 4) : cfg.chip = .MT7620 ∨ cfg.chip = .MT7621 := by
    have hV2 := (hfour heq).1
    rw [TxBuild.hnatV2, Bool.or_eq_true, decide_eq_true_eq, decide_eq_true_eq] at hV2
    exact hV2
  split_ifs with hcpu hgmac hone hV2 hipv4 hipv6
  · apply forceCpu_word hw
    intro heq
    refine ⟨hgrp heq, (hchip heq).resolve_right fun hmt => ?_⟩
    rw [(hfour heq).2.2 hmt] at hcpu
    cases hcpu
  · exact forceGmac2_word hw fun heq => ⟨hgrp heq, gmac2_chip (hfour heq).1 hgmac⟩
  · apply forceOnePort_word
    intro heq
    rcases hone with hone | hone <;> rcases hchip heq with hmt | hmt <;> rw [hone] at hmt <;> cases hmt
  · apply forceIpv4Grp_word
    intro heq
    rw [hgrp heq] at hipv4
    cases hipv4
  · exact forceIpv6Grp_word hw
  · rfl
  · exact forceTwoPorts_word fun heq => hV2 (hfour heq).1

theorem KeepsFlow.not_ipv4 (h : KeepsFlow cfg v pkt r e e₁) (hipv4 : IS_IPV4_GRP cfg e = false) :
    IS_IPV4_GRP cfg e₁ = false := by
  rw [IS_IPV4_GRP, hasType, hasType] at hipv4 ⊢
  rcases h.pktType with heq | ⟨htunnel, heq⟩
  · rw [heq]
    exact hipv4
  · rw [heq]
    rw [PktParseResult.isTunnel, Bool.or_eq_true, decide_eq_true_eq, decide_eq_true_eq] at htunnel
    rcases htunnel with hkind | hkind <;> rw [hkind] <;> decide

theorem PpeSetForcePortInfo_keeps (h : KeepsFlow cfg v pkt r e e₁) :
    KeepsFlow cfg v pkt r e (entryLeft (PpeSetForcePortInfo cfg v pkt.dev r gmac_no e₁)) := by
  apply h.of_header
  · intro b hb
    exact get_of_word (PpeSetForcePortInfo_word (by decide) fun heq => absurd heq (by decide)) hb
  · intro w hw hdp
    apply Or.inl
    obtain ⟨hlow, hhigh⟩ := keyWords_range hw
    have hlast : lastKeyWord cfg ≤ 9 := by
      rw [lastKeyWord]
      split <;> decide
    apply PpeSetForcePortInfo_word (by omega)
    rintro rfl
    obtain ⟨hV2, hipv4⟩ := not_ipv4_of_key_four hw
    refine ⟨hV2, h.not_ipv4 hipv4, fun hmt => ?_⟩
    have hserved := hdp rfl
    rw [dpInKey, hmt] at hserved
    exact hserved

theorem leavesFlow_set {n : Nat} (hb : b.OffFlow cfg) : LeavesFlow cfg e (b.set n e) := by
  have hone : ∀ x ∈ [(b, n)], x.1.OffFlow cfg := List.forall_mem_singleton.mpr hb
  exact leavesFlow_assign hone

theorem PpeSetExtIfNum_leaves (cfg : TxBuild) (dev : NetDev) (cb : BitVec 8) (e : FoeWords) :
    LeavesFlow cfg e (entryLeft (PpeSetExtIfNum cfg dev cb e)) := by
  rw [PpeSetExtIfNum]
  split
  · cases extIfOffset cfg cb dev with
    | none => exact leavesFlow_refl
    | some offset =>
      dsimp only
      split_ifs with hipv4 hV2 htype
      · apply leavesFlow_set
        apply Or.inr
        rw [actDpField, lastKeyWord]
        split <;> decide
      · apply leavesFlow_set
        apply Or.inr
        rw [lastKeyWord]
        split <;> decide
      · exact leavesFlow_refl
      · exact leavesFlow_refl
  · exact leavesFlow_refl

theorem fillEntry_keeps (cfg : TxBuild) (v : HnatVars) (regs : TxRegs) (pkt : TxPkt) (gmac_no : Nat)
    (r : PktParseResult) (e : FoeWords) :
    KeepsFlow cfg v pkt r e (entryLeft (fillEntry cfg v regs pkt gmac_no r e)) := by
  apply entryLeft_bind
  · exact keepsFlow_refl.leaves (PpeFillInL2Info_leaves cfg r e)
  intro e₁ h₁
  apply entryLeft_bind (PpeFillInL3Info_keeps h₁)
  intro e₂ h₂
  apply entryLeft_bind (PpeFillInL4Info_keeps h₂)
  intro e₃ h₃
  apply entryLeft_bind (PpeSetForcePortInfo_keeps h₃)
  intro e₄ h₄
  exact h₄.leaves (PpeSetExtIfNum_leaves cfg pkt.dev pkt.cb e₄)

theorem fillEntry_bound (hbound : stateField.get e = STATE_BIND) :
    fillEntry cfg v regs pkt gmac_no r e = .error e := by
  rw [fillEntry, PpeFillInL2Info, if_pos hbound]
  rfl

end Steps

section Refused

variable (cfg : TxBuild) (v : HnatVars) (regs : TxRegs) (pkt : TxPkt) (gmac_no : Nat)
  (table : FoeTable)

/-- What is left of a table by a packet that does not bind. -/
structure RefusedAt (table' : FoeTable) : Prop where
  others : ∀ n ≠ pkt.info.FOE_Entry, table' n = table n
  bound : stateField.get (table pkt.info.FOE_Entry) = STATE_BIND → table' = table
  unparsed : PpeParseLayerInfo cfg pkt.skb = none → table' = table
  parsed : ∀ r ∈ PpeParseLayerInfo cfg pkt.skb,
    KeepsFlow cfg v pkt r (table pkt.info.FOE_Entry) (table' pkt.info.FOE_Entry)

theorem refusedAt_refl : RefusedAt cfg v pkt table table :=
  ⟨fun _ _ => rfl, fun _ => rfl, fun _ => rfl, fun _ _ => keepsFlow_refl⟩

/-- A refused bind leaves the other entries, the state, and an entry that is bound; of the flow it changes
at most what `KeepsFlow` allows. -/
theorem PpeTxHandler_refused (h : bindsEntry cfg v regs pkt gmac_no table = false) :
    RefusedAt cfg v pkt table (PpeTxHandler cfg v regs pkt gmac_no table).table := by
  rw [bindsEntry] at h
  rw [PpeTxHandler]
  by_cases hasks : asksForBind cfg pkt = true
  · rw [if_pos hasks] at h
    simp only [if_pos hasks]
    cases hparse : PpeParseLayerInfo cfg pkt.skb with
    | none => exact refusedAt_refl cfg v pkt table
    | some r =>
      rw [hparse] at h
      have hkeeps := fillEntry_keeps cfg v regs pkt gmac_no r (table pkt.info.FOE_Entry)
      dsimp only at h ⊢
      cases hfill : fillEntry cfg v regs pkt gmac_no r (table pkt.info.FOE_Entry) with
      | ok e =>
        rw [hfill] at h
        cases h
      | error e =>
        rw [hfill] at hkeeps
        dsimp only
        constructor
        · exact fun n hn => update_of_ne hn _ _
        · intro hbound
          rw [fillEntry_bound hbound] at hfill
          cases hfill
          exact update_eq_self _ _
        · intro hnone
          rw [hparse] at hnone
          cases hnone
        · intro r' hr'
          rw [hparse, Option.mem_some_iff] at hr'
          rw [← hr', update_self]
          exact hkeeps
  · rw [if_neg hasks, Bool.and_eq_false_iff, decide_eq_false_iff_not, decide_eq_false_iff_not,
      ← not_and_or] at h
    simp only [if_neg hasks, if_neg h]
    split_ifs <;> exact refusedAt_refl cfg v pkt table

end Refused

/-- A tagged packet of VLAN 2 whose flow is fast enough; its entry is the first. -/
def sampleTxPkt (type l3 : List UInt8) : TxPkt where
  skb :=
    { mem := fun a => ([0, 1, 2, 3, 4, 5] ++ [0, 6, 7, 8, 9, 10] ++ [0x81, 0, 0, 2] ++ type ++ l3).getD a 0
      data := 0
      vlan_tx_tag_present := false
      vlan_tx_tag_get := 0 }
  dev := .eth 2
  cb := 0
  info := ⟨FOE_MAGIC_GE, 0x0F, 0, 0, 0⟩

/-- Headers of 10.0.0.1 and 10.0.0.2, and of two addresses of IPv6. -/
def sampleHdr4 (protocol : UInt8) : List UInt8 :=
  [0x45, 0, 0, 80, 0, 0, 0, 0, 64, protocol, 0, 0, 10, 0, 0, 1, 10, 0, 0, 2]

def sampleHdr6 : List UInt8 :=
  [0x60, 0, 0, 0, 0, 20, PROTO_TCP, 64, 0x20, 1, 0, 0, 0, 0, 0, 0, 0, 0, 0, 0, 0, 0, 0, 1,
    0x20, 1, 0, 0, 0, 0, 0, 0, 0, 0, 0, 0, 0, 0, 0, 2]

def sampleSixRd : TxPkt := sampleTxPkt [0x08, 0x00] (sampleHdr4 PROTO_IPV6 ++ sampleHdr6)
def sampleUdp : TxPkt := sampleTxPkt [0x08, 0x00] (sampleHdr4 PROTO_UDP)
def sampleRoute : TxPkt := sampleTxPkt [0x86, 0xDD] sampleHdr6

/-- An entry that is not bound, of a type and with nothing else. -/
def sampleUnbound (t : FoeIPAct) : FoeTable := fun _ =>
  update (fun _ => 0) 0 (BitVec.ofNat 32 (2 ^ 28 + t.code * 2 ^ 25))

def sampleTxRegs : TxRegs := ⟨0, 0, 0⟩

/-- The handler where only the upstream is bound. -/
def sampleHandler (pkt : TxPkt) (table : FoeTable) : TxDone :=
  PpeTxHandler { chip := .MT7620, ipv6 := true } (sampleVars UPSTREAM_ONLY) sampleTxRegs pkt 1 table

theorem PpeTxHandler_refused_route :
    RefusedAt { chip := .MT7620, ipv6 := true } (sampleVars UPSTREAM_ONLY) sampleRoute
      (sampleUnbound .IPV6_5T_ROUTE)
      (PpeTxHandler { chip := .MT7620, ipv6 := true } (sampleVars UPSTREAM_ONLY) sampleTxRegs
        sampleRoute 1 (sampleUnbound .IPV6_5T_ROUTE)).table :=
  PpeTxHandler_refused { chip := .MT7620, ipv6 := true } (sampleVars UPSTREAM_ONLY) sampleTxRegs
    sampleRoute 1 (sampleUnbound .IPV6_5T_ROUTE) (by decide +kernel)

/-- A packet of 6RD is refused by its direction, and the entry has become one of 6RD. A packet of UDP is
refused, and the entry has become one of UDP. A routed packet is refused by its direction, and the entry
has got its addresses. -/
theorem PpeTxHandler_refused_changes :
    (bindsEntry { chip := .MT7620, ipv6 := true } (sampleVars UPSTREAM_ONLY) sampleTxRegs sampleSixRd 1
        (sampleUnbound .IPV6_5T_ROUTE) = false ∧
      ¬ SameFlow { chip := .MT7620, ipv6 := true } (sampleUnbound .IPV6_5T_ROUTE 0)
        ((sampleHandler sampleSixRd (sampleUnbound .IPV6_5T_ROUTE)).table 0)) ∧
    (bindsEntry { chip := .MT7620, ipv6 := true } (sampleVars UPSTREAM_ONLY) sampleTxRegs sampleUdp 1
        (sampleUnbound .IPV4_HNAPT) = false ∧
      ¬ SameFlow { chip := .MT7620, ipv6 := true } (sampleUnbound .IPV4_HNAPT 0)
        ((sampleHandler sampleUdp (sampleUnbound .IPV4_HNAPT)).table 0)) ∧
    bindsEntry { chip := .MT7620, ipv6 := true } (sampleVars UPSTREAM_ONLY) sampleTxRegs sampleRoute 1
        (sampleUnbound .IPV6_5T_ROUTE) = false ∧
      ¬ SameFlow { chip := .MT7620, ipv6 := true } (sampleUnbound .IPV6_5T_ROUTE 0)
        ((sampleHandler sampleRoute (sampleUnbound .IPV6_5T_ROUTE)).table 0) := by
  refine ⟨⟨by decide +kernel, ?_⟩, ⟨by decide +kernel, ?_⟩, by decide +kernel, ?_⟩
  · intro h
    exact absurd h.pktType (by decide +kernel)
  · intro h
    exact absurd h.udp (by decide +kernel)
  · intro h
    exact absurd (h.key 1 (by decide +kernel)) (by decide +kernel)

end Ralink.HwNat
