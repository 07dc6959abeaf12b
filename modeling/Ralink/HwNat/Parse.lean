import Ralink.HwNat.ExtIf

/-! `PpeParseLayerInfo` finds the headers of a packet that is to be sent and copies what the entry
of its flow is filled with: the tags, the session, the addresses and the ports. -/
namespace Ralink.HwNat
open ByteStore

inductive Chip where
  | RT2880
  | RT3052
  | RT3352
  | RT3883
  | RT6855A
  | MT7620
  | MT7621
  | other
  deriving DecidableEq

/-- The options that the transmit handler depends on. `ipv6` is `CONFIG_RA_HW_NAT_IPV6`, `rtdevWds`
is set when one of the drivers behind `rtdev` has `WDS`. -/
structure TxBuild where
  chip : Chip
  ipv6 : Bool := false
  hwVlanTx : Bool := false
  acl2Up : Bool := false
  preBind : Bool := false
  rtdevWds : Bool := false
  ext : ExtBuild := {}
  deriving DecidableEq

/-- `CONFIG_HNAT_V2`. -/
def TxBuild.hnatV2 (cfg : TxBuild) : Bool := cfg.chip = .MT7620 || cfg.chip = .MT7621

/-- `enum FoeIPAct`. -/
inductive FoeIPAct where
  | IPV4_HNAPT
  | IPV4_HNAT
  | IPV6_1T_ROUTE
  | IPV4_DSLITE
  | IPV6_3T_ROUTE
  | IPV6_5T_ROUTE
  | IPV6_6RD
  deriving DecidableEq

/-- A packet to be sent: its bytes and, in the control block, the tag that the hardware puts in. -/
structure TxSkb where
  mem : Store
  data : Nat
  vlan_tx_tag_present : Bool
  vlan_tx_tag_get : Nat

/-- The fields of two bytes are kept by their value. -/
structure PktParseResult where
  dmac : List UInt8 := List.replicate 6 0
  smac : List UInt8 := List.replicate 6 0
  vlan_tag : Nat := 0
  vlan1_gap : Nat := 0
  vlan1 : Nat := 0
  vlan2_gap : Nat := 0
  vlan2 : Nat := 0
  vlan_layer : Nat := 0
  pppoe_gap : Nat := 0
  ppp_tag : Nat := 0
  pppoe_sid : Nat := 0
  eth_type : Nat := 0
  iph : List UInt8 := List.replicate 20 0
  ip6h : List UInt8 := List.replicate 40 0
  th : List UInt8 := List.replicate 20 0
  uh : List UInt8 := List.replicate 8 0
  pkt_type : FoeIPAct := .IPV4_HNAPT
  is_mcast : Bool := false
  deriving DecidableEq

def PPP_IP : Nat := 0x0021
def PPP_IPV6 : Nat := 0x0057
def PROTO_IPIP : UInt8 := 4
def PROTO_TCP : UInt8 := 6
def PROTO_UDP : UInt8 := 17
def PROTO_IPV6 : UInt8 := 41
def PROTO_GRE : UInt8 := 47

/-- `IP_MF | IP_OFFSET`. -/
def FRAGMENT : Nat := 0x3FFF

def sizeofIphdr : Nat := 20
def sizeofIpv6hdr : Nat := 40
def sizeofTcphdr : Nat := 20
def sizeofUdphdr : Nat := 8

section Parse

variable (cfg : TxBuild) (skb : TxSkb)

/-- The session and the protocol, or nothing for a header that is not understood. -/
def GetPppoeSid (vlan_gap : Nat) : Option (Nat × Nat) :=
  let peh := skb.data + ETH_HLEN + vlan_gap
  let ppp_tag := be16 skb.mem (peh + 6)
  if skb.mem peh &&& 0x0F ≠ 1 ∨ skb.mem peh >>> 4 ≠ 1 ∨
      (ppp_tag ≠ PPP_IP ∧ ¬ (cfg.ipv6 ∧ ppp_tag = PPP_IPV6)) then none
  else some (be16 skb.mem (peh + 2), ppp_tag)

/-- `(eth_type && 0x00FF)` is 0 or 1, and is compared with a type in network order. -/
def isSpecialTag (eth_type : Nat) : Bool :=
  cfg.hnatV2 && ((if eth_type ≠ 0 then 1 else 0) == 0x0081)

def is8021Q (eth_type : Nat) : Bool := eth_type == ETH_P_8021Q

def isHwVlanTx : Bool := cfg.hwVlanTx && skb.vlan_tx_tag_present

/-- What the three tests leave in `vlan_tag` when one of them holds. -/
def outerTag (eth_type : Nat) : Option Nat :=
  if is8021Q eth_type then some eth_type
  else if isSpecialTag cfg eth_type then some eth_type
  else if isHwVlanTx cfg skb then some ETH_P_8021Q
  else none

def innerTag (eth_type : Nat) : Option Nat :=
  if is8021Q eth_type then some eth_type
  else if isSpecialTag cfg eth_type then some eth_type
  else none

def parsePppoe (vlan_gap : Nat) (r : PktParseResult) : Option PktParseResult :=
  (GetPppoeSid cfg skb vlan_gap).map fun found =>
    { r with pppoe_gap := 8, pppoe_sid := found.1, ppp_tag := found.2 }

structure VlanHdr where
  h_vlan_TCI : Nat
  h_vlan_encapsulated_proto : Nat

def vlanHdrAt (a : Nat) : VlanHdr := ⟨be16 skb.mem a, be16 skb.mem (a + 2)⟩

def parseVlan2 (r : PktParseResult) : Option PktParseResult :=
  let r := { r with vlan2_gap := VLAN_HLEN, vlan_layer := r.vlan_layer + 1 }
  let vh := vlanHdrAt skb (skb.data + ETH_HLEN + r.vlan1_gap)
  let r := { r with vlan2 := vh.h_vlan_TCI }
  if vh.h_vlan_encapsulated_proto = ETH_P_PPP_SES then
    (parsePppoe cfg skb (r.vlan1_gap + r.vlan2_gap) r).map
      ({ · with eth_type := vh.h_vlan_encapsulated_proto })
  else if cfg.hnatV2 ∧ is8021Q vh.h_vlan_encapsulated_proto then
    let r := { r with
      vlan_tag := vh.h_vlan_encapsulated_proto
      vlan_layer := r.vlan_layer + 1 }
    let vh := vlanHdrAt skb (skb.data + ETH_HLEN + r.vlan1_gap + VLAN_HLEN)
    if is8021Q vh.h_vlan_encapsulated_proto then
      some { r with
        vlan_tag := vh.h_vlan_encapsulated_proto
        vlan_layer := r.vlan_layer + 1 }
    else some r
  else some { r with eth_type := vh.h_vlan_encapsulated_proto }

/-- From the first tag on. The one that the hardware puts in takes no room. -/
def parseVlan1 (vlan_tag : Nat) (r : PktParseResult) : Option PktParseResult :=
  let r := { r with
    vlan_tag := vlan_tag
    vlan1_gap := if cfg.hwVlanTx then 0 else VLAN_HLEN
    vlan_layer := r.vlan_layer + 1 }
  let vh := if cfg.hwVlanTx then ⟨skb.vlan_tx_tag_get, be16 skb.mem (skb.data + 12)⟩
    else vlanHdrAt skb (skb.data + ETH_HLEN)
  let r := { r with vlan1 := vh.h_vlan_TCI }
  if vh.h_vlan_encapsulated_proto = ETH_P_PPP_SES then
    (parsePppoe cfg skb r.vlan1_gap r).map ({ · with eth_type := vh.h_vlan_encapsulated_proto })
  else
    match innerTag cfg vh.h_vlan_encapsulated_proto with
    | some vlan_tag => parseVlan2 cfg skb { r with vlan_tag := vlan_tag }
    | none => some { r with eth_type := vh.h_vlan_encapsulated_proto }

def parseLayer2 (r : PktParseResult) : Option PktParseResult :=
  match outerTag cfg skb r.eth_type with
  | some vlan_tag => parseVlan1 cfg skb vlan_tag r
  | none => if r.eth_type = ETH_P_PPP_SES then parsePppoe cfg skb r.vlan1_gap r else some r

def layer3Header (r : PktParseResult) : Nat :=
  skb.data + ETH_HLEN + r.vlan1_gap + r.vlan2_gap + r.pppoe_gap

/-- `iph->ihl * 4`. -/
def ihlBytes (a : Nat) : Nat := (skb.mem a &&& 0x0F).toNat * 4

def parseIpv4 (r : PktParseResult) : Option PktParseResult :=
  let iph := layer3Header skb r
  let r := { r with iph := readBytes skb.mem iph sizeofIphdr }
  let protocol := skb.mem (iph + 9)
  let layer4 := iph + ihlBytes skb iph
  if protocol = PROTO_TCP then
    let r := { r with th := readBytes skb.mem layer4 sizeofTcphdr, pkt_type := .IPV4_HNAPT }
    if be16 skb.mem (iph + 6) &&& FRAGMENT ≠ 0 then none else some r
  else if protocol = PROTO_UDP then
    let r := { r with uh := readBytes skb.mem layer4 sizeofUdphdr, pkt_type := .IPV4_HNAPT }
    if be16 skb.mem (iph + 6) &&& FRAGMENT ≠ 0 then none else some r
  else if cfg.hnatV2 ∧ protocol = PROTO_GRE then some r
  else if cfg.hnatV2 ∧ cfg.ipv6 ∧ protocol = PROTO_IPV6 then
    let ip6h := layer4
    let r := { r with ip6h := readBytes skb.mem ip6h sizeofIpv6hdr, pkt_type := .IPV6_6RD }
    let layer4 := ip6h + sizeofIpv6hdr
    -- of these headers only the ports are copied
    if skb.mem (ip6h + 6) = PROTO_TCP then
      some { r with th := readBytes skb.mem layer4 4 ++ r.th.drop 4 }
    else if skb.mem (ip6h + 6) = PROTO_UDP then
      some { r with uh := readBytes skb.mem layer4 4 ++ r.uh.drop 4 }
    else some r
  else none

def parseIpv6 (r : PktParseResult) : Option PktParseResult :=
  let ip6h := layer3Header skb r
  let r := { r with ip6h := readBytes skb.mem ip6h sizeofIpv6hdr }
  let nexthdr := skb.mem (ip6h + 6)
  let layer4 := ip6h + sizeofIpv6hdr
  if nexthdr = PROTO_TCP then
    some { r with th := readBytes skb.mem layer4 sizeofTcphdr, pkt_type := .IPV6_5T_ROUTE }
  else if nexthdr = PROTO_UDP then
    some { r with uh := readBytes skb.mem layer4 sizeofUdphdr, pkt_type := .IPV6_5T_ROUTE }
  else if nexthdr = PROTO_IPIP then
    -- `ip6h + sizeof(struct ipv6hdr)` counts in headers, not in bytes
    some { r with
      iph := readBytes skb.mem (ip6h + sizeofIpv6hdr * sizeofIpv6hdr) sizeofIphdr
      pkt_type := .IPV4_DSLITE }
  else some { r with pkt_type := if cfg.hnatV2 then .IPV6_3T_ROUTE else .IPV6_1T_ROUTE }

def parseLayer3 (r : PktParseResult) : Option PktParseResult :=
  if r.eth_type = ETH_P_IP ∨ (r.eth_type = ETH_P_PPP_SES ∧ r.ppp_tag = PPP_IP) then
    parseIpv4 cfg skb r
  else if r.eth_type = ETH_P_IPV6 ∨ (r.eth_type = ETH_P_PPP_SES ∧ r.ppp_tag = PPP_IPV6) then
    parseIpv6 cfg skb r
  else none

/-- `PpeParseResult` when 0 is returned. -/
def PpeParseLayerInfo : Option PktParseResult :=
  let r : PktParseResult := {
    dmac := readBytes skb.mem skb.data ETH_ALEN
    smac := readBytes skb.mem (skb.data + ETH_ALEN) ETH_ALEN
    eth_type := be16 skb.mem (skb.data + 12) }
  let multicast := skb.mem skb.data &&& 1 ≠ 0
  if multicast ∧ cfg.chip ≠ .MT7620 then none
  else
    let r := { r with is_mcast := multicast }
    (parseLayer2 cfg skb r).bind (parseLayer3 cfg skb)

end Parse

end Ralink.HwNat
