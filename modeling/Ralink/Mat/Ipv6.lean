import Ralink.Lib.CString
import Ralink.Lib.OnesSum
import Ralink.Lib.Sized
import Ralink.Mat.Discovery

/-! `cmm_mat_ipv6.c`: the messages of neighbour discovery go out with the MAC address of the device.
A pointer is what can be read from it on, and an access outside of the packet gives `none`; an
offset stays below its 32 bits, as the packet does. -/
namespace Ralink.Mat
open Sized (slice)
open CArray (store)
open OnesSum (loads)

def IPV6_HDR_LEN : Nat := 40

def IPV6_NEXT_HEADER_HOP_BY_HOP : UInt8 := 0x00
def IPV6_NEXT_HEADER_DESTINATION : UInt8 := 0x3c
def IPV6_NEXT_HEADER_ROUTING : UInt8 := 0x2b
def IPV6_NEXT_HEADER_FRAGMENT : UInt8 := 0x2c
def IPV6_NEXT_HEADER_NONE : UInt8 := 0x3b
def IPV6_NEXT_HEADER_TCP : UInt8 := 0x06
def IPV6_NEXT_HEADER_UDP : UInt8 := 0x11
def IPV6_NEXT_HEADER_ICMPV6 : UInt8 := 0x3a

def ICMPV6_MSG_TYPE_ROUTER_SOLICITATION : UInt8 := 0x85
def ROUTER_SOLICITATION_FIXED_LEN : Nat := 8
def ICMPV6_MSG_TYPE_ROUTER_ADVERTISEMENT : UInt8 := 0x86
def ROUTER_ADVERTISEMENT_FIXED_LEN : Nat := 16
def ICMPV6_MSG_TYPE_NEIGHBOR_SOLICITATION : UInt8 := 0x87
def NEIGHBOR_SOLICITATION_FIXED_LEN : Nat := 24
def ICMPV6_MSG_TYPE_NEIGHBOR_ADVERTISEMENT : UInt8 := 0x88
def NEIGHBOR_ADVERTISEMENT_FIXED_LEN : Nat := 24
def ICMPV6_MSG_TYPE_REDIRECT : UInt8 := 0x89
def REDIRECT_FIXED_LEN : Nat := 40

def TYPE_SRC_LL_ADDR : UInt8 := 1
def TYPE_TGT_LL_ADDR : UInt8 := 2

def IPV6_LOOPBACKADDR : List UInt8 := List.replicate 15 0 ++ [1]

def IS_UNSPECIFIED_IPV6_ADDR (addr : List UInt8) : Bool := addr.all (· == 0)

def IS_MULTICAST_IPV6_ADDR (addr : List UInt8) : Bool := addr.head? == some 0xff

def needUpdateIPv6MacTB (pMac : Mac) (pIPv6Addr : List UInt8) : Bool :=
  !(pMac.toList.headD 0 &&& 1 == 1 || pMac.toList.all (· == 0) || IS_MULTICAST_IPV6_ADDR pIPv6Addr ||
    IS_UNSPECIFIED_IPV6_ADDR pIPv6Addr || pIPv6Addr == IPV6_LOOPBACKADDR)

/-- `csum += x`, and the carry after it. -/
def addWord (csum x : BitVec 32) : BitVec 32 :=
  let csum := csum + x
  csum + if csum < x then 1 else 0

/-- `while (csum>>16)` -/
def foldCsum (csum : BitVec 32) : BitVec 32 :=
  if csum >>> 16 ≠ 0 then foldCsum ((csum &&& 0xffff#32) + (csum >>> 16)) else csum
termination_by csum.toNat
decreasing_by
  have hlow : (csum &&& 0xffff#32).toNat = csum.toNat % 2 ^ 16 := by
    rw [BitVec.toNat_and]
    exact Nat.and_two_pow_sub_one_eq_mod csum.toNat 16
  have hhigh : (csum >>> 16).toNat = csum.toNat / 2 ^ 16 := by
    rw [BitVec.toNat_ushiftRight, Nat.shiftRight_eq_div_pow]
  have hne : csum.toNat / 2 ^ 16 ≠ 0 := by
    intro h0
    apply ‹csum >>> 16 ≠ 0›
    apply BitVec.eq_of_toNat_eq
    rw [hhigh, h0]
    rfl
  rw [BitVec.toNat_add, hlow, hhigh, Nat.mod_eq_of_lt (by omega)]
  omega

def OS_HTONL (x : BitVec 32) : BitVec 32 :=
  (x.extractLsb' 0 8 ++ x.extractLsb' 8 8) ++ (x.extractLsb' 16 8 ++ x.extractLsb' 24 8)

def icmpv6_csum (saddr daddr : List UInt8) (len : UInt16) (proto : UInt8) (pICMPMsg : List UInt8) :
    Option (BitVec 16) :=
  if len.toNat % 4 ≠ 0 then some 0
  else do
    let csum := (loads saddr).foldl addWord 0
    let csum := (loads daddr).foldl addWord csum
    let csum := addWord csum (OS_HTONL (len.toBitVec.setWidth 32))
    let csum := addWord csum (OS_HTONL (proto.toBitVec.setWidth 32))
    let msg ← slice pICMPMsg len.toNat
    let csum := (loads msg).foldl addWord csum
    some ((~~~(foldCsum csum)).setWidth 16)

/-- Whether the header is one of those that are passed, the next protocol, and the offset behind it. -/
def IPv6ExtHdrHandle (pExtHdr : List UInt8) (proto : UInt8) (offset : Nat) :
    Option (Bool × UInt8 × Nat) :=
  if proto = IPV6_NEXT_HEADER_HOP_BY_HOP ∨ proto = IPV6_NEXT_HEADER_DESTINATION ∨
      proto = IPV6_NEXT_HEADER_ROUTING then do
    let nextProto ← pExtHdr[0]?
    let extHdrLen ← pExtHdr[1]?
    some (true, nextProto, offset + (extHdrLen.toNat + 1) * 8)
  else if proto = IPV6_NEXT_HEADER_FRAGMENT then do
    let nextProto ← pExtHdr[0]?
    some (true, nextProto, offset + 8)
  else some (false, 0xff, offset)

theorem lt_of_extHdrHandle {pLayerHdr : List UInt8} {proto next : UInt8} {offset offset' : Nat}
    (h : IPv6ExtHdrHandle (pLayerHdr.drop offset) proto offset = some (true, next, offset')) :
    offset < pLayerHdr.length ∧ offset < offset' := by
  have hread {b : UInt8} (hb : (pLayerHdr.drop offset)[0]? = some b) : offset < pLayerHdr.length := by
    rw [List.getElem?_drop] at hb
    exact (List.getElem?_eq_some_iff.mp hb).1
  unfold IPv6ExtHdrHandle at h
  split at h
  · obtain ⟨nextProto, hnext, h⟩ := Option.bind_eq_some_iff.mp h
    obtain ⟨extHdrLen, -, h⟩ := Option.bind_eq_some_iff.mp h
    cases h
    exact ⟨hread hnext, by omega⟩
  · split at h
    · obtain ⟨nextProto, hnext, h⟩ := Option.bind_eq_some_iff.mp h
      cases h
      exact ⟨hread hnext, by omega⟩
    · cases h

/-- The loop of `MATProto_IPv6_Tx` over the headers, up to one that it stops at. -/
def extHdrLoop (pLayerHdr : List UInt8) (nextProtocol : UInt8) (offset : Nat) :
    Option (UInt8 × Nat) :=
  if nextProtocol ≠ IPV6_NEXT_HEADER_ICMPV6 ∧ nextProtocol ≠ IPV6_NEXT_HEADER_UDP ∧
      nextProtocol ≠ IPV6_NEXT_HEADER_TCP ∧ nextProtocol ≠ IPV6_NEXT_HEADER_NONE then
    match _h : IPv6ExtHdrHandle (pLayerHdr.drop offset) nextProtocol offset with
    | none => none
    | some (false, nextProtocol', offset') => some (nextProtocol', offset')
    | some (true, nextProtocol', offset') => extHdrLoop pLayerHdr nextProtocol' offset'
  else some (nextProtocol, offset)
termination_by pLayerHdr.length - offset
decreasing_by
  have hlt := lt_of_extHdrHandle _h
  omega

/-- By the type of a message: where its options begin, and the one that is looked for. -/
def optionOf (type : UInt8) : Option (Nat × UInt8) :=
  if type = ICMPV6_MSG_TYPE_ROUTER_SOLICITATION then
    some (ROUTER_SOLICITATION_FIXED_LEN, TYPE_SRC_LL_ADDR)
  else if type = ICMPV6_MSG_TYPE_ROUTER_ADVERTISEMENT then
    some (ROUTER_ADVERTISEMENT_FIXED_LEN, TYPE_SRC_LL_ADDR)
  else if type = ICMPV6_MSG_TYPE_NEIGHBOR_SOLICITATION then
    some (NEIGHBOR_SOLICITATION_FIXED_LEN, TYPE_SRC_LL_ADDR)
  else if type = ICMPV6_MSG_TYPE_NEIGHBOR_ADVERTISEMENT then
    some (NEIGHBOR_ADVERTISEMENT_FIXED_LEN, TYPE_TGT_LL_ADDR)
  else if type = ICMPV6_MSG_TYPE_REDIRECT then some (REDIRECT_FIXED_LEN, TYPE_TGT_LL_ADDR)
  else none

/-- The loop over the options; `RT_ICMPV6_OPTION_HDR` has three bytes. -/
def findOption (type : UInt8) (pLayerHdr : List UInt8) (offset : Nat) (leftLen : UInt32) :
    Option (Option Nat) :=
  if 3 < leftLen then
    if hread : offset + 1 < pLayerHdr.length then
      let len := pLayerHdr[offset + 1]
      if hlen : len = 0 then some none
      else if pLayerHdr[offset] = type then some (some (offset + 2))
      else findOption type pLayerHdr (offset + len.toNat * 8) (leftLen - len.toUInt32 * 8)
    else none
  else some none
termination_by pLayerHdr.length - offset
decreasing_by
  have hpos : 0 < pLayerHdr[offset + 1].toNat :=
    Nat.pos_of_ne_zero fun h0 => hlen (UInt8.toNat_inj.mp h0)
  omega

/-- Whether the packet is shared with others, and whether it can be copied. -/
structure Sharing where
  cloned : Bool
  memory : Bool

def OS_PKT_COPY (w : Sharing) (pSkb : Packet) : Option Packet := if w.memory then some pSkb else none

def IS_VLAN_PACKET (b12 b13 : UInt8) : Bool := b12.toNat * 256 + b13.toNat == 0x8100

/-- The link-layer address at `offset` of the IPv6 packet, and the checksum anew. -/
def setLinkAddr (pkt : Packet) (pIPv6Hdr : Nat) (pDevMacAdr : Mac) (ICMPOffset offset : Nat)
    (ICMPMsgLen : UInt32) : Option Packet := do
  let pkt ← store pkt (pIPv6Hdr + offset) pDevMacAdr.toList
  let pkt ← store pkt (pIPv6Hdr + ICMPOffset + 2) [0, 0]
  let saddr ← slice (pkt.drop (pIPv6Hdr + 8)) 16
  let daddr ← slice (pkt.drop (pIPv6Hdr + 24)) 16
  let chksum ← icmpv6_csum saddr daddr ICMPMsgLen.toUInt16 IPV6_NEXT_HEADER_ICMPV6
    (pkt.drop (pIPv6Hdr + ICMPOffset))
  store pkt (pIPv6Hdr + ICMPOffset + 2)
    [⟨chksum.extractLsb' 0 8⟩, ⟨chksum.extractLsb' 8 8⟩]

/-- The packet, and the copy when there is one. -/
def ICMPv6_Handle_Tx (w : Sharing) (pSkb : Packet) (pLayerHdr : Nat) (pDevMacAdr : Mac)
    (offset : Nat) : Option (Packet × Option Packet) := do
  let pIPv6Hdr := pSkb.drop pLayerHdr
  let payloadLen ← ntohs pIPv6Hdr 4
  let ICMPMsgLen := UInt32.ofNat payloadLen + UInt32.ofNat IPV6_HDR_LEN - UInt32.ofNat offset
  let type ← pIPv6Hdr[offset]?
  match optionOf type with
  | none => some (pSkb, none)
  | some (fixedLen, option) =>
    let srcAddr ← slice (pIPv6Hdr.drop 8) 16
    if IS_UNSPECIFIED_IPV6_ADDR srcAddr then some (pSkb, none)
    else
      match ← findOption option pIPv6Hdr (offset + fixedLen) ICMPMsgLen with
      | none => some (pSkb, none)
      | some pSrcMac =>
        let newSkb := if w.cloned then OS_PKT_COPY w pSkb else none
        match newSkb with
        | some newSkb =>
          let b12 ← newSkb[12]?
          let b13 ← newSkb[13]?
          let pIPv6Hdr := if IS_VLAN_PACKET b12 b13 then 18 else 14
          let newSkb ← setLinkAddr newSkb pIPv6Hdr pDevMacAdr offset pSrcMac ICMPMsgLen
          some (pSkb, some newSkb)
        | none =>
          let pSkb ← setLinkAddr pSkb pLayerHdr pDevMacAdr offset pSrcMac ICMPMsgLen
          some (pSkb, none)

/-- What goes into the table, and the packet with its copy. -/
def MATProto_IPv6_Tx (w : Sharing) (pSkb : Packet) (pLayerHdr : Nat) (pDevMacAdr : Mac) :
    Option (Option (Mac × List UInt8) × Packet × Option Packet) := do
  let pSrcMac ← macAt pSkb 6
  let pIPv6Hdr := pSkb.drop pLayerHdr
  let srcAddr ← slice (pIPv6Hdr.drop 8) 16
  let update := if needUpdateIPv6MacTB pSrcMac srcAddr then some (pSrcMac, srcAddr) else none
  let nextHdr ← pIPv6Hdr[6]?
  let (nextProtocol, offset) ← extHdrLoop pIPv6Hdr nextHdr IPV6_HDR_LEN
  if nextProtocol = IPV6_NEXT_HEADER_ICMPV6 then
    (ICMPv6_Handle_Tx w pSkb pLayerHdr pDevMacAdr offset).map (update, ·)
  else some (update, pSkb, none)

end Ralink.Mat
