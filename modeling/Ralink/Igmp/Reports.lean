import Ralink.Igmp.Structure
import Ralink.Mat.Neighbours

/-! What `igmp_snoop.c` reads of the packets of IGMP and MLD, and the calls it makes to the table. A
packet is its bytes from the protocol field on; where one behind it is read, there is `none`.
Nothing is compared with the length of the packet. -/
namespace Ralink.Igmp
open Mat (Packet ntohs IPv6ExtHdrHandle HeaderChain messageAt IPV6_HDR_LEN
  IPV6_NEXT_HEADER_HOP_BY_HOP IPV6_NEXT_HEADER_ICMPV6)

def ETH_P_IP : Nat := 0x0800
def ETH_P_IPV6 : Nat := 0x86DD

def IGMP_PROTOCOL_DESCRIPTOR : UInt8 := 0x02
def IGMP_V1_MEMBERSHIP_REPORT : UInt8 := 0x12
def IGMP_V2_MEMBERSHIP_REPORT : UInt8 := 0x16
def IGMP_LEAVE_GROUP : UInt8 := 0x17
def IGMP_V3_MEMBERSHIP_REPORT : UInt8 := 0x22

def MLD_V1_LISTENER_REPORT : UInt8 := 131
def MLD_V1_LISTENER_DONE : UInt8 := 132
def MLD_V2_LISTERNER_REPORT : UInt8 := 143

def IPV6_NEXT_HEADER_PIM : UInt8 := 0x67

def MODE_IS_INCLUDE : UInt8 := 1
def MODE_IS_EXCLUDE : UInt8 := 2
def CHANGE_TO_INCLUDE_MODE : UInt8 := 3
def CHANGE_TO_EXCLUDE_MODE : UInt8 := 4
def ALLOW_NEW_SOURCES : UInt8 := 5
def BLOCK_OLD_SOURCES : UInt8 := 6

inductive Family where
  | ip
  | ipv6

def Family.addrLen : Family → Nat
  | ip => 4
  | ipv6 => 16

/-- A call to the table for the sender of a packet. -/
inductive Call where
  | insert (grp : Mac)
  | delete (grp : Mac)
  deriving DecidableEq

/-- Where the group addresses are that a packet is read for, in the order of the reads, and the
call that is made for each. -/
abbrev Visits := List (Nat × Option Call)

section Functions

variable (pDstMacAddr : Mac) (pIpHeader : Packet)

def convertMulticastIP2MAC (pIpAddr : Nat) : Family → Option Mac
  | .ip => do
    let b1 ← pIpHeader[pIpAddr + 1]?
    let b2 ← pIpHeader[pIpAddr + 2]?
    let b3 ← pIpHeader[pIpAddr + 3]?
    some #v[0x01, 0x00, 0x5e, b1 &&& 0x7f, b2, b3]
  | .ipv6 => do
    let b12 ← pIpHeader[pIpAddr + 12]?
    let b13 ← pIpHeader[pIpAddr + 13]?
    let b14 ← pIpHeader[pIpAddr + 14]?
    let b15 ← pIpHeader[pIpAddr + 15]?
    some #v[0x33, 0x33, b12, b13, b14, b15]

def isIgmpMacAddr (pMacAddr : Mac) : Bool := pMacAddr.toList.take 3 == [0x01, 0x00, 0x5e]

def isMldMacAddr (pMacAddr : Mac) : Bool := pMacAddr.toList.take 2 == [0x33, 0x33]

def isIpv6MulticastMacAddr (pMacAddr : Mac) : Bool :=
  pMacAddr.toList.headD 0 &&& 0x01 == 0x01 && pMacAddr.toList.headD 0 == 0x33

def isIgmpPkt : Option Bool := do
  let ipProtocol ← ntohs pIpHeader 0
  if ¬ isIgmpMacAddr pDstMacAddr then some false
  else if ipProtocol = ETH_P_IP then
    (pIpHeader[11]?).map (· == IGMP_PROTOCOL_DESCRIPTOR)
  else some false

/-- A loop over extension headers, while the next one is of a kind; it goes on behind one that is
passed. -/
def hdrLoop (more : UInt8 → Bool) (v6 : Packet) (nextProtocol : UInt8) (offset : Nat) :
    Option (UInt8 × Nat) :=
  if more nextProtocol then
    match _h : IPv6ExtHdrHandle (v6.drop offset) nextProtocol offset with
    | none => none
    | some (false, nextProtocol', offset') => some (nextProtocol', offset')
    | some (true, nextProtocol', offset') => hdrLoop more v6 nextProtocol' offset'
  else some (nextProtocol, offset)
termination_by v6.length - offset
decreasing_by
  have hlt := Mat.lt_of_extHdrHandle _h
  omega

/-- The loop of `isMldPkt` goes on. -/
def beforeIcmpv6 (nextProtocol : UInt8) : Bool := nextProtocol != IPV6_NEXT_HEADER_ICMPV6

/-- The loop of `IPv6MulticastFilterExcluded` goes on. -/
def isHopByHop (nextProtocol : UInt8) : Bool := nextProtocol == IPV6_NEXT_HEADER_HOP_BY_HOP

def isSupportedMldMsg (msgType : UInt8) : Bool :=
  msgType ∈ [MLD_V1_LISTENER_REPORT, MLD_V1_LISTENER_DONE, MLD_V2_LISTERNER_REPORT]

/-- The type of the message of MLD and where it begins. -/
def isMldPkt : Option (Option (UInt8 × Nat)) := do
  let ipProtocol ← ntohs pIpHeader 0
  if ¬ isMldMacAddr pDstMacAddr then some none
  else if ipProtocol ≠ ETH_P_IPV6 then some none
  else
    let v6 := pIpHeader.drop 2
    let nextHdr ← v6[6]?
    let (nextProtocol, offset) ← hdrLoop beforeIcmpv6 v6 nextHdr IPV6_HDR_LEN
    if nextProtocol = IPV6_NEXT_HEADER_ICMPV6 then
      (v6[offset]?).map fun type => if isSupportedMldMsg type then some (type, 2 + offset) else none
    else some none

def IPv6MulticastFilterExclued : List UInt8 := [IPV6_NEXT_HEADER_ICMPV6, IPV6_NEXT_HEADER_PIM]

def ipv6MulticastFilterExcluded : Option Bool := do
  let ipProtocol ← ntohs pIpHeader 0
  if ¬ isIpv6MulticastMacAddr pDstMacAddr then some false
  else if ipProtocol ≠ ETH_P_IPV6 then some false
  else
    let v6 := pIpHeader.drop 2
    let nextHdr ← v6[6]?
    (hdrLoop isHopByHop v6 nextHdr IPV6_HDR_LEN).map
      fun r => r.1 ∈ IPv6MulticastFilterExclued

def groupCall (groupType : UInt8) (numOfSources : Nat) (groupMacAddr : Mac) : Option Call :=
  if groupType = MODE_IS_EXCLUDE ∨ groupType = CHANGE_TO_EXCLUDE_MODE ∨
      groupType = ALLOW_NEW_SOURCES then
    some (.insert groupMacAddr)
  else if groupType = CHANGE_TO_INCLUDE_MODE ∨ groupType = MODE_IS_INCLUDE ∨
      groupType = BLOCK_OLD_SOURCES then
    if numOfSources = 0 then some (.delete groupMacAddr) else some (.insert groupMacAddr)
  else none

/-- The loop over the group records of both functions. -/
def groupLoop (f : Family) : Nat → Nat → Option Visits
  | 0, _ => some []
  | numOfGroup + 1, pGroup => do
    let groupType ← pIpHeader[pGroup]?
    let auxDataLen ← pIpHeader[pGroup + 1]?
    let numOfSources ← ntohs pIpHeader (pGroup + 2)
    let groupMacAddr ← convertMulticastIP2MAC pIpHeader (pGroup + 4) f
    let rest ← groupLoop f numOfGroup
      (pGroup + (4 + f.addrLen + numOfSources * f.addrLen + auxDataLen.toNat))
    some ((pGroup + 4, groupCall groupType numOfSources groupMacAddr) :: rest)

def oneGroup (f : Family) (call : Mac → Call) (pGroupIpAddr : Nat) : Option Visits :=
  (convertMulticastIP2MAC pIpHeader pGroupIpAddr f).map fun grp => [(pGroupIpAddr, some (call grp))]

def igmpSnooping : Option Visits := do
  if ← isIgmpPkt pDstMacAddr pIpHeader then
    let first ← pIpHeader[2]?
    let pIgmpHeader := 2 + (first &&& 0x0f).toNat * 4
    let igmpVerType ← pIpHeader[pIgmpHeader]?
    if igmpVerType = IGMP_V1_MEMBERSHIP_REPORT ∨ igmpVerType = IGMP_V2_MEMBERSHIP_REPORT then
      oneGroup pIpHeader .ip .insert (pIgmpHeader + 4)
    else if igmpVerType = IGMP_LEAVE_GROUP then
      oneGroup pIpHeader .ip .delete (pIgmpHeader + 4)
    else if igmpVerType = IGMP_V3_MEMBERSHIP_REPORT then
      (ntohs pIpHeader (pIgmpHeader + 6)).bind fun numOfGroup =>
        groupLoop pIpHeader .ip numOfGroup (pIgmpHeader + 8)
    else some []
  else some []

def mldSnooping : Option Visits := do
  match ← isMldPkt pDstMacAddr pIpHeader with
  | none => some []
  | some (mldType, pMldHeader) =>
    if mldType = MLD_V1_LISTENER_REPORT then oneGroup pIpHeader .ipv6 .insert (pMldHeader + 8)
    else if mldType = MLD_V1_LISTENER_DONE then
      oneGroup pIpHeader .ipv6 .delete (pMldHeader + 8)
    else if mldType = MLD_V2_LISTERNER_REPORT then
      (ntohs pIpHeader (pMldHeader + 6)).bind fun numOfGroup =>
        groupLoop pIpHeader .ipv6 numOfGroup (pMldHeader + 8)
    else some []

end Functions

section Inside

variable (pDstMacAddr : Mac) (b : Packet)

/-- How long the group record at a place is, by the bytes that it counts with. -/
def recordLen (f : Family) (pGroup : Nat) : Nat :=
  4 + f.addrLen + (ntohs b (pGroup + 2)).getD 0 * f.addrLen + ((b[pGroup + 1]?).getD 0).toNat

/-- Where the loop looks for the record `k`. -/
def recordPos (f : Family) (pGroup : Nat) : Nat → Nat
  | 0 => pGroup
  | k + 1 => recordPos f pGroup k + recordLen b f (recordPos f pGroup k)

/-- The heads of the records and the group addresses are inside. -/
def RecordsInside (f : Family) (numOfGroup pGroup : Nat) : Prop :=
  ∀ k < numOfGroup, recordPos b f pGroup k + (4 + f.addrLen) ≤ b.length

/-- The protocol field, and the protocol of a packet to a group of IPv4. -/
def IgmpPktInside : Prop :=
  2 ≤ b.length ∧
    (isIgmpMacAddr pDstMacAddr = true → ntohs b 0 = some ETH_P_IP → 12 ≤ b.length)

/-- Where the message of an IPv4 packet begins. -/
def igmpHeaderAt : Nat := 2 + ((b[2]?).getD 0 &&& 0x0f).toNat * 4

/-- The message at a place, by its type: up to the group address, or the records of a report. -/
def MessageInside (f : Family) (single report : List UInt8) (p gap : Nat) : Prop :=
  ∃ type, b[p]? = some type ∧ (type ∈ single → p + gap + f.addrLen ≤ b.length) ∧
    (type ∈ report →
      p + 8 ≤ b.length ∧ RecordsInside b f ((ntohs b (p + 6)).getD 0) (p + 8))

def IgmpInside : Prop :=
  IgmpPktInside pDstMacAddr b ∧
    (isIgmpMacAddr pDstMacAddr = true → ntohs b 0 = some ETH_P_IP →
      b[11]? = some IGMP_PROTOCOL_DESCRIPTOR →
        MessageInside b .ip [IGMP_V1_MEMBERSHIP_REPORT, IGMP_V2_MEMBERSHIP_REPORT, IGMP_LEAVE_GROUP]
          [IGMP_V3_MEMBERSHIP_REPORT] (igmpHeaderAt b) 4)

/-- The headers of a packet to a group of IPv6 lead inside it to a message, or to something
else. -/
def MldPktInside : Prop :=
  2 ≤ b.length ∧
    (isMldMacAddr pDstMacAddr = true → ntohs b 0 = some ETH_P_IPV6 →
      ∃ first r, (b.drop 2)[6]? = some first ∧ HeaderChain (b.drop 2) first IPV6_HDR_LEN r ∧
        ∀ o, r = some o → 2 + o < b.length)

def MldInside : Prop :=
  MldPktInside pDstMacAddr b ∧
    (isMldMacAddr pDstMacAddr = true → ntohs b 0 = some ETH_P_IPV6 →
      ∀ first o, (b.drop 2)[6]? = some first →
        HeaderChain (b.drop 2) first IPV6_HDR_LEN (some o) →
          MessageInside b .ipv6 [MLD_V1_LISTENER_REPORT, MLD_V1_LISTENER_DONE]
            [MLD_V2_LISTERNER_REPORT] (2 + o) 8)

/-- The options from hop to hop, up to another header. -/
inductive HopChain (v6 : Packet) : UInt8 → Nat → Prop
  | last {proto : UInt8} {offset : Nat} (kind : proto ≠ IPV6_NEXT_HEADER_HOP_BY_HOP) :
      HopChain v6 proto offset
  | hop {next len : UInt8} {offset : Nat} (hnext : v6[offset]? = some next)
      (hlen : v6[offset + 1]? = some len) (rest : HopChain v6 next (offset + (len.toNat + 1) * 8)) :
      HopChain v6 IPV6_NEXT_HEADER_HOP_BY_HOP offset

def FilterInside : Prop :=
  2 ≤ b.length ∧
    (isIpv6MulticastMacAddr pDstMacAddr = true → ntohs b 0 = some ETH_P_IPV6 →
      ∃ first, (b.drop 2)[6]? = some first ∧ HopChain (b.drop 2) first IPV6_HDR_LEN)

end Inside

section Inside

variable {pDstMacAddr : Mac} {b : Packet} {f : Family} {p n : Nat}

theorem isSome_convert : (convertMulticastIP2MAC b p f).isSome = true ↔ p + f.addrLen ≤ b.length := by
  cases f with
  | ip =>
    by_cases h : p + 4 ≤ b.length
    · have hread : ∀ k < 4, ∃ v, b[p + k]? = some v := fun k hk =>
        ⟨_, List.getElem?_eq_getElem (by omega)⟩
      obtain ⟨b1, h1⟩ := hread 1 (by decide)
      obtain ⟨b2, h2⟩ := hread 2 (by decide)
      obtain ⟨b3, h3⟩ := hread 3 (by decide)
      simp [convertMulticastIP2MAC, h1, h2, h3, Family.addrLen, h]
    · have hlast : b[p + 3]? = none := List.getElem?_eq_none (by omega)
      simp [convertMulticastIP2MAC, hlast, Family.addrLen, h]
  | ipv6 =>
    by_cases h : p + 16 ≤ b.length
    · have hread : ∀ k < 16, ∃ v, b[p + k]? = some v := fun k hk =>
        ⟨_, List.getElem?_eq_getElem (by omega)⟩
      obtain ⟨b12, h12⟩ := hread 12 (by decide)
      obtain ⟨b13, h13⟩ := hread 13 (by decide)
      obtain ⟨b14, h14⟩ := hread 14 (by decide)
      obtain ⟨b15, h15⟩ := hread 15 (by decide)
      simp [convertMulticastIP2MAC, h12, h13, h14, h15, Family.addrLen, h]
    · have hlast : b[p + 15]? = none := List.getElem?_eq_none (by omega)
      simp [convertMulticastIP2MAC, hlast, Family.addrLen, h]

theorem recordPos_succ (k : Nat) :
    recordPos b f p (k + 1) = recordPos b f (p + recordLen b f p) k := by
  induction k with
  | zero => rfl
  | succ k ih => rw [recordPos, ih, recordPos]

theorem recordsInside_succ :
    RecordsInside b f (n + 1) p ↔
      p + (4 + f.addrLen) ≤ b.length ∧ RecordsInside b f n (p + recordLen b f p) := by
  constructor
  · intro h
    refine ⟨h 0 (Nat.succ_pos n), fun k hk => ?_⟩
    rw [← recordPos_succ]
    exact h (k + 1) (Nat.succ_lt_succ hk)
  · rintro ⟨hfirst, hrest⟩ k hk
    cases k with
    | zero => exact hfirst
    | succ k =>
      rw [recordPos_succ]
      exact hrest k (Nat.lt_of_succ_lt_succ hk)

theorem groupLoop_isSome : (groupLoop b f n p).isSome = true ↔ RecordsInside b f n p := by
  induction n generalizing p with
  | zero => exact ⟨fun _ k hk => absurd hk (Nat.not_lt_zero k), fun _ => rfl⟩
  | succ n ih =>
    rw [recordsInside_succ, ← ih]
    by_cases h : p + (4 + f.addrLen) ≤ b.length
    · have htype : b[p]? = some b[p] := List.getElem?_eq_getElem (by omega)
      have haux : b[p + 1]? = some b[p + 1] := List.getElem?_eq_getElem (by omega)
      obtain ⟨srcs, hsrcs⟩ := Mat.ntohs_inside (b := b) (p := p + 2) (by omega)
      obtain ⟨grp, hgrp⟩ := Option.isSome_iff_exists.mp
        (isSome_convert (b := b) (f := f) (p := p + 4).mpr (by omega))
      have hlen : recordLen b f p = 4 + f.addrLen + srcs * f.addrLen + b[p + 1].toNat := by
        rw [recordLen, hsrcs, haux, Option.getD_some, Option.getD_some]
      simp only [groupLoop, htype, haux, hsrcs, hgrp, hlen, h, true_and, Option.bind_eq_bind,
        Option.bind_some]
      cases groupLoop b f n (p + (4 + f.addrLen + srcs * f.addrLen + b[p + 1].toNat)) <;> simp
    · have hgrp : convertMulticastIP2MAC b (p + 4) f = none := by
        rw [← Option.not_isSome_iff_eq_none, isSome_convert]
        omega
      simp only [groupLoop, hgrp, h, false_and, iff_false, Option.bind_eq_bind]
      cases b[p]? <;> cases b[p + 1]? <;> cases ntohs b (p + 2) <;> simp

theorem report_isSome :
    ((ntohs b (p + 6)).bind fun numOfGroup => groupLoop b f numOfGroup (p + 8)).isSome = true ↔
      p + 8 ≤ b.length ∧ RecordsInside b f ((ntohs b (p + 6)).getD 0) (p + 8) := by
  by_cases h : p + 8 ≤ b.length
  · obtain ⟨n, hn⟩ := Mat.ntohs_inside (b := b) (p := p + 6) (by omega)
    rw [hn, Option.bind_some, groupLoop_isSome, Option.getD_some]
    exact (and_iff_right h).symm
  · rw [Mat.ntohs_outside (by omega), Option.bind_none]
    exact ⟨fun hsome => absurd hsome Bool.false_ne_true, fun hboth => absurd hboth.1 h⟩

theorem oneGroup_isSome (call : Mac → Call) :
    (oneGroup b f call p).isSome = true ↔ p + f.addrLen ≤ b.length := by
  rw [oneGroup, Option.isSome_map, isSome_convert]

theorem isIgmpPkt_isSome :
    (isIgmpPkt pDstMacAddr b).isSome = true ↔ IgmpPktInside pDstMacAddr b := by
  unfold IgmpPktInside
  by_cases h2 : 2 ≤ b.length
  · obtain ⟨proto, hproto⟩ := Mat.ntohs_inside (b := b) (p := 0) h2
    cases hmac : isIgmpMacAddr pDstMacAddr with
    | false => simp [isIgmpPkt, hproto, hmac, h2]
    | true =>
      by_cases hip : proto = ETH_P_IP
      · simp [isIgmpPkt, hproto, hmac, hip, h2]
        omega
      · simp [isIgmpPkt, hproto, hmac, hip, h2]
  · simp [isIgmpPkt, Mat.ntohs_outside (b := b) (p := 0) h2, h2]

theorem isIgmpPkt_true :
    isIgmpPkt pDstMacAddr b = some true ↔ isIgmpMacAddr pDstMacAddr = true ∧
      ntohs b 0 = some ETH_P_IP ∧ b[11]? = some IGMP_PROTOCOL_DESCRIPTOR := by
  cases hproto : ntohs b 0 with
  | none => simp [isIgmpPkt, hproto]
  | some proto =>
    cases hmac : isIgmpMacAddr pDstMacAddr with
    | false => simp [isIgmpPkt, hproto, hmac]
    | true =>
      by_cases hip : proto = ETH_P_IP
      · cases hb : b[11]? <;> simp [isIgmpPkt, hproto, hmac, hip, hb]
      · simp [isIgmpPkt, hproto, hmac, hip]

theorem byType_iff {type : UInt8} {single report : List UInt8} {A B C : Prop}
    (hsingle : type ∈ single → (C ↔ A)) (hreport : type ∈ report → (C ↔ B))
    (hother : type ∉ single → type ∉ report → C) :
    C ↔ (type ∈ single → A) ∧ (type ∈ report → B) := by
  refine ⟨fun hc => ⟨fun hs => (hsingle hs).mp hc, fun hr => (hreport hr).mp hc⟩, ?_⟩
  rintro ⟨ha, hb⟩
  by_cases hs : type ∈ single
  · exact (hsingle hs).mpr (ha hs)
  · by_cases hr : type ∈ report
    · exact (hreport hr).mpr (hb hr)
    · exact hother hs hr

theorem igmpMessage_isSome :
    ((b[p]?).bind fun igmpVerType =>
      if igmpVerType = IGMP_V1_MEMBERSHIP_REPORT ∨ igmpVerType = IGMP_V2_MEMBERSHIP_REPORT then
        oneGroup b .ip .insert (p + 4)
      else if igmpVerType = IGMP_LEAVE_GROUP then oneGroup b .ip .delete (p + 4)
      else if igmpVerType = IGMP_V3_MEMBERSHIP_REPORT then
        (ntohs b (p + 6)).bind fun numOfGroup => groupLoop b .ip numOfGroup (p + 8)
      else some []).isSome = true ↔
    MessageInside b .ip [IGMP_V1_MEMBERSHIP_REPORT, IGMP_V2_MEMBERSHIP_REPORT, IGMP_LEAVE_GROUP]
      [IGMP_V3_MEMBERSHIP_REPORT] p 4 := by
  unfold MessageInside
  cases b[p]? with
  | none => simp
  | some type =>
    simp only [Option.bind_some, Option.some.injEq, exists_eq_left']
    apply byType_iff
    · intro hs
      simp only [List.mem_cons, List.not_mem_nil, or_false] at hs
      rcases hs with rfl | rfl | rfl
      · exact oneGroup_isSome .insert
      · exact oneGroup_isSome .insert
      · exact oneGroup_isSome .delete
    · intro hr
      obtain rfl := List.mem_singleton.mp hr
      exact report_isSome
    · intro hs hr
      simp only [List.mem_cons, List.not_mem_nil, or_false, not_or] at hs hr
      rw [if_neg (not_or_intro hs.1 hs.2.1), if_neg hs.2.2, if_neg hr]
      rfl

theorem igmpSnooping_isSome :
    (igmpSnooping pDstMacAddr b).isSome = true ↔ IgmpInside pDstMacAddr b := by
  unfold IgmpInside
  rw [← isIgmpPkt_isSome]
  cases hpkt : isIgmpPkt pDstMacAddr b with
  | none => simp [igmpSnooping, hpkt]
  | some yes =>
    cases yes with
    | false =>
      have hno := @isIgmpPkt_true pDstMacAddr b
      rw [hpkt] at hno
      simp only [igmpSnooping, hpkt, Option.bind_eq_bind, Option.bind_some, Bool.false_eq_true,
        if_false, Option.isSome_some, true_and, true_iff]
      intro hmac hip hproto
      exact absurd (hno.mpr ⟨hmac, hip, hproto⟩) (by simp)
    | true =>
      obtain ⟨hmac, hip, hproto⟩ := isIgmpPkt_true.mp hpkt
      have h12 : 12 ≤ b.length := (List.getElem?_eq_some_iff.mp hproto).1
      have hfirst : b[2]? = some b[2] := List.getElem?_eq_getElem (by omega)
      have hat : 2 + (b[2] &&& 0x0f).toNat * 4 = igmpHeaderAt b := by
        rw [igmpHeaderAt, hfirst, Option.getD_some]
      simp only [igmpSnooping, hpkt, hfirst, hat, hmac, hip, hproto, Option.bind_eq_bind,
        Option.bind_some, if_true, Option.isSome_some, true_and, forall_const]
      generalize igmpHeaderAt b = p
      exact igmpMessage_isSome

section Headers

variable {more : UInt8 → Bool} {v6 : Packet} {proto next : UInt8} {offset offset' : Nat}
  {r : Option Nat}

theorem hdrLoop_done (hmore : more proto = false) :
    hdrLoop more v6 proto offset = some (proto, offset) := by
  rw [hdrLoop, hmore]
  exact if_neg Bool.false_ne_true

theorem hdrLoop_stop (hmore : more proto = true)
    (h : IPv6ExtHdrHandle (v6.drop offset) proto offset = some (false, next, offset')) :
    hdrLoop more v6 proto offset = some (next, offset') := by
  rw [hdrLoop, if_pos hmore]
  split
  · next hstep => exact absurd (hstep.symm.trans h) (by simp)
  · next hstep =>
    rw [h] at hstep
    cases hstep
    rfl
  · next hstep => exact absurd (hstep.symm.trans h) (by simp)

theorem hdrLoop_step (hmore : more proto = true)
    (h : IPv6ExtHdrHandle (v6.drop offset) proto offset = some (true, next, offset')) :
    hdrLoop more v6 proto offset = hdrLoop more v6 next offset' := by
  rw [hdrLoop, if_pos hmore]
  split
  · next hstep => exact absurd (hstep.symm.trans h) (by simp)
  · next hstep => exact absurd (hstep.symm.trans h) (by simp)
  · next hstep =>
    rw [h] at hstep
    cases hstep
    rfl

theorem hdrLoop_outside (hmore : more proto = true)
    (h : IPv6ExtHdrHandle (v6.drop offset) proto offset = none) :
    hdrLoop more v6 proto offset = none := by
  rw [hdrLoop, if_pos hmore]
  split
  · rfl
  · next hstep => exact absurd (hstep.symm.trans h) (by simp)
  · next hstep => exact absurd (hstep.symm.trans h) (by simp)

theorem more_icmpv6 : beforeIcmpv6 proto = true ↔ proto ≠ IPV6_NEXT_HEADER_ICMPV6 := bne_iff_ne

theorem more_hop : isHopByHop proto = true ↔ proto = IPV6_NEXT_HEADER_HOP_BY_HOP := beq_iff_eq

theorem hdrLoop_of_chain (h : HeaderChain v6 proto offset r) :
    ∃ next, hdrLoop beforeIcmpv6 v6 proto offset = some next ∧
      messageAt next = r := by
  induction h with
  | @message offset => exact ⟨_, hdrLoop_done (by decide), rfl⟩
  | @other proto offset kind =>
    simp only [List.mem_cons, List.not_mem_nil, or_false, not_or] at kind
    have hstop : IPv6ExtHdrHandle (v6.drop offset) proto offset = some (false, 0xff, offset) := by
      rw [IPv6ExtHdrHandle, if_neg (by tauto), if_neg (by tauto)]
    exact ⟨_, hdrLoop_stop (more_icmpv6.mpr kind.1) hstop, rfl⟩
  | @sized proto next len offset r kind hnext hlen rest ih =>
    rw [hdrLoop_step ?_ (Mat.extHdrHandle_sized kind hnext hlen)]
    · exact ih
    · simp only [List.mem_cons, List.not_mem_nil, or_false] at kind
      rcases kind with rfl | rfl | rfl <;> decide
  | @fragment next offset r hnext rest ih =>
    rw [hdrLoop_step (by decide) (Mat.extHdrHandle_fragment hnext)]
    exact ih

theorem chain_of_hdrLoop {at' : UInt8 × Nat}
    (h : hdrLoop beforeIcmpv6 v6 proto offset = some at') :
    HeaderChain v6 proto offset (messageAt at') := by
  induction proto, offset using hdrLoop.induct beforeIcmpv6 v6 with
  | case1 proto offset hmore hnone =>
    rw [hdrLoop_outside hmore hnone] at h
    cases h
  | case2 proto offset hmore next' offset' hstop =>
    rw [hdrLoop_stop hmore hstop] at h
    cases h
    obtain ⟨hnext, hkind⟩ := Mat.not_passed_of_handle hstop
    rw [messageAt, if_neg hnext]
    exact .other (List.not_mem_cons_of_ne_of_not_mem (more_icmpv6.mp hmore) hkind)
  | case3 proto offset hmore next' offset' hstep ih =>
    rw [hdrLoop_step hmore hstep] at h
    exact Mat.chain_of_handle hstep (ih h)
  | case4 proto offset hstop =>
    rw [Bool.not_eq_true] at hstop
    rw [hdrLoop_done hstop] at h
    cases h
    obtain rfl : proto = IPV6_NEXT_HEADER_ICMPV6 := by simpa [beforeIcmpv6] using hstop
    exact .message

theorem hopLoop_isSome :
    (hdrLoop isHopByHop v6 proto offset).isSome = true ↔
      HopChain v6 proto offset := by
  constructor
  · intro h
    induction proto, offset using hdrLoop.induct isHopByHop v6 with
    | case1 proto offset hmore hnone =>
      rw [hdrLoop_outside hmore hnone] at h
      cases h
    | case2 proto offset hmore next' offset' hstop =>
      obtain rfl := more_hop.mp hmore
      exact absurd (Mat.not_passed_of_handle hstop).2 (by decide)
    | case3 proto offset hmore next' offset' hstep ih =>
      rw [hdrLoop_step hmore hstep] at h
      obtain rfl := more_hop.mp hmore
      have hrest := ih h
      rw [IPv6ExtHdrHandle, if_pos (.inl rfl)] at hstep
      obtain ⟨next, hnext, hstep⟩ := Option.bind_eq_some_iff.mp hstep
      obtain ⟨len, hlen, hstep⟩ := Option.bind_eq_some_iff.mp hstep
      cases hstep
      rw [List.getElem?_drop] at hnext hlen
      exact .hop hnext hlen hrest
    | case4 proto offset hstop => exact .last fun hp => hstop (more_hop.mpr hp)
  · intro h
    induction h with
    | @last proto offset kind =>
      rw [hdrLoop_done (by simpa [isHopByHop] using kind)]
      rfl
    | @hop next len offset hnext hlen rest ih =>
      rw [hdrLoop_step (by decide) (Mat.extHdrHandle_sized (by decide) hnext hlen)]
      exact ih

end Headers

section Mld

variable {type first : UInt8} {o : Nat}

theorem isMldPkt_other (h2 : 2 ≤ b.length)
    (h : ¬ (isMldMacAddr pDstMacAddr = true ∧ ntohs b 0 = some ETH_P_IPV6)) :
    isMldPkt pDstMacAddr b = some none := by
  obtain ⟨proto, hproto⟩ := Mat.ntohs_inside (b := b) (p := 0) h2
  rw [hproto] at h
  cases hmac : isMldMacAddr pDstMacAddr with
  | false => simp [isMldPkt, hproto, hmac]
  | true =>
    have hip : proto ≠ ETH_P_IPV6 := fun heq => h ⟨hmac, by rw [heq]⟩
    simp [isMldPkt, hproto, hmac, hip]

section

variable (hmac : isMldMacAddr pDstMacAddr = true)
include hmac

theorem isMldPkt_ipv6 (hip : ntohs b 0 = some ETH_P_IPV6) :
    isMldPkt pDstMacAddr b = ((b.drop 2)[6]?).bind fun nextHdr =>
      (hdrLoop beforeIcmpv6 (b.drop 2) nextHdr IPV6_HDR_LEN).bind fun r =>
        if r.1 = IPV6_NEXT_HEADER_ICMPV6 then
          ((b.drop 2)[r.2]?).map fun type =>
            if isSupportedMldMsg type then some (type, 2 + r.2) else none
        else some none := by
  simp only [isMldPkt, hip, hmac, not_true, if_false, ne_eq, Option.bind_eq_bind, Option.bind_some]

theorem isMldPkt_none (hip : ntohs b 0 = some ETH_P_IPV6) (hfirst : (b.drop 2)[6]? = some first)
    (hchain : HeaderChain (b.drop 2) first IPV6_HDR_LEN none) :
    isMldPkt pDstMacAddr b = some none := by
  obtain ⟨at', hloop, hat⟩ := hdrLoop_of_chain hchain
  have hno : at'.1 ≠ IPV6_NEXT_HEADER_ICMPV6 := by
    intro heq
    rw [messageAt, if_pos heq] at hat
    cases hat
  rw [isMldPkt_ipv6 hmac hip, hfirst, Option.bind_some, hloop, Option.bind_some, if_neg hno]

theorem isMldPkt_message (hip : ntohs b 0 = some ETH_P_IPV6) (hfirst : (b.drop 2)[6]? = some first)
    (hchain : HeaderChain (b.drop 2) first IPV6_HDR_LEN (some o)) :
    isMldPkt pDstMacAddr b =
      (b[2 + o]?).map fun type => if isSupportedMldMsg type then some (type, 2 + o) else none := by
  obtain ⟨⟨proto, offset⟩, hloop, hat⟩ := hdrLoop_of_chain hchain
  have hmessage : proto = IPV6_NEXT_HEADER_ICMPV6 ∧ offset = o := by
    by_cases heq : proto = IPV6_NEXT_HEADER_ICMPV6
    · rw [messageAt, if_pos heq] at hat
      exact ⟨heq, Option.some.inj hat⟩
    · rw [messageAt, if_neg heq] at hat
      cases hat
  obtain ⟨rfl, rfl⟩ := hmessage
  rw [isMldPkt_ipv6 hmac hip, hfirst, Option.bind_some, hloop, Option.bind_some, if_pos rfl,
    List.getElem?_drop]

end

theorem isMldPkt_cases :
    (isMldPkt pDstMacAddr b = none ∧ ¬ MldPktInside pDstMacAddr b) ∨
    (isMldPkt pDstMacAddr b = some none ∧ MldPktInside pDstMacAddr b ∧
      ∀ first o, isMldMacAddr pDstMacAddr = true → ntohs b 0 = some ETH_P_IPV6 →
        (b.drop 2)[6]? = some first →
          ¬ HeaderChain (b.drop 2) first IPV6_HDR_LEN (some o)) ∨
    ∃ first o type, isMldMacAddr pDstMacAddr = true ∧ ntohs b 0 = some ETH_P_IPV6 ∧
      (b.drop 2)[6]? = some first ∧ HeaderChain (b.drop 2) first IPV6_HDR_LEN (some o) ∧
      b[2 + o]? = some type ∧ MldPktInside pDstMacAddr b ∧
      isMldPkt pDstMacAddr b = some (if isSupportedMldMsg type then some (type, 2 + o) else none) := by
  by_cases h2 : 2 ≤ b.length
  · by_cases hv6 : isMldMacAddr pDstMacAddr = true ∧ ntohs b 0 = some ETH_P_IPV6
    · obtain ⟨hmac, hip⟩ := hv6
      cases hfirst : (b.drop 2)[6]? with
      | none =>
        refine .inl ⟨by rw [isMldPkt_ipv6 hmac hip, hfirst, Option.bind_none], fun hin => ?_⟩
        obtain ⟨first, r, hread, -⟩ := hin.2 hmac hip
        cases hfirst.symm.trans hread
      | some first =>
        by_cases hchain : ∃ r, HeaderChain (b.drop 2) first IPV6_HDR_LEN r
        · obtain ⟨r, hchain⟩ := hchain
          cases r with
          | none =>
            refine .inr (.inl ⟨isMldPkt_none hmac hip hfirst hchain, ⟨h2, fun _ _ =>
              ⟨first, none, hfirst, hchain, fun o ho => by cases ho⟩⟩, ?_⟩)
            intro first' o _ _ hfirst' hchain'
            obtain rfl := Option.some.inj hfirst'
            cases hchain.unique hchain'
          | some o =>
            have hpkt := isMldPkt_message hmac hip hfirst hchain
            cases htype : b[2 + o]? with
            | none =>
              rw [htype] at hpkt
              refine .inl ⟨hpkt, fun hin => ?_⟩
              obtain ⟨first', r, hfirst', hchain', hlt⟩ := hin.2 hmac hip
              obtain rfl := Option.some.inj (hfirst.symm.trans hfirst')
              have hread := hlt o (hchain.unique hchain').symm
              exact absurd (List.getElem?_eq_none_iff.mp htype) (by omega)
            | some type =>
              rw [htype] at hpkt
              refine .inr (.inr ⟨first, o, type, hmac, hip, rfl, hchain, htype, ?_, hpkt⟩)
              refine ⟨h2, fun _ _ => ⟨first, some o, hfirst, hchain, fun o' ho => ?_⟩⟩
              obtain rfl := Option.some.inj ho
              exact (List.getElem?_eq_some_iff.mp htype).1
        · refine .inl ⟨?_, fun hin => ?_⟩
          · have hloop : hdrLoop beforeIcmpv6 (b.drop 2) first IPV6_HDR_LEN = none := by
              cases h : hdrLoop beforeIcmpv6 (b.drop 2) first IPV6_HDR_LEN with
              | none => rfl
              | some at' => exact absurd ⟨_, chain_of_hdrLoop h⟩ hchain
            rw [isMldPkt_ipv6 hmac hip, hfirst, Option.bind_some, hloop, Option.bind_none]
          · obtain ⟨first', r, hfirst', hchain', -⟩ := hin.2 hmac hip
            obtain rfl := Option.some.inj (hfirst.symm.trans hfirst')
            exact hchain ⟨r, hchain'⟩
    · exact .inr (.inl ⟨isMldPkt_other h2 hv6, ⟨h2, fun hmac hip => absurd ⟨hmac, hip⟩ hv6⟩,
        fun _ _ hmac hip => absurd ⟨hmac, hip⟩ hv6⟩)
  · refine .inl ⟨?_, fun hin => h2 hin.1⟩
    rw [isMldPkt, Mat.ntohs_outside h2]
    rfl

theorem isMldPkt_isSome :
    (isMldPkt pDstMacAddr b).isSome = true ↔ MldPktInside pDstMacAddr b := by
  rcases @isMldPkt_cases pDstMacAddr b with
    ⟨hpkt, hout⟩ | ⟨hpkt, hin, -⟩ | ⟨first, o, type, -, -, -, -, -, hin, hpkt⟩
  · simp [hpkt, hout]
  · simp [hpkt, hin]
  · simp [hpkt, hin]

theorem mldMessage_isSome (htype : b[p]? = some type) :
    (match if isSupportedMldMsg type then some (type, p) else none with
      | none => some []
      | some (mldType, pMldHeader) =>
        if mldType = MLD_V1_LISTENER_REPORT then oneGroup b .ipv6 .insert (pMldHeader + 8)
        else if mldType = MLD_V1_LISTENER_DONE then oneGroup b .ipv6 .delete (pMldHeader + 8)
        else if mldType = MLD_V2_LISTERNER_REPORT then
          (ntohs b (pMldHeader + 6)).bind fun numOfGroup =>
            groupLoop b .ipv6 numOfGroup (pMldHeader + 8)
        else some []).isSome = true ↔
    MessageInside b .ipv6 [MLD_V1_LISTENER_REPORT, MLD_V1_LISTENER_DONE]
      [MLD_V2_LISTERNER_REPORT] p 8 := by
  unfold MessageInside
  simp only [htype, Option.some.injEq, exists_eq_left']
  apply byType_iff
  · intro hs
    simp only [List.mem_cons, List.not_mem_nil, or_false] at hs
    rcases hs with rfl | rfl
    · exact oneGroup_isSome .insert
    · exact oneGroup_isSome .delete
  · intro hr
    obtain rfl := List.mem_singleton.mp hr
    exact report_isSome
  · intro hs hr
    have hother : isSupportedMldMsg type = false := by
      simp only [List.mem_cons, List.not_mem_nil, or_false, not_or] at hs hr
      simp [isSupportedMldMsg, hs, hr]
    rw [hother]
    rfl

theorem mldSnooping_isSome :
    (mldSnooping pDstMacAddr b).isSome = true ↔ MldInside pDstMacAddr b := by
  unfold MldInside
  rcases @isMldPkt_cases pDstMacAddr b with
    ⟨hpkt, hout⟩ | ⟨hpkt, hin, hno⟩ | ⟨first, o, type, hmac, hip, hfirst, hchain, htype, hin, hpkt⟩
  · simp [mldSnooping, hpkt, hout]
  · simp only [mldSnooping, hpkt, hin, Option.bind_eq_bind, Option.bind_some, Option.isSome_some,
      true_and, true_iff]
    intro hmac hip first o hfirst hchain
    exact absurd hchain (hno first o hmac hip hfirst)
  · simp only [mldSnooping, hpkt, hin, hmac, hip, Option.bind_eq_bind, Option.bind_some, true_and,
      forall_const]
    refine (mldMessage_isSome htype).trans ⟨fun h first' o' hfirst' hchain' => ?_, fun h => ?_⟩
    · obtain rfl := Option.some.inj (hfirst.symm.trans hfirst')
      obtain rfl := Option.some.inj (hchain.unique hchain')
      exact h
    · exact h first o hfirst hchain

end Mld

theorem filterExcluded_isSome :
    (ipv6MulticastFilterExcluded pDstMacAddr b).isSome = true ↔ FilterInside pDstMacAddr b := by
  unfold FilterInside
  by_cases h2 : 2 ≤ b.length
  · obtain ⟨proto, hproto⟩ := Mat.ntohs_inside (b := b) (p := 0) h2
    cases hmac : isIpv6MulticastMacAddr pDstMacAddr with
    | false => simp [ipv6MulticastFilterExcluded, hproto, hmac, h2]
    | true =>
      by_cases hip : proto = ETH_P_IPV6
      · simp only [ipv6MulticastFilterExcluded, hproto, hmac, hip, h2, not_true, ne_eq, if_false,
          true_and, forall_const, Option.bind_eq_bind, Option.bind_some]
        cases (b.drop 2)[6]? with
        | none => simp
        | some first => simp [hopLoop_isSome]
      · simp [ipv6MulticastFilterExcluded, hproto, hmac, hip, h2]
  · simp [ipv6MulticastFilterExcluded, Mat.ntohs_outside (b := b) (p := 0) h2, h2]

/-- Where the functions end and read nothing behind the packet. -/
theorem snooping_inside_iff (pDstMacAddr : Mac) (b : Packet) :
    ((isMldPkt pDstMacAddr b).isSome = true ↔ MldPktInside pDstMacAddr b) ∧
      ((ipv6MulticastFilterExcluded pDstMacAddr b).isSome = true ↔ FilterInside pDstMacAddr b) ∧
      ((mldSnooping pDstMacAddr b).isSome = true ↔ MldInside pDstMacAddr b) ∧
      ((igmpSnooping pDstMacAddr b).isSome = true ↔ IgmpInside pDstMacAddr b) :=
  ⟨isMldPkt_isSome, filterExcluded_isSome, mldSnooping_isSome, igmpSnooping_isSome⟩

/-- A header of IPv6 that announces options from hop to hop, and nothing behind it. -/
def bareHeader : Packet := Mat.htons ETH_P_IPV6 ++ List.replicate 40 0

def shortReport : Packet :=
  Mat.htons ETH_P_IP ++ ([0x45] ++ List.replicate 8 0 ++ [IGMP_PROTOCOL_DESCRIPTOR] ++
    List.replicate 10 0) ++ [IGMP_V3_MEMBERSHIP_REPORT, 0, 0, 0, 0, 0] ++ Mat.htons 2 ++
    [CHANGE_TO_EXCLUDE_MODE, 0, 0, 0, 239, 1, 1, 1]

theorem reads_outside :
    isMldPkt #v[0x33, 0x33, 0, 0, 0, 0x16] bareHeader = none ∧
      ipv6MulticastFilterExcluded #v[0x33, 0x33, 0, 0, 0, 0x16] bareHeader = none ∧
      mldSnooping #v[0x33, 0x33, 0, 0, 0, 0x16] bareHeader = none ∧
      igmpSnooping #v[0x01, 0x00, 0x5e, 0, 0, 0x16] shortReport = none := by
  have hprotocol : ntohs bareHeader 0 = some ETH_P_IPV6 := by decide
  have hfirst : (bareHeader.drop 2)[6]? = some IPV6_NEXT_HEADER_HOP_BY_HOP := by decide
  have hend : IPv6ExtHdrHandle ((bareHeader.drop 2).drop IPV6_HDR_LEN) IPV6_NEXT_HEADER_HOP_BY_HOP
      IPV6_HDR_LEN = none := by decide
  have hmld : isMldPkt #v[0x33, 0x33, 0, 0, 0, 0x16] bareHeader = none := by
    rw [isMldPkt_ipv6 (by decide) hprotocol, hfirst, Option.bind_some,
      hdrLoop_outside (by decide) hend, Option.bind_none]
  refine ⟨hmld, ?_, ?_, by decide⟩
  · have hmac : isIpv6MulticastMacAddr #v[0x33, 0x33, 0, 0, 0, 0x16] = true := by decide
    simp only [ipv6MulticastFilterExcluded, hprotocol, hmac, hfirst, hdrLoop_outside (show
      isHopByHop IPV6_NEXT_HEADER_HOP_BY_HOP = true by decide) hend, not_true, ne_eq, if_false,
      Option.bind_eq_bind, Option.bind_some, Option.map_none]
  · rw [mldSnooping, hmld]
    rfl

end Inside

end Ralink.Igmp
