import Ralink.Igmp.Reports

/-! Reports of IGMPv3 and MLDv2 as their records. The auxiliary data of a record is counted in
words, and the loop over the records goes on by as many bytes. -/
namespace Ralink.Igmp
open Mat (Packet ntohs htons HeaderChain IPV6_HDR_LEN IPV6_NEXT_HEADER_ICMPV6
  IPV6_NEXT_HEADER_HOP_BY_HOP)

/-- A group record; the auxiliary data has four bytes for each of its words. -/
structure Record (f : Family) where
  groupType : UInt8
  group : Vector UInt8 f.addrLen
  numOfSources : Nat
  sources : List UInt8
  auxDataLen : Nat
  aux : List UInt8
  numOfSources_lt : numOfSources < 2 ^ 16
  length_sources : sources.length = numOfSources * f.addrLen
  auxDataLen_lt : auxDataLen < 2 ^ 8
  length_aux : aux.length = 4 * auxDataLen

def groupMac : (f : Family) → List UInt8 → Mac
  | .ip, g => #v[0x01, 0x00, 0x5e, g.getD 1 0 &&& 0x7f, g.getD 2 0, g.getD 3 0]
  | .ipv6, g => #v[0x33, 0x33, g.getD 12 0, g.getD 13 0, g.getD 14 0, g.getD 15 0]

namespace Record

variable {f : Family} (r : Record f)

def bytes : Packet :=
  [r.groupType, UInt8.ofNat r.auxDataLen] ++ htons r.numOfSources ++ r.group.toList ++ r.sources ++
    r.aux

def call : Option Call := groupCall r.groupType r.numOfSources (groupMac f r.group.toList)

theorem length_bytes :
    r.bytes.length = 4 + f.addrLen + r.numOfSources * f.addrLen + 4 * r.auxDataLen := by
  simp [bytes, r.length_sources, r.length_aux]
  omega

end Record

def visits {f : Family} : Nat → List (Record f) → Visits
  | _, [] => []
  | pGroup, r :: records => (pGroup + 4, r.call) :: visits (pGroup + r.bytes.length) records

def reportBytes {f : Family} (type : UInt8) (middle : Vector UInt8 5) (records : List (Record f)) :
    Packet :=
  type :: middle.toList ++ htons records.length ++ records.flatMap Record.bytes

/-- A report of IGMPv3 in a packet of IPv4. -/
structure IgmpReport where
  dst : Mac
  header : List UInt8
  middle : Vector UInt8 5
  records : List (Record .ip)
  behind : List UInt8
  toGroup : isIgmpMacAddr dst = true
  length_header : header.length = (header.headD 0 &&& 0x0f).toNat * 4
  le_header : 20 ≤ header.length
  protocol : header[9]? = some IGMP_PROTOCOL_DESCRIPTOR
  records_lt : records.length < 2 ^ 16

def IgmpReport.bytes (r : IgmpReport) : Packet :=
  htons ETH_P_IP ++ r.header ++ reportBytes IGMP_V3_MEMBERSHIP_REPORT r.middle r.records ++ r.behind

def IgmpReport.Decoded (r : IgmpReport) : Prop :=
  igmpSnooping r.dst r.bytes = some (visits (2 + r.header.length + 8) r.records)

/-- A report of MLDv2 behind the headers of a packet of IPv6. -/
structure MldReport where
  dst : Mac
  headers : List UInt8
  first : UInt8
  middle : Vector UInt8 5
  records : List (Record .ipv6)
  behind : List UInt8
  toGroup : isMldMacAddr dst = true
  nextHdr : headers[6]? = some first
  chain : HeaderChain headers first IPV6_HDR_LEN (some headers.length)
  records_lt : records.length < 2 ^ 16

def MldReport.bytes (r : MldReport) : Packet :=
  htons ETH_P_IPV6 ++ r.headers ++ reportBytes MLD_V2_LISTERNER_REPORT r.middle r.records ++ r.behind

def MldReport.Decoded (r : MldReport) : Prop :=
  mldSnooping r.dst r.bytes = some (visits (2 + r.headers.length + 8) r.records)

section Loop

variable {f : Family} {b pre post : Packet} {p n : Nat} {records : List (Record f)}

theorem getElem?_behind (pre l post : List UInt8) {k : Nat} (hk : k < l.length) :
    (pre ++ (l ++ post))[pre.length + k]? = some (l.getD k 0) := by
  rw [List.getElem?_append_right (Nat.le_add_right _ _), Nat.add_sub_cancel_left,
    List.getElem?_append_left hk, List.getD_eq_getElem?_getD, List.getElem?_eq_getElem hk,
    Option.getD_some]

theorem convert_eq (pre post : Packet) (g : Vector UInt8 f.addrLen) :
    convertMulticastIP2MAC (pre ++ (g.toList ++ post)) pre.length f = some (groupMac f g.toList) := by
  have hlen : g.toList.length = f.addrLen := g.length_toList
  have hread : ∀ k < f.addrLen, (pre ++ (g.toList ++ post))[pre.length + k]? =
      some (g.toList.getD k 0) := fun k hk => getElem?_behind pre g.toList post (hlen.symm ▸ hk)
  cases f with
  | ip =>
    simp only [convertMulticastIP2MAC, hread 1 (by decide), hread 2 (by decide),
      hread 3 (by decide), groupMac, Option.bind_eq_bind, Option.bind_some]
  | ipv6 =>
    simp only [convertMulticastIP2MAC, hread 12 (by decide), hread 13 (by decide),
      hread 14 (by decide), hread 15 (by decide), groupMac, Option.bind_eq_bind,
      Option.bind_some]

theorem groupLoop_record (pre post : Packet) (r : Record f) (n : Nat) :
    groupLoop (pre ++ (r.bytes ++ post)) f (n + 1) pre.length =
      (groupLoop (pre ++ (r.bytes ++ post)) f n
        (pre.length + (4 + f.addrLen + r.numOfSources * f.addrLen + r.auxDataLen))).map
          ((pre.length + 4, r.call) :: ·) := by
  have hsplit : pre ++ (r.bytes ++ post) = pre ++ (r.groupType :: UInt8.ofNat r.auxDataLen ::
      (htons r.numOfSources ++ (r.group.toList ++ (r.sources ++ (r.aux ++ post))))) := by
    simp [Record.bytes]
  have htype : (pre ++ (r.bytes ++ post))[pre.length]? = some r.groupType := by
    rw [hsplit]
    exact Mat.getElem?_append_length pre _ _ _ rfl
  have haux : (pre ++ (r.bytes ++ post))[pre.length + 1]? = some (UInt8.ofNat r.auxDataLen) := by
    rw [hsplit, List.append_cons]
    exact Mat.getElem?_append_length _ _ _ _ (by simp)
  have hsrcs : ntohs (pre ++ (r.bytes ++ post)) (pre.length + 2) = some r.numOfSources := by
    rw [hsplit, List.append_cons, List.append_cons]
    exact Mat.ntohs_eq r.numOfSources_lt (by simp)
  have hgrp : convertMulticastIP2MAC (pre ++ (r.bytes ++ post)) (pre.length + 4) f =
      some (groupMac f r.group.toList) := by
    have hpre : (pre ++ [r.groupType, UInt8.ofNat r.auxDataLen] ++ htons r.numOfSources).length =
        pre.length + 4 := by simp
    have hgroup := convert_eq (pre ++ [r.groupType, UInt8.ofNat r.auxDataLen] ++
      htons r.numOfSources) (r.sources ++ (r.aux ++ post)) r.group
    rw [hpre] at hgroup
    rw [hsplit, ← hgroup]
    simp
  have hlen : (UInt8.ofNat r.auxDataLen).toNat = r.auxDataLen := by
    rw [UInt8.toNat_ofNat']
    exact Nat.mod_eq_of_lt r.auxDataLen_lt
  simp only [groupLoop, htype, haux, hsrcs, hgrp, hlen, Option.bind_eq_bind, Option.bind_some]
  cases groupLoop (pre ++ (r.bytes ++ post)) f n
    (pre.length + (4 + f.addrLen + r.numOfSources * f.addrLen + r.auxDataLen)) <;> rfl

theorem groupLoop_first {l : Visits} (h : groupLoop b f (n + 1) p = some l) :
    l.head?.map Prod.fst = some (p + 4) := by
  obtain ⟨groupType, -, h⟩ := Option.bind_eq_some_iff.mp h
  obtain ⟨auxDataLen, -, h⟩ := Option.bind_eq_some_iff.mp h
  obtain ⟨numOfSources, -, h⟩ := Option.bind_eq_some_iff.mp h
  obtain ⟨grp, -, h⟩ := Option.bind_eq_some_iff.mp h
  obtain ⟨rest, -, h⟩ := Option.bind_eq_some_iff.mp h
  obtain rfl := Option.some.inj h
  rfl

theorem groupLoop_records (pre post : Packet) (records : List (Record f)) :
    groupLoop (pre ++ (records.flatMap Record.bytes ++ post)) f records.length pre.length =
        some (visits pre.length records) ↔
      ∀ r ∈ records.dropLast, r.auxDataLen = 0 := by
  induction records generalizing pre with
  | nil => exact ⟨fun _ r hr => absurd hr List.not_mem_nil, fun _ => rfl⟩
  | cons r records ih =>
    have hsplit : pre ++ ((r :: records).flatMap Record.bytes ++ post) =
        pre ++ (r.bytes ++ (records.flatMap Record.bytes ++ post)) := by simp
    rw [hsplit, List.length_cons, groupLoop_record, visits]
    cases records with
    | nil => exact ⟨fun _ r hr => absurd hr List.not_mem_nil, fun _ => rfl⟩
    | cons r' records =>
      rw [List.dropLast_cons_cons, List.forall_mem_cons]
      by_cases haux : r.auxDataLen = 0
      · have hnext := ih (pre ++ r.bytes)
        have hlen : (pre ++ r.bytes).length =
            pre.length + (4 + f.addrLen + r.numOfSources * f.addrLen + r.auxDataLen) := by
          rw [List.length_append, r.length_bytes, haux]
        rw [List.append_assoc] at hnext
        rw [hlen] at hnext
        rw [show pre.length + r.bytes.length = pre.length + (4 + f.addrLen +
          r.numOfSources * f.addrLen + r.auxDataLen) by rw [← hlen, List.length_append]]
        constructor
        · intro h
          obtain ⟨l, hl, heq⟩ := Option.map_eq_some_iff.mp h
          exact ⟨haux, hnext.mp (hl.trans (congrArg some (List.cons.inj heq).2))⟩
        · intro h
          rw [hnext.mpr h.2]
          rfl
      · refine ⟨fun h => ?_, fun h => absurd h.1 haux⟩
        obtain ⟨l, hl, heq⟩ := Option.map_eq_some_iff.mp h
        have hfirst := groupLoop_first hl
        rw [(List.cons.inj heq).2] at hfirst
        have hplace := Option.some.inj hfirst
        rw [r.length_bytes] at hplace
        omega

theorem reportBytes_read (pre post : Packet) (type : UInt8) (middle : Vector UInt8 5)
    (hrecords : records.length < 2 ^ 16) :
    (pre ++ (reportBytes type middle records ++ post))[pre.length]? = some type ∧
      (ntohs (pre ++ (reportBytes type middle records ++ post)) (pre.length + 6)).bind
        (fun numOfGroup => groupLoop (pre ++ (reportBytes type middle records ++ post)) f numOfGroup
          (pre.length + 8)) =
      groupLoop (pre ++ (type :: middle.toList ++ htons records.length) ++
        (records.flatMap Record.bytes ++ post)) f records.length (pre.length + 8) := by
  have hmiddle : middle.toList.length = 5 := middle.length_toList
  constructor
  · rw [reportBytes, List.append_assoc, List.append_assoc, List.cons_append]
    exact Mat.getElem?_append_length pre _ _ _ rfl
  · have hsplit : pre ++ (reportBytes type middle records ++ post) =
        (pre ++ type :: middle.toList) ++ (htons records.length ++
          (records.flatMap Record.bytes ++ post)) := by simp [reportBytes]
    have hcount : ntohs (pre ++ (reportBytes type middle records ++ post)) (pre.length + 6) =
        some records.length := by
      rw [hsplit]
      exact Mat.ntohs_eq hrecords (by simp)
    rw [hcount, Option.bind_some, hsplit]
    simp

end Loop

theorem IgmpReport.joined_iff (r : IgmpReport) :
    r.Decoded ↔ ∀ g ∈ r.records.dropLast, g.auxDataLen = 0 := by
  have hle := r.le_header
  have hsplit : r.bytes = htons ETH_P_IP ++ (r.header ++
      (reportBytes IGMP_V3_MEMBERSHIP_REPORT r.middle r.records ++ r.behind)) := by
    simp [IgmpReport.bytes]
  have hheader : ∀ k < r.header.length, r.bytes[2 + k]? = r.header[k]? := by
    intro k hk
    rw [hsplit, ← Mat.length_htons ETH_P_IP, List.getElem?_append_right (Nat.le_add_right _ _),
      Nat.add_sub_cancel_left, List.getElem?_append_left hk]
  have hpkt : isIgmpPkt r.dst r.bytes = some true := by
    refine isIgmpPkt_true.mpr ⟨r.toGroup, ?_, ?_⟩
    · rw [hsplit]
      exact @Mat.ntohs_eq [] _ _ (by decide) 0 rfl
    · rw [← r.protocol, ← hheader 9 (by omega)]
  have hfirst : r.bytes[2]? = some (r.header.headD 0) := by
    have hzero := hheader 0 (by omega)
    rw [Nat.add_zero] at hzero
    rw [hzero]
    cases hh : r.header with
    | nil => rw [hh] at hle; exact absurd hle (by decide)
    | cons b l => rfl
  have hpre : (htons ETH_P_IP ++ r.header).length = 2 + r.header.length := by simp
  have hread := reportBytes_read (htons ETH_P_IP ++ r.header) r.behind IGMP_V3_MEMBERSHIP_REPORT
    r.middle r.records_lt
  rw [hpre, List.append_assoc, ← hsplit] at hread
  have hloop := groupLoop_records (htons ETH_P_IP ++ r.header ++
    (IGMP_V3_MEMBERSHIP_REPORT :: r.middle.toList ++ htons r.records.length)) r.behind r.records
  have hstart : (htons ETH_P_IP ++ r.header ++ (IGMP_V3_MEMBERSHIP_REPORT :: r.middle.toList ++
      htons r.records.length)).length = 2 + r.header.length + 8 := by simp; omega
  have hat : 2 + (r.header.headD 0 &&& 0x0f).toNat * 4 = 2 + r.header.length := by
    rw [r.length_header]
  have hjoin : ¬ (IGMP_V3_MEMBERSHIP_REPORT = IGMP_V1_MEMBERSHIP_REPORT ∨
      IGMP_V3_MEMBERSHIP_REPORT = IGMP_V2_MEMBERSHIP_REPORT) := by decide
  have hleave : ¬ IGMP_V3_MEMBERSHIP_REPORT = IGMP_LEAVE_GROUP := by decide
  rw [hstart] at hloop
  simp only [IgmpReport.Decoded, igmpSnooping, hpkt, hfirst, hat, hread.1, hjoin, hleave,
    if_true, if_false, Option.bind_eq_bind, Option.bind_some]
  rw [hread.2]
  exact hloop

theorem chain_append {headers : Packet} {proto : UInt8} {offset : Nat} {r : Option Nat}
    (h : HeaderChain headers proto offset r) (post : Packet) :
    HeaderChain (headers ++ post) proto offset r := by
  have hread : ∀ {k : Nat} {v : UInt8}, headers[k]? = some v → (headers ++ post)[k]? = some v := by
    intro k v hk
    rw [List.getElem?_append_left (List.getElem?_eq_some_iff.mp hk).1, hk]
  induction h with
  | message => exact .message
  | other kind => exact .other kind
  | sized kind hnext hlen _ ih => exact .sized kind (hread hnext) (hread hlen) ih
  | fragment hnext _ ih => exact .fragment (hread hnext) ih

theorem MldReport.joined_iff (r : MldReport) :
    r.Decoded ↔ ∀ g ∈ r.records.dropLast, g.auxDataLen = 0 := by
  have hsplit : r.bytes = htons ETH_P_IPV6 ++ (r.headers ++
      (reportBytes MLD_V2_LISTERNER_REPORT r.middle r.records ++ r.behind)) := by
    simp [MldReport.bytes]
  have hdrop : r.bytes.drop 2 = r.headers ++
      (reportBytes MLD_V2_LISTERNER_REPORT r.middle r.records ++ r.behind) := by
    rw [hsplit, ← Mat.length_htons ETH_P_IPV6, List.drop_left]
  have hproto : ntohs r.bytes 0 = some ETH_P_IPV6 := by
    rw [hsplit]
    exact @Mat.ntohs_eq [] _ _ (by decide) 0 rfl
  have hfirst : (r.bytes.drop 2)[6]? = some r.first := by
    rw [hdrop, List.getElem?_append_left (List.getElem?_eq_some_iff.mp r.nextHdr).1, r.nextHdr]
  have hchain : HeaderChain (r.bytes.drop 2) r.first IPV6_HDR_LEN (some r.headers.length) := by
    rw [hdrop]
    exact chain_append r.chain _
  have hpre : (htons ETH_P_IPV6 ++ r.headers).length = 2 + r.headers.length := by simp
  have hread := reportBytes_read (htons ETH_P_IPV6 ++ r.headers) r.behind MLD_V2_LISTERNER_REPORT
    r.middle r.records_lt
  rw [hpre, List.append_assoc, ← hsplit] at hread
  have hpkt : isMldPkt r.dst r.bytes =
      some (some (MLD_V2_LISTERNER_REPORT, 2 + r.headers.length)) := by
    rw [isMldPkt_message r.toGroup hproto hfirst hchain, hread.1]
    rfl
  have hloop := groupLoop_records (htons ETH_P_IPV6 ++ r.headers ++
    (MLD_V2_LISTERNER_REPORT :: r.middle.toList ++ htons r.records.length)) r.behind r.records
  have hstart : (htons ETH_P_IPV6 ++ r.headers ++ (MLD_V2_LISTERNER_REPORT :: r.middle.toList ++
      htons r.records.length)).length = 2 + r.headers.length + 8 := by simp; omega
  have hjoin : ¬ MLD_V2_LISTERNER_REPORT = MLD_V1_LISTENER_REPORT := by decide
  have hdone : ¬ MLD_V2_LISTERNER_REPORT = MLD_V1_LISTENER_DONE := by decide
  rw [hstart] at hloop
  simp only [MldReport.Decoded, mldSnooping, hpkt, hjoin, hdone, if_true, if_false,
    Option.bind_eq_bind, Option.bind_some]
  rw [hread.2]
  exact hloop

/-- The reports are read record by record just when no record but the last one has auxiliary
data. -/
theorem reports_decoded_iff (igmp : IgmpReport) (mld : MldReport) :
    (igmp.Decoded ↔ ∀ g ∈ igmp.records.dropLast, g.auxDataLen = 0) ∧
      (mld.Decoded ↔ ∀ g ∈ mld.records.dropLast, g.auxDataLen = 0) :=
  ⟨igmp.joined_iff, mld.joined_iff⟩

def joinRecord (last : UInt8) : Record .ip :=
  { groupType := CHANGE_TO_EXCLUDE_MODE, group := #v[239, 1, 1, last], numOfSources := 0
    sources := [], auxDataLen := 0, aux := [], numOfSources_lt := by decide, length_sources := rfl
    auxDataLen_lt := by decide, length_aux := rfl }

def auxRecord : Record .ip :=
  { joinRecord 1 with
    auxDataLen := 1, aux := [0, 0, 0, 0], auxDataLen_lt := by decide, length_aux := rfl }

/-- A station joins two groups, with a word of auxiliary data for the first one. -/
def twoJoins : IgmpReport :=
  { dst := #v[0x01, 0x00, 0x5e, 0, 0, 0x16]
    header := [0x45] ++ List.replicate 8 0 ++ [IGMP_PROTOCOL_DESCRIPTOR] ++ List.replicate 10 0
    middle := .replicate 5 0, records := [auxRecord, joinRecord 2], behind := []
    toGroup := by decide, length_header := by decide, le_header := by decide, protocol := by decide
    records_lt := by decide }

/-- The second group is not joined. -/
theorem twoJoins_lost : ¬ twoJoins.Decoded ∧
    (igmpSnooping twoJoins.dst twoJoins.bytes).map (List.filterMap Prod.snd) =
      some [.insert #v[0x01, 0x00, 0x5e, 1, 1, 1]] ∧
    twoJoins.records.filterMap Record.call =
      [.insert #v[0x01, 0x00, 0x5e, 1, 1, 1], .insert #v[0x01, 0x00, 0x5e, 1, 1, 2]] := by
  refine ⟨fun h => ?_, by decide, by decide⟩
  exact absurd (twoJoins.joined_iff.mp h auxRecord List.mem_cons_self) (by decide)

def listenerRecord (last : UInt8) : Record .ipv6 :=
  { groupType := CHANGE_TO_EXCLUDE_MODE
    group := #v[0xff, 0x0e, 0, 0, 0, 0, 0, 0, 0, 0, 0, 0, 0, 0, 1, last], numOfSources := 0
    sources := [], auxDataLen := 0, aux := [], numOfSources_lt := by decide, length_sources := rfl
    auxDataLen_lt := by decide, length_aux := rfl }

/-- A listener behind a hop by hop header joins two groups, with auxiliary data for the last one. -/
def twoListeners : MldReport :=
  { dst := #v[0x33, 0x33, 0, 0, 0, 0x16]
    headers := List.replicate 40 0 ++ [IPV6_NEXT_HEADER_ICMPV6, 0] ++ List.replicate 6 0
    first := IPV6_NEXT_HEADER_HOP_BY_HOP, middle := .replicate 5 0
    records := [listenerRecord 1, { listenerRecord 2 with
      auxDataLen := 1, aux := [0, 0, 0, 0], auxDataLen_lt := by decide, length_aux := rfl }]
    behind := [], toGroup := by decide, nextHdr := by decide
    chain := .sized List.mem_cons_self rfl rfl .message, records_lt := by decide }

example : twoListeners.Decoded := twoListeners.joined_iff.mpr (by decide)

end Ralink.Igmp
