import Ralink.Rx.Amsdu

/-! MSDUs laid out as subframes, and the packets that should be announced for them. -/
namespace Ralink.Rx
open ByteStore (Store readBytes writeBytes)

/-- An MSDU with what pads its subframe when another follows. -/
structure Msdu where
  DA : List UInt8
  SA : List UInt8
  payload : List UInt8
  padding : List UInt8
  length_DA : DA.length = 6
  length_SA : SA.length = 6
  payload_pos : 1 ≤ payload.length
  payload_le : payload.length ≤ 1518
  length_padding : padding.length = (4 - (14 + payload.length) % 4) % 4

namespace Msdu

def subframe (m : Msdu) : List UInt8 := m.DA ++ (m.SA ++ (be16 m.payload.length ++ m.payload))

/-- The header of the payload that is taken off. -/
def Stripped (m : Msdu) : Prop := 8 ≤ m.payload.length ∧ Removable (m.payload.take 8)

def packet (vlan : UInt16 × UInt16) (m : Msdu) : List UInt8 := packetOf vlan m.DA m.SA m.payload

end Msdu

def layout : List Msdu → List UInt8
  | [] => []
  | [m] => m.subframe
  | m :: m' :: ms => m.subframe ++ (m.padding ++ layout (m' :: ms))

/-- The packets are announced, and the memory they lie in stays as it is. -/
def Recovers (vlan : UInt16 × UInt16) (ms : List Msdu) (d : Deaggregated) : Prop :=
  d.announced.map Announced.packet = ms.map (Msdu.packet vlan) ∧
    ∀ a ∈ d.announced, readBytes d.memory a.pPayload a.packet.length = a.packet

/-- All have a header that is taken off, and those in front of the last are neither too short nor too
long. -/
def Recoverable (ms : List Msdu) : Prop :=
  (∀ m ∈ ms, m.Stripped) ∧
    ∀ m ∈ ms.dropLast, 15 ≤ m.payload.length ∧ m.payload.length ≤ 1514

section Memory

variable {size : Nat} {cfg : ApCfg} {FromWhichBSSID pData DataSize nMSDU : Nat} {f : Store} {m : Msdu}
  {ms : List Msdu} {vlan : UInt16 × UInt16}

theorem toNat_be16 {n : Nat} (h : n < 65536) : (payloadSize (be16 n)).toNat = n := by
  have hlow : (UInt8.ofNat n).toUInt16.toNat = n % 256 := by
    rw [UInt8.toNat_toUInt16, UInt8.toNat_ofNat']
  have hhigh : ((UInt8.ofNat (n / 256)).toUInt16 <<< 8).toNat = n / 256 * 256 := by
    rw [UInt16.toNat_shiftLeft, UInt8.toNat_toUInt16, UInt8.toNat_ofNat', Nat.shiftLeft_eq]
    show n / 256 % 256 * 256 % 65536 = _
    omega
  show ((UInt8.ofNat n).toUInt16 + (UInt8.ofNat (n / 256)).toUInt16 <<< 8).toNat = n
  rw [UInt16.toNat_add, hlow, hhigh]
  omega

structure Lies (f : Store) (pData : Nat) (m : Msdu) : Prop where
  DA : readBytes f pData 6 = m.DA
  SA : readBytes f (pData + 6) 6 = m.SA
  size : readBytes f (pData + 12) 2 = be16 m.payload.length
  payload : readBytes f (pData + 14) m.payload.length = m.payload

theorem lies_of_read (h : readBytes f pData m.subframe.length = m.subframe) : Lies f pData m := by
  obtain ⟨hDA, h⟩ := ByteStore.readBytes_append_iff.mp h
  obtain ⟨hSA, h⟩ := ByteStore.readBytes_append_iff.mp h
  obtain ⟨hsize, hpayload⟩ := ByteStore.readBytes_append_iff.mp h
  rw [m.length_DA] at hDA hSA hsize hpayload
  rw [m.length_SA] at hSA hsize hpayload
  exact ⟨hDA, hSA, hsize, hpayload⟩

theorem Lies.namedSize (h : Lies f pData m) : (namedSize f pData).toNat = m.payload.length := by
  have hle := m.payload_le
  rw [Rx.namedSize, h.size, toNat_be16 (by omega)]

theorem Lies.hasSnap_iff (h : Lies f pData m) : HasSnap f pData (Rx.namedSize f pData) ↔ m.Stripped := by
  rw [HasSnap, h.namedSize, Msdu.Stripped]
  refine and_congr_right fun h8 => ?_
  rw [(read_payload h8 h.payload).1]

theorem Lies.packet_eq (h : Lies f pData m) (hstrip : m.Stripped) :
    (convertedPacket cfg FromWhichBSSID pData (Rx.namedSize f pData) f).packet =
      m.packet (MBSS_VLAN_INFO_GET cfg FromWhichBSSID) := by
  obtain ⟨-, htype, hrest⟩ := read_payload hstrip.1 h.payload
  have htype : readBytes f (pData + 20) 2 = _ := htype
  have hrest : readBytes f (pData + 22) (m.payload.length - 8) = _ := hrest
  show VLAN_8023_Header_Copy _ (readBytes f pData 6 ++ readBytes f (pData + 6) 6 ++ _) ++ _ = _
  rw [h.DA, h.SA, htype, h.namedSize, hrest, headerCopy_eq m.length_DA m.length_SA, Msdu.packet,
    packetOf, if_pos (encapsulated_of_removable hstrip.1 hstrip.2)]
  simp only [List.append_assoc]

theorem Lies.packet_ne {a : Announced × Store} (h : Lies f pData m) (hstrip : ¬ m.Stripped)
    (hin : pData + 14 ≤ size)
    (ha : announceSubframe size cfg FromWhichBSSID pData (Rx.namedSize f pData) f = some a) :
    a.1.packet ≠ m.packet (MBSS_VLAN_INFO_GET cfg FromWhichBSSID) := by
  intro heq
  have hlen := congrArg List.length heq
  rw [Msdu.packet, length_packetOf m.length_DA m.length_SA, length_vlanTag] at hlen
  have hmax : (Rx.namedSize f pData).toNat ≤ 1518 := h.namedSize ▸ m.payload_le
  have hother := announceSubframe_other hmax hin (mt h.hasSnap_iff.mp hstrip) ha
  rw [h.namedSize] at hother
  split at hlen
  · next henc =>
    have h8 := henc.1
    omega
  · omega

end Memory

section Loop

variable {size : Nat} {cfg : ApCfg} {FromWhichBSSID pData nMSDU : Nat} {f : Store} {m m' : Msdu}
  {ms : List Msdu} {d : Deaggregated}

theorem length_subframe (m : Msdu) : m.subframe.length = m.payload.length + 14 := by
  rw [Msdu.subframe, List.length_append, List.length_append, List.length_append, m.length_DA,
    m.length_SA]
  show 6 + (6 + (2 + m.payload.length)) = _
  omega

theorem Lies.paddedSize (h : Lies f pData m) :
    (paddedSize (Rx.namedSize f pData)).toNat = m.subframe.length + m.padding.length := by
  have hle := m.payload_le
  rw [toNat_paddedSize (h.namedSize ▸ m.payload_le), h.namedSize, length_subframe, m.length_padding]
  omega

theorem written_outside (hstrip : m.Stripped) {x : Nat}
    (hx : x < pData ∨ pData + m.subframe.length ≤ x) :
    convertedMemory cfg FromWhichBSSID pData f x = f x := by
  have hV := vlanSize_le cfg FromWhichBSSID
  have h8 := hstrip.1
  rw [length_subframe] at hx
  apply ByteStore.writeBytes_outside
  rw [length_convertedHeader]
  omega

theorem lies_cons (hread : readBytes f pData (layout (m :: m' :: ms)).length = layout (m :: m' :: ms)) :
    Lies f pData m ∧
      readBytes f (pData + (m.subframe.length + m.padding.length)) (layout (m' :: ms)).length =
        layout (m' :: ms) := by
  obtain ⟨hfirst, hrest⟩ := ByteStore.readBytes_append_iff.mp hread
  obtain ⟨-, hrest⟩ := ByteStore.readBytes_append_iff.mp hrest
  rw [Nat.add_assoc] at hrest
  exact ⟨lies_of_read hfirst, hrest⟩

theorem length_layout_cons : (layout (m :: m' :: ms)).length =
    m.subframe.length + m.padding.length + (layout (m' :: ms)).length := by
  rw [layout, List.length_append, List.length_append, Nat.add_assoc]

theorem Lies.turn (h : Lies f pData m) {DataSize : Nat} (hfit : m.subframe.length ≤ DataSize)
    (hin : pData + DataSize ≤ size) :
    deaggregate size cfg FromWhichBSSID pData DataSize nMSDU f =
      (announceSubframe size cfg FromWhichBSSID pData (Rx.namedSize f pData) f).bind fun a =>
        if Ends DataSize (Rx.namedSize f pData) then some ⟨nMSDU + 1, [a.1], a.2⟩
        else
          (deaggregate size cfg FromWhichBSSID (pData + (m.subframe.length + m.padding.length))
            (DataSize - (m.subframe.length + m.padding.length)) (nMSDU + 1) a.2).map
              (Deaggregated.after a.1) := by
  have hpos := m.payload_pos
  rw [length_subframe] at hfit
  rw [← h.paddedSize]
  exact deaggregate_turn (by omega) hin (h.namedSize ▸ m.payload_le) (by rw [h.namedSize]; exact hfit)

theorem Lies.stripped {DataSize : Nat} (h : Lies f pData m) (hfit : m.subframe.length ≤ DataSize)
    (hin : pData + DataSize ≤ size)
    (hd : deaggregate size cfg FromWhichBSSID pData DataSize nMSDU f = some d)
    (hpackets : d.announced.map Announced.packet =
      (m :: ms).map (Msdu.packet (MBSS_VLAN_INFO_GET cfg FromWhichBSSID))) : m.Stripped := by
  rw [h.turn hfit hin] at hd
  obtain ⟨a, ha, hd⟩ := Option.bind_eq_some_iff.mp hd
  obtain ⟨rest, hrest⟩ := announced_first hd rfl
  rw [hrest] at hpackets
  by_contra hstrip
  rw [length_subframe] at hfit
  exact h.packet_ne hstrip (by omega) ha (List.cons.inj hpackets).1

theorem recoverable_of_packets (hms : ms ≠ []) (hin : pData + (layout ms).length ≤ size)
    (hread : readBytes f pData (layout ms).length = layout ms)
    (hd : deaggregate size cfg FromWhichBSSID pData (layout ms).length nMSDU f = some d)
    (hpackets : d.announced.map Announced.packet =
      ms.map (Msdu.packet (MBSS_VLAN_INFO_GET cfg FromWhichBSSID))) : Recoverable ms := by
  induction ms generalizing pData nMSDU f d with
  | nil => exact absurd rfl hms
  | cons m ms ih =>
    cases ms with
    | nil =>
      have hlies : Lies f pData m := lies_of_read hread
      have hstrip := hlies.stripped (le_refl m.subframe.length) hin hd hpackets
      refine ⟨fun m' hm' => ?_, fun m' hm' => absurd hm' List.not_mem_nil⟩
      rw [List.mem_singleton.mp hm']
      exact hstrip
    | cons m' ms =>
      obtain ⟨hlies, hrest⟩ := lies_cons hread
      have hlen := @length_layout_cons m m' ms
      have hstrip := hlies.stripped (by omega) hin hd hpackets
      have hmax : (namedSize f pData).toNat ≤ 1518 := hlies.namedSize ▸ m.payload_le
      have hfit : pData + (namedSize f pData).toNat + 14 ≤ size := by
        rw [hlies.namedSize]
        rw [length_subframe] at hlen
        omega
      rw [hlies.turn (by omega) hin,
        announceSubframe_snap (hlies.hasSnap_iff.mpr hstrip) hmax hfit, Option.bind_some] at hd
      split at hd
      · -- one packet for several MSDUs
        obtain rfl := Option.some.inj hd
        exact absurd (congrArg List.length hpackets) (by simp)
      · next hends =>
        obtain ⟨d', hd', rfl⟩ := Option.map_eq_some_iff.mp hd
        rw [hlen, Nat.add_sub_cancel_left] at hd'
        have hmore := mt (isLast_iff hmax).mpr (not_or.mp hends).1
        rw [hlies.namedSize] at hmore
        have hkept : readBytes (convertedMemory cfg FromWhichBSSID pData f)
              (pData + (m.subframe.length + m.padding.length)) (layout (m' :: ms)).length =
                layout (m' :: ms) := by
          refine (ByteStore.readBytes_congr fun i _ => ?_).trans hrest
          exact written_outside hstrip (.inr (by omega))
        obtain ⟨hall, hsizes⟩ := ih (List.cons_ne_nil _ _) (by omega) hkept hd'
          (List.cons.inj hpackets).2
        refine ⟨fun b hb => ?_, fun b hb => ?_⟩
        · rcases List.mem_cons.mp hb with rfl | hb
          · exact hstrip
          · exact hall b hb
        · rcases List.mem_cons.mp hb with rfl | hb
          · omega
          · exact hsizes b hb

theorem convertedPacket_in_memory (cfg : ApCfg) (FromWhichBSSID pData : Nat) (PayloadSize : UInt16)
    (f : Store) :
    readBytes (convertedMemory cfg FromWhichBSSID pData f)
      (pData + 8 - VLAN_Size cfg FromWhichBSSID)
      (convertedPacket cfg FromWhichBSSID pData PayloadSize f).packet.length =
      (convertedPacket cfg FromWhichBSSID pData PayloadSize f).packet := by
  have hV := vlanSize_le cfg FromWhichBSSID
  refine ByteStore.readBytes_append_iff.mpr ⟨ByteStore.readBytes_writeBytes _ _ _, ?_⟩
  have hbehind : pData + 8 - VLAN_Size cfg FromWhichBSSID +
      (convertedHeader cfg FromWhichBSSID pData f).length = pData + 22 := by
    rw [length_convertedHeader]
    omega
  rw [convertedMemory, ByteStore.readBytes_writeBytes_disjoint (.inr le_rfl), hbehind,
    ByteStore.length_readBytes]

theorem recovers_after {a : Announced} {vlan : UInt16 × UInt16} {f' : Store} {bound : Nat}
    (hpacket : a.packet = m.packet vlan)
    (hmem : readBytes f' a.pPayload a.packet.length = a.packet)
    (hbound : a.pPayload + a.packet.length ≤ bound) (hsame : ∀ x < bound, d.memory x = f' x)
    (h : Recovers vlan ms d) : Recovers vlan (m :: ms) (d.after a) := by
  obtain ⟨hmap, hall⟩ := h
  refine ⟨congrArg₂ List.cons hpacket hmap, fun b hb => ?_⟩
  rcases List.mem_cons.mp hb with rfl | hb
  · refine (ByteStore.readBytes_congr fun i hi => ?_).trans hmem
    exact hsame _ (by omega)
  · exact hall b hb

theorem recovers_of_recoverable (hms : ms ≠ []) (h : Recoverable ms)
    (hin : pData + (layout ms).length ≤ size)
    (hread : readBytes f pData (layout ms).length = layout ms) :
    ∃ d, deaggregate size cfg FromWhichBSSID pData (layout ms).length nMSDU f = some d ∧
      Recovers (MBSS_VLAN_INFO_GET cfg FromWhichBSSID) ms d ∧ ∀ x < pData, d.memory x = f x := by
  induction ms generalizing pData nMSDU f with
  | nil => exact absurd rfl hms
  | cons m ms ih =>
    have hstrip := h.1 m List.mem_cons_self
    have hV := vlanSize_le cfg FromWhichBSSID
    have h8 := hstrip.1
    cases ms with
    | nil =>
      have hlies : Lies f pData m := lies_of_read hread
      have hmax : (namedSize f pData).toNat ≤ 1518 := hlies.namedSize ▸ m.payload_le
      have hlen : (layout [m]).length = m.payload.length + 14 := length_subframe m
      have hpad := le_paddedSize hmax
      have hfit : pData + (namedSize f pData).toNat + 14 ≤ size := by
        rw [hlies.namedSize]
        omega
      have hends : Ends (layout [m]).length (namedSize f pData) := by
        refine .inr ?_
        rw [hlen, ← hlies.namedSize]
        exact hpad
      refine ⟨⟨nMSDU + 1, [convertedPacket cfg FromWhichBSSID pData (namedSize f pData) f],
        convertedMemory cfg FromWhichBSSID pData f⟩, ?_, ?_,
        fun x hx => written_outside hstrip (.inl hx)⟩
      · rw [hlies.turn (show m.subframe.length ≤ (layout [m]).length from le_rfl) hin,
          announceSubframe_snap (hlies.hasSnap_iff.mpr hstrip) hmax hfit, Option.bind_some,
          if_pos hends]
      · refine ⟨congrArg (fun packet => [packet]) (hlies.packet_eq hstrip), fun a ha => ?_⟩
        rw [List.mem_singleton.mp ha]
        exact convertedPacket_in_memory ..
    | cons m' ms =>
      obtain ⟨hlies, hrest⟩ := lies_cons hread
      have hmax : (namedSize f pData).toNat ≤ 1518 := hlies.namedSize ▸ m.payload_le
      have hlen := @length_layout_cons m m' ms
      have hsub := length_subframe m
      have hfit : pData + (namedSize f pData).toNat + 14 ≤ size := by
        rw [hlies.namedSize]
        omega
      obtain ⟨h15, h1514⟩ := h.2 m List.mem_cons_self
      have hpos : 0 < (layout (m' :: ms)).length := by
        have := m'.payload_pos
        have := length_subframe m'
        cases ms with
        | nil =>
          show 0 < m'.subframe.length
          omega
        | cons m'' ms =>
          rw [length_layout_cons]
          omega
      have hends : ¬ Ends (layout (m :: m' :: ms)).length (namedSize f pData) := by
        rintro (hlast | hshort)
        · have hlast := (isLast_iff hmax).mp hlast
          rw [hlies.namedSize] at hlast
          omega
        · rw [hlies.paddedSize] at hshort
          omega
      have hkept : readBytes (convertedMemory cfg FromWhichBSSID pData f)
            (pData + (m.subframe.length + m.padding.length)) (layout (m' :: ms)).length =
              layout (m' :: ms) := by
        refine (ByteStore.readBytes_congr fun i _ => ?_).trans hrest
        exact written_outside hstrip (.inr (by omega))
      have hrecoverable : Recoverable (m' :: ms) :=
        ⟨fun b hb => h.1 b (List.mem_cons_of_mem m hb),
          fun b hb => h.2 b (List.mem_cons_of_mem m hb)⟩
      obtain ⟨d, hd, hrecovers, hsame⟩ := @ih _ (nMSDU + 1) _ (List.cons_ne_nil _ _)
        hrecoverable (by omega) hkept
      refine ⟨d.after (convertedPacket cfg FromWhichBSSID pData (namedSize f pData) f), ?_, ?_, ?_⟩
      · rw [hlies.turn (by omega) hin,
          announceSubframe_snap (hlies.hasSnap_iff.mpr hstrip) hmax hfit, Option.bind_some,
          if_neg hends, hlen, Nat.add_sub_cancel_left, hd]
        rfl
      · refine recovers_after (hlies.packet_eq hstrip) (convertedPacket_in_memory ..) ?_ hsame
          hrecovers
        have hplen : (convertedPacket cfg FromWhichBSSID pData (namedSize f pData) f).packet.length =
            14 + VLAN_Size cfg FromWhichBSSID + (m.payload.length - 8) := by
          rw [convertedPacket, List.length_append, length_convertedHeader,
            ByteStore.length_readBytes, hlies.namedSize]
        rw [hplen]
        show pData + 8 - VLAN_Size cfg FromWhichBSSID + _ ≤ _
        omega
      · intro x hx
        exact (hsame x (by omega)).trans (written_outside hstrip (.inl hx))

end Loop

def received (ms : List Msdu) : Store := fun a => (layout ms).getD a 0

theorem readBytes_received (ms : List Msdu) :
    readBytes (received ms) 0 (layout ms).length = layout ms := by
  refine List.ext_getElem (ByteStore.length_readBytes ..) fun i _ h => ?_
  simp [readBytes, received, h]

/-- The packets are announced and stay in memory. -/
def Recovered (cfg : ApCfg) (FromWhichBSSID : Nat) (ms : List Msdu) : Prop :=
  ∃ d, deaggregate_AMSDU_announce (layout ms).length cfg FromWhichBSSID (received ms) = some d ∧
    Recovers (MBSS_VLAN_INFO_GET cfg FromWhichBSSID) ms d

/-- A payload whose header is kept is written over, and behind a subframe that is very short or
very long nothing is looked at. -/
theorem recovered_iff (cfg : ApCfg) (FromWhichBSSID : Nat) (m : Msdu) (ms : List Msdu) :
    Recovered cfg FromWhichBSSID (m :: ms) ↔ Recoverable (m :: ms) := by
  have hin : 0 + (layout (m :: ms)).length ≤ (layout (m :: ms)).length := (Nat.zero_add _).le
  constructor
  · rintro ⟨d, hd, hpackets, -⟩
    exact recoverable_of_packets (List.cons_ne_nil m ms) hin (readBytes_received _) hd hpackets
  · intro h
    obtain ⟨d, hd, hrecovers, -⟩ :=
      recovers_of_recoverable (List.cons_ne_nil m ms) h hin (readBytes_received _)
    exact ⟨d, hd, hrecovers⟩

/-- A payload of 46 bytes that stands behind its length. -/
def plainMsdu : Msdu where
  DA := [2, 0, 0, 0, 0, 1]
  SA := [2, 0, 0, 0, 0, 2]
  payload := List.replicate 46 0x42
  padding := []
  length_DA := rfl
  length_SA := rfl
  payload_pos := by decide
  payload_le := by decide
  length_padding := by decide

theorem plain_not_recovered : ¬ Recovered oneBss 0 [plainMsdu] := by
  rintro ⟨d, hd, hpackets, -⟩
  have h := recoverable_of_packets (List.cons_ne_nil plainMsdu []) (Nat.zero_add _).le
    (readBytes_received _) hd hpackets
  exact absurd (h.1 plainMsdu List.mem_cons_self).2 (by decide)

end Ralink.Rx
