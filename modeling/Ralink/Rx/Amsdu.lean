import Ralink.Rx.Convert
import Ralink.Lib.Align

/-! `deaggregate_AMSDU_announce` of an access point: the header of each subframe is converted in
place, and what is announced is a part of the memory of the aggregate. Clones are always there to be
had. -/
namespace Ralink.Rx
open ByteStore (Store readBytes writeBytes)
open Buffer (load save loadByte)

/-- A packet that is announced: the subframe it is from, up to where its bytes have been taken off
when the header is written, how long that is, and where the packet starts. -/
structure Announced where
  pData : Nat
  SubFrameSize : Nat
  consumed : Nat
  HdrLen : Nat
  pPayload : Nat
  packet : List UInt8

def headerRoom (VLAN_Size : Nat) (c : Converted) : Nat :=
  if c.pRemovedLLCSNAP.isSome then LENGTH_802_3 + VLAN_Size else VLAN_Size

variable (size : Nat) (cfg : ApCfg) (FromWhichBSSID : Nat)

/-- The header is written, and what starts with it is announced. -/
def announceConverted (pData : Nat) (PayloadSize : UInt16) (c : Converted) (f : Store) :
    Option (Announced × Store) := do
  let room := headerRoom (VLAN_Size cfg FromWhichBSSID) c
  let header := VLAN_8023_Header_Copy (MBSS_VLAN_INFO_GET cfg FromWhichBSSID) c.Header802_3
  let f ← save size f (c.pData - room) header
  let packet ← load size f (c.pData - room) (c.DataSize + UInt16.ofNat room).toNat
  some (⟨pData, PayloadSize.toNat + LENGTH_802_3, c.pData, header.length, c.pData - room, packet⟩, f)

def announceSubframe (pData : Nat) (PayloadSize : UInt16) (f : Store) :
    Option (Announced × Store) := do
  let pDA ← load size f pData MAC_ADDR_LEN
  let pSA ← load size f (pData + MAC_ADDR_LEN) MAC_ADDR_LEN
  let c ← CONVERT_TO_802_3 size f pDA pSA (pData + LENGTH_802_3) PayloadSize
  announceConverted size cfg FromWhichBSSID pData PayloadSize c f

/-- `Octet[1] + (Octet[0] << 8)` -/
def payloadSize (Octet : List UInt8) : UInt16 :=
  (Octet.getD 1 0).toUInt16 + ((Octet.getD 0 0).toUInt16 <<< 8)

/-- `(SubFrameSize+3)&(~0x3)` -/
def paddedSize (PayloadSize : UInt16) : UInt16 := (PayloadSize + 14 + 3) &&& (~~~3 : UInt16)

/-- A subframe of that size cannot be followed by another. -/
def isLast (PayloadSize : UInt16) : Bool := paddedSize PayloadSize > 1528 ∨ paddedSize PayloadSize < 32

structure Deaggregated where
  nMSDU : Nat
  announced : List Announced
  memory : Store

def Deaggregated.after (a : Announced) (d : Deaggregated) : Deaggregated :=
  { d with announced := a :: d.announced }

def deaggregate (pData DataSize nMSDU : Nat) (f : Store) : Option Deaggregated :=
  if DataSize > LENGTH_802_3 then
    (load size f (pData + 2 * MAC_ADDR_LEN) 2).bind fun Octet =>
      if DataSize < (payloadSize Octet + 14).toNat ∨ payloadSize Octet > 1518 then
        some ⟨nMSDU + 1, [], f⟩
      else
        (announceSubframe size cfg FromWhichBSSID pData (payloadSize Octet) f).bind fun a =>
          if hlast : isLast (payloadSize Octet) then some ⟨nMSDU + 1, [a.1], a.2⟩
          else if DataSize > (paddedSize (payloadSize Octet)).toNat then
            (deaggregate (pData + (paddedSize (payloadSize Octet)).toNat)
              (DataSize - (paddedSize (payloadSize Octet)).toNat) (nMSDU + 1) a.2).map
                (Deaggregated.after a.1)
          else some ⟨nMSDU + 1, [a.1], a.2⟩
  else some ⟨nMSDU, [], f⟩
termination_by DataSize
decreasing_by
  have hpad : ¬ paddedSize (payloadSize Octet) < 32 := fun h => hlast (decide_eq_true (.inr h))
  rw [UInt16.lt_iff_toNat_lt] at hpad
  have h32 : (32 : UInt16).toNat = 32 := rfl
  omega

/-- All bytes of the packet, from its first on. -/
def deaggregate_AMSDU_announce (f : Store) : Option Deaggregated :=
  deaggregate size cfg FromWhichBSSID 0 size 0 f

section Sizes

variable {PayloadSize : UInt16}

theorem toNat_subframe (h : PayloadSize.toNat ≤ 1518) : (PayloadSize + 14).toNat = PayloadSize.toNat + 14 := by
  rw [UInt16.toNat_add]
  show (PayloadSize.toNat + 14) % 2 ^ 16 = _
  omega

theorem toNat_paddedSize (h : PayloadSize.toNat ≤ 1518) :
    (paddedSize PayloadSize).toNat = (PayloadSize.toNat + 17) / 4 * 4 := by
  have hadd : (PayloadSize + 14 + 3).toNat = PayloadSize.toNat + 17 := by
    rw [UInt16.toNat_add, toNat_subframe h]
    show (PayloadSize.toNat + 14 + 3) % 2 ^ 16 = _
    omega
  rw [paddedSize, UInt16.toNat_and, hadd]
  exact Align.and_high (k := 2) (w := 16) (by omega) (by decide)

theorem isLast_iff (h : PayloadSize.toNat ≤ 1518) :
    isLast PayloadSize = true ↔ PayloadSize.toNat < 15 ∨ 1514 < PayloadSize.toNat := by
  have hpad := toNat_paddedSize h
  rw [isLast, decide_eq_true_iff, gt_iff_lt, UInt16.lt_iff_toNat_lt, UInt16.lt_iff_toNat_lt, hpad]
  show 1528 < _ ∨ _ < 32 ↔ _
  omega

theorem oversized_iff {DataSize : Nat} :
    DataSize < (PayloadSize + 14).toNat ∨ PayloadSize > 1518 ↔
      1518 < PayloadSize.toNat ∨ DataSize < PayloadSize.toNat + 14 := by
  rw [gt_iff_lt, UInt16.lt_iff_toNat_lt]
  show _ ∨ 1518 < _ ↔ _
  by_cases h : PayloadSize.toNat ≤ 1518
  · rw [toNat_subframe h]
    exact Or.comm
  · have hlarge := Nat.lt_of_not_le h
    exact iff_of_true (.inr hlarge) (.inl hlarge)

end Sizes

section Subframe

variable {size : Nat} {cfg : ApCfg} {FromWhichBSSID pData : Nat} {PayloadSize : UInt16} {f f' : Store}
  {a : Announced} {c : Converted}

theorem vlanSize_le (cfg : ApCfg) (FromWhichBSSID : Nat) : VLAN_Size cfg FromWhichBSSID ≤ 4 := by
  rw [vlanSize_eq]
  split <;> decide

theorem announceConverted_eq {header : List UInt8} {room start behind n len : Nat}
    (hheader : VLAN_8023_Header_Copy (MBSS_VLAN_INFO_GET cfg FromWhichBSSID) c.Header802_3 = header)
    (hn : header.length = n) (hroom : headerRoom (VLAN_Size cfg FromWhichBSSID) c = room)
    (hstart : c.pData - room = start) (hbehind : start + n = behind)
    (hlen : (c.DataSize + UInt16.ofNat room).toNat = n + len) (hin : behind + len ≤ size) :
    announceConverted size cfg FromWhichBSSID pData PayloadSize c f =
      some (⟨pData, PayloadSize.toNat + 14, c.pData, n, start, header ++ readBytes f behind len⟩,
        writeBytes f start header) := by
  subst hheader hroom hstart hbehind hn
  rw [announceConverted, Buffer.save_eq (by omega), Option.bind_eq_bind, Option.bind_some, hlen,
    Buffer.load_eq (by omega), ByteStore.readBytes_add, ByteStore.readBytes_writeBytes,
    ByteStore.readBytes_writeBytes_disjoint (.inr le_rfl)]
  rfl

theorem announceConverted_some
    (h : announceConverted size cfg FromWhichBSSID pData PayloadSize c f = some (a, f'))
    (hheader : c.Header802_3.length = 14) :
    a.pData = pData ∧ a.SubFrameSize = PayloadSize.toNat + 14 ∧ a.consumed = c.pData ∧
      a.HdrLen = 14 + VLAN_Size cfg FromWhichBSSID ∧
      a.pPayload = c.pData - headerRoom (VLAN_Size cfg FromWhichBSSID) c ∧
      a.packet.length =
        (c.DataSize + UInt16.ofNat (headerRoom (VLAN_Size cfg FromWhichBSSID) c)).toNat := by
  obtain ⟨f₁, -, h⟩ := Option.bind_eq_some_iff.mp h
  obtain ⟨packet, hpacket, h⟩ := Option.bind_eq_some_iff.mp h
  obtain ⟨rfl, rfl⟩ := Prod.mk.inj (Option.some.inj h)
  refine ⟨rfl, rfl, rfl, ?_, rfl, ?_⟩
  · rw [vlanSize_eq]
    exact length_headerCopy hheader
  · exact Buffer.length_of_load hpacket

theorem announceSubframe_eq (hin : pData + 12 ≤ size) :
    announceSubframe size cfg FromWhichBSSID pData PayloadSize f =
      (CONVERT_TO_802_3 size f (readBytes f pData 6) (readBytes f (pData + 6) 6) (pData + 14)
        PayloadSize).bind fun c =>
          announceConverted size cfg FromWhichBSSID pData PayloadSize c f := by
  have hDA : load size f pData 6 = some (readBytes f pData 6) := Buffer.load_eq (by omega)
  have hSA : load size f (pData + 6) 6 = some (readBytes f (pData + 6) 6) := Buffer.load_eq hin
  show (load size f pData 6).bind _ = _
  rw [hDA]
  show (load size f (pData + 6) 6).bind _ = _
  rw [hSA]
  rfl

def convertedHeader (cfg : ApCfg) (FromWhichBSSID pData : Nat) (f : Store) : List UInt8 :=
  VLAN_8023_Header_Copy (MBSS_VLAN_INFO_GET cfg FromWhichBSSID)
    (readBytes f pData 6 ++ readBytes f (pData + 6) 6 ++ readBytes f (pData + 20) 2)

theorem length_convertedHeader (cfg : ApCfg) (FromWhichBSSID pData : Nat) (f : Store) :
    (convertedHeader cfg FromWhichBSSID pData f).length = 14 + VLAN_Size cfg FromWhichBSSID := by
  rw [vlanSize_eq]
  exact length_headerCopy (by simp)

def convertedMemory (cfg : ApCfg) (FromWhichBSSID pData : Nat) (f : Store) : Store :=
  writeBytes f (pData + 8 - VLAN_Size cfg FromWhichBSSID)
    (convertedHeader cfg FromWhichBSSID pData f)

def convertedPacket (cfg : ApCfg) (FromWhichBSSID pData : Nat) (PayloadSize : UInt16) (f : Store) :
    Announced where
  pData := pData
  SubFrameSize := PayloadSize.toNat + 14
  consumed := pData + 22
  HdrLen := 14 + VLAN_Size cfg FromWhichBSSID
  pPayload := pData + 8 - VLAN_Size cfg FromWhichBSSID
  packet := convertedHeader cfg FromWhichBSSID pData f ++
    readBytes f (pData + 22) (PayloadSize.toNat - 8)

/-- The payload has a header that is taken off. -/
def HasSnap (f : Store) (pData : Nat) (PayloadSize : UInt16) : Prop :=
  8 ≤ PayloadSize.toNat ∧ Removable (readBytes f (pData + 14) 8)

theorem announceSubframe_snap (h : HasSnap f pData PayloadSize) (hmax : PayloadSize.toNat ≤ 1518)
    (hin : pData + PayloadSize.toNat + 14 ≤ size) :
    announceSubframe size cfg FromWhichBSSID pData PayloadSize f =
      some (convertedPacket cfg FromWhichBSSID pData PayloadSize f,
        convertedMemory cfg FromWhichBSSID pData f) := by
  obtain ⟨h8, hrem⟩ := h
  have hV := vlanSize_le cfg FromWhichBSSID
  have hstart : pData + 14 + 8 - (14 + VLAN_Size cfg FromWhichBSSID) =
      pData + 8 - VLAN_Size cfg FromWhichBSSID := by omega
  have hbehind : pData + 8 - VLAN_Size cfg FromWhichBSSID + (14 + VLAN_Size cfg FromWhichBSSID) =
      pData + 22 := by omega
  have hsub : (PayloadSize - 8).toNat = PayloadSize.toNat - 8 :=
    UInt16.toNat_sub_of_le _ _ (UInt16.le_iff_toNat_le.mpr h8)
  have hsize : (PayloadSize - 8 + UInt16.ofNat (14 + VLAN_Size cfg FromWhichBSSID)).toNat =
      14 + VLAN_Size cfg FromWhichBSSID + (PayloadSize.toNat - 8) := by
    rw [UInt16.toNat_add, hsub, UInt16.toNat_ofNat']
    omega
  rw [announceSubframe_eq (by omega), convert_eq (by omega), if_pos hrem]
  exact announceConverted_eq rfl (length_convertedHeader cfg FromWhichBSSID pData f) rfl hstart
    hbehind hsize (by omega)

theorem announceSubframe_other (hmax : PayloadSize.toNat ≤ 1518) (hin : pData + 14 ≤ size)
    (hnot : ¬ HasSnap f pData PayloadSize)
    (h : announceSubframe size cfg FromWhichBSSID pData PayloadSize f = some (a, f')) :
    (a.consumed < a.pPayload + a.HdrLen ∧
        a.packet.length = PayloadSize.toNat + VLAN_Size cfg FromWhichBSSID) ∨
      (a.pData + a.SubFrameSize < a.pPayload + a.HdrLen ∧ PayloadSize.toNat < 8 ∧
        a.packet.length = PayloadSize.toNat + 6 + VLAN_Size cfg FromWhichBSSID) := by
  have hV := vlanSize_le cfg FromWhichBSSID
  rw [announceSubframe_eq (by omega)] at h
  obtain ⟨c, hc, h⟩ := Option.bind_eq_some_iff.mp h
  have hkept : c = keptHeader (readBytes f pData 6) (readBytes f (pData + 6) 6) (pData + 14) PayloadSize →
      a.consumed < a.pPayload + a.HdrLen ∧
        a.packet.length = PayloadSize.toNat + VLAN_Size cfg FromWhichBSSID := by
    rintro rfl
    obtain ⟨-, -, hconsumed, hHdr, hpay, hlen⟩ :=
      announceConverted_some h (by simp [keptHeader, LLC_Len])
    change _ = pData + 14 at hconsumed
    change _ = pData + 14 - VLAN_Size cfg FromWhichBSSID at hpay
    change _ = (PayloadSize + UInt16.ofNat (VLAN_Size cfg FromWhichBSSID)).toNat at hlen
    rw [UInt16.toNat_add, UInt16.toNat_ofNat'] at hlen
    omega
  by_cases hshort : size < pData + 14 + 8
  · exact .inl (hkept (convert_short hshort hc))
  · rw [convert_eq (by omega)] at hc
    have hc := Option.some.inj hc
    split at hc
    · next hrem =>
      right
      have h8 : PayloadSize.toNat < 8 := Nat.lt_of_not_le fun h8 => hnot ⟨h8, hrem⟩
      subst hc
      obtain ⟨hp, hsub, hconsumed, hHdr, hpay, hlen⟩ :=
        announceConverted_some h (by simp [removedHeader])
      change _ = pData + 14 + 8 - (14 + VLAN_Size cfg FromWhichBSSID) at hpay
      change _ = (PayloadSize - 8 + UInt16.ofNat (14 + VLAN_Size cfg FromWhichBSSID)).toNat at hlen
      rw [UInt16.toNat_add, UInt16.toNat_sub, UInt16.toNat_ofNat'] at hlen
      have h8' : (8 : UInt16).toNat = 8 := rfl
      omega
    · exact .inl (hkept hc.symm)

end Subframe

end Ralink.Rx

/-! An aggregate is taken apart inside of its own bytes when each subframe that the loop comes to
has a header that is taken off. -/
namespace Ralink.Rx
open ByteStore (Store readBytes writeBytes)

variable {size : Nat} {cfg : ApCfg} {FromWhichBSSID pData DataSize nMSDU : Nat} {f g : Store}

def namedSize (f : Store) (pData : Nat) : UInt16 := payloadSize (readBytes f (pData + 12) 2)

/-- The loop does not go on behind this subframe. -/
def Ends (DataSize : Nat) (PayloadSize : UInt16) : Prop :=
  isLast PayloadSize = true ∨ DataSize ≤ (paddedSize PayloadSize).toNat

instance (DataSize : Nat) (PayloadSize : UInt16) : Decidable (Ends DataSize PayloadSize) :=
  inferInstanceAs (Decidable (_ ∨ _))

theorem deaggregate_done (h : DataSize ≤ 14) :
    deaggregate size cfg FromWhichBSSID pData DataSize nMSDU f = some ⟨nMSDU, [], f⟩ := by
  have hdone : ¬ DataSize > LENGTH_802_3 := Nat.not_lt.mpr h
  rw [deaggregate, if_neg hdone]

theorem deaggregate_oversized (h : 14 < DataSize) (hin : pData + DataSize ≤ size)
    (hbad : 1518 < (namedSize f pData).toNat ∨ DataSize < (namedSize f pData).toNat + 14) :
    deaggregate size cfg FromWhichBSSID pData DataSize nMSDU f = some ⟨nMSDU + 1, [], f⟩ := by
  have hload : Buffer.load size f (pData + 2 * MAC_ADDR_LEN) 2 = some (readBytes f (pData + 12) 2) :=
    Buffer.load_eq (show pData + 12 + 2 ≤ size by omega)
  have hmore : DataSize > LENGTH_802_3 := h
  rw [deaggregate, if_pos hmore, hload, Option.bind_some]
  exact if_pos (oversized_iff.mpr hbad)

theorem deaggregate_turn (h : 14 < DataSize) (hin : pData + DataSize ≤ size)
    (hmax : (namedSize f pData).toNat ≤ 1518) (hfit : (namedSize f pData).toNat + 14 ≤ DataSize) :
    deaggregate size cfg FromWhichBSSID pData DataSize nMSDU f =
      (announceSubframe size cfg FromWhichBSSID pData (namedSize f pData) f).bind fun a =>
        if Ends DataSize (namedSize f pData) then some ⟨nMSDU + 1, [a.1], a.2⟩
        else
          (deaggregate size cfg FromWhichBSSID (pData + (paddedSize (namedSize f pData)).toNat)
            (DataSize - (paddedSize (namedSize f pData)).toNat) (nMSDU + 1) a.2).map
              (Deaggregated.after a.1) := by
  have hload : Buffer.load size f (pData + 2 * MAC_ADDR_LEN) 2 = some (readBytes f (pData + 12) 2) :=
    Buffer.load_eq (show pData + 12 + 2 ≤ size by omega)
  have hgood : ¬ (DataSize < (payloadSize (readBytes f (pData + 12) 2) + 14).toNat ∨
      payloadSize (readBytes f (pData + 12) 2) > 1518) := by
    intro hbad
    rcases oversized_iff.mp hbad with hlarge | hlong
    · exact absurd hmax (Nat.not_le.mpr hlarge)
    · exact absurd hfit (Nat.not_le.mpr hlong)
  have hmore : DataSize > LENGTH_802_3 := h
  rw [deaggregate, if_pos hmore, hload, Option.bind_some, if_neg hgood]
  congr 1
  funext a
  show (if hlast : isLast (namedSize f pData) = true then _ else _) = _
  by_cases hlast : isLast (namedSize f pData) = true
  · rw [dif_pos hlast]
    exact (if_pos (.inl hlast)).symm
  · rw [dif_neg hlast]
    by_cases hmore : DataSize ≤ (paddedSize (namedSize f pData)).toNat
    · exact (if_neg (Nat.not_lt.mpr hmore)).trans (if_pos (.inr hmore)).symm
    · exact (if_pos (Nat.not_le.mp hmore)).trans (if_neg (not_or.mpr ⟨hlast, hmore⟩)).symm

/-- The header is written over what has been taken off of its own subframe, and the packet lies in
the aggregate. -/
structure Announced.Contained (size : Nat) (a : Announced) : Prop where
  start : a.pData ≤ a.pPayload
  consumed : a.pPayload + a.HdrLen ≤ a.consumed
  own : a.pPayload + a.HdrLen ≤ a.pData + a.SubFrameSize
  inside : a.pPayload + a.packet.length ≤ size

/-- No access outside, and what is announced is contained. -/
def Contained (size : Nat) (r : Option Deaggregated) : Prop :=
  ∃ d, r = some d ∧ ∀ a ∈ d.announced, a.Contained size

/-- Up to the end, or to a size that cannot be, each subframe has a header that is taken off. -/
inductive Clean (f : Store) : Nat → Nat → Prop
  | done {pData DataSize : Nat} : DataSize ≤ 14 → Clean f pData DataSize
  | oversized {pData DataSize : Nat} : 14 < DataSize →
      1518 < (namedSize f pData).toNat ∨ DataSize < (namedSize f pData).toNat + 14 →
      Clean f pData DataSize
  | ends {pData DataSize : Nat} : HasSnap f pData (namedSize f pData) →
      Ends DataSize (namedSize f pData) → Clean f pData DataSize
  | next {pData DataSize : Nat} : HasSnap f pData (namedSize f pData) →
      Clean f (pData + (paddedSize (namedSize f pData)).toNat)
        (DataSize - (paddedSize (namedSize f pData)).toNat) → Clean f pData DataSize

instance (f : Store) (pData : Nat) (PayloadSize : UInt16) : Decidable (HasSnap f pData PayloadSize) :=
  inferInstanceAs (Decidable (_ ∧ _))

theorem Clean.congr (h : Clean f pData DataSize) (hfg : ∀ x, pData ≤ x → f x = g x) :
    Clean g pData DataSize := by
  induction h with
  | done h => exact .done h
  | @oversized pData DataSize h hbad =>
    have hsize : namedSize f pData = namedSize g pData :=
      congrArg payloadSize (ByteStore.readBytes_congr fun i _ => hfg _ (by omega))
    exact .oversized h (hsize ▸ hbad)
  | @ends pData DataSize hsnap hends =>
    have hsize : namedSize f pData = namedSize g pData :=
      congrArg payloadSize (ByteStore.readBytes_congr fun i _ => hfg _ (by omega))
    have hread : readBytes f (pData + 14) 8 = readBytes g (pData + 14) 8 :=
      ByteStore.readBytes_congr fun i _ => hfg _ (by omega)
    rw [HasSnap, hread] at hsnap
    exact .ends (hsize ▸ hsnap) (hsize ▸ hends)
  | @next pData DataSize hsnap _ ih =>
    have hsize : namedSize f pData = namedSize g pData :=
      congrArg payloadSize (ByteStore.readBytes_congr fun i _ => hfg _ (by omega))
    have hread : readBytes f (pData + 14) 8 = readBytes g (pData + 14) 8 :=
      ByteStore.readBytes_congr fun i _ => hfg _ (by omega)
    rw [HasSnap, hread] at hsnap
    refine .next (hsize ▸ hsnap) ?_
    rw [← hsize]
    exact ih fun x hx => hfg x (by omega)

theorem convertedPacket_contained (hsnap : HasSnap f pData (namedSize f pData))
    (hin : pData + ((namedSize f pData).toNat + 14) ≤ size) :
    (convertedPacket cfg FromWhichBSSID pData (namedSize f pData) f).Contained size := by
  have hV := vlanSize_le cfg FromWhichBSSID
  have h8 := hsnap.1
  have hlen : (convertedPacket cfg FromWhichBSSID pData (namedSize f pData) f).packet.length =
      14 + VLAN_Size cfg FromWhichBSSID + ((namedSize f pData).toNat - 8) := by
    rw [convertedPacket, List.length_append, length_convertedHeader, ByteStore.length_readBytes]
  constructor
  · show pData ≤ pData + 8 - VLAN_Size cfg FromWhichBSSID
    omega
  · show pData + 8 - VLAN_Size cfg FromWhichBSSID + (14 + VLAN_Size cfg FromWhichBSSID) ≤ pData + 22
    omega
  · show pData + 8 - VLAN_Size cfg FromWhichBSSID + (14 + VLAN_Size cfg FromWhichBSSID) ≤
      pData + ((namedSize f pData).toNat + 14)
    omega
  · rw [hlen]
    show pData + 8 - VLAN_Size cfg FromWhichBSSID + _ ≤ size
    omega

theorem le_paddedSize {PayloadSize : UInt16} (h : PayloadSize.toNat ≤ 1518) :
    PayloadSize.toNat + 14 ≤ (paddedSize PayloadSize).toNat := by
  rw [toNat_paddedSize h]
  omega

theorem contained_after {a : Announced} {r : Option Deaggregated} :
    Contained size (r.map (Deaggregated.after a)) ↔ a.Contained size ∧ Contained size r := by
  constructor
  · rintro ⟨d, hd, hall⟩
    obtain ⟨d', hd', rfl⟩ := Option.map_eq_some_iff.mp hd
    exact ⟨hall a List.mem_cons_self, d', hd', fun b hb => hall b (List.mem_cons_of_mem a hb)⟩
  · rintro ⟨ha, d, rfl, hall⟩
    refine ⟨_, rfl, fun b hb => ?_⟩
    rcases List.mem_cons.mp hb with rfl | hb
    · exact ha
    · exact hall b hb

theorem announced_first {a : Announced} {r d : Deaggregated} {more : Option Deaggregated} {ends : Prop}
    [Decidable ends] (h : (if ends then some r else more.map (Deaggregated.after a)) = some d)
    (hr : r.announced = [a]) : ∃ rest, d.announced = a :: rest := by
  split at h
  · obtain rfl := Option.some.inj h
    exact ⟨[], hr⟩
  · obtain ⟨d', -, rfl⟩ := Option.map_eq_some_iff.mp h
    exact ⟨d'.announced, rfl⟩

theorem contained_loop (hin : pData + DataSize ≤ size) :
    Contained size (deaggregate size cfg FromWhichBSSID pData DataSize nMSDU f) ↔
      Clean f pData DataSize := by
  induction DataSize using Nat.strong_induction_on generalizing pData nMSDU f with
  | _ DataSize ih =>
    by_cases hmore : 14 < DataSize
    · by_cases hbad : 1518 < (namedSize f pData).toNat ∨ DataSize < (namedSize f pData).toNat + 14
      · rw [deaggregate_oversized hmore hin hbad]
        exact iff_of_true ⟨_, rfl, fun a ha => absurd ha List.not_mem_nil⟩ (.oversized hmore hbad)
      · obtain ⟨hmax, hfit⟩ := not_or.mp hbad
        have hmax := Nat.not_lt.mp hmax
        have hfit := Nat.not_lt.mp hfit
        rw [deaggregate_turn hmore hin hmax hfit]
        by_cases hsnap : HasSnap f pData (namedSize f pData)
        · rw [announceSubframe_snap hsnap hmax (by omega), Option.bind_some]
          have hfirst : (convertedPacket cfg FromWhichBSSID pData (namedSize f pData) f).Contained
            size := convertedPacket_contained hsnap (by omega)
          by_cases hends : Ends DataSize (namedSize f pData)
          · rw [if_pos hends]
            refine iff_of_true ⟨_, rfl, fun a ha => ?_⟩ (.ends hsnap hends)
            rw [List.mem_singleton.mp ha]
            exact hfirst
          · rw [if_neg hends, contained_after, and_iff_right hfirst]
            have hpad := le_paddedSize hmax
            have h8 := hsnap.1
            have hV := vlanSize_le cfg FromWhichBSSID
            have hlt := Nat.not_le.mp (not_or.mp hends).2
            rw [ih _ (by omega) (by omega)]
            have hsame : ∀ x, pData + (paddedSize (namedSize f pData)).toNat ≤ x →
                convertedMemory cfg FromWhichBSSID pData f x = f x := by
              intro x hx
              apply ByteStore.writeBytes_outside
              rw [length_convertedHeader]
              omega
            constructor
            · intro hclean
              exact .next hsnap (hclean.congr hsame)
            · intro hclean
              cases hclean with
              | done h => exact absurd h (Nat.not_le.mpr hmore)
              | oversized _ h => exact absurd h hbad
              | ends _ h => exact absurd h hends
              | next _ h => exact h.congr fun x hx => (hsame x hx).symm
        · refine iff_of_false ?_ ?_
          · rintro ⟨d, hd, hall⟩
            obtain ⟨a, ha, hd⟩ := Option.bind_eq_some_iff.mp hd
            obtain ⟨rest, hrest⟩ := announced_first hd rfl
            have hcontained := hall a.1 (hrest ▸ List.mem_cons_self)
            have hfields := announceSubframe_other hmax (by omega) hsnap ha
            rcases hfields with ⟨hlt, -⟩ | ⟨hlt, -⟩
            · exact absurd hcontained.consumed (Nat.not_le.mpr hlt)
            · exact absurd hcontained.own (Nat.not_le.mpr hlt)
          · intro hclean
            cases hclean with
            | done h => exact absurd h (Nat.not_le.mpr hmore)
            | oversized _ h => exact absurd h hbad
            | ends h _ => exact hsnap h
            | next h _ => exact hsnap h
    · have hdone := Nat.not_lt.mp hmore
      rw [deaggregate_done hdone]
      exact iff_of_true ⟨_, rfl, fun a ha => absurd ha List.not_mem_nil⟩ (.done hdone)

/-- Where the loop stops is not before the end of the aggregate, and the first header that is kept
is written over its own payload. -/
theorem deaggregate_contained_iff (cfg : ApCfg) (FromWhichBSSID size : Nat) (f : Store) :
    Contained size (deaggregate_AMSDU_announce size cfg FromWhichBSSID f) ↔ Clean f 0 size :=
  contained_loop (Nat.zero_add size).le

def oneBss : ApCfg where
  BssidNum := 1
  VLAN_VID := fun _ => 0
  VLAN_Priority := fun _ => 0
  bssidNum_le := by decide

/-- A subframe of 46 bytes without an LLC/SNAP header. -/
def plainSubframe : Store := fun a => if a = 13 then 46 else 0

theorem plain_not_contained :
    ¬ Contained 60 (deaggregate_AMSDU_announce 60 oneBss 0 plainSubframe) := by
  have hsnap : ¬ HasSnap plainSubframe 0 (namedSize plainSubframe 0) := by decide +kernel
  intro h
  have hclean : Clean plainSubframe 0 60 := (contained_loop (by decide)).mp h
  cases hclean with
  | done h => exact absurd h (by decide)
  | oversized _ h => exact absurd h (by decide +kernel)
  | ends h _ => exact hsnap h
  | next h _ => exact hsnap h

end Ralink.Rx
