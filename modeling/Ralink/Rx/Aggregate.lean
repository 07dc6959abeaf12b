import Ralink.Rx.Recovered

/-! `CmmRxRalinkFrameIndicate` of an access point, which splits a frame of two MSDUs; the length of
the second stands in front of the first. -/
namespace Ralink.Rx
open ByteStore (Store readBytes)
open Buffer (load loadByte)

/-- What is received: the addresses of the frame, how many bytes of data there are, and the buffer
from the data on, of which `size` bytes can be read. -/
structure RX_BLK where
  fRX_WDS : Bool
  fRX_MESH : Bool
  fRX_APCLI : Bool
  Addr1 : List UInt8
  Addr2 : List UInt8
  Addr3 : List UInt8
  Addr4 : List UInt8
  DataSize : UInt16
  size : Nat
  data : Store
  length_Addr1 : Addr1.length = 6
  length_Addr2 : Addr2.length = 6
  length_Addr3 : Addr3.length = 6
  length_Addr4 : Addr4.length = 6
  size_pos : 2 ≤ size
  dataSize_le : DataSize.toNat ≤ size

namespace RX_BLK
variable (pRxBlk : RX_BLK)

def pDA : List UInt8 :=
  if pRxBlk.fRX_WDS || pRxBlk.fRX_MESH then pRxBlk.Addr3
  else if pRxBlk.fRX_APCLI then pRxBlk.Addr1
  else pRxBlk.Addr3

def pSA : List UInt8 :=
  if pRxBlk.fRX_WDS || pRxBlk.fRX_MESH then pRxBlk.Addr4
  else if pRxBlk.fRX_APCLI then pRxBlk.Addr3
  else pRxBlk.Addr2

/-- The length that stands in front of the MSDUs. -/
def Msdu2Size : UInt16 := (pRxBlk.data 0).toUInt16 + ((pRxBlk.data 1).toUInt16 <<< 8)

end RX_BLK

/-- A packet: the part of the data that it is made of, and its bytes. -/
structure Part where
  start : Nat
  len : Nat
  packet : List UInt8

inductive Indicated
  | released
  | delivered (first second : Part)

variable (cfg : ApCfg) (FromWhichBSSID : Nat) (pRxBlk : RX_BLK)

/-- The two packets; the sizes of their payloads have 16 bits. -/
def splitMsdus (c : Converted) : Option Indicated := do
  let Payload1Size := c.DataSize - pRxBlk.Msdu2Size
  let Payload2Size := pRxBlk.Msdu2Size - 14
  let pData2 := c.pData + Payload1Size.toNat + LENGTH_802_3
  let vlan := MBSS_VLAN_INFO_GET cfg FromWhichBSSID
  let header2 ← load pRxBlk.size pRxBlk.data (pData2 - LENGTH_802_3) LENGTH_802_3
  let payload2 ← load pRxBlk.size pRxBlk.data pData2 Payload2Size.toNat
  let payload1 ← load pRxBlk.size pRxBlk.data c.pData Payload1Size.toNat
  some (.delivered
    ⟨c.pData, Payload1Size.toNat, VLAN_8023_Header_Copy vlan c.Header802_3 ++ payload1⟩
    ⟨pData2 - LENGTH_802_3, LENGTH_802_3 + Payload2Size.toNat,
      VLAN_8023_Header_Copy vlan header2 ++ payload2⟩)

def CmmRxRalinkFrameIndicate : Option Indicated :=
  if pRxBlk.Msdu2Size ≤ 1536 ∧ pRxBlk.Msdu2Size < pRxBlk.DataSize then
    (CONVERT_TO_802_3 pRxBlk.size pRxBlk.data pRxBlk.pDA pRxBlk.pSA 2 (pRxBlk.DataSize - 2)).bind
      (splitMsdus cfg FromWhichBSSID pRxBlk)
  else some .released

/-- Two MSDUs behind the length of the second, the lower byte first. -/
structure TwoMsdus (pRxBlk : RX_BLK) (msdu1 msdu2 : List UInt8) : Prop where
  layout : readBytes pRxBlk.data 0 pRxBlk.DataSize.toNat =
    UInt8.ofNat msdu2.length :: UInt8.ofNat (msdu2.length / 256) :: (msdu1 ++ msdu2)
  first : msdu1 ≠ []
  header : 14 ≤ msdu2.length
  fits : msdu2.length < 65536

def taggedPacket (vlan : UInt16 × UInt16) (msdu : List UInt8) : List UInt8 :=
  msdu.take 12 ++ (vlanTag vlan ++ msdu.drop 12)

/-- The packets lie behind each other in the data, and are the MSDUs. -/
structure Split (cfg : ApCfg) (FromWhichBSSID : Nat) (pRxBlk : RX_BLK) (first second : Part) :
    Prop where
  order : first.start + first.len ≤ second.start
  inside : second.start + second.len ≤ pRxBlk.DataSize.toNat
  size : second.len = pRxBlk.Msdu2Size.toNat
  packets : ∀ msdu1 msdu2, TwoMsdus pRxBlk msdu1 msdu2 →
    first.packet =
        packetOf (MBSS_VLAN_INFO_GET cfg FromWhichBSSID) pRxBlk.pDA pRxBlk.pSA msdu1 ∧
      second.packet = taggedPacket (MBSS_VLAN_INFO_GET cfg FromWhichBSSID) msdu2

def Handled (cfg : ApCfg) (FromWhichBSSID : Nat) (pRxBlk : RX_BLK) : Prop :=
  CmmRxRalinkFrameIndicate cfg FromWhichBSSID pRxBlk = some .released ∨
    ∃ first second, CmmRxRalinkFrameIndicate cfg FromWhichBSSID pRxBlk =
      some (.delivered first second) ∧ Split cfg FromWhichBSSID pRxBlk first second

/-- The sizes for which a frame is released, or the second MSDU has room for its header and for what
is taken off of the first. -/
def Fits (pRxBlk : RX_BLK) : Prop :=
  (1536 < pRxBlk.Msdu2Size.toNat ∨ pRxBlk.DataSize.toNat ≤ pRxBlk.Msdu2Size.toNat) ∨
    14 ≤ pRxBlk.Msdu2Size.toNat ∧
      if Removable (readBytes pRxBlk.data 2 8) then
        pRxBlk.Msdu2Size.toNat + 10 ≤ pRxBlk.DataSize.toNat
      else pRxBlk.DataSize.toNat = pRxBlk.Msdu2Size.toNat + 2

section Split

variable {cfg : ApCfg} {FromWhichBSSID : Nat} {pRxBlk : RX_BLK} {c : Converted} {r : Indicated}

def parts (cfg : ApCfg) (FromWhichBSSID : Nat) (pRxBlk : RX_BLK) (c : Converted) : Part × Part :=
  let len1 := (c.DataSize - pRxBlk.Msdu2Size).toNat
  let len2 := (pRxBlk.Msdu2Size - 14).toNat
  let vlan := MBSS_VLAN_INFO_GET cfg FromWhichBSSID
  (⟨c.pData, len1, VLAN_8023_Header_Copy vlan c.Header802_3 ++ readBytes pRxBlk.data c.pData len1⟩,
    ⟨c.pData + len1, 14 + len2,
      VLAN_8023_Header_Copy vlan (readBytes pRxBlk.data (c.pData + len1) 14) ++
        readBytes pRxBlk.data (c.pData + len1 + 14) len2⟩)

theorem splitMsdus_some (h : splitMsdus cfg FromWhichBSSID pRxBlk c = some r) :
    r = .delivered (parts cfg FromWhichBSSID pRxBlk c).1 (parts cfg FromWhichBSSID pRxBlk c).2 := by
  obtain ⟨header2, hheader2, h⟩ := Option.bind_eq_some_iff.mp h
  obtain ⟨payload2, hpayload2, h⟩ := Option.bind_eq_some_iff.mp h
  obtain ⟨payload1, hpayload1, h⟩ := Option.bind_eq_some_iff.mp h
  obtain rfl := Buffer.load_some hheader2
  obtain rfl := Buffer.load_some hpayload2
  obtain rfl := Buffer.load_some hpayload1
  exact (Option.some.inj h).symm

theorem splitMsdus_eq
    (hin : c.pData + (c.DataSize - pRxBlk.Msdu2Size).toNat + 14 + (pRxBlk.Msdu2Size - 14).toNat ≤
      pRxBlk.size) :
    splitMsdus cfg FromWhichBSSID pRxBlk c =
      some (.delivered (parts cfg FromWhichBSSID pRxBlk c).1 (parts cfg FromWhichBSSID pRxBlk c).2) := by
  have hback : c.pData + (c.DataSize - pRxBlk.Msdu2Size).toNat + LENGTH_802_3 - LENGTH_802_3 =
      c.pData + (c.DataSize - pRxBlk.Msdu2Size).toNat := Nat.add_sub_cancel ..
  have hheader2 : load pRxBlk.size pRxBlk.data (c.pData + (c.DataSize - pRxBlk.Msdu2Size).toNat)
      LENGTH_802_3 = some _ := Buffer.load_eq (by show _ + 14 ≤ _; omega)
  have hpayload2 : load pRxBlk.size pRxBlk.data
      (c.pData + (c.DataSize - pRxBlk.Msdu2Size).toNat + LENGTH_802_3)
      (pRxBlk.Msdu2Size - 14).toNat = some _ := Buffer.load_eq hin
  have hpayload1 : load pRxBlk.size pRxBlk.data c.pData (c.DataSize - pRxBlk.Msdu2Size).toNat =
      some _ := Buffer.load_eq (by omega)
  simp only [splitMsdus, hback, hheader2, hpayload2, hpayload1, Option.bind_eq_bind,
    Option.bind_some]
  rfl

end Split

section Data

variable {pRxBlk : RX_BLK} {msdu1 msdu2 : List UInt8}

theorem msdu2Size_eq (pRxBlk : RX_BLK) :
    pRxBlk.Msdu2Size = payloadSize [pRxBlk.data 1, pRxBlk.data 0] := rfl

theorem TwoMsdus.lies (h : TwoMsdus pRxBlk msdu1 msdu2) :
    pRxBlk.DataSize.toNat = 2 + msdu1.length + msdu2.length ∧
      pRxBlk.Msdu2Size.toNat = msdu2.length ∧
      readBytes pRxBlk.data 2 msdu1.length = msdu1 ∧
      readBytes pRxBlk.data (2 + msdu1.length) msdu2.length = msdu2 := by
  have hlayout := h.layout
  have hlen := congrArg List.length hlayout
  rw [ByteStore.length_readBytes, List.length_cons, List.length_cons, List.length_append] at hlen
  have hsize : pRxBlk.DataSize.toNat = ([UInt8.ofNat msdu2.length, UInt8.ofNat (msdu2.length / 256)] ++
      (msdu1 ++ msdu2)).length := by
    rw [List.length_append, List.length_append, hlen]
    exact Nat.add_comm _ 2
  rw [hsize] at hlayout
  obtain ⟨hbytes, hmsdus⟩ := ByteStore.readBytes_append_iff.mp hlayout
  obtain ⟨h1, h2⟩ := ByteStore.readBytes_append_iff.mp hmsdus
  obtain ⟨hlow, hbytes⟩ := List.cons.inj hbytes
  obtain ⟨hhigh, -⟩ := List.cons.inj hbytes
  refine ⟨by omega, ?_, h1, h2⟩
  have hbe : [pRxBlk.data 1, pRxBlk.data 0] = be16 msdu2.length := by
    rw [be16, ← hlow, ← hhigh]
    rfl
  rw [msdu2Size_eq, hbe, toNat_be16 h.fits]

theorem be16_payloadSize (high low : UInt8) : be16 (payloadSize [high, low]).toNat = [high, low] := by
  have hh := high.toNat_lt
  have hl := low.toNat_lt
  have hsum : (payloadSize [high, low]).toNat = high.toNat * 256 + low.toNat := by
    have hshift : (high.toUInt16 <<< 8).toNat = high.toNat * 256 := by
      rw [UInt16.toNat_shiftLeft, UInt8.toNat_toUInt16, Nat.shiftLeft_eq]
      show high.toNat * 256 % 65536 = _
      omega
    show (low.toUInt16 + high.toUInt16 <<< 8).toNat = _
    rw [UInt16.toNat_add, hshift, UInt8.toNat_toUInt16]
    omega
  have hhigh : UInt8.ofNat ((payloadSize [high, low]).toNat / 256) = high := by
    apply UInt8.toNat_inj.mp
    rw [UInt8.toNat_ofNat', hsum]
    omega
  have hlow : UInt8.ofNat (payloadSize [high, low]).toNat = low := by
    apply UInt8.toNat_inj.mp
    rw [UInt8.toNat_ofNat', hsum]
    omega
  rw [be16, hhigh, hlow]

theorem twoMsdus_of_sizes (h14 : 14 ≤ pRxBlk.Msdu2Size.toNat)
    (h : pRxBlk.Msdu2Size.toNat + 2 < pRxBlk.DataSize.toNat) :
    TwoMsdus pRxBlk
      (readBytes pRxBlk.data 2 (pRxBlk.DataSize.toNat - 2 - pRxBlk.Msdu2Size.toNat))
      (readBytes pRxBlk.data (pRxBlk.DataSize.toNat - pRxBlk.Msdu2Size.toNat)
        pRxBlk.Msdu2Size.toNat) where
  layout := by
    obtain ⟨hhigh, hlow⟩ := List.cons.inj (be16_payloadSize (pRxBlk.data 1) (pRxBlk.data 0))
    have hlow := (List.cons.inj hlow).1
    rw [← msdu2Size_eq] at hhigh hlow
    obtain ⟨k, hk⟩ : ∃ k, pRxBlk.DataSize.toNat = 2 + (k + pRxBlk.Msdu2Size.toNat) :=
      ⟨pRxBlk.DataSize.toNat - 2 - pRxBlk.Msdu2Size.toNat, by omega⟩
    rw [ByteStore.length_readBytes, hhigh, hlow, hk, Nat.add_sub_cancel_left, Nat.add_sub_cancel,
      ← Nat.add_assoc, Nat.add_sub_cancel, Nat.add_assoc, ByteStore.readBytes_add,
      ByteStore.readBytes_add]
    rfl
  first := by
    apply List.ne_nil_of_length_pos
    rw [ByteStore.length_readBytes]
    omega
  header := by
    rw [ByteStore.length_readBytes]
    exact h14
  fits := by
    rw [ByteStore.length_readBytes]
    exact pRxBlk.Msdu2Size.toNat_lt

theorem llcLen_eq (DataSize : UInt16) : LLC_Len DataSize = be16 DataSize.toNat := by
  have hhigh : (DataSize >>> 8).toUInt8 = UInt8.ofNat (DataSize.toNat / 256) := by
    apply UInt8.toNat_inj.mp
    rw [UInt16.toNat_toUInt8, UInt16.toNat_shiftRight, UInt8.toNat_ofNat', Nat.shiftRight_eq_div_pow]
    rfl
  have hlow : DataSize.toUInt8 = UInt8.ofNat DataSize.toNat := by
    apply UInt8.toNat_inj.mp
    rw [UInt16.toNat_toUInt8, UInt8.toNat_ofNat']
  rw [LLC_Len, be16, hhigh, hlow]

theorem RX_BLK.length_pDA (pRxBlk : RX_BLK) : pRxBlk.pDA.length = 6 := by
  unfold RX_BLK.pDA
  split
  · exact pRxBlk.length_Addr3
  · split
    · exact pRxBlk.length_Addr1
    · exact pRxBlk.length_Addr3

theorem RX_BLK.length_pSA (pRxBlk : RX_BLK) : pRxBlk.pSA.length = 6 := by
  unfold RX_BLK.pSA
  split
  · exact pRxBlk.length_Addr4
  · split
    · exact pRxBlk.length_Addr3
    · exact pRxBlk.length_Addr2

theorem TwoMsdus.second_packet (h : TwoMsdus pRxBlk msdu1 msdu2) (vlan : UInt16 × UInt16) {start : Nat}
    (hstart : start = 2 + msdu1.length) :
    VLAN_8023_Header_Copy vlan (readBytes pRxBlk.data start 14) ++
        readBytes pRxBlk.data (start + 14) (pRxBlk.Msdu2Size.toNat - 14) =
      taggedPacket vlan msdu2 := by
  obtain ⟨-, hsize, -, hmsdu2⟩ := h.lies
  obtain ⟨k, hk⟩ := Nat.exists_eq_add_of_le h.header
  rw [hk, ByteStore.readBytes_add, ← hstart] at hmsdu2
  rw [hsize, hk, Nat.add_sub_cancel_left, headerCopy, taggedPacket, ← hmsdu2,
    List.take_append_of_le_length (by simp), List.drop_append_of_le_length (by simp),
    List.append_assoc, List.append_assoc]

end Data

section Handled

variable {cfg : ApCfg} {FromWhichBSSID : Nat} {pRxBlk : RX_BLK} {c : Converted}

theorem toNat_payload2 (h14 : 14 ≤ pRxBlk.Msdu2Size.toNat) :
    (pRxBlk.Msdu2Size - 14).toNat = pRxBlk.Msdu2Size.toNat - 14 :=
  UInt16.toNat_sub_of_le _ _ (UInt16.le_iff_toNat_le.mpr h14)

theorem split_iff (hc : c.pData + c.DataSize.toNat = pRxBlk.DataSize.toNat)
    (h14 : 14 ≤ pRxBlk.Msdu2Size.toNat) :
    Split cfg FromWhichBSSID pRxBlk (parts cfg FromWhichBSSID pRxBlk c).1
        (parts cfg FromWhichBSSID pRxBlk c).2 ↔
      pRxBlk.Msdu2Size.toNat ≤ c.DataSize.toNat ∧
        ∀ msdu1 msdu2, TwoMsdus pRxBlk msdu1 msdu2 →
          (parts cfg FromWhichBSSID pRxBlk c).1.packet =
              packetOf (MBSS_VLAN_INFO_GET cfg FromWhichBSSID) pRxBlk.pDA pRxBlk.pSA msdu1 ∧
            (parts cfg FromWhichBSSID pRxBlk c).2.packet =
              taggedPacket (MBSS_VLAN_INFO_GET cfg FromWhichBSSID) msdu2 := by
  have hM := pRxBlk.Msdu2Size.toNat_lt
  have hD := pRxBlk.DataSize.toNat_lt
  have hlen2 := toNat_payload2 h14
  have hlen1 := UInt16.toNat_sub c.DataSize pRxBlk.Msdu2Size
  constructor
  · intro h
    have hinside := h.inside
    change c.pData + (c.DataSize - pRxBlk.Msdu2Size).toNat + (14 + (pRxBlk.Msdu2Size - 14).toNat) ≤ _
      at hinside
    exact ⟨by omega, h.packets⟩
  · rintro ⟨hle, hpackets⟩
    refine ⟨le_rfl, ?_, ?_, hpackets⟩
    · show c.pData + (c.DataSize - pRxBlk.Msdu2Size).toNat + (14 + (pRxBlk.Msdu2Size - 14).toNat) ≤ _
      omega
    · show 14 + (pRxBlk.Msdu2Size - 14).toNat = _
      omega

theorem split_removed (h14 : 14 ≤ pRxBlk.Msdu2Size.toNat)
    (hlt : pRxBlk.Msdu2Size.toNat < pRxBlk.DataSize.toNat)
    (hrem : Removable (readBytes pRxBlk.data 2 8)) {c : Converted}
    (hc : c = removedHeader pRxBlk.pDA pRxBlk.pSA (readBytes pRxBlk.data 8 2) 2 (pRxBlk.DataSize - 2)) :
    Split cfg FromWhichBSSID pRxBlk (parts cfg FromWhichBSSID pRxBlk c).1
        (parts cfg FromWhichBSSID pRxBlk c).2 ↔
      pRxBlk.Msdu2Size.toNat + 10 ≤ pRxBlk.DataSize.toNat := by
  have htwo : (pRxBlk.DataSize - 2).toNat = pRxBlk.DataSize.toNat - 2 :=
    UInt16.toNat_sub_of_le _ _ (UInt16.le_iff_toNat_le.mpr (show 2 ≤ _ by omega))
  have hten : (pRxBlk.DataSize - 2 - 8).toNat = pRxBlk.DataSize.toNat - 2 - 8 := by
    rw [← htwo]
    exact UInt16.toNat_sub_of_le _ _ (UInt16.le_iff_toNat_le.mpr (show 8 ≤ _ by omega))
  have hleft : c.DataSize.toNat = pRxBlk.DataSize.toNat - 2 - 8 := by
    rw [hc]
    exact hten
  have hstart : c.pData = 10 := by
    rw [hc]
    rfl
  rw [split_iff (by omega) h14, hleft]
  constructor
  · rintro ⟨hle, -⟩
    omega
  · intro hle
    refine ⟨by omega, fun msdu1 msdu2 h => ?_⟩
    obtain ⟨hdata, hsize, hmsdu1, -⟩ := h.lies
    have hlen1 : (c.DataSize - pRxBlk.Msdu2Size).toNat = msdu1.length - 8 := by
      rw [UInt16.toNat_sub_of_le _ _ (UInt16.le_iff_toNat_le.mpr (by omega)), hleft]
      omega
    obtain ⟨hllc, htype, hrest⟩ := read_payload (show 8 ≤ msdu1.length by omega) hmsdu1
    rw [hllc] at hrem
    constructor
    · show VLAN_8023_Header_Copy _ c.Header802_3 ++ readBytes pRxBlk.data c.pData _ = _
      rw [hlen1, hstart, hc]
      show VLAN_8023_Header_Copy _ (_ ++ _ ++ readBytes pRxBlk.data (2 + 6) 2) ++
        readBytes pRxBlk.data (2 + 8) _ = _
      rw [htype, hrest, headerCopy_eq pRxBlk.length_pDA pRxBlk.length_pSA, packetOf,
        if_pos (encapsulated_of_removable (by omega) hrem)]
      simp only [List.append_assoc]
    · show VLAN_8023_Header_Copy _ (readBytes pRxBlk.data (c.pData + _) 14) ++
        readBytes pRxBlk.data (c.pData + _ + 14) (pRxBlk.Msdu2Size - 14).toNat = _
      rw [toNat_payload2 h14, hlen1, hstart]
      exact h.second_packet _ (by omega)

theorem split_kept (h14 : 14 ≤ pRxBlk.Msdu2Size.toNat)
    (hlt : pRxBlk.Msdu2Size.toNat < pRxBlk.DataSize.toNat)
    (hc : c = keptHeader pRxBlk.pDA pRxBlk.pSA 2 (pRxBlk.DataSize - 2)) :
    Split cfg FromWhichBSSID pRxBlk (parts cfg FromWhichBSSID pRxBlk c).1
        (parts cfg FromWhichBSSID pRxBlk c).2 ↔
      pRxBlk.DataSize.toNat = pRxBlk.Msdu2Size.toNat + 2 := by
  have htwo : (pRxBlk.DataSize - 2).toNat = pRxBlk.DataSize.toNat - 2 :=
    UInt16.toNat_sub_of_le _ _ (UInt16.le_iff_toNat_le.mpr (show 2 ≤ _ by omega))
  have hleft : c.DataSize.toNat = pRxBlk.DataSize.toNat - 2 := by
    rw [hc]
    exact htwo
  have hstart : c.pData = 2 := by
    rw [hc]
    rfl
  rw [split_iff (by omega) h14, hleft]
  constructor
  · rintro ⟨hle, hpackets⟩
    by_contra hne
    have h := twoMsdus_of_sizes h14 (show pRxBlk.Msdu2Size.toNat + 2 < pRxBlk.DataSize.toNat by omega)
    obtain ⟨hfirst, -⟩ := hpackets _ _ h
    obtain ⟨hdata, hsize, -, -⟩ := h.lies
    generalize readBytes pRxBlk.data 2 (pRxBlk.DataSize.toNat - 2 - pRxBlk.Msdu2Size.toNat) = msdu1
      at hfirst hdata
    generalize readBytes pRxBlk.data (pRxBlk.DataSize.toNat - pRxBlk.Msdu2Size.toNat)
      pRxBlk.Msdu2Size.toNat = msdu2 at hsize hdata
    have hlen1 : (c.DataSize - pRxBlk.Msdu2Size).toNat = msdu1.length := by
      rw [UInt16.toNat_sub_of_le _ _ (UInt16.le_iff_toNat_le.mpr (by omega)), hleft]
      omega
    have hheader : c.Header802_3 = pRxBlk.pDA ++ pRxBlk.pSA ++ be16 (pRxBlk.DataSize - 2).toNat := by
      rw [hc, ← llcLen_eq]
      rfl
    change VLAN_8023_Header_Copy _ c.Header802_3 ++ readBytes pRxBlk.data c.pData _ = _ at hfirst
    rw [hheader, hlen1, htwo, headerCopy_eq pRxBlk.length_pDA pRxBlk.length_pSA, packetOf] at hfirst
    simp only [List.append_assoc, List.append_cancel_left_eq] at hfirst
    split at hfirst
    · next henc =>
      have h8 := henc.1
      have hlength := congrArg List.length hfirst
      rw [List.length_append, List.length_append, ByteStore.length_readBytes, List.length_take,
        List.length_drop, List.length_drop] at hlength
      change 2 + msdu1.length = _ at hlength
      omega
    · have hbe := congrArg (fun size => (payloadSize size).toNat) (List.append_inj_left hfirst rfl)
      change (payloadSize (be16 _)).toNat = (payloadSize (be16 _)).toNat at hbe
      have hD := pRxBlk.DataSize.toNat_lt
      rw [toNat_be16 (by omega), toNat_be16 (by omega)] at hbe
      omega
  · intro heq
    refine ⟨by omega, fun msdu1 msdu2 h => ?_⟩
    obtain ⟨hdata, hsize, -, -⟩ := h.lies
    exact absurd (List.eq_nil_of_length_eq_zero (show msdu1.length = 0 by omega)) h.first

theorem not_split_short (h14 : pRxBlk.Msdu2Size.toNat < 14) :
    ¬ Split cfg FromWhichBSSID pRxBlk (parts cfg FromWhichBSSID pRxBlk c).1
      (parts cfg FromWhichBSSID pRxBlk c).2 := by
  intro h
  have hsize := h.size
  change 14 + (pRxBlk.Msdu2Size - 14).toNat = _ at hsize
  omega

theorem handled_iff_split (h : pRxBlk.Msdu2Size ≤ 1536 ∧ pRxBlk.Msdu2Size < pRxBlk.DataSize) :
    Handled cfg FromWhichBSSID pRxBlk ↔
      ∃ c, CONVERT_TO_802_3 pRxBlk.size pRxBlk.data pRxBlk.pDA pRxBlk.pSA 2 (pRxBlk.DataSize - 2) =
          some c ∧
        Split cfg FromWhichBSSID pRxBlk (parts cfg FromWhichBSSID pRxBlk c).1
          (parts cfg FromWhichBSSID pRxBlk c).2 := by
  have hrun : CmmRxRalinkFrameIndicate cfg FromWhichBSSID pRxBlk = _ := if_pos h
  rw [Handled, hrun]
  constructor
  · rintro (hreleased | ⟨first, second, hdelivered, hsplit⟩)
    · obtain ⟨c, -, hc⟩ := Option.bind_eq_some_iff.mp hreleased
      exact absurd (splitMsdus_some hc) nofun
    · obtain ⟨c, hconvert, hc⟩ := Option.bind_eq_some_iff.mp hdelivered
      obtain ⟨rfl, rfl⟩ := Indicated.delivered.inj (splitMsdus_some hc)
      exact ⟨c, hconvert, hsplit⟩
  · rintro ⟨c, hconvert, hsplit⟩
    have hinside := hsplit.inside
    change c.pData + (c.DataSize - pRxBlk.Msdu2Size).toNat + (14 + (pRxBlk.Msdu2Size - 14).toNat) ≤ _
      at hinside
    have hsize := pRxBlk.dataSize_le
    rw [hconvert, Option.bind_some, splitMsdus_eq (by omega)]
    exact .inr ⟨_, _, rfl, hsplit⟩

/-- The size of the second MSDU is compared before anything is taken off of the first. -/
theorem handled_iff (cfg : ApCfg) (FromWhichBSSID : Nat) (pRxBlk : RX_BLK) :
    Handled cfg FromWhichBSSID pRxBlk ↔ Fits pRxBlk := by
  have hbranch : pRxBlk.Msdu2Size ≤ 1536 ∧ pRxBlk.Msdu2Size < pRxBlk.DataSize ↔
      ¬ (1536 < pRxBlk.Msdu2Size.toNat ∨ pRxBlk.DataSize.toNat ≤ pRxBlk.Msdu2Size.toNat) := by
    rw [UInt16.le_iff_toNat_le, UInt16.lt_iff_toNat_lt, not_or, Nat.not_lt, Nat.not_le]
    rfl
  by_cases hgood : pRxBlk.Msdu2Size ≤ 1536 ∧ pRxBlk.Msdu2Size < pRxBlk.DataSize
  · have hlt : pRxBlk.Msdu2Size.toNat < pRxBlk.DataSize.toNat := UInt16.lt_iff_toNat_lt.mp hgood.2
    rw [handled_iff_split hgood, Fits, or_iff_right (hbranch.mp hgood)]
    by_cases h14 : 14 ≤ pRxBlk.Msdu2Size.toNat
    · have hsize := pRxBlk.dataSize_le
      rw [convert_eq (show 2 + 8 ≤ pRxBlk.size by omega), and_iff_right h14]
      split
      · next hrem =>
        constructor
        · rintro ⟨c, hc, h⟩
          exact (split_removed h14 hlt hrem (Option.some.inj hc).symm).mp h
        · exact fun h => ⟨_, rfl, (split_removed h14 hlt hrem rfl).mpr h⟩
      · constructor
        · rintro ⟨c, hc, h⟩
          exact (split_kept h14 hlt (Option.some.inj hc).symm).mp h
        · exact fun h => ⟨_, rfl, (split_kept h14 hlt rfl).mpr h⟩
    · refine iff_of_false ?_ fun h => h14 h.1
      rintro ⟨c, -, h⟩
      exact not_split_short (Nat.lt_of_not_le h14) h
  · exact iff_of_true (.inl (if_neg hgood)) (.inl (not_not.mp (mt hbranch.mpr hgood)))

def shortFrame : RX_BLK where
  fRX_WDS := false
  fRX_MESH := false
  fRX_APCLI := false
  Addr1 := plainMsdu.DA
  Addr2 := plainMsdu.SA
  Addr3 := [2, 0, 0, 0, 0, 3]
  Addr4 := [0, 0, 0, 0, 0, 0]
  DataSize := 64
  size := 3840
  data := fun a => if a = 0 then 3 else 0
  length_Addr1 := plainMsdu.length_DA
  length_Addr2 := plainMsdu.length_SA
  length_Addr3 := rfl
  length_Addr4 := rfl
  size_pos := by decide
  dataSize_le := by decide

theorem shortFrame_not_handled : ¬ Handled oneBss 0 shortFrame := by
  intro h
  obtain ⟨c, -, hsplit⟩ := (handled_iff_split (by decide)).mp h
  exact not_split_short (by decide) hsplit

end Handled

end Ralink.Rx
