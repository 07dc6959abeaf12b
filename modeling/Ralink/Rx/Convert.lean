import Ralink.Lib.Buffer
import Ralink.Station.Table

/-! `CONVERT_TO_802_3` makes the 802.3 header of a packet from its LLC/SNAP header, which
`VLAN_8023_Header_Copy` writes in front of the payload, with the tag of the interface. A pointer is
a place in the `size` bytes of memory behind the start of a packet. -/
namespace Ralink.Rx
open Station (HW_BEACON_MAX_NUM)
open ByteStore (Store readBytes writeBytes)
open Buffer (load save loadByte)

def MAC_ADDR_LEN : Nat := 6
def LENGTH_802_3 : Nat := 14
def LENGTH_802_3_NO_TYPE : Nat := 12
def LENGTH_802_1_H : Nat := 8
def LENGTH_802_1Q : Nat := 4

def SNAP_802_1H : List UInt8 := [0xaa, 0xaa, 0x03, 0x00, 0x00, 0x00]
def SNAP_BRIDGE_TUNNEL : List UInt8 := [0xaa, 0xaa, 0x03, 0x00, 0x00, 0xf8]
def IPX : List UInt8 := [0x81, 0x37]
def APPLE_TALK : List UInt8 := [0x80, 0xf3]
def TPID : List UInt8 := [0x81, 0x00]

/-- The interfaces of the access point with their VLANs. -/
structure ApCfg where
  BssidNum : Nat
  VLAN_VID : Nat → UInt16
  VLAN_Priority : Nat → UInt16
  bssidNum_le : BssidNum ≤ HW_BEACON_MAX_NUM

def MBSS_VLAN_INFO_GET (cfg : ApCfg) (FromWhichBSSID : Nat) : UInt16 × UInt16 :=
  if FromWhichBSSID < cfg.BssidNum ∧ FromWhichBSSID < HW_BEACON_MAX_NUM ∧
      cfg.VLAN_VID FromWhichBSSID ≠ 0 then
    (cfg.VLAN_VID FromWhichBSSID, cfg.VLAN_Priority FromWhichBSSID)
  else (0, 0)

def VLAN_Size (cfg : ApCfg) (FromWhichBSSID : Nat) : Nat :=
  if FromWhichBSSID < cfg.BssidNum then
    if cfg.VLAN_VID FromWhichBSSID ≠ 0 then LENGTH_802_1Q else 0
  else 0

/-- The bytes that are written for a header of 14 bytes. -/
def VLAN_8023_Header_Copy (vlan : UInt16 × UInt16) (pHeader802_3 : List UInt8) : List UInt8 :=
  if vlan.1 ≠ 0 then
    let TCI : UInt16 := (vlan.1 &&& (0x0fff : UInt16)) ||| ((vlan.2 &&& (0x7 : UInt16)) <<< 13)
    pHeader802_3.take LENGTH_802_3_NO_TYPE ++ TPID ++ [(TCI >>> 8).toUInt8, TCI.toUInt8] ++
      pHeader802_3.drop LENGTH_802_3_NO_TYPE
  else pHeader802_3

variable (size : Nat) (f : Store)

/-- The comparison ends at the first byte that is different. -/
def NdisEqualMemory : List UInt8 → Nat → Option Bool
  | [], _ => some true
  | b :: bs, a => do
      let c ← loadByte size f a
      if c = b then NdisEqualMemory bs (a + 1) else some false

structure Converted where
  Header802_3 : List UInt8
  pData : Nat
  DataSize : UInt16
  pRemovedLLCSNAP : Option Nat

def LLC_Len (DataSize : UInt16) : List UInt8 := [(DataSize >>> 8).toUInt8, DataSize.toUInt8]

/-- The second operand is looked at only when the first is false. -/
def orElse (x y : Option Bool) : Option Bool := x.bind fun b => if b then some true else y

def andThen (x y : Option Bool) : Option Bool := x.bind fun b => if b then y else some false

def isSnap (pData : Nat) : Option Bool :=
  orElse (NdisEqualMemory size f SNAP_802_1H pData) (NdisEqualMemory size f SNAP_BRIDGE_TUNNEL pData)

def isKept (pData : Nat) : Option Bool :=
  andThen (orElse (NdisEqualMemory size f IPX (pData + 6)) (NdisEqualMemory size f APPLE_TALK (pData + 6)))
    (NdisEqualMemory size f SNAP_802_1H pData)

def keptHeader (pDA pSA : List UInt8) (pData : Nat) (DataSize : UInt16) : Converted :=
  ⟨pDA ++ pSA ++ LLC_Len DataSize, pData, DataSize, none⟩

def removedHeader (pDA pSA pProto : List UInt8) (pData : Nat) (DataSize : UInt16) : Converted :=
  ⟨pDA ++ pSA ++ pProto, pData + LENGTH_802_1_H, DataSize - 8, some pData⟩

def CONVERT_TO_802_3 (pDA pSA : List UInt8) (pData : Nat) (DataSize : UInt16) : Option Converted := do
  let snap ← isSnap size f pData
  if snap then do
    let keep ← isKept size f pData
    if keep then some (keptHeader pDA pSA pData DataSize)
    else do
      let pProto ← load size f (pData + 6) 2
      some (removedHeader pDA pSA pProto pData DataSize)
  else some (keptHeader pDA pSA pData DataSize)

variable {size : Nat} {f g : Store} {pData : Nat} {DataSize : UInt16} {pDA pSA : List UInt8}

def Removable (llc : List UInt8) : Prop :=
  (llc.take 6 = SNAP_802_1H ∧ llc.drop 6 ≠ IPX ∧ llc.drop 6 ≠ APPLE_TALK) ∨
    llc.take 6 = SNAP_BRIDGE_TUNNEL

instance (llc : List UInt8) : Decidable (Removable llc) :=
  inferInstanceAs (Decidable ((_ ∧ _ ∧ _) ∨ _))

theorem equalMemory_eq {bs : List UInt8} {a : Nat} (h : a + bs.length ≤ size) :
    NdisEqualMemory size f bs a = some (decide (readBytes f a bs.length = bs)) := by
  induction bs generalizing a with
  | nil => rfl
  | cons b bs ih =>
    rw [List.length_cons] at h
    have hread : readBytes f a (bs.length + 1) = f a :: readBytes f (a + 1) bs.length := by
      rw [Nat.add_comm, ByteStore.readBytes_add]
      rfl
    rw [NdisEqualMemory, Buffer.loadByte_eq (by omega), List.length_cons, hread,
      Option.bind_eq_bind, Option.bind_some]
    split
    · next heq =>
      rw [ih (by omega)]
      simp [heq]
    · next hne => simp [hne]

theorem orElse_some (a b : Bool) : orElse (some a) (some b) = some (a || b) := by cases a <;> rfl

theorem andThen_some (a b : Bool) : andThen (some a) (some b) = some (a && b) := by cases a <;> rfl

theorem removable_iff :
    Removable (readBytes f pData 8) ↔
      (readBytes f pData 6 = SNAP_802_1H ∨ readBytes f pData 6 = SNAP_BRIDGE_TUNNEL) ∧
        ¬ ((readBytes f (pData + 6) 2 = IPX ∨ readBytes f (pData + 6) 2 = APPLE_TALK) ∧
          readBytes f pData 6 = SNAP_802_1H) := by
  have hread : readBytes f pData 8 = readBytes f pData 6 ++ readBytes f (pData + 6) 2 :=
    ByteStore.readBytes_add f pData 6 2
  have hne : SNAP_BRIDGE_TUNNEL ≠ SNAP_802_1H := by decide
  rw [Removable, hread, List.take_left' (ByteStore.length_readBytes ..),
    List.drop_left' (ByteStore.length_readBytes ..)]
  constructor
  · rintro (⟨hsnap, hipx, happle⟩ | hbridge)
    · exact ⟨.inl hsnap, fun h => h.1.elim hipx happle⟩
    · exact ⟨.inr hbridge, fun h => hne (hbridge.symm.trans h.2)⟩
  · rintro ⟨hsnap | hbridge, hnot⟩
    · exact .inl ⟨hsnap, fun h => hnot ⟨.inl h, hsnap⟩, fun h => hnot ⟨.inr h, hsnap⟩⟩
    · exact .inr hbridge

theorem convert_eq (h : pData + 8 ≤ size) :
    CONVERT_TO_802_3 size f pDA pSA pData DataSize =
      some (if Removable (readBytes f pData 8) then
          removedHeader pDA pSA (readBytes f (pData + 6) 2) pData DataSize
        else keptHeader pDA pSA pData DataSize) := by
  have h6 : pData + 6 ≤ size := by omega
  have hrfc : NdisEqualMemory size f SNAP_802_1H pData =
      some (decide (readBytes f pData 6 = SNAP_802_1H)) := equalMemory_eq h6
  have hbridge : NdisEqualMemory size f SNAP_BRIDGE_TUNNEL pData =
      some (decide (readBytes f pData 6 = SNAP_BRIDGE_TUNNEL)) := equalMemory_eq h6
  have hipx : NdisEqualMemory size f IPX (pData + 6) =
      some (decide (readBytes f (pData + 6) 2 = IPX)) := equalMemory_eq h
  have happle : NdisEqualMemory size f APPLE_TALK (pData + 6) =
      some (decide (readBytes f (pData + 6) 2 = APPLE_TALK)) := equalMemory_eq h
  have hload : load size f (pData + 6) 2 = some (readBytes f (pData + 6) 2) := Buffer.load_eq h
  rw [CONVERT_TO_802_3, isSnap, isKept, hrfc, hbridge, hipx, happle, orElse_some, orElse_some,
    andThen_some, hload, ← Bool.decide_or, ← Bool.decide_or, ← Bool.decide_and]
  simp only [removable_iff, Option.bind_eq_bind, Option.bind_some, decide_eq_true_eq]
  split_ifs <;> tauto

theorem convert_short (h : size < pData + 8) {c : Converted}
    (hc : CONVERT_TO_802_3 size f pDA pSA pData DataSize = some c) :
    c = keptHeader pDA pSA pData DataSize := by
  have hload : load size f (pData + 6) 2 = none := Buffer.load_none h
  rw [CONVERT_TO_802_3, hload] at hc
  obtain ⟨snap, -, hc⟩ := Option.bind_eq_some_iff.mp hc
  split at hc
  · obtain ⟨keep, -, hc⟩ := Option.bind_eq_some_iff.mp hc
    split at hc
    · exact (Option.some.inj hc).symm
    · exact absurd hc nofun
  · exact (Option.some.inj hc).symm

theorem length_headerCopy {vlan : UInt16 × UInt16} {header : List UInt8} (h : header.length = 14) :
    (VLAN_8023_Header_Copy vlan header).length = 14 + if vlan.1 ≠ 0 then 4 else 0 := by
  unfold VLAN_8023_Header_Copy
  split
  · simp [h, TPID, LENGTH_802_3_NO_TYPE]
  · exact h

theorem vlanSize_eq (cfg : ApCfg) (FromWhichBSSID : Nat) :
    VLAN_Size cfg FromWhichBSSID =
      if (MBSS_VLAN_INFO_GET cfg FromWhichBSSID).1 ≠ 0 then 4 else 0 := by
  have hle := cfg.bssidNum_le
  by_cases h : FromWhichBSSID < cfg.BssidNum ∧ cfg.VLAN_VID FromWhichBSSID ≠ 0
  · have hinfo : MBSS_VLAN_INFO_GET cfg FromWhichBSSID =
        (cfg.VLAN_VID FromWhichBSSID, cfg.VLAN_Priority FromWhichBSSID) :=
      if_pos ⟨h.1, h.1.trans_le hle, h.2⟩
    rw [hinfo, VLAN_Size, if_pos h.1]
    rfl
  · have hinfo : MBSS_VLAN_INFO_GET cfg FromWhichBSSID = (0, 0) :=
      if_neg fun hall => h ⟨hall.1, hall.2.2⟩
    rw [hinfo, VLAN_Size]
    split
    · next hlt => exact if_neg fun hvid => h ⟨hlt, hvid⟩
    · rfl

section Packets

variable {vlan : UInt16 × UInt16} {DA SA payload type : List UInt8}

def be16 (n : Nat) : List UInt8 := [UInt8.ofNat (n / 256), UInt8.ofNat n]

/-- The payload starts with an RFC 1042 or a bridge-tunnel header. -/
def Encapsulated (payload : List UInt8) : Prop :=
  8 ≤ payload.length ∧
    (payload.take 6 = SNAP_802_1H ∨ payload.take 6 = SNAP_BRIDGE_TUNNEL)

instance (payload : List UInt8) : Decidable (Encapsulated payload) :=
  inferInstanceAs (Decidable (_ ∧ _))

def vlanTag (vlan : UInt16 × UInt16) : List UInt8 :=
  if vlan.1 ≠ 0 then
    let TCI : UInt16 := (vlan.1 &&& (0x0fff : UInt16)) ||| ((vlan.2 &&& (0x7 : UInt16)) <<< 13)
    [0x81, 0x00, (TCI >>> 8).toUInt8, TCI.toUInt8]
  else []

/-- The type stands for the header of the payload; other payloads stand behind their length. -/
def packetOf (vlan : UInt16 × UInt16) (DA SA payload : List UInt8) : List UInt8 :=
  DA ++ (SA ++ (vlanTag vlan ++
    if Encapsulated payload then (payload.drop 6).take 2 ++ payload.drop 8
    else be16 payload.length ++ payload))

theorem headerCopy (vlan : UInt16 × UInt16) (header : List UInt8) :
    VLAN_8023_Header_Copy vlan header = header.take 12 ++ (vlanTag vlan ++ header.drop 12) := by
  unfold VLAN_8023_Header_Copy vlanTag
  split
  · simp [TPID, LENGTH_802_3_NO_TYPE]
  · simp

theorem headerCopy_eq (hDA : DA.length = 6) (hSA : SA.length = 6) :
    VLAN_8023_Header_Copy vlan (DA ++ SA ++ type) = DA ++ (SA ++ (vlanTag vlan ++ type)) := by
  have hlen : (DA ++ SA).length = 12 := by
    rw [List.length_append, hDA, hSA]
  rw [headerCopy, List.take_left' hlen, List.drop_left' hlen, List.append_assoc]

theorem read_payload {a : Nat} (h8 : 8 ≤ payload.length)
    (h : readBytes f a payload.length = payload) :
    readBytes f a 8 = payload.take 8 ∧ readBytes f (a + 6) 2 = (payload.drop 6).take 2 ∧
      readBytes f (a + 8) (payload.length - 8) = payload.drop 8 := by
  obtain ⟨k, hk⟩ := Nat.exists_eq_add_of_le h8
  have h6 : payload.length = 6 + (2 + k) := by omega
  have hsplit := h
  rw [hk, ByteStore.readBytes_add] at hsplit
  have hsplit' := h
  rw [h6, ByteStore.readBytes_add, ByteStore.readBytes_add] at hsplit'
  refine ⟨?_, ?_, ?_⟩
  · rw [← hsplit, List.take_left' (ByteStore.length_readBytes ..)]
  · rw [← hsplit', List.drop_left' (ByteStore.length_readBytes ..),
      List.take_left' (ByteStore.length_readBytes ..)]
  · rw [hk, Nat.add_sub_cancel_left]
    conv_rhs => rw [← hsplit]
    rw [List.drop_left' (ByteStore.length_readBytes ..)]

theorem length_packetOf (hDA : DA.length = 6) (hSA : SA.length = 6) :
    (packetOf vlan DA SA payload).length = 12 + (vlanTag vlan).length +
      if Encapsulated payload then payload.length - 6 else payload.length + 2 := by
  rw [packetOf, List.length_append, List.length_append, List.length_append, hDA, hSA]
  split
  · next h =>
    have h8 := h.1
    rw [List.length_append, List.length_take, List.length_drop, List.length_drop]
    omega
  · show 6 + (6 + (_ + (payload.length + 1 + 1))) = _
    omega

theorem length_vlanTag (cfg : ApCfg) (FromWhichBSSID : Nat) :
    (vlanTag (MBSS_VLAN_INFO_GET cfg FromWhichBSSID)).length = VLAN_Size cfg FromWhichBSSID := by
  rw [vlanSize_eq]
  unfold vlanTag
  split <;> rfl

theorem encapsulated_of_removable (h8 : 8 ≤ payload.length) (h : Removable (payload.take 8)) :
    Encapsulated payload := by
  have htake : (payload.take 8).take 6 = payload.take 6 := by
    rw [List.take_take]
    rfl
  rw [Removable, htake] at h
  exact ⟨h8, h.imp_left And.left⟩

end Packets

end Ralink.Rx
