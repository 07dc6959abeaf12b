import Ralink.Wpa.KeyData

/-! `ConstructEapolMsg` of `cmm_wpa.c` with the functions that it builds the key data and the MIC
with. -/
namespace Ralink.Wpa

theorem MsgType.ctorIdx_injective : Function.Injective MsgType.ctorIdx := by
  intro a b h
  cases a <;> cases b <;> first | rfl | cases h

/-- Messages are compared by their number. -/
instance : LinearOrder MsgType := LinearOrder.lift' MsgType.ctorIdx MsgType.ctorIdx_injective

namespace KEY_INFO

def setKeyDescVer (info : KEY_INFO) (KeyDescVer : BitVec 3) : KEY_INFO :=
  { info with second := info.second &&& 0xf8 ||| KeyDescVer.setWidth 8 }
def setKeyType (info : KEY_INFO) (KeyType : Bool) : KEY_INFO :=
  { info with second := info.second &&& 0xf7 ||| if KeyType then 0x08 else 0 }
def setKeyIndex (info : KEY_INFO) (KeyIndex : BitVec 2) : KEY_INFO :=
  { info with second := info.second &&& 0xcf ||| KeyIndex.setWidth 8 <<< 4 }
def setInstall (info : KEY_INFO) : KEY_INFO := { info with second := info.second ||| 0x40 }
def setKeyAck (info : KEY_INFO) : KEY_INFO := { info with second := info.second ||| 0x80 }
def setKeyMic (info : KEY_INFO) : KEY_INFO := { info with first := info.first ||| 0x01 }
def setSecure (info : KEY_INFO) : KEY_INFO := { info with first := info.first ||| 0x02 }
def setEKD_DL (info : KEY_INFO) : KEY_INFO := { info with first := info.first ||| 0x10 }

end KEY_INFO

namespace KeyData
open ByteStore Cipher Crypt

def EAPOL_VER : Byte := 1
def EAPOLKey : Byte := 3
def WPA1_KEY_DESC : Byte := 0xfe
def WPA2_KEY_DESC : Byte := 0x02
def IE_WPA : Byte := 221
def IE_RSN : Byte := 48
def LEN_TKIP_GTK : Nat := 32
def LEN_AES_GTK : Nat := 16

/-- Which allocations of the sender succeed, and what the part of the pool holds that the encrypted
key data goes to. -/
structure Pool where
  mpool : Bool
  eGTK : Store
  alloc : UInt32 → Bool
  arc4 : Bool
  OutBuffer : Bool

def WPA_ConstructKdeHdr (data_type data_len : Byte) : List Byte :=
  [WPA_KDE_TYPE, 4 + data_len] ++ OUI_WPA2 ++ [data_type]

def RTMPInsertRSNIE (rsnie_ptr : Vector Byte 255) (rsnie_len : Byte) : List Byte :=
  if rsnie_len ≠ 0 then
    let ie_num := if (rsnie_ptr.toList.drop 2).take 3 = OUI_WPA2 then IE_RSN else IE_WPA
    [ie_num, rsnie_len] ++ rsnie_ptr.toList.take rsnie_len.toNat
  else []

def gtkLen (GroupKeyWepStatus : NDIS_802_11_WEP_STATUS) : Nat :=
  if GroupKeyWepStatus = .Encryption3Enabled then LEN_AES_GTK else LEN_TKIP_GTK

def encapsulatedGtk (e : MAC_TABLE_ENTRY) (GroupKeyWepStatus : NDIS_802_11_WEP_STATUS)
    (DefaultKeyIdx : Byte) (GTK : GTK) : List Byte :=
  let gtk_len := gtkLen GroupKeyWepStatus
  (if e.bWPA2 then
    WPA_ConstructKdeHdr KDE_GTK (2 + BitVec.ofNat 8 gtk_len) ++ [DefaultKeyIdx &&& 0x03, 0x00]
  else []) ++ GTK.toList.take gtk_len

def padLen (data_offset : Nat) : Nat := (8 - data_offset % 8) % 8

/-- A byte `0xDD` and zeros. -/
def padding (pad_len : Nat) : List Byte :=
  if pad_len = 0 then [] else 0xDD :: List.replicate (pad_len - 1) 0

def encryptedKeyData (aes : BlockCipher 16) (pool : Pool) (e : MAC_TABLE_ENTRY)
    (keyDescVer : BitVec 3) (KeyIv : Vector Byte 16) (Key_Data : List Byte) : List Byte :=
  if keyDescVer = KEY_DESC_AES then
    let Key_Data := Key_Data ++ padding (padLen Key_Data.length)
    let out := AES_Key_Wrap aes pool.alloc (octets (KEK e.PTK))
      (writeBytes (fun _ => 0) 0 (octets Key_Data)) (UInt32.ofNat Key_Data.length) pool.eGTK 0
    bytes (readBytes out.text 0 out.length.toNat)
  else if pool.arc4 then
    bytes (TKIP_GTK_KEY_WRAP (octets (KEK e.PTK)) (octets KeyIv.toList) (octets Key_Data))
  else bytes (readBytes pool.eGTK 0 Key_Data.length)

def setKeyData (pMsg : EAPOL_PACKET) (data : List Byte) : EAPOL_PACKET :=
  { pMsg with
    Body_Len := pMsg.Body_Len + BitVec.ofNat 16 data.length
    KeyDesc :=
      { pMsg.KeyDesc with
        KeyDataLen := BitVec.ofNat 16 data.length
        KeyData := data ++ pMsg.KeyDesc.KeyData.drop data.length } }

def ConstructEapolKeyData (aes : BlockCipher 16) (pool : Pool) (e : MAC_TABLE_ENTRY)
    (GroupKeyWepStatus : NDIS_802_11_WEP_STATUS) (keyDescVer : BitVec 3) (type : MsgType)
    (DefaultKeyIdx : Byte) (GTK : GTK) (RSNIE : Vector Byte 255) (RSNIE_LEN : Byte)
    (pMsg : EAPOL_PACKET) : EAPOL_PACKET :=
  if type = .EAPOL_PAIR_MSG_1 ∨ type = .EAPOL_PAIR_MSG_4 ∨ type = .EAPOL_GROUP_MSG_2 then pMsg
  else if pool.mpool = false then pMsg
  else
    let rsn :=
      if RSNIE_LEN ≠ 0 ∧ (type = .EAPOL_PAIR_MSG_2 ∨ type = .EAPOL_PAIR_MSG_3) then
        RTMPInsertRSNIE RSNIE RSNIE_LEN
      else []
    if (type = .EAPOL_PAIR_MSG_3 ∧ e.bWPA2 = true) ∨ type = .EAPOL_GROUP_MSG_1 then
      setKeyData pMsg
        (encryptedKeyData aes pool e keyDescVer pMsg.KeyDesc.KeyIv
          (rsn ++ encapsulatedGtk e GroupKeyWepStatus DefaultKeyIdx GTK))
    else setKeyData pMsg rsn

def mic (C : Crypto) (KeyDescVer : BitVec 3) (PTK : PTK) (OutBuffer : List Byte) : Mic :=
  if KeyDescVer = KEY_DESC_AES then firstBytes 16 (C.RT_HMAC_SHA1 (KCK PTK) OutBuffer).toList
  else C.RT_HMAC_MD5 (KCK PTK) OutBuffer

def setKeyMic (pMsg : EAPOL_PACKET) (mic : Mic) : EAPOL_PACKET :=
  { pMsg with KeyDesc := { pMsg.KeyDesc with KeyMic := mic } }

def CalculateMIC (C : Crypto) (pool : Pool) (KeyDescVer : BitVec 3) (PTK : PTK)
    (pMsg : EAPOL_PACKET) : EAPOL_PACKET :=
  if pool.OutBuffer = false then pMsg
  else setKeyMic pMsg (mic C KeyDescVer PTK (pMsg.bytes.take pMsg.eapol_len))

def keyDescVer (e : MAC_TABLE_ENTRY) (GroupKeyWepStatus : NDIS_802_11_WEP_STATUS) : BitVec 3 :=
  if e.WepStatus = .Encryption3Enabled ∨ GroupKeyWepStatus = .Encryption3Enabled then KEY_DESC_AES
  else KEY_DESC_TKIP

def fillKeyInfo (bWPA2 : Bool) (KeyDescVer : BitVec 3) (type : MsgType) (DefaultKeyIdx : Byte)
    (info : KEY_INFO) : KEY_INFO :=
  let info := info.setKeyDescVer KeyDescVer
  let info := info.setKeyType (type < .EAPOL_GROUP_MSG_1)
  let info :=
    if bWPA2 = false ∧ .EAPOL_GROUP_MSG_1 ≤ type then info.setKeyIndex (DefaultKeyIdx.setWidth 2)
    else info
  let info := if type = .EAPOL_PAIR_MSG_3 then info.setInstall else info
  let info :=
    if type = .EAPOL_PAIR_MSG_1 ∨ type = .EAPOL_PAIR_MSG_3 ∨ type = .EAPOL_GROUP_MSG_1 then
      info.setKeyAck
    else info
  let info := if type ≠ .EAPOL_PAIR_MSG_1 then info.setKeyMic else info
  let info :=
    if (bWPA2 = true ∧ .EAPOL_PAIR_MSG_3 ≤ type) ∨ (bWPA2 = false ∧ .EAPOL_GROUP_MSG_1 ≤ type) then
      info.setSecure
    else info
  if bWPA2 = true ∧ (type = .EAPOL_PAIR_MSG_3 ∨ type = .EAPOL_GROUP_MSG_1) then info.setEKD_DL
  else info

/-- The length of the pairwise key, or with WPA that of the group key in its messages. -/
def fillKeyLength (e : MAC_TABLE_ENTRY) (GroupKeyWepStatus : NDIS_802_11_WEP_STATUS)
    (type : MsgType) (KeyLength : Vector Byte 2) : Vector Byte 2 :=
  let length (cipher : NDIS_802_11_WEP_STATUS) : Byte :=
    if cipher = .Encryption2Enabled then 32 else 16
  if e.bWPA2 then
    if type = .EAPOL_PAIR_MSG_1 ∨ type = .EAPOL_PAIR_MSG_3 then KeyLength.set 1 (length e.WepStatus)
    else KeyLength
  else if .EAPOL_GROUP_MSG_1 ≤ type then KeyLength.set 1 (length GroupKeyWepStatus)
  else KeyLength.set 1 (length e.WepStatus)

/-- The second half of the nonce, with two added to its last byte. -/
def fillKeyIv (KeyNonce : Nonce) : Vector Byte 16 :=
  let KeyIv : Vector Byte 16 := firstBytes 16 (KeyNonce.toList.drop 16)
  KeyIv.set 15 (KeyIv[15] + 2)

def fillKeyRsc (TxRSC : Vector Byte 6) (KeyRsc : Vector Byte 8) : Vector Byte 8 :=
  Vector.ofFn fun i => if h : i.val < 6 then TxRSC[i] else KeyRsc[i]

def fillDescriptor (e : MAC_TABLE_ENTRY) (GroupKeyWepStatus : NDIS_802_11_WEP_STATUS)
    (type : MsgType) (DefaultKeyIdx : Byte) (KeyNonce : Nonce) (TxRSC : Vector Byte 6)
    (k : KEY_DESCRIPTER) : KEY_DESCRIPTER :=
  { k with
    DescType := if e.bWPA2 then WPA2_KEY_DESC else WPA1_KEY_DESC
    KeyInfo :=
      fillKeyInfo e.bWPA2 (keyDescVer e GroupKeyWepStatus) type DefaultKeyIdx k.KeyInfo
    KeyLength := fillKeyLength e GroupKeyWepStatus type k.KeyLength
    ReplayCounter := e.R_Counter
    KeyNonce :=
      if type ≤ .EAPOL_PAIR_MSG_3 ∨ (e.bWPA2 = false ∧ type = .EAPOL_GROUP_MSG_1) then KeyNonce
      else k.KeyNonce
    KeyIv := if e.bWPA2 = false ∧ type = .EAPOL_GROUP_MSG_1 then fillKeyIv KeyNonce else k.KeyIv
    KeyRsc :=
      if (type = .EAPOL_PAIR_MSG_3 ∧ e.bWPA2 = true) ∨ type = .EAPOL_GROUP_MSG_1 then
        fillKeyRsc TxRSC k.KeyRsc
      else k.KeyRsc
    KeyMic := Vector.replicate 16 0 }

def ConstructEapolMsg (C : Crypto) (aes : BlockCipher 16) (pool : Pool) (e : MAC_TABLE_ENTRY)
    (GroupKeyWepStatus : NDIS_802_11_WEP_STATUS) (type : MsgType) (DefaultKeyIdx : Byte)
    (KeyNonce : Nonce) (TxRSC : Vector Byte 6) (GTK : GTK) (RSNIE : Vector Byte 255)
    (RSNIE_Len : Byte) (pMsg : EAPOL_PACKET) : EAPOL_PACKET :=
  let pMsg : EAPOL_PACKET :=
    { ProVer := EAPOL_VER, ProType := EAPOLKey
      Body_Len := BitVec.ofNat 16 MIN_LEN_OF_EAPOL_KEY_MSG
      KeyDesc :=
        fillDescriptor e GroupKeyWepStatus type DefaultKeyIdx KeyNonce TxRSC pMsg.KeyDesc }
  let pMsg :=
    ConstructEapolKeyData aes pool e GroupKeyWepStatus (keyDescVer e GroupKeyWepStatus) type
      DefaultKeyIdx GTK RSNIE RSNIE_Len pMsg
  if type ≠ .EAPOL_PAIR_MSG_1 then CalculateMIC C pool (keyDescVer e GroupKeyWepStatus) e.PTK pMsg
  else pMsg

end KeyData

end Ralink.Wpa
