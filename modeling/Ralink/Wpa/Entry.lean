import Ralink.Wpa.Pmkid
import Ralink.Station.Table

/-! The frames of the 4-way and the group key handshake as they are received, the pseudo random
function over the keyed hash and the keys that are derived with it. -/
namespace Ralink.Wpa

abbrev Byte := BitVec 8
abbrev Mac := Pmkid.Mac
abbrev PMK := Pmkid.PMK
abbrev PMKID := Pmkid.PMKID
abbrev Nonce := Vector Byte 32
abbrev GTK := Vector Byte 32
abbrev PTK := Vector Byte 64
abbrev Mic := Vector Byte 16

def firstBytes (n : Nat) (bytes : List Byte) : Vector Byte n :=
  Vector.ofFn fun i => bytes.getD i 0

def bigEndian {w : Nat} (n : Nat) (x : BitVec w) : List Byte :=
  (List.range n).reverse.map fun i => x.extractLsb' (8 * i) 8

/-- The two bytes of the key information. -/
structure KEY_INFO where
  first : Byte
  second : Byte
  deriving DecidableEq, Inhabited

namespace KEY_INFO

def KeyMic (info : KEY_INFO) : Bool := info.first.getLsbD 0
def Secure (info : KEY_INFO) : Bool := info.first.getLsbD 1
def Error (info : KEY_INFO) : Bool := info.first.getLsbD 2
def Request (info : KEY_INFO) : Bool := info.first.getLsbD 3
def KeyDescVer (info : KEY_INFO) : BitVec 3 := info.second.extractLsb' 0 3
/-- Set for pairwise keys, clear for group keys. -/
def KeyType (info : KEY_INFO) : Bool := info.second.getLsbD 3
def KeyIndex (info : KEY_INFO) : BitVec 2 := info.second.extractLsb' 4 2
def KeyAck (info : KEY_INFO) : Bool := info.second.getLsbD 7

end KEY_INFO

def KEY_DESC_TKIP : BitVec 3 := 1
def KEY_DESC_AES : BitVec 3 := 2

/-- The replay counter and the length of the key data are read as numbers. Behind the key data
stands what else is in the buffer. -/
structure KEY_DESCRIPTER where
  DescType : Byte
  KeyInfo : KEY_INFO
  KeyLength : Vector Byte 2
  ReplayCounter : BitVec 64
  KeyNonce : Nonce
  KeyIv : Vector Byte 16
  KeyRsc : Vector Byte 8
  KeyId : Vector Byte 8
  KeyMic : Mic
  KeyDataLen : BitVec 16
  KeyData : List Byte
  deriving Inhabited

structure EAPOL_PACKET where
  ProVer : Byte
  ProType : Byte
  Body_Len : BitVec 16
  KeyDesc : KEY_DESCRIPTER
  deriving Inhabited

def KEY_INFO.bytes (info : KEY_INFO) : List Byte := [info.first, info.second]

def KEY_DESCRIPTER.bytes (k : KEY_DESCRIPTER) : List Byte :=
  [k.DescType] ++ k.KeyInfo.bytes ++ k.KeyLength.toList ++ bigEndian 8 k.ReplayCounter ++
    k.KeyNonce.toList ++ k.KeyIv.toList ++ k.KeyRsc.toList ++ k.KeyId.toList ++ k.KeyMic.toList ++
    bigEndian 2 k.KeyDataLen ++ k.KeyData

def EAPOL_PACKET.bytes (p : EAPOL_PACKET) : List Byte :=
  [p.ProVer, p.ProType] ++ bigEndian 2 p.Body_Len ++ p.KeyDesc.bytes

def EAPOL_PACKET.clearMic (p : EAPOL_PACKET) : EAPOL_PACKET :=
  { p with KeyDesc := { p.KeyDesc with KeyMic := Vector.replicate 16 0 } }

/-- A received management frame: its length and, behind the headers, what its buffer holds. -/
structure MLME_QUEUE_ELEM where
  MsgLen : Nat
  Msg : EAPOL_PACKET
  deriving Inhabited

def LENGTH_802_11 : Nat := 24
def LENGTH_802_1_H : Nat := 8
def LENGTH_EAPOL_H : Nat := 4
def MIN_LEN_OF_EAPOL_KEY_MSG : Nat := 95

def MLME_QUEUE_ELEM.bodyLen (Elem : MLME_QUEUE_ELEM) : Nat :=
  (Elem.MsgLen + (2 ^ 32 - (LENGTH_802_11 + LENGTH_802_1_H))) % 2 ^ 32

def EAPOL_PACKET.eapol_len (p : EAPOL_PACKET) : Nat := p.Body_Len.toNat + LENGTH_EAPOL_H

/-- The keyed hashes and the ciphers of the key data. -/
structure Crypto where
  RT_HMAC_MD5 : List Byte → List Byte → Vector Byte 16
  RT_HMAC_SHA1 : List Byte → List Byte → Vector Byte 20
  AES_Key_Unwrap : List Byte → List Byte → List Byte
  TKIP_GTK_KEY_UNWRAP : List Byte → Vector Byte 16 → List Byte → List Byte
  deriving Inhabited

variable (C : Crypto)

/-- The first bytes that differ decide: 1 for a larger one in front, 2 for a smaller one. -/
def RTMPCompareMemory : List Byte → List Byte → Nat
  | a :: as, b :: bs => if b < a then 1 else if a < b then 2 else RTMPCompareMemory as bs
  | _, _ => 0

def PRF (key Prefix data : List Byte) (len : Nat) : List Byte :=
  (List.range ((len + 19) / 20)).flatMap fun i =>
    (C.RT_HMAC_SHA1 key (Prefix ++ [0] ++ data ++ [BitVec.ofNat 8 i])).toList

def ascii (text : String) : List Byte := text.toList.map fun c => BitVec.ofNat 8 c.toNat

/-- The addresses and the nonces that a PTK is derived from, the smaller ones first. In place of
equal nonces stands the larger address, filled up with zeros. -/
def concatenation (ANonce : Nonce) (AA : Mac) (SNonce : Nonce) (SA : Mac) : List Byte :=
  let smaller := if RTMPCompareMemory SA.toList AA.toList = 1 then AA else SA
  let larger := if RTMPCompareMemory SA.toList AA.toList = 1 then SA else AA
  let temp := larger.toList ++ List.replicate 26 0
  let order := RTMPCompareMemory ANonce.toList SNonce.toList
  smaller.toList ++ larger.toList ++
    (if order = 0 then temp else if order = 1 then SNonce.toList else ANonce.toList) ++
    (if order = 0 then temp else if order = 1 then ANonce.toList else SNonce.toList)

def WpaDerivePTK (PMK : PMK) (ANonce : Nonce) (AA : Mac) (SNonce : Nonce) (SA : Mac) : PTK :=
  firstBytes 64
    (PRF C PMK.toList (ascii "Pairwise key expansion") (concatenation ANonce AA SNonce SA) 64)

def WpaDeriveGTK (GMK GNonce : Nonce) (AA : Mac) : GTK :=
  firstBytes 32
    (PRF C GMK.toList (ascii "Group key expansion") (AA.toList ++ GNonce.toList) 32)

def KCK (ptk : PTK) : List Byte := ptk.toList.take 16
def KEK (ptk : PTK) : List Byte := (ptk.toList.drop 16).take 16
def TK (ptk : PTK) : Vector Byte 16 := firstBytes 16 (ptk.toList.drop 32)

/-- The MIC that a frame should carry. It is zero for a descriptor version that is neither. -/
def frameMic (ptk : PTK) (p : EAPOL_PACKET) : Mic :=
  let bytes := p.clearMic.bytes.take p.eapol_len
  if p.KeyDesc.KeyInfo.KeyDescVer = KEY_DESC_TKIP then C.RT_HMAC_MD5 (KCK ptk) bytes
  else if p.KeyDesc.KeyInfo.KeyDescVer = KEY_DESC_AES then
    firstBytes 16 (C.RT_HMAC_SHA1 (KCK ptk) bytes).toList
  else Vector.replicate 16 0

end Ralink.Wpa

/-! What the WPA state machine keeps of a station, of a BSS and of the interface that an AP client
or a station has to its access point, and what the state machine gives out. -/
namespace Ralink.Wpa
open Function
open Station (Wcid EntryType Sst MAX_APCLI_NUM MAIN_MBSSID)

inductive NDIS_802_11_AUTHENTICATION_MODE where
  | Open
  | Shared
  | AutoSwitch
  | WPA
  | WPAPSK
  | WPANone
  | WPA2
  | WPA2PSK
  | WPA1WPA2
  | WPA1PSKWPA2PSK
  deriving DecidableEq, Inhabited

inductive NDIS_802_11_WEP_STATUS where
  | Encryption1Enabled
  | EncryptionDisabled
  | Encryption1KeyAbsent
  | EncryptionNotSupported
  | Encryption2Enabled
  | Encryption2KeyAbsent
  | Encryption3Enabled
  | Encryption3KeyAbsent
  | Encryption4Enabled
  | Encryption4KeyAbsent
  | GroupWEP40Enabled
  | GroupWEP104Enabled
  deriving DecidableEq, Inhabited

inductive AP_WPA_STATE where
  | AS_NOTUSE
  | AS_DISCONNECT
  | AS_DISCONNECTED
  | AS_INITIALIZE
  | AS_AUTHENTICATION
  | AS_AUTHENTICATION2
  | AS_INITPMK
  | AS_INITPSK
  | AS_PTKSTART
  | AS_PTKINIT_NEGOTIATING
  | AS_PTKINITDONE
  | AS_UPDATEKEYS
  | AS_INTEGRITY_FAILURE
  | AS_KEYUPDATE
  deriving DecidableEq, Inhabited

/-- Modes and states are compared by their number. -/
instance : LinearOrder NDIS_802_11_AUTHENTICATION_MODE :=
  LinearOrder.lift' (fun m => m.ctorIdx) fun a b h => by
    cases a <;> cases b <;> first | rfl | cases h

instance : LinearOrder AP_WPA_STATE :=
  LinearOrder.lift' (fun s => s.ctorIdx) fun a b h => by
    cases a <;> cases b <;> first | rfl | cases h

inductive GTK_STATE where
  | REKEY_NEGOTIATING
  | REKEY_ESTABLISHED
  | KEYERROR
  deriving DecidableEq, Inhabited

inductive PORT where
  | WPA_802_1X_PORT_SECURED
  | WPA_802_1X_PORT_NOT_SECURED
  deriving DecidableEq, Inhabited

inductive NDIS_802_11_PRIVACY_FILTER where
  | PrivFilterAcceptAll
  | PrivFilter8021xWEP
  deriving DecidableEq, Inhabited

inductive CipherAlg where
  | CIPHER_NONE
  | CIPHER_WEP64
  | CIPHER_WEP128
  | CIPHER_TKIP
  | CIPHER_AES
  deriving DecidableEq, Inhabited

structure CIPHER_KEY where
  KeyLen : Nat
  Key : Vector Byte 16
  RxMic : Vector Byte 8
  TxMic : Vector Byte 8
  CipherAlg : CipherAlg
  deriving DecidableEq, Inhabited

def noKey : CIPHER_KEY :=
  ⟨0, Vector.replicate 16 0, Vector.replicate 8 0, Vector.replicate 8 0, .CIPHER_NONE⟩

instance : Inhabited EntryType := ⟨.NONE⟩
instance : Inhabited Sst := ⟨.SST_NOT_AUTH⟩
instance : Inhabited Pmkid.AP_BSSID_INFO := ⟨⟨default, default, default, 0, false⟩⟩

/-- Of the retry timer it is kept whether it is running. -/
structure MAC_TABLE_ENTRY where
  EntryType : EntryType
  Addr : Mac
  apidx : Nat
  MatchAPCLITabIdx : Nat
  bWscCapable : Bool
  bDlsInit : Bool
  AuthMode : NDIS_802_11_AUTHENTICATION_MODE
  WepStatus : NDIS_802_11_WEP_STATUS
  Sst : Sst
  WpaState : AP_WPA_STATE
  GTKState : GTK_STATE
  PortSecured : PORT
  PrivacyFilter : NDIS_802_11_PRIVACY_FILTER
  PairwiseKey : CIPHER_KEY
  PMKID_CacheIdx : Option Pmkid.Idx
  RetryTimer : Bool
  ReTryCounter : Nat
  R_Counter : BitVec 64
  ANonce : Nonce
  SNonce : Nonce
  PTK : PTK
  deriving Inhabited

structure WSC_CTRL where
  EntryAddr : Mac
  enabled : Bool
  EapMsgRunning : Bool
  EapolTimerRunning : Bool
  waitsForDone : Bool
  deriving Inhabited

inductive REKEY_METHOD where
  | TIME_REKEY
  | PKT_REKEY
  | DISABLE_REKEY
  deriving DecidableEq, Inhabited

structure MULTISSID_STRUCT where
  Bssid : Mac
  AuthMode : NDIS_802_11_AUTHENTICATION_MODE
  GroupKeyWepStatus : NDIS_802_11_WEP_STATUS
  PMK : PMK
  PMKIDCache : Pmkid.BSSIDInfo
  GMK : Nonce
  GNonce : Nonce
  GTK : GTK
  DefaultKeyId : Nat
  SharedKey : Nat → CIPHER_KEY
  ReKeyMethod : REKEY_METHOD
  ReKeyInterval : Nat
  REKEYCOUNTER : Nat
  RekeyCountDown : Nat
  StaCount : Nat
  DlsPTK : PTK
  WscControl : WSC_CTRL
  deriving Inhabited

/-- The interface of an AP client, or that of a station. -/
structure APCLI_STRUCT where
  CurrentAddress : Mac
  GroupCipher : NDIS_802_11_WEP_STATUS
  PMK : PMK
  PTK : PTK
  GTK : List Byte
  DefaultKeyId : Nat
  SharedKey : Nat → CIPHER_KEY
  deriving Inhabited

/-- An entry with the BSS and the link that its functions work on. -/
structure Local where
  mbss : MULTISSID_STRUCT
  link : APCLI_STRUCT
  entry : MAC_TABLE_ENTRY
  deriving Inhabited

/-- The driver is built for an access point or for a station. -/
inductive OpMode where
  | AP
  | STA
  deriving DecidableEq, Inhabited

structure Config where
  OpMode : OpMode
  QOS_DLS_SUPPORT : Bool
  BssidNum : Nat
  MAX_MBSSID_NUM : Nat
  deriving Inhabited

/-- What an event takes from outside: whether the interface is closed, the random number that is
generated, whether the buffers for the key data and for the frames that are sent could be
allocated, and the time. -/
structure Env where
  closed : Bool
  random : Nonce
  keydata : Bool
  mpool : Wcid → Bool
  Now : Nat
  deriving Inhabited

/-- A frame that is sent, with the values it is made from, or a key that the hardware takes. With
every key that is installed its packet number starts again at 1. -/
inductive Act where
  | pairMsg1 (R_Counter : BitVec 64) (ANonce : Nonce) (pmkid : Option PMKID)
  | pairMsg2 (R_Counter : BitVec 64) (SNonce : Nonce)
  | pairMsg3 (R_Counter : BitVec 64) (ANonce : Nonce) (DefaultKeyId : Nat) (gtk : GTK)
  | pairMsg4 (R_Counter : BitVec 64)
  | groupMsg1 (R_Counter : BitVec 64) (DefaultKeyId : Nat) (gtk : GTK)
  | groupMsg2 (R_Counter : BitVec 64)
  | staKey (R_Counter : BitVec 64)
  | installPairwise (key : CIPHER_KEY)
  | removePairwise
  | installShared (KeyIdx : Nat) (key : CIPHER_KEY)
  | deauth
  deriving DecidableEq, Inhabited

/-- What a handler has made of a frame. In a build for stations the handlers of an authenticator
go through null pointers. -/
inductive Verdict where
  | dropped
  | handled
  | oops
  deriving DecidableEq, Inhabited

structure Out where
  verdict : Verdict
  acts : List Act
  next : Local

end Ralink.Wpa
