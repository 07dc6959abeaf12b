import Ralink.Lib.Sized
import Ralink.Lib.Tlv

/-! What the parsers read and write: the types of the attributes, the fields they go to with their
sizes, and the ways one attribute is taken into a field. A field holds its value as the processor
does, the low byte first. -/
namespace Ralink.Wsc

open Tlv (Attr)
open ByteStore

def WSC_ID_ASSOC_STATE : Nat := 0x1002
def WSC_ID_AUTH_TYPE : Nat := 0x1003
def WSC_ID_AUTH_TYPE_FLAGS : Nat := 0x1004
def WSC_ID_AUTHENTICATOR : Nat := 0x1005
def WSC_ID_CONFIG_METHODS : Nat := 0x1008
def WSC_ID_CONFIG_ERROR : Nat := 0x1009
def WSC_ID_CONN_TYPE_FLAGS : Nat := 0x100D
def WSC_ID_CREDENTIAL : Nat := 0x100E
def WSC_ID_ENCR_TYPE : Nat := 0x100F
def WSC_ID_ENCR_TYPE_FLAGS : Nat := 0x1010
def WSC_ID_DEVICE_NAME : Nat := 0x1011
def WSC_ID_DEVICE_PWD_ID : Nat := 0x1012
def WSC_ID_E_HASH1 : Nat := 0x1014
def WSC_ID_E_HASH2 : Nat := 0x1015
def WSC_ID_E_SNONCE1 : Nat := 0x1016
def WSC_ID_E_SNONCE2 : Nat := 0x1017
def WSC_ID_ENCR_SETTINGS : Nat := 0x1018
def WSC_ID_ENROLLEE_NONCE : Nat := 0x101A
def WSC_ID_KEY_WRAP_AUTH : Nat := 0x101E
def WSC_ID_MAC_ADDR : Nat := 0x1020
def WSC_ID_MANUFACTURER : Nat := 0x1021
def WSC_ID_MSG_TYPE : Nat := 0x1022
def WSC_ID_MODEL_NAME : Nat := 0x1023
def WSC_ID_MODEL_NUMBER : Nat := 0x1024
def WSC_ID_NW_INDEX : Nat := 0x1026
def WSC_ID_NW_KEY : Nat := 0x1027
def WSC_ID_NW_KEY_INDEX : Nat := 0x1028
def WSC_ID_OS_VERSION : Nat := 0x102D
def WSC_ID_PUBLIC_KEY : Nat := 0x1032
def WSC_ID_REGISTRAR_NONCE : Nat := 0x1039
def WSC_ID_RF_BAND : Nat := 0x103C
def WSC_ID_R_HASH1 : Nat := 0x103D
def WSC_ID_R_HASH2 : Nat := 0x103E
def WSC_ID_R_SNONCE1 : Nat := 0x103F
def WSC_ID_R_SNONCE2 : Nat := 0x1040
def WSC_ID_SERIAL_NUM : Nat := 0x1042
def WSC_ID_SC_STATE : Nat := 0x1044
def WSC_ID_SSID : Nat := 0x1045
def WSC_ID_UUID_E : Nat := 0x1047
def WSC_ID_UUID_R : Nat := 0x1048
def WSC_ID_VENDOR_EXT : Nat := 0x1049
def WSC_ID_VERSION : Nat := 0x104A
def WSC_ID_PRIM_DEV_TYPE : Nat := 0x1054

/-- Of a `WSC_DEV_INFO`. -/
inductive DevInfo where
  | Version | Version2 | Uuid | MacAddr | DeviceName | PriDeviceType | AuthTypeFlags
  | EncrTypeFlags | ConnTypeFlags | ConfigMethods | ScState | Manufacturer | ModelName
  | ModelNumber | SerialNumber | RfBand | OsVersion | AssocState | DevPwdId | ConfigError
  deriving DecidableEq

def DevInfo.size : DevInfo → Nat
  | Version | Version2 | ConnTypeFlags | ScState | RfBand => 1
  | AuthTypeFlags | EncrTypeFlags | ConfigMethods | AssocState | DevPwdId | ConfigError => 2
  | OsVersion => 4
  | MacAddr => 6
  | PriDeviceType => 8
  | Uuid => 16
  | DeviceName | ModelName | ModelNumber | SerialNumber => 32
  | Manufacturer => 64

/-- Of a `WSC_PEER_DEV_INFO`. -/
inductive PeerDevInfo where
  | WscPeerDeviceName | WscPeerManufacturer | WscPeerModelName | WscPeerModelNumber
  | WscPeerSerialNumber | WscPeerMAC
  deriving DecidableEq

def PeerDevInfo.size : PeerDevInfo → Nat
  | WscPeerMAC => 6
  | WscPeerDeviceName | WscPeerModelName | WscPeerModelNumber | WscPeerSerialNumber => 32
  | WscPeerManufacturer => 64

/-- Of a `WSC_CREDENTIAL`. -/
inductive Credential where
  | SsidLength | Ssid | AuthType | EncrType | Key | KeyLength | MacAddr | KeyIndex
  deriving DecidableEq

def Credential.size : Credential → Nat
  | KeyIndex => 1
  | AuthType | EncrType | KeyLength => 2
  | SsidLength => 4
  | MacAddr => 6
  | Ssid => 32
  | Key => 64

/-- The two `WSC_PROFILE`s. -/
inductive Profile where
  | WscProfile | WscM7Profile
  deriving DecidableEq

inductive Field where
  | PeerInfo (f : DevInfo)
  | SelfInfo (f : DevInfo)
  | WscPeerInfo (f : PeerDevInfo)
  | EnrolleeRandom | Pke | Pkr | SecretKey | ApEncrSettings | LastTx | LastRx
  | AuthKey | KeyWrapKey | Emsk | EnrolleeNonce | RegistrarNonce | SelfNonce | Psk1 | Psk2
  | EHash1 | EHash2 | Es1 | Es2 | RHash1 | RHash2 | Rs1 | Rs2
  | ProfileCnt (p : Profile)
  | Credential (p : Profile) (i : Nat) (f : Credential)
  | bConfiguredAP
  | pHmacData
  | IV_DecrData (n : Nat)
  /-- Of the message being processed. -/
  | Hmac
  | KDK
  /-- Of `WscParseEncrSettings`. -/
  | HmacEncr
  deriving DecidableEq

/-- A profile has eight credentials, and nothing is behind the last one. -/
def Field.size : Field → Nat
  | PeerInfo f | SelfInfo f => f.size
  | WscPeerInfo f => f.size
  | EnrolleeRandom | Pke | Pkr | SecretKey => 192
  | ApEncrSettings => 1024
  | LastTx | LastRx | pHmacData => 2048
  | AuthKey | Emsk | EHash1 | EHash2 | RHash1 | RHash2 | KDK => 32
  | KeyWrapKey | EnrolleeNonce | RegistrarNonce | SelfNonce | Psk1 | Psk2 | Es1 | Es2 | Rs1
  | Rs2 => 16
  | ProfileCnt _ => 4
  | Credential _ i f => if i < 8 then f.size else 0
  | bConfiguredAP => 1
  | IV_DecrData n => n
  | Hmac | HmacEncr => 8

abbrev Mem := Sized.Mem Field

def get (m : Mem) (f : Field) (off n : Nat) : Option (List UInt8) := Sized.get Field.size m f off n

def put (m : Mem) (f : Field) (off : Nat) (bs : List UInt8) : Option Mem :=
  Sized.put Field.size m f off bs

def Mem.bytes (m : Mem) (f : Field) : List UInt8 := readBytes (m f) 0 f.size

def Mem.assign (m : Mem) (f : Field) (v : Vector UInt8 f.size) : Mem :=
  Function.update m f (writeBytes (m f) 0 v.toList)

def Mem.zero (m : Mem) (p : Field → Bool) : Mem := fun f => if p f then fun _ => 0 else m f

def number (n v : Nat) : List UInt8 := (List.range n).map fun i => UInt8.ofNat (v / 256 ^ i)

def RTMPCompareMemory (xs ys : List UInt8) (Length : Nat) : Option Nat :=
  (Sized.scan (fun p : UInt8 × UInt8 => p.1 ≠ p.2) Length (xs.zip ys)).map fun r =>
    match r.2 with
    | none => 0
    | some (x, y) => if y < x then 1 else 2

def Unprintable (b : UInt8) : Prop := b < 0x20 ∨ 0x7E < b

instance : DecidablePred Unprintable := fun b => inferInstanceAs (Decidable (b < 0x20 ∨ 0x7E < b))

def RTMPCheckStrPrintAble (s : List UInt8) (strLen : Nat) : Option Bool :=
  (Sized.scan Unprintable (strLen % 256) s).map fun r => r.2.isNone

/-- The data of the first sub-element of that kind. The length of a sub-element is read
before anything is compared with the `limit`. -/
def WscParseV2SubItem (SubID : UInt8) (limit : Int) :
    Nat → List UInt8 → Option (Option (List UInt8))
  | Length, Eid :: Len :: Octet =>
    if (Length + 2 + Len.toNat : Nat) ≤ limit then
      if Eid = SubID then (Sized.slice Octet Len.toNat).map some
      else WscParseV2SubItem SubID limit (Length + 2 + Len.toNat) (Octet.drop Len.toNat)
    else some none
  | _, _ => none
termination_by _ bs => bs.length
decreasing_by
  simp only [List.length_drop, List.length_cons]
  omega

inductive Action where
  | skip
  /-- One byte is looked at, for a message to the console. -/
  | peek
  | store (n : Nat) (f : Field)
  /-- With the bytes the other way round. -/
  | storeSwapped (n : Nat) (f : Field)
  /-- As many bytes as the attribute says, to each of the fields. -/
  | copy (fs : List Field)
  | compare (f : Field)

def Action.perform (m : Mem) (a : Attr) : Action → Option Mem
  | skip => some m
  | peek => do
    let _ ← Sized.slice a.rest 1
    return m
  | store n f => do
    let bs ← Sized.slice a.rest n
    put m f 0 bs
  | storeSwapped n f => do
    let bs ← Sized.slice a.rest n
    put m f 0 bs.reverse
  | copy fs => do
    let bs ← Sized.slice a.rest a.len
    Sized.putAll Field.size m fs bs
  | compare f => do
    let _ ← RTMPCompareMemory (m.bytes f) a.rest a.len
    return m

/-- The action for the type of an attribute; one of an unknown type is passed over. -/
def performRow (rows : List (Nat × Action)) (m : Mem) (a : Attr) : Option Mem :=
  match rows.lookup a.type with
  | none => some m
  | some action => action.perform m a

end Ralink.Wsc

/-! The settings a message carries are decrypted block by block into `ApEncrSettings`, and the
attributes in them go to the secret nonces, the profile of M7 or, in M8, to the credentials. -/
namespace Ralink.Wsc

open Tlv (Attr)
open ByteStore

/-- The ciphers and hashes, and what does not change while a message is processed. -/
structure Env where
  RT_HMAC_SHA256 : List UInt8 → List UInt8 → Vector UInt8 32
  RT_SHA256 : List UInt8 → Vector UInt8 32
  /-- One block under a key. -/
  RT_AES_Decrypt : List UInt8 → List UInt8 → Vector UInt8 16
  RT_DH_PublicKey_Generate : List UInt8 → Vector UInt8 192
  RT_DH_SecretKey_Generate : List UInt8 → List UInt8 → Vector UInt8 192
  /-- The keys for authentication and key wrapping and the session key. -/
  WscDeriveKey : List UInt8 → Vector UInt8 32 × Vector UInt8 16 × Vector UInt8 32
  RandomByte : Vector UInt8 192
  /-- Whether a request for memory is granted. -/
  os_alloc_mem : Nat → Bool
  /-- Whether the buffer was allocated. -/
  pHmacData : Bool
  /-- The length of `LastTx`. -/
  LastTxLength : Nat
  bCheckMultiByte : Bool
  bEnableWpsV2 : Bool
  CONFIG_STA_SUPPORT : Bool
  /-- Whether the device is a station. -/
  OPMODE_STA : Bool

/-- What has been decrypted, and the size of the padding that its last byte tells. -/
structure Plain where
  text : List UInt8
  PaddingSize : UInt8

namespace Plain

/-- Less than nothing, when the padding is more than there is. -/
def length (p : Plain) : Int := (p.text.length : Int) - p.PaddingSize.toNat

def block (p : Plain) : List UInt8 := p.text.take p.length.toNat

theorem length_block (p : Plain) : p.block.length = p.length.toNat := by
  unfold block length
  rw [List.length_take]
  omega

theorem length_gt (p : Plain) : -256 < p.length := by
  have := p.PaddingSize.toNat_lt
  unfold length
  omega

end Plain

/-- Memory, the place of the next block of plain text, and the number of requests for memory. -/
structure Cbc where
  mem : Mem
  PlainBlockStart : Nat
  requests : Nat

/-- The context of the cipher is allocated for every block. Without it nothing is written,
and the size of the block stays what room there is. -/
def decryptBlock (env : Env) (Key CipherBlock : List UInt8) (c : Cbc) : Option (Cbc × Nat) :=
  let PlainBlockSize := 1024 - c.PlainBlockStart
  if PlainBlockSize < 16 then some (c, PlainBlockSize)
  else if env.os_alloc_mem c.requests = false then
    some ({ c with requests := c.requests + 1 }, PlainBlockSize)
  else do
    let m ← put c.mem .ApEncrSettings c.PlainBlockStart (env.RT_AES_Decrypt Key CipherBlock).toList
    return ({ c with mem := m, requests := c.requests + 1 }, 16)

/-- The main loop: a block is decrypted and combined with the one before. -/
def decryptBlocks (env : Env) (Key : List UInt8) (before CipherText : List UInt8) (c : Cbc) :
    Option Cbc :=
  if 16 ≤ CipherText.length then do
    let (c, PlainBlockSize) ← decryptBlock env Key (CipherText.take 16) c
    let bs ← get c.mem .ApEncrSettings c.PlainBlockStart 16
    let m ← put c.mem .ApEncrSettings c.PlainBlockStart (List.zipWith (· ^^^ ·) bs before)
    decryptBlocks env Key (CipherText.take 16) (CipherText.drop 16)
      { c with mem := m, PlainBlockStart := c.PlainBlockStart + PlainBlockSize }
  else some c
termination_by CipherText.length
decreasing_by
  rw [List.length_drop]
  omega

/-- Into `ApEncrSettings`. A text that is no number of blocks leaves it as it is, and all of
it counts as plain text. -/
def AES_CBC_Decrypt (env : Env) (CipherText IV : List UInt8) (m : Mem) (requests : Nat) :
    Option (Cbc × Plain) :=
  if CipherText.length % 16 ≠ 0 then some (⟨m, 0, requests⟩, ⟨m.bytes .ApEncrSettings, 0⟩)
  else do
    let c ← decryptBlocks env (m.bytes .KeyWrapKey) IV CipherText ⟨m, 0, requests⟩
    let last ← if c.PlainBlockStart = 0 then none
      else get c.mem .ApEncrSettings (c.PlainBlockStart - 1) 1
    let text ← get c.mem .ApEncrSettings 0 c.PlainBlockStart
    return (c, ⟨text, last.headD 0⟩)

def encrSettingsRows : List (Nat × Action) :=
  [(WSC_ID_E_SNONCE1, .copy [.Es1]),
   (WSC_ID_E_SNONCE2, .copy [.Es2]),
   (WSC_ID_R_SNONCE1, .copy [.Rs1]),
   (WSC_ID_R_SNONCE2, .copy [.Rs2]),
   (WSC_ID_KEY_WRAP_AUTH, .copy [.HmacEncr])]

/-- The attributes of a credential that are taken as they are. -/
def credentialRows (p : Profile) (i : Nat) : List (Nat × Action) :=
  [(WSC_ID_MAC_ADDR, .store 6 (.Credential p i .MacAddr)),
   (WSC_ID_AUTH_TYPE, .storeSwapped 2 (.Credential p i .AuthType)),
   (WSC_ID_ENCR_TYPE, .storeSwapped 2 (.Credential p i .EncrType)),
   (WSC_ID_NW_KEY_INDEX, .store 1 (.Credential p i .KeyIndex))]

/-- The length goes up to a terminator. Always the first credential. -/
def M7Ssid (m : Mem) (a : Attr) : Option Mem := do
  let (Idx, _) ← Sized.scan (· = 0) a.len a.rest
  let m ← put m (.Credential .WscM7Profile 0 .SsidLength) 0 (number 4 Idx)
  let bs ← Sized.slice a.rest Idx
  let m ← put m (.Credential .WscM7Profile 0 .Ssid) 0 bs
  put m (.ProfileCnt .WscM7Profile) 0 (number 4 1)

def M7Key (m : Mem) (a : Attr) : Option Mem :=
  if a.len = 0 then some m
  else do
    let m ← put m (.Credential .WscM7Profile 0 .KeyLength) 0 (number 2 a.len)
    let bs ← Sized.slice a.rest a.len
    put m (.Credential .WscM7Profile 0 .Key) 0 bs

def encrSetting (env : Env) (m : Mem) (a : Attr) : Option Mem :=
  if env.CONFIG_STA_SUPPORT ∧ a.type = WSC_ID_SSID then M7Ssid m a
  else if env.CONFIG_STA_SUPPORT ∧ a.type = WSC_ID_NW_KEY then M7Key m a
  else if env.CONFIG_STA_SUPPORT then
    performRow (encrSettingsRows ++ credentialRows .WscM7Profile 0) m a
  else performRow encrSettingsRows m a

/-- The code of the block is computed over all of it but the last twelve bytes, their number
held in 16 bits. Whether it matches is only reported. -/
def WscParseEncrSettings (env : Env) (p : Plain) (m : Mem) : Option Mem := do
  let HmacLen := ((p.length - 12) % 65536).toNat
  let m ← Tlv.walk Attr.len (encrSetting env) p.block m
  let _ ← Sized.slice p.block HmacLen
  return m

structure Credentials where
  mem : Mem
  CurrentIdx : Nat
  Cnt : Nat
  /-- Whether the function has returned `FALSE`. -/
  refused : Bool

def credentialSsid (env : Env) (s : Credentials) (a : Attr) : Option Credentials := do
  let (Idx, _) ← Sized.scan (· = 0) a.len a.rest
  let m ← put s.mem (.Credential .WscProfile s.CurrentIdx .SsidLength) 0 (number 4 Idx)
  let printable ← RTMPCheckStrPrintAble a.rest Idx
  if printable ∨ env.bCheckMultiByte = false then do
    let bs ← Sized.slice a.rest Idx
    let m ← put m (.Credential .WscProfile s.CurrentIdx .Ssid) 0 bs
    return { s with mem := m }
  else return { s with mem := m, refused := true }

def credentialKey (env : Env) (s : Credentials) (a : Attr) : Option Credentials :=
  if a.len = 0 then some s
  else do
    let printable ← RTMPCheckStrPrintAble a.rest a.len
    if printable ∨ env.bCheckMultiByte = false then do
      let m ← put s.mem (.Credential .WscProfile s.CurrentIdx .KeyLength) 0 (number 2 a.len)
      let bs ← Sized.slice a.rest a.len
      let m ← put m (.Credential .WscProfile s.CurrentIdx .Key) 0 bs
      return { s with mem := m }
    else return { s with refused := true }

/-- The attributes inside a credential follow one by one. -/
def credentialSpan (a : Attr) : Nat := if a.type = WSC_ID_CREDENTIAL then 0 else a.len

def credentialAttr (env : Env) (s : Credentials) (a : Attr) : Option Credentials :=
  if s.refused then some s
  else if a.type = WSC_ID_NW_INDEX then
    some { s with CurrentIdx := s.Cnt, Cnt := (s.Cnt + 1) % 65536 }
  else if a.type = WSC_ID_SSID then credentialSsid env s a
  else if a.type = WSC_ID_NW_KEY then credentialKey env s a
  else do
    let m ← performRow (credentialRows .WscProfile s.CurrentIdx) s.mem a
    return { s with mem := m }

def isProfile (p : Profile) : Field → Bool
  | .ProfileCnt q => q = p
  | .Credential q _ _ => q = p
  | _ => false

/-- The encryption of the credentials that there are. -/
def encrTypes (m : Mem) : List (List UInt8) :=
  (List.range 8).map fun i => m.bytes (.Credential .WscProfile i .EncrType)

def WSC_ENCRTYPE_WEP : List UInt8 := number 2 2

/-- The first credential with WEP has the profile cleared, which ends the loop. -/
def rejectWep (env : Env) (Cnt : Nat) (m : Mem) : Option (Bool × Mem) :=
  if env.bEnableWpsV2 then do
    let (_, wep) ← Sized.scan (· = WSC_ENCRTYPE_WEP) Cnt (encrTypes m)
    if wep.isSome then return (false, m.zero (isProfile .WscProfile)) else return (true, m)
  else some (true, m)

def WscProcessCredential (env : Env) (p : Plain) (m : Mem) : Option (Bool × Mem) := do
  let s ← Tlv.walk credentialSpan (credentialAttr env) p.block
    ⟨m.zero (isProfile .WscProfile), 0, 0, false⟩
  if s.refused then return (false, s.mem)
  else do
    let m ← put s.mem (.ProfileCnt .WscProfile) 0 (number 4 s.Cnt)
    rejectWep env s.Cnt m

end Ralink.Wsc
