import Ralink.Wsc.Attributes
import Mathlib.Tactic.Common

/-! Each message is copied to `LastRx`, its attributes are taken one by one, and what is left to do
is a check of the authenticator, with a check of a hash before or behind it in some. -/
namespace Ralink.Wsc

open Tlv (Attr)
open ByteStore

def WSC_ERROR_NO_ERROR : Nat := 0
def WSC_ERROR_SETUP_LOCKED : Nat := 15
def WSC_ERROR_DEV_PWD_AUTH_FAIL : Nat := 18
def WSC_ERROR_CAN_NOT_ALLOCMEM : Nat := 252
def WSC_ERROR_WANTING_FIELD : Nat := 253
def WSC_ERROR_HASH_FAIL : Nat := 254
def WSC_ERROR_HMAC_FAIL : Nat := 255

/-- The seven words of `FieldCheck`, one bit for each type. -/
abbrev FieldCheck := BitVec 112

def FieldCheck.bit (type : Nat) : FieldCheck := 1 <<< (type % 256)

def FieldCheck.of (types : List Nat) : FieldCheck :=
  types.foldr (fun type fc => fc ||| bit type) 0

/-- While the attributes are taken. -/
structure Rx where
  mem : Mem
  FieldCheck : FieldCheck
  /-- Requests for memory so far. -/
  requests : Nat
  /-- What the function has returned before the end of the message. -/
  ret : Option Nat

/-- Where an attribute is accounted for in `FieldCheck`. -/
def Rx.check (counted : Bool) (a : Attr) (s : Rx) : Rx :=
  if counted then { s with FieldCheck := s.FieldCheck ^^^ .bit a.type } else s

/-- The size of `IV_DecrData`, not more than that of `ApEncrSettings`. -/
structure Room where
  size : Nat
  le : size ≤ 1024

inductive Item where
  | act (action : Action)
  | scState
  | devPwdId
  | vendorExt
  /-- Whether a station clears the profile of M7. -/
  | encrSettings (room : Room) (clear : Bool)
  | credential (room : Room)

def scState (env : Env) (m : Mem) (a : Attr) : Option Mem := do
  let bs ← Sized.slice a.rest 2
  let m ← put m (.PeerInfo .ScState) 0 (bs.take 1)
  if env.CONFIG_STA_SUPPORT ∧ env.OPMODE_STA then
    put m .bConfiguredAP 0 [if bs.headD 0 = 2 then 1 else 0]
  else return m

def devPwdId (m : Mem) (a : Attr) : Option Mem := do
  let bs ← Sized.slice a.rest 2
  if bs = [0, 0] then put m (.SelfInfo .DevPwdId) 0 [0, 0]
  else if bs = [4, 0] then put m (.SelfInfo .DevPwdId) 0 [0, 4]
  else return m

def vendorExt (env : Env) (m : Mem) (a : Attr) : Option Mem :=
  if env.bEnableWpsV2 then do
    let sub ← WscParseV2SubItem 0 ((a.len : Int) - 3) 0 (a.rest.drop 3)
    match sub with
    | some bs => put m (.PeerInfo .Version2) 0 bs
    | none => return m
  else return m

/-- To `IV_DecrData`, whose first block is the initial vector, and from there decrypted. -/
def decryptSettings (env : Env) (room : Room) (s : Rx) (a : Attr) : Option (Cbc × Plain) := do
  let bs ← Sized.slice a.rest a.len
  let m ← put s.mem (.IV_DecrData room.size) 0 bs
  AES_CBC_Decrypt env (bs.drop 16) (bs.take 16) m s.requests

def encrSettings (env : Env) (room : Room) (clear : Bool) (counted : Bool) (s : Rx) (a : Attr) :
    Option Rx :=
  if a.len ≤ 16 then some s
  else if room.size < a.len then some s
  else do
    let (c, p) ← decryptSettings env room s a
    let m := if clear ∧ env.CONFIG_STA_SUPPORT ∧ env.OPMODE_STA then
      c.mem.zero (isProfile .WscM7Profile) else c.mem
    let m ← WscParseEncrSettings env p m
    return ({ s with mem := m, requests := c.requests } : Rx).check counted a

def credential (env : Env) (room : Room) (s : Rx) (a : Attr) : Option Rx :=
  if a.len ≤ 16 then some s
  else if room.size < a.len then some s
  else do
    let (c, p) ← decryptSettings env room s a
    let (ok, m) ← WscProcessCredential env p c.mem
    return { s with
      mem := m, requests := c.requests, ret := if ok then none else some WSC_ERROR_SETUP_LOCKED }

def Item.perform (env : Env) (counted : Bool) (s : Rx) (a : Attr) : Item → Option Rx
  | act action => do
    let m ← action.perform s.mem a
    return ({ s with mem := m } : Rx).check counted a
  | scState => do
    let m ← Wsc.scState env s.mem a
    return ({ s with mem := m } : Rx).check counted a
  | devPwdId => do
    let m ← Wsc.devPwdId s.mem a
    return ({ s with mem := m } : Rx).check counted a
  | vendorExt => do
    let m ← Wsc.vendorExt env s.mem a
    return { s with mem := m }
  | encrSettings room clear => Wsc.encrSettings env room clear counted s a
  | credential room => Wsc.credential env room s a

/-- What has been received but for its last twelve bytes. A negative number of bytes is a
huge one to `memmove`. -/
def receivedData (Length : Nat) (m : Mem) : Option (List UInt8) :=
  if Length < 12 then none else get m .LastRx 0 (Length - 12)

/-- What was sent last and what has been received, one behind the other. -/
def moveHmacData (env : Env) (Length : Nat) (m : Mem) : Option Mem :=
  if env.pHmacData then do
    let tx ← get m .LastTx 0 env.LastTxLength
    let m ← put m .pHmacData 0 tx
    let rx ← receivedData Length m
    put m .pHmacData env.LastTxLength rx
  else some m

/-- Whether the authenticator of the message is the one computed over that data. -/
def hmacMatches (env : Env) (Length : Nat) (m : Mem) : Option Bool := do
  let KDK ← if env.pHmacData then do
      let data ← get m .pHmacData 0 (env.LastTxLength + Length - 12)
      pure (env.RT_HMAC_SHA256 (m.bytes .AuthKey) data).toList
    else some (m.bytes .KDK)
  return KDK.take 8 = m.bytes .Hmac

/-- A field that is missing goes before any other error. -/
def wanting (s : Rx) (ret : Nat) : Nat := if s.FieldCheck = 0 then ret else WSC_ERROR_WANTING_FIELD

def verdict (s : Rx) (ok : Bool) : Nat :=
  wanting s (if ok then WSC_ERROR_NO_ERROR else WSC_ERROR_HMAC_FAIL)

/-- The key derived from the secret shared with the registrar. -/
def deriveKeys (env : Env) (m : Mem) : Mem :=
  let m := m.assign .SecretKey
    (env.RT_DH_SecretKey_Generate (m.bytes .Pkr) (m.bytes .EnrolleeRandom))
  let DHKey := env.RT_SHA256 (m.bytes .SecretKey)
  let KdkInput :=
    m.bytes .SelfNonce ++ m.bytes (.SelfInfo .MacAddr) ++ m.bytes .RegistrarNonce
  let KDK := env.RT_HMAC_SHA256 DHKey.toList KdkInput
  let keys := env.WscDeriveKey KDK.toList
  (((m.assign .KDK KDK).assign .AuthKey keys.1).assign .KeyWrapKey keys.2.1).assign .Emsk keys.2.2

/-- A secret nonce and a half of the password, and the hash the peer has committed to. -/
structure HashCheck where
  nonce : Field
  psk : Field
  hash : Field
  size : nonce.size + psk.size = 32

namespace HashCheck

variable (c : HashCheck)

/-- With the public keys behind, put into `IV_DecrData`. -/
def input (m : Mem) : List UInt8 :=
  m.bytes c.nonce ++ m.bytes c.psk ++ m.bytes .Pke ++ m.bytes .Pkr

def matched (env : Env) (m : Mem) : Bool :=
  (env.RT_HMAC_SHA256 (m.bytes .AuthKey) (c.input m)).toList = m.bytes c.hash

end HashCheck

inductive Tail where
  /-- Nothing but the fields that are missing. -/
  | fields
  | hmac
  | deriveHmac
  /-- A hash that does not match ends the function before the data is put together. -/
  | hashHmac (c : HashCheck)
  /-- There the data has been put together before. -/
  | hmacHash (c : HashCheck)

def Tail.perform (env : Env) (Length : Nat) (s : Rx) : Tail → Option (Nat × Mem)
  | fields => some (wanting s WSC_ERROR_NO_ERROR, s.mem)
  | hmac => do
    let m ← moveHmacData env Length s.mem
    let ok ← hmacMatches env Length m
    return (verdict s ok, m)
  | deriveHmac => do
    let m ← moveHmacData env Length (deriveKeys env s.mem)
    let ok ← hmacMatches env Length m
    return (verdict s ok, m)
  | hashHmac c => do
    let m ← put s.mem (.IV_DecrData 512) 0 (c.input s.mem)
    if c.matched env s.mem then do
      let m ← moveHmacData env Length m
      let ok ← hmacMatches env Length m
      return (verdict s ok, m)
    else return (WSC_ERROR_DEV_PWD_AUTH_FAIL, m)
  | hmacHash c => do
    let m ← moveHmacData env Length s.mem
    let m ← put m (.IV_DecrData 512) 0 (c.input m)
    if c.matched env m then do
      let ok ← hmacMatches env Length m
      return (verdict s ok, m)
    else do
      let m ← put m (.SelfInfo .ConfigError) 0 (number 2 WSC_ERROR_HASH_FAIL)
      return (WSC_ERROR_HASH_FAIL, m)

structure Message where
  /-- What is set before anything of the message is looked at. -/
  start : Env → Mem → Mem
  rows : List (Nat × Item)
  /-- The fields it must have, where that is checked. -/
  wanted : Option (List Nat)
  /-- Whether room for encrypted settings is allocated. -/
  allocates : Bool
  /-- What is done behind every attribute. -/
  each : Mem → Mem
  tail : Tail

namespace Message

variable (d : Message)

def turn (env : Env) (s : Rx) (a : Attr) : Option Rx :=
  if s.ret.isSome then some s
  else do
    let s ← match d.rows.lookup a.type with
      | none => pure s
      | some item => item.perform env d.wanted.isSome s a
    return { s with mem := d.each s.mem }

def begin (m : Mem) : Rx :=
  ⟨m, .of (d.wanted.getD []), if d.allocates then 1 else 0, none⟩

/-- With the message in `LastRx`. -/
def parse (env : Env) (precv : List UInt8) (m : Mem) : Option (Nat × Mem) := do
  let s ← Tlv.walk Attr.len (d.turn env) precv (d.begin m)
  match s.ret with
  | some ret => return (ret, s.mem)
  | none => d.tail.perform env precv.length s

def process (env : Env) (precv : List UInt8) (m : Mem) : Option (Nat × Mem) :=
  if d.allocates ∧ env.os_alloc_mem 0 = false then some (WSC_ERROR_CAN_NOT_ALLOCMEM, m)
  else do
    let m ← put (d.start env m) .LastRx 0 precv
    d.parse env precv m

end Message

def isPeerInfo : Field → Bool
  | .WscPeerInfo _ => true
  | _ => false

def clearHmac (m : Mem) : Mem :=
  (m.assign .Hmac (.replicate 8 0xff)).assign .KDK (.replicate 32 0)

def room512 : Room := ⟨512, by decide⟩
def room1024 : Room := ⟨1024, le_rfl⟩

def headRows : List (Nat × Item) :=
  [(WSC_ID_VERSION, .act .peek), (WSC_ID_MSG_TYPE, .act .peek)]

def M1 : Message where
  start env m :=
    let m := m.assign (.PeerInfo .Version2) (.replicate 1 0)
    let m := m.assign .EnrolleeRandom env.RandomByte
    let m := m.assign .Pkr (env.RT_DH_PublicKey_Generate (m.bytes .EnrolleeRandom))
    m.zero isPeerInfo
  rows := headRows ++
    [(WSC_ID_UUID_E, .act (.copy [.PeerInfo .Uuid])),
     (WSC_ID_MAC_ADDR, .act (.copy [.PeerInfo .MacAddr, .WscPeerInfo .WscPeerMAC])),
     (WSC_ID_ENROLLEE_NONCE, .act (.copy [.EnrolleeNonce])),
     (WSC_ID_PUBLIC_KEY, .act (.copy [.Pke])),
     (WSC_ID_AUTH_TYPE_FLAGS, .act (.store 2 (.PeerInfo .AuthTypeFlags))),
     (WSC_ID_ENCR_TYPE_FLAGS, .act (.store 2 (.PeerInfo .EncrTypeFlags))),
     (WSC_ID_CONN_TYPE_FLAGS, .act (.store 1 (.PeerInfo .ConnTypeFlags))),
     (WSC_ID_CONFIG_METHODS, .act (.store 2 (.PeerInfo .ConfigMethods))),
     (WSC_ID_SC_STATE, .scState),
     (WSC_ID_MANUFACTURER,
       .act (.copy [.PeerInfo .Manufacturer, .WscPeerInfo .WscPeerManufacturer])),
     (WSC_ID_MODEL_NAME, .act (.copy [.PeerInfo .ModelName, .WscPeerInfo .WscPeerModelName])),
     (WSC_ID_MODEL_NUMBER,
       .act (.copy [.PeerInfo .ModelNumber, .WscPeerInfo .WscPeerModelNumber])),
     (WSC_ID_SERIAL_NUM,
       .act (.copy [.PeerInfo .SerialNumber, .WscPeerInfo .WscPeerSerialNumber])),
     (WSC_ID_PRIM_DEV_TYPE, .act (.copy [.PeerInfo .PriDeviceType])),
     (WSC_ID_DEVICE_NAME, .act (.copy [.PeerInfo .DeviceName, .WscPeerInfo .WscPeerDeviceName])),
     (WSC_ID_RF_BAND, .act (.store 1 (.PeerInfo .RfBand))),
     (WSC_ID_ASSOC_STATE, .act (.store 2 (.PeerInfo .AssocState))),
     (WSC_ID_CONFIG_ERROR, .act (.store 2 (.PeerInfo .ConfigError))),
     (WSC_ID_DEVICE_PWD_ID, .devPwdId),
     (WSC_ID_OS_VERSION, .act (.store 4 (.PeerInfo .OsVersion))),
     (WSC_ID_VENDOR_EXT, .vendorExt)]
  wanted := some
    [WSC_ID_VERSION, WSC_ID_MSG_TYPE, WSC_ID_UUID_E, WSC_ID_MAC_ADDR, WSC_ID_ENROLLEE_NONCE,
     WSC_ID_PUBLIC_KEY, WSC_ID_AUTH_TYPE_FLAGS, WSC_ID_ENCR_TYPE_FLAGS, WSC_ID_CONN_TYPE_FLAGS,
     WSC_ID_CONFIG_METHODS, WSC_ID_SC_STATE, WSC_ID_MANUFACTURER, WSC_ID_MODEL_NAME,
     WSC_ID_MODEL_NUMBER, WSC_ID_SERIAL_NUM, WSC_ID_PRIM_DEV_TYPE, WSC_ID_DEVICE_NAME,
     WSC_ID_RF_BAND, WSC_ID_ASSOC_STATE, WSC_ID_CONFIG_ERROR, WSC_ID_DEVICE_PWD_ID,
     WSC_ID_OS_VERSION]
  allocates := false
  each := id
  tail := .fields

/-- The address of the registrar is copied behind every attribute. -/
def M2 : Message where
  start _ m :=
    ((clearHmac m).assign (.PeerInfo .Version2) (.replicate 1 0)).zero isPeerInfo
  rows := headRows ++
    [(WSC_ID_ENROLLEE_NONCE, .act (.compare .SelfNonce)),
     (WSC_ID_REGISTRAR_NONCE, .act (.copy [.RegistrarNonce])),
     (WSC_ID_UUID_R, .act (.copy [.PeerInfo .Uuid])),
     (WSC_ID_PUBLIC_KEY, .act (.copy [.Pkr])),
     (WSC_ID_AUTH_TYPE_FLAGS, .act (.store 2 (.PeerInfo .AuthTypeFlags))),
     (WSC_ID_ENCR_TYPE_FLAGS, .act (.store 2 (.PeerInfo .EncrTypeFlags))),
     (WSC_ID_CONN_TYPE_FLAGS, .act (.store 1 (.PeerInfo .ConnTypeFlags))),
     (WSC_ID_CONFIG_METHODS, .act (.store 2 (.PeerInfo .ConfigMethods))),
     (WSC_ID_MANUFACTURER,
       .act (.copy [.PeerInfo .Manufacturer, .WscPeerInfo .WscPeerManufacturer])),
     (WSC_ID_MODEL_NAME, .act (.copy [.PeerInfo .ModelName, .WscPeerInfo .WscPeerModelName])),
     (WSC_ID_MODEL_NUMBER,
       .act (.copy [.PeerInfo .ModelNumber, .WscPeerInfo .WscPeerModelNumber])),
     (WSC_ID_SERIAL_NUM,
       .act (.copy [.PeerInfo .SerialNumber, .WscPeerInfo .WscPeerSerialNumber])),
     (WSC_ID_PRIM_DEV_TYPE, .act (.copy [.PeerInfo .PriDeviceType])),
     (WSC_ID_DEVICE_NAME, .act (.copy [.PeerInfo .DeviceName, .WscPeerInfo .WscPeerDeviceName])),
     (WSC_ID_RF_BAND, .act (.store 1 (.PeerInfo .RfBand))),
     (WSC_ID_ASSOC_STATE, .act (.store 2 (.PeerInfo .AssocState))),
     (WSC_ID_CONFIG_ERROR, .act (.store 2 (.PeerInfo .ConfigError))),
     (WSC_ID_DEVICE_PWD_ID, .act .skip),
     (WSC_ID_OS_VERSION, .act (.store 4 (.PeerInfo .OsVersion))),
     (WSC_ID_AUTHENTICATOR, .act (.copy [.Hmac])),
     (WSC_ID_VENDOR_EXT, .vendorExt)]
  wanted := some
    [WSC_ID_VERSION, WSC_ID_MSG_TYPE, WSC_ID_ENROLLEE_NONCE, WSC_ID_REGISTRAR_NONCE,
     WSC_ID_UUID_R, WSC_ID_PUBLIC_KEY, WSC_ID_AUTH_TYPE_FLAGS, WSC_ID_ENCR_TYPE_FLAGS,
     WSC_ID_CONN_TYPE_FLAGS, WSC_ID_CONFIG_METHODS, WSC_ID_MANUFACTURER, WSC_ID_MODEL_NAME,
     WSC_ID_MODEL_NUMBER, WSC_ID_SERIAL_NUM, WSC_ID_PRIM_DEV_TYPE, WSC_ID_DEVICE_NAME,
     WSC_ID_RF_BAND, WSC_ID_ASSOC_STATE, WSC_ID_CONFIG_ERROR, WSC_ID_DEVICE_PWD_ID,
     WSC_ID_OS_VERSION, WSC_ID_AUTHENTICATOR]
  allocates := false
  each m := Function.update m (.WscPeerInfo .WscPeerMAC) (m (.PeerInfo .MacAddr))
  tail := .deriveHmac

def M2D : Message where
  start _ m := m
  rows := headRows ++
    [(WSC_ID_ENROLLEE_NONCE, .act (.compare .EnrolleeNonce)),
     (WSC_ID_REGISTRAR_NONCE, .act (.copy [.RegistrarNonce])),
     (WSC_ID_UUID_R, .act (.copy [.PeerInfo .Uuid])),
     (WSC_ID_PUBLIC_KEY, .act .skip),
     (WSC_ID_AUTH_TYPE_FLAGS, .act (.store 2 (.PeerInfo .AuthTypeFlags))),
     (WSC_ID_ENCR_TYPE_FLAGS, .act (.store 2 (.PeerInfo .EncrTypeFlags))),
     (WSC_ID_CONN_TYPE_FLAGS, .act (.store 1 (.PeerInfo .ConnTypeFlags))),
     (WSC_ID_CONFIG_METHODS, .act (.storeSwapped 2 (.PeerInfo .ConfigMethods))),
     (WSC_ID_MANUFACTURER, .act (.copy [.PeerInfo .Manufacturer])),
     (WSC_ID_MODEL_NAME, .act (.copy [.PeerInfo .ModelName])),
     (WSC_ID_MODEL_NUMBER, .act (.copy [.PeerInfo .ModelNumber])),
     (WSC_ID_SERIAL_NUM, .act (.copy [.PeerInfo .SerialNumber])),
     (WSC_ID_PRIM_DEV_TYPE, .act (.copy [.PeerInfo .PriDeviceType])),
     (WSC_ID_DEVICE_NAME, .act (.copy [.PeerInfo .DeviceName])),
     (WSC_ID_RF_BAND, .act (.store 1 (.PeerInfo .RfBand))),
     (WSC_ID_ASSOC_STATE, .act (.store 2 (.PeerInfo .AssocState))),
     (WSC_ID_CONFIG_ERROR, .act (.store 2 (.PeerInfo .ConfigError))),
     (WSC_ID_DEVICE_PWD_ID, .act .skip),
     (WSC_ID_OS_VERSION, .act (.store 4 (.PeerInfo .OsVersion))),
     (WSC_ID_AUTHENTICATOR, .act .skip)]
  wanted := none
  allocates := false
  each := id
  tail := .fields

def M3 : Message where
  start _ m := clearHmac m
  rows := headRows ++
    [(WSC_ID_REGISTRAR_NONCE, .act (.compare .RegistrarNonce)),
     (WSC_ID_E_HASH1, .act (.copy [.EHash1])),
     (WSC_ID_E_HASH2, .act (.copy [.EHash2])),
     (WSC_ID_AUTHENTICATOR, .act (.copy [.Hmac]))]
  wanted := some
    [WSC_ID_VERSION, WSC_ID_MSG_TYPE, WSC_ID_REGISTRAR_NONCE, WSC_ID_E_HASH1, WSC_ID_E_HASH2,
     WSC_ID_AUTHENTICATOR]
  allocates := false
  each := id
  tail := .hmac

def M4 : Message where
  start _ m := clearHmac m
  rows := headRows ++
    [(WSC_ID_ENROLLEE_NONCE, .act (.compare .EnrolleeNonce)),
     (WSC_ID_R_HASH1, .act (.copy [.RHash1])),
     (WSC_ID_R_HASH2, .act (.copy [.RHash2])),
     (WSC_ID_ENCR_SETTINGS, .encrSettings room512 false),
     (WSC_ID_AUTHENTICATOR, .act (.copy [.Hmac]))]
  wanted := some
    [WSC_ID_VERSION, WSC_ID_MSG_TYPE, WSC_ID_ENROLLEE_NONCE, WSC_ID_R_HASH1, WSC_ID_R_HASH2,
     WSC_ID_ENCR_SETTINGS, WSC_ID_AUTHENTICATOR]
  allocates := true
  each := id
  tail := .hashHmac ⟨.Rs1, .Psk1, .RHash1, rfl⟩

def M5 : Message where
  start _ m := clearHmac m
  rows := headRows ++
    [(WSC_ID_REGISTRAR_NONCE, .act (.compare .RegistrarNonce)),
     (WSC_ID_ENCR_SETTINGS, .encrSettings room512 false),
     (WSC_ID_AUTHENTICATOR, .act (.copy [.Hmac]))]
  wanted := some
    [WSC_ID_VERSION, WSC_ID_MSG_TYPE, WSC_ID_REGISTRAR_NONCE, WSC_ID_ENCR_SETTINGS,
     WSC_ID_AUTHENTICATOR]
  allocates := true
  each := id
  tail := .hmacHash ⟨.Es1, .Psk1, .EHash1, rfl⟩

def M6 : Message where
  start _ m := clearHmac m
  rows := headRows ++
    [(WSC_ID_ENROLLEE_NONCE, .act (.compare .EnrolleeNonce)),
     (WSC_ID_ENCR_SETTINGS, .encrSettings room512 false),
     (WSC_ID_AUTHENTICATOR, .act (.copy [.Hmac]))]
  wanted := some
    [WSC_ID_VERSION, WSC_ID_MSG_TYPE, WSC_ID_ENROLLEE_NONCE, WSC_ID_ENCR_SETTINGS,
     WSC_ID_AUTHENTICATOR]
  allocates := true
  each := id
  tail := .hashHmac ⟨.Rs2, .Psk2, .RHash2, rfl⟩

def M7 : Message where
  start _ m := clearHmac m
  rows := headRows ++
    [(WSC_ID_REGISTRAR_NONCE, .act (.compare .RegistrarNonce)),
     (WSC_ID_ENCR_SETTINGS, .encrSettings room1024 true),
     (WSC_ID_AUTHENTICATOR, .act (.copy [.Hmac]))]
  wanted := none
  allocates := true
  each := id
  tail := .hmac

/-- The authenticator is compared with what is on the stack when the message has none. -/
def M8 : Message where
  start _ m := m
  rows := headRows ++
    [(WSC_ID_ENROLLEE_NONCE, .act (.compare .EnrolleeNonce)),
     (WSC_ID_ENCR_SETTINGS, .credential room1024),
     (WSC_ID_AUTHENTICATOR, .act (.copy [.Hmac]))]
  wanted := none
  allocates := true
  each := id
  tail := .hmac

def ProcessMessageM1 (env : Env) (precv : List UInt8) (m : Mem) : Option (Nat × Mem) :=
  M1.process env precv m

def ProcessMessageM2 (env : Env) (precv : List UInt8) (m : Mem) : Option (Nat × Mem) :=
  M2.process env precv m

def ProcessMessageM2D (env : Env) (precv : List UInt8) (m : Mem) : Option (Nat × Mem) :=
  M2D.process env precv m

def ProcessMessageM3 (env : Env) (precv : List UInt8) (m : Mem) : Option (Nat × Mem) :=
  M3.process env precv m

def ProcessMessageM4 (env : Env) (precv : List UInt8) (m : Mem) : Option (Nat × Mem) :=
  M4.process env precv m

def ProcessMessageM5 (env : Env) (precv : List UInt8) (m : Mem) : Option (Nat × Mem) :=
  M5.process env precv m

def ProcessMessageM6 (env : Env) (precv : List UInt8) (m : Mem) : Option (Nat × Mem) :=
  M6.process env precv m

def ProcessMessageM7 (env : Env) (precv : List UInt8) (m : Mem) : Option (Nat × Mem) :=
  M7.process env precv m

def ProcessMessageM8 (env : Env) (precv : List UInt8) (m : Mem) : Option (Nat × Mem) :=
  M8.process env precv m

end Ralink.Wsc
