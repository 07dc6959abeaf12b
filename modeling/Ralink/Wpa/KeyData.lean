import Ralink.Lib.Sized
import Ralink.Crypt.KeyWrap
import Ralink.Crypt.Tkip
import Ralink.Wpa.Sanity

/-! `PeerWpaMessageSanity` and `RTMPParseEapolKeyData` of `cmm_wpa.c` with the buffers they work on.
A read of bytes that are not there and a write past the end of a buffer give no result. -/
namespace Ralink.Wpa.KeyData
open Sized Cipher Crypt

def MAX_LEN_OF_RSNIE : Nat := 255
def MAX_LEN_GTK : Nat := 32
def LEN_WEP64 : Nat := 5
def WPA_KDE_TYPE : Byte := 0xdd
def KDE_GTK : Byte := 1
def OUI_WPA2 : List Byte := [0x00, 0x0F, 0xAC]

def octets (bs : List Byte) : List UInt8 := bs.map UInt8.ofBitVec

def bytes (bs : List UInt8) : List Byte := bs.map UInt8.toBitVec

/-- Which allocations succeed, and what the buffer for the key data holds when it is new. -/
structure Memory where
  keydata : Bool
  KEYDATA : Vector Byte 255
  alloc : UInt32 → Bool
  arc4 : Bool

/-- Only as many bytes as a pointer has are zeroed. -/
def Memory.zeroed (mem : Memory) : List Byte := List.replicate 4 0 ++ mem.KEYDATA.toList.drop 4

def store (KEYDATA bs : List Byte) : Option (List Byte) :=
  if bs.length ≤ MAX_LEN_OF_RSNIE then some (bs ++ KEYDATA.drop bs.length) else none

/-- `KEYDATA`, how many bytes at its front came from the frame, and the length that the frame now
has for its key data. -/
structure Buffered where
  KEYDATA : List Byte
  own : Nat
  KeyDataLen : Nat

def Buffered.carried (b : Buffered) : List Byte := b.KEYDATA.take b.own

section Decryption

variable (aes : BlockCipher 16) (mem : Memory)

/-- On a failed allocation the length stays at the zero it was initialised with. -/
def AES_Key_Unwrap (Key : List UInt8) (CipherText : List Byte) (CipherTextLength : Nat)
    (KEYDATA : List Byte) : Option Buffered :=
  let PlainLength := UInt32.ofNat CipherTextLength - 8
  if mem.alloc PlainLength = false then some ⟨KEYDATA, 0, 0⟩
  else do
    let IV ← slice CipherText 8
    let pResult ← slice (CipherText.drop 8) PlainLength.toNat
    let r := unwrapLoops aes Key (PlainLength.toNat / 8) ⟨octets IV, octets pResult⟩
    let KEYDATA ← store KEYDATA (bytes r.pResult)
    return ⟨KEYDATA, PlainLength.toNat, PlainLength.toNat⟩

/-- On a failed allocation nothing is stored, and the length is kept. -/
def TKIP_GTK_KEY_UNWRAP (key iv : List UInt8) (input_text : List Byte) (input_len : Nat)
    (KEYDATA : List Byte) : Option Buffered :=
  if mem.arc4 = false then some ⟨KEYDATA, 0, input_len⟩
  else do
    let text ← slice input_text input_len
    let KEYDATA ← store KEYDATA (bytes (TKIP_GTK_KEY_WRAP key iv (octets text)))
    return ⟨KEYDATA, input_len, input_len⟩

def keyDataOf (Msg : EAPOL_PACKET) : List Byte :=
  Msg.KeyDesc.KeyData.take (Msg.Body_Len.toNat - MIN_LEN_OF_EAPOL_KEY_MSG)

/-- The messages whose key data is encrypted and has a group key in it. -/
def hasGroupKey (e : MAC_TABLE_ENTRY) (type : MsgType) : Bool :=
  (type = .EAPOL_PAIR_MSG_3 ∧ e.bWPA2 = true) ∨ type = .EAPOL_GROUP_MSG_1

/-- The key data in the clear, in `KEYDATA`. -/
def decryptKeyData (e : MAC_TABLE_ENTRY) (Msg : EAPOL_PACKET) : Option Buffered :=
  let k := Msg.KeyDesc
  if k.KeyInfo.KeyDescVer = KEY_DESC_AES then
    AES_Key_Unwrap aes mem (octets (KEK e.PTK)) (keyDataOf Msg) k.KeyDataLen.toNat mem.zeroed
  else
    TKIP_GTK_KEY_UNWRAP mem (octets (KEK e.PTK)) (octets k.KeyIv.toList) (keyDataOf Msg)
      k.KeyDataLen.toNat mem.zeroed

/-- The index that goes with key data that is a group key as a whole. -/
def groupKeyIndex (e : MAC_TABLE_ENTRY) (type : MsgType) (Msg : EAPOL_PACKET) : Nat :=
  if e.bWPA2 = false ∧ type = .EAPOL_GROUP_MSG_1 then Msg.KeyDesc.KeyInfo.KeyIndex.toNat else 0

/-- The key data goes to `KEYDATA`, with the index of a group key; `none` inside when there is
nothing to parse. -/
def clearKeyData (e : MAC_TABLE_ENTRY) (type : MsgType) (Msg : EAPOL_PACKET) :
    Option (Option (Buffered × Nat)) :=
  let KeyDataLen := Msg.KeyDesc.KeyDataLen.toNat
  if KeyDataLen = 0 then some none
  else if hasGroupKey e type then
    (decryptKeyData aes mem e Msg).map fun b => some (b, groupKeyIndex e type Msg)
  else if type = .EAPOL_PAIR_MSG_2 ∨ type = .EAPOL_PAIR_MSG_3 then do
    let text ← slice (keyDataOf Msg) KeyDataLen
    let KEYDATA ← store mem.zeroed text
    return some (⟨KEYDATA, KeyDataLen, KeyDataLen⟩, 0)
  else some none

end Decryption

def copyGtk (from_ : List Byte) (GTKLEN : Nat) : Option (List Byte) := do
  let GTK ← slice from_ GTKLEN
  if GTKLEN ≤ MAX_LEN_GTK then return GTK else none

/-- The case of a KDE; `none` inside when the key is too short. Its length is taken in 8 bits. -/
def kdeCase (pKDE : List Byte) (Len : Byte) (found : Found) : Option (Option Found) := do
  let OUI ← slice (pKDE.drop 2) 3
  if OUI = OUI_WPA2 then
    let DataType ← pKDE[5]?
    if DataType = KDE_GTK then
      let Kid ← pKDE[6]?
      let GTKLEN := (Len.toNat + 250) % 256
      if GTKLEN < LEN_WEP64 then return none
      else
        let GTK ← copyGtk (pKDE.drop 8) GTKLEN
        return some (Kid.toNat % 4, GTK)
    else return some found
  else return some found

/-- The offset is kept in 8 bits, as the length is, so it does not wrap around. -/
def kdeLoop (KeyDataLength : Byte) (skip_offset : Nat) (pEid : List Byte) (found : Found) :
    Option (Option Found) := do
  let Len ← pEid[1]?
  if h : skip_offset + 2 + Len.toNat ≤ KeyDataLength.toNat then
    let Eid ← pEid[0]?
    match ← if Eid = WPA_KDE_TYPE then kdeCase pEid Len found else some (some found) with
    | none => return none
    | some found =>
      kdeLoop KeyDataLength ((skip_offset + 2 + Len.toNat) % 256) (pEid.drop (2 + Len.toNat)) found
  else return some found
termination_by KeyDataLength.toNat - skip_offset
decreasing_by omega

/-- The bytes from `pKeyData` on are those that may be read there. -/
def RTMPParseEapolKeyData (cfg : Config) (pKeyData : List Byte) (KeyDataLen GroupKeyIndex : Nat)
    (type : MsgType) (e : MAC_TABLE_ENTRY) (link : APCLI_STRUCT) :
    Option (Bool × APCLI_STRUCT × List Act) :=
  if (type = .EAPOL_PAIR_MSG_2 ∨ type = .EAPOL_PAIR_MSG_3) ∧
      ¬ (e.bWPA2 = true ∧ type = .EAPOL_PAIR_MSG_3) then some (true, link, [])
  else do
    let KeyDataLength := BitVec.ofNat 8 KeyDataLen
    let found ←
      if e.bWPA2 = true ∧ (type = .EAPOL_PAIR_MSG_3 ∨ type = .EAPOL_GROUP_MSG_1) then
        kdeLoop KeyDataLength 0 pKeyData (0, [])
      else if e.bWPA2 = false ∧ type = .EAPOL_GROUP_MSG_1 then
        (copyGtk pKeyData KeyDataLength.toNat).map fun GTK => some (GroupKeyIndex, GTK)
      else some (some (0, []))
    match found with
    | none => return (false, link, [])
    | some found => return installGroupKey cfg e link found

/-- What follows the checks of the counter and of the MIC. The parser reads of `KEYDATA` what
`readable` says. -/
def processKeyData (aes : BlockCipher 16) (cfg : Config) (mem : Memory)
    (readable : Buffered → List Byte) (Msg : EAPOL_PACKET) (type : MsgType) (e : MAC_TABLE_ENTRY)
    (link : APCLI_STRUCT) : Option (Bool × APCLI_STRUCT × List Act) := do
  match ← clearKeyData aes mem e type Msg with
  | none => return (true, link, [])
  | some (b, GroupKeyIndex) =>
    RTMPParseEapolKeyData cfg (readable b) b.KeyDataLen GroupKeyIndex type e link

def PeerWpaMessageSanity (C : Crypto) (aes : BlockCipher 16) (cfg : Config) (mem : Memory)
    (readable : Buffered → List Byte) (Msg : EAPOL_PACKET) (type : MsgType) (e : MAC_TABLE_ENTRY)
    (link : APCLI_STRUCT) : Option (Bool × APCLI_STRUCT × List Act) :=
  if mem.keydata = false then some (false, link, [])
  else if bReplayDiff e type Msg then some (false, link, [])
  else if micDiff C e type Msg then some (false, link, [])
  else processKeyData aes cfg mem readable Msg type e link

end Ralink.Wpa.KeyData
