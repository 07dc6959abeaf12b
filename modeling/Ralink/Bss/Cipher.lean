import Ralink.Lib.Sized
import Ralink.Rsn.Offers
import Ralink.Wpa.Entry

/-! `BssCipherParse` of `mlme.c`, which takes the ciphers and the modes of an access point from the
WPA and RSN elements that are kept of it. A pointer is what can be read from it on, and a read past
the end fails. -/
namespace Ralink.Bss.Cipher
open Rsn (IE_WPA IE_RSN le16)
open Wpa (NDIS_802_11_WEP_STATUS)
open Sized (slice)

/-- In the order of the source; `Max` is what an AKM suite is taken for that is not known. -/
inductive NDIS_802_11_AUTHENTICATION_MODE
  | Open
  | Shared
  | AutoSwitch
  | WPA
  | WPAPSK
  | WPANone
  | WPA2
  | WPA2PSK
  | WPA1WPA2
  | WPA1PSKWPA2PSK
  | Max
  deriving DecidableEq

structure CIPHER_SUITE where
  PairCipher : NDIS_802_11_WEP_STATUS
  PairCipherAux : NDIS_802_11_WEP_STATUS
  GroupCipher : NDIS_802_11_WEP_STATUS
  RsnCapability : UInt16
  bMixMode : Bool
  deriving DecidableEq

def BSS_ADHOC : UInt8 := 0

/-- What the function reads and writes of an entry; `VarIEs` is all that lies there in memory. -/
structure BSS_ENTRY where
  BssType : UInt8
  Privacy : Bool
  WepStatus : NDIS_802_11_WEP_STATUS
  AuthMode : NDIS_802_11_AUTHENTICATION_MODE
  AuthModeAux : NDIS_802_11_AUTHENTICATION_MODE
  WPA : CIPHER_SUITE
  WPA2 : CIPHER_SUITE
  bSES : Bool
  VarIELen : Nat
  VarIEs : List UInt8

def WPA_OUI : List UInt8 := [0x00, 0x50, 0xf2, 0x01]
def RSN_OUI : List UInt8 := [0x00, 0x0f, 0xac]
def SES_OUI : List UInt8 := [0x00, 0x90, 0x4c]

def groupCipher (type : UInt8) (GroupCipher : NDIS_802_11_WEP_STATUS) : NDIS_802_11_WEP_STATUS :=
  if type = 1 then .GroupWEP40Enabled
  else if type = 5 then .GroupWEP104Enabled
  else if type = 2 then .Encryption2Enabled
  else if type = 4 then .Encryption3Enabled
  else GroupCipher

def pairCipher (type : UInt8) : NDIS_802_11_WEP_STATUS :=
  if type = 1 ∨ type = 5 then .Encryption1Enabled
  else if type = 2 then .Encryption2Enabled
  else if type = 4 then .Encryption3Enabled
  else .EncryptionDisabled

/-- The lower cipher goes to `PairCipherAux`; the numbers of the enumeration are compared. -/
def CIPHER_SUITE.pair (c : CIPHER_SUITE) (TmpCipher : NDIS_802_11_WEP_STATUS) : CIPHER_SUITE :=
  if TmpCipher.ctorIdx > c.PairCipher.ctorIdx then
    { c with PairCipherAux := c.PairCipher, PairCipher := TmpCipher }
  else { c with PairCipherAux := TmpCipher }

/-- `(pTmp[1] << 8) + pTmp[0]` -/
def loadWord (pTmp : List UInt8) : Option UInt16 := do
  let b0 ← pTmp[0]?
  let b1 ← pTmp[1]?
  some (le16 b0 b1)

def pairLoop : Nat → List UInt8 → CIPHER_SUITE → Option (List UInt8 × CIPHER_SUITE)
  | 0, pTmp, c => some (pTmp, c)
  | Count + 1, pTmp, c => do
      let type ← pTmp[3]?
      pairLoop Count (pTmp.drop 4) (c.pair (pairCipher type))

/-- The second mode goes to `AuthModeAux`. -/
def BSS_ENTRY.setAuth (pBss : BSS_ENTRY) (mode : NDIS_802_11_AUTHENTICATION_MODE) : BSS_ENTRY :=
  if pBss.AuthMode = .Open then { pBss with AuthMode := mode } else { pBss with AuthModeAux := mode }

def rsnMode (type : UInt8) : NDIS_802_11_AUTHENTICATION_MODE :=
  if type = 0 then .WPANone else if type = 1 then .WPA2 else if type = 2 then .WPA2PSK else .Max

/-- The loop over the AKM suites: a turn goes on by as many suites as are left. -/
def akmLoop : Nat → List UInt8 → BSS_ENTRY → Option (List UInt8 × BSS_ENTRY)
  | 0, pTmp, pBss => some (pTmp, pBss)
  | Count + 1, pTmp, pBss => do
      let oui ← slice pTmp 3
      if oui ≠ RSN_OUI then some (pTmp, pBss)
      else do
        let type ← pTmp[3]?
        akmLoop Count (pTmp.drop ((Count + 1) * 4)) (pBss.setAuth (rsnMode type))

def wpaMode (type : UInt8) (pBss : BSS_ENTRY) : BSS_ENTRY :=
  if type = 1 then pBss.setAuth .WPA else if type = 2 then pBss.setAuth .WPAPSK else pBss

/-- What `IE_WPA` ends with. -/
def finishWPA (pBss : BSS_ENTRY) : BSS_ENTRY :=
  let pBss :=
    if pBss.BssType = BSS_ADHOC then
      { pBss with
        AuthMode := .WPANone
        AuthModeAux := .WPANone
        WepStatus := pBss.WPA.GroupCipher
        WPA :=
          if pBss.WPA.PairCipherAux = .EncryptionDisabled then
            { pBss.WPA with PairCipherAux := pBss.WPA.GroupCipher }
          else pBss.WPA }
    else { pBss with WepStatus := pBss.WPA.PairCipher }
  if pBss.WPA.GroupCipher ≠ pBss.WPA.PairCipher then
    { pBss with WPA := { pBss.WPA with bMixMode := true } }
  else pBss

/-- What `IE_RSN` ends with. -/
def finishRSN (RsnCapability : UInt16) (pBss : BSS_ENTRY) : BSS_ENTRY :=
  let pBss :=
    if pBss.BssType = BSS_ADHOC then
      { pBss with
        WPA :=
          { pBss.WPA with
            GroupCipher := pBss.WPA2.GroupCipher
            PairCipherAux :=
              if pBss.WPA2.PairCipherAux = .EncryptionDisabled then pBss.WPA2.GroupCipher
              else pBss.WPA2.PairCipherAux } }
    else pBss
  let pBss :=
    { pBss with
      WepStatus := pBss.WPA2.PairCipher
      WPA2 := { pBss.WPA2 with RsnCapability := RsnCapability } }
  if pBss.WPA2.GroupCipher ≠ pBss.WPA2.PairCipher then
    { pBss with WPA2 := { pBss.WPA2 with bMixMode := true } }
  else pBss

/-- `case IE_WPA`, behind the comparisons of the OUI. -/
def parseWPA (pTmp : List UInt8) (pBss : BSS_ENTRY) : Option BSS_ENTRY := do
  let pTmp := pTmp.drop 11
  let type ← pTmp[0]?
  let WPA := { pBss.WPA with GroupCipher := groupCipher type pBss.WPA.GroupCipher }
  let pTmp := pTmp.drop 1
  let Count ← loadWord pTmp
  let (pTmp, WPA) ← pairLoop Count.toNat (pTmp.drop 2) WPA
  let _ ← loadWord pTmp
  let type ← (pTmp.drop 5)[0]?
  some (finishWPA (wpaMode type { pBss with WPA := WPA }))

/-- `case IE_RSN`, behind the comparison of the version. -/
def parseRSN (pTmp : List UInt8) (pBss : BSS_ENTRY) : Option BSS_ENTRY := do
  let pTmp := pTmp.drop 4
  let oui ← slice pTmp 3
  if oui ≠ RSN_OUI then some pBss
  else do
    let type ← pTmp[3]?
    let WPA2 := { pBss.WPA2 with GroupCipher := groupCipher type pBss.WPA2.GroupCipher }
    let pTmp := pTmp.drop 4
    let Count ← loadWord pTmp
    let (pTmp, WPA2) ← pairLoop Count.toNat (pTmp.drop 2) WPA2
    let Count ← loadWord pTmp
    let (pTmp, pBss) ← akmLoop Count.toNat (pTmp.drop 2) { pBss with WPA2 := WPA2 }
    let RsnCapability ← loadWord pTmp
    some (finishRSN RsnCapability pBss)

/-- One element: its length, and the entry after it. -/
def parseElement (pTmp : List UInt8) (pBss : BSS_ENTRY) : Option (Nat × BSS_ENTRY) := do
  let Eid ← pTmp[0]?
  let Len ← pTmp[1]?
  if Eid = IE_WPA then do
    let oui ← slice (pTmp.drop 2) 3
    if oui = SES_OUI ∧ Len = 7 then some (Len.toNat, { pBss with bSES := true })
    else do
      let oui ← slice (pTmp.drop 2) 4
      if oui ≠ WPA_OUI then some (Len.toNat, pBss)
      else (parseWPA pTmp pBss).map (Len.toNat, ·)
  else if Eid = IE_RSN then do
    let Version ← loadWord (pTmp.drop 2)
    if Version ≠ 1 then some (Len.toNat, pBss)
    else (parseRSN pTmp pBss).map (Len.toNat, ·)
  else some (Len.toNat, pBss)

/-- `while (Length > 0)` -/
def parseElements (Length : Nat) (pBss : BSS_ENTRY) : Option BSS_ENTRY :=
  if 0 < Length then do
    let (Len, pBss) ← parseElement (pBss.VarIEs.drop (pBss.VarIELen - Length)) pBss
    parseElements (Length - (Len + 2)) pBss
  else some pBss
termination_by Length

def noCipher : CIPHER_SUITE := ⟨.EncryptionDisabled, .EncryptionDisabled, .EncryptionDisabled, 0, false⟩

def BssCipherParse (pBss : BSS_ENTRY) : Option BSS_ENTRY :=
  parseElements pBss.VarIELen
    { pBss with
      WepStatus := if pBss.Privacy then .Encryption1Enabled else .EncryptionDisabled
      AuthMode := .Open
      AuthModeAux := .Open
      WPA := noCipher
      WPA2 := noCipher }

end Ralink.Bss.Cipher
