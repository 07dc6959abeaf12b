import Ralink.Lib.Walk
import Ralink.Rsn.Element

/-! `RTMPMakeRSNIE`, which writes the elements of a BSS, and `APValidateRSNIE`, which compares the
element of a station with them byte for byte. A pointer is what can be read from it on. -/
namespace Ralink.Rsn.Validate
open Walk

inductive AuthMode
  | WPA
  | WPAPSK
  | WPA2
  | WPA2PSK
  | WPA1WPA2
  | WPA1PSKWPA2PSK
  deriving DecidableEq

/-- TKIP, AES and both of them. -/
inductive WepStatus
  | Encryption2Enabled
  | Encryption3Enabled
  | Encryption4Enabled
  deriving DecidableEq

/-- What a BSS is configured for. -/
structure MULTISSID_STRUCT where
  AuthMode : AuthMode
  WepStatus : WepStatus
  WpaMixPairCipher : UInt8
  PreAuth : Bool

def OUI_WPA : List UInt8 := [0x00, 0x50, 0xF2]
def OUI_WPA_VERSION : List UInt8 := [0x00, 0x50, 0xF2, 0x01]
def OUI_WPA_TKIP : List UInt8 := [0x00, 0x50, 0xF2, 0x02]
def OUI_WPA_CCMP : List UInt8 := [0x00, 0x50, 0xF2, 0x04]
def OUI_WPA_8021X_AKM : List UInt8 := [0x00, 0x50, 0xF2, 0x01]
def OUI_WPA_PSK_AKM : List UInt8 := [0x00, 0x50, 0xF2, 0x02]
def OUI_WPA2_TKIP : List UInt8 := [0x00, 0x0F, 0xAC, 0x02]
def OUI_WPA2_CCMP : List UInt8 := [0x00, 0x0F, 0xAC, 0x04]
def OUI_WPA2_8021X_AKM : List UInt8 := [0x00, 0x0F, 0xAC, 0x01]
def OUI_WPA2_PSK_AKM : List UInt8 := [0x00, 0x0F, 0xAC, 0x02]

def MIX_CIPHER_WPA_TKIP_ON (x : UInt8) : Bool := x &&& 0x08 ≠ 0
def MIX_CIPHER_WPA_AES_ON (x : UInt8) : Bool := x &&& 0x04 ≠ 0
def MIX_CIPHER_WPA2_TKIP_ON (x : UInt8) : Bool := x &&& 0x02 ≠ 0
def MIX_CIPHER_WPA2_AES_ON (x : UInt8) : Bool := x &&& 0x01 ≠ 0

def MIX_CIPHER_NOTUSE : UInt8 := 0
def MAX_LEN_OF_RSNIE : Nat := 255

inductive ElementID
  | WpaIe
  | Wpa2Ie
  deriving DecidableEq

/-- A counted list as it is written, of one or two suites or none. -/
def counted (suites : List (List UInt8)) : List UInt8 := UInt8.ofNat suites.length :: 0 :: suites.flatten

/-- The group suite and the pairwise suites behind the version. -/
def RTMPMakeRsnIeCipher (ElementID : ElementID) (WepStatus : WepStatus) (bMixCipher : Bool)
    (FlexibleCipher : UInt8) : List UInt8 :=
  match ElementID with
  | .Wpa2Ie =>
    [1, 0] ++
    match WepStatus with
    | .Encryption2Enabled => OUI_WPA2_TKIP ++ counted [OUI_WPA2_TKIP]
    | .Encryption3Enabled =>
      (if bMixCipher then OUI_WPA2_TKIP else OUI_WPA2_CCMP) ++ counted [OUI_WPA2_CCMP]
    | .Encryption4Enabled =>
      OUI_WPA2_TKIP ++
      if MIX_CIPHER_WPA2_TKIP_ON FlexibleCipher then
        if MIX_CIPHER_WPA2_AES_ON FlexibleCipher then counted [OUI_WPA2_TKIP, OUI_WPA2_CCMP]
        else counted [OUI_WPA2_TKIP]
      else counted [OUI_WPA2_CCMP]
  | .WpaIe =>
    OUI_WPA_VERSION ++ [1, 0] ++
    match WepStatus with
    | .Encryption2Enabled => OUI_WPA_TKIP ++ counted [OUI_WPA_TKIP]
    | .Encryption3Enabled =>
      (if bMixCipher then OUI_WPA_TKIP else OUI_WPA_CCMP) ++ counted [OUI_WPA_CCMP]
    | .Encryption4Enabled =>
      OUI_WPA_TKIP ++
      if MIX_CIPHER_WPA_TKIP_ON FlexibleCipher then
        if MIX_CIPHER_WPA_AES_ON FlexibleCipher then counted [OUI_WPA_TKIP, OUI_WPA_CCMP]
        else counted [OUI_WPA_TKIP]
      else counted [OUI_WPA_CCMP]

def RTMPMakeRsnIeAKM (ElementID : ElementID) (AuthMode : AuthMode) : List UInt8 :=
  match ElementID, AuthMode with
  | .Wpa2Ie, .WPA2 | .Wpa2Ie, .WPA1WPA2 => counted [OUI_WPA2_8021X_AKM]
  | .Wpa2Ie, .WPA2PSK | .Wpa2Ie, .WPA1PSKWPA2PSK => counted [OUI_WPA2_PSK_AKM]
  | .WpaIe, .WPA | .WpaIe, .WPA1WPA2 => counted [OUI_WPA_8021X_AKM]
  | .WpaIe, .WPAPSK | .WpaIe, .WPA1PSKWPA2PSK => counted [OUI_WPA_PSK_AKM]
  | _, _ => counted []

def RTMPMakeRsnIeCap (ElementID : ElementID) (PreAuth : Bool) : List UInt8 :=
  match ElementID with
  | .WpaIe => []
  | .Wpa2Ie => [if PreAuth then 1 else 0, 0]

def zeroMemory (ie : List UInt8) : List UInt8 := ie ++ List.replicate (MAX_LEN_OF_RSNIE - ie.length) 0

def bMixRsnIe (AuthMode : AuthMode) : Bool := AuthMode = .WPA1WPA2 ∨ AuthMode = .WPA1PSKWPA2PSK

def PrimaryRsnie : AuthMode → ElementID
  | .WPA | .WPAPSK | .WPA1WPA2 | .WPA1PSKWPA2PSK => .WpaIe
  | .WPA2 | .WPA2PSK => .Wpa2Ie

namespace MULTISSID_STRUCT
variable (pMbss : MULTISSID_STRUCT)

def FlexibleCipher : UInt8 :=
  if pMbss.WepStatus = .Encryption4Enabled then pMbss.WpaMixPairCipher else MIX_CIPHER_NOTUSE

def makeElement (ElementID : ElementID) : List UInt8 :=
  RTMPMakeRsnIeCipher ElementID pMbss.WepStatus false pMbss.FlexibleCipher ++
    RTMPMakeRsnIeAKM ElementID pMbss.AuthMode ++ RTMPMakeRsnIeCap ElementID pMbss.PreAuth

/-- `RTMPMakeRSNIE`: both arrays behind each other, without the headers of the elements. -/
def RSN_IE : List UInt8 :=
  zeroMemory (pMbss.makeElement (PrimaryRsnie pMbss.AuthMode)) ++
    zeroMemory (if bMixRsnIe pMbss.AuthMode then pMbss.makeElement .Wpa2Ie else [])

/-- The element that one with this `Eid` is compared with. -/
def IE_Idx (Eid : UInt8) : Nat := if Eid = IE_RSN ∧ bMixRsnIe pMbss.AuthMode then 1 else 0

def ownIe (Eid : UInt8) : List UInt8 := pMbss.RSN_IE.drop (MAX_LEN_OF_RSNIE * pMbss.IE_Idx Eid)

end MULTISSID_STRUCT

structure EID_STRUCT where
  Eid : UInt8
  Len : UInt8
  Octet : List UInt8

structure MAC_TABLE_ENTRY where
  AuthMode : AuthMode
  WepStatus : WepStatus
  deriving DecidableEq

def RTMPEqualMemory (p q : List UInt8) (Length : Nat) : Option Bool :=
  if Length ≤ p.length ∧ Length ≤ q.length then some (p.take Length = q.take Length) else none

/-- `NdisMoveMemory(&Count, p, sizeof(USHORT))` -/
def loadCount : List UInt8 → Option Nat
  | b0 :: b1 :: _ => some (le16 b0 b1).toNat
  | _ => none

def RTMPCheckMcast (pMbss : MULTISSID_STRUCT) (eid_ptr : EID_STRUCT) (pEntry : MAC_TABLE_ENTRY) :
    Option (Bool × MAC_TABLE_ENTRY) := do
  let pEntry := { pEntry with AuthMode := pMbss.AuthMode }
  if 6 ≤ eid_ptr.Len then
    if eid_ptr.Eid = IE_WPA then
      let pEntry :=
        if pMbss.AuthMode = .WPA1WPA2 then { pEntry with AuthMode := .WPA }
        else if pMbss.AuthMode = .WPA1PSKWPA2PSK then { pEntry with AuthMode := .WPAPSK }
        else pEntry
      let equal ← RTMPEqualMemory (eid_ptr.Octet.drop 6) ((pMbss.ownIe eid_ptr.Eid).drop 6) 4
      return (equal, pEntry)
    else if eid_ptr.Eid = IE_RSN then
      let pEntry :=
        if pMbss.AuthMode = .WPA1WPA2 then { pEntry with AuthMode := .WPA2 }
        else if pMbss.AuthMode = .WPA1PSKWPA2PSK then { pEntry with AuthMode := .WPA2PSK }
        else pEntry
      let equal ← RTMPEqualMemory (eid_ptr.Octet.drop 2) ((pMbss.ownIe eid_ptr.Eid).drop 2) 4
      return (equal, pEntry)
    else return (false, pEntry)
  else return (false, pEntry)

/-- The cipher that a pairwise suite stands for. `pRsnIe` are the pairwise suites of the BSS. -/
def ucastTurn (pMbss : MULTISSID_STRUCT) (TKIP_ON AES_ON : UInt8 → Bool) (pRsnIe pStaTmp : List UInt8) :
    Option (Option WepStatus) := do
  if pMbss.WepStatus = .Encryption4Enabled then
    if TKIP_ON pMbss.WpaMixPairCipher then
      if ← RTMPEqualMemory pStaTmp pRsnIe 4 then return some .Encryption2Enabled
      else if AES_ON pMbss.WpaMixPairCipher then
        if ← RTMPEqualMemory pStaTmp (pRsnIe.drop 4) 4 then return some .Encryption3Enabled
        else return none
      else return none
    else if ← RTMPEqualMemory pStaTmp pRsnIe 4 then return some .Encryption3Enabled
    else return none
  else if ← RTMPEqualMemory pStaTmp pRsnIe 4 then return some pMbss.WepStatus
  else return none

/-- Where the number of the pairwise suites stands. -/
def ucount (Eid : UInt8) : Option Nat := if Eid = IE_RSN then some 6 else if Eid = IE_WPA then some 10 else none

def RTMPCheckUcast (pMbss : MULTISSID_STRUCT) (eid_ptr : EID_STRUCT) (pEntry : MAC_TABLE_ENTRY) :
    Option (Bool × MAC_TABLE_ENTRY) := do
  let pEntry := { pEntry with WepStatus := pMbss.WepStatus }
  if eid_ptr.Len < 16 then return (false, pEntry)
  else
    match ucount eid_ptr.Eid with
    | none => return (false, pEntry)
    | some off =>
      let pStaTmp := eid_ptr.Octet.drop off
      let Count ← loadCount pStaTmp
      let pStaTmp := pStaTmp.drop 2
      let pRsnIe := (pMbss.ownIe eid_ptr.Eid).drop (off + 2)
      let TKIP_ON := if eid_ptr.Eid = IE_WPA then MIX_CIPHER_WPA_TKIP_ON else MIX_CIPHER_WPA2_TKIP_ON
      let AES_ON := if eid_ptr.Eid = IE_WPA then MIX_CIPHER_WPA_AES_ON else MIX_CIPHER_WPA2_AES_ON
      match ← walk 4 (ucastTurn pMbss TKIP_ON AES_ON pRsnIe) Count pStaTmp with
      | some WepStatus => return (true, { pEntry with WepStatus })
      | none => return (false, pEntry)

/-- The loops compare one suite after the other. -/
def hit (equal : Option Bool) : Option (Option Unit) := equal.map fun equal => if equal then some () else none

def RTMPCheckAKM (sta_akm ap_rsn_ie : List UInt8) (iswpa2 : Bool) : Option Bool := do
  let pTmp := ap_rsn_ie.drop (if iswpa2 then 6 else 10)
  let Count ← loadCount pTmp
  let pTmp := (pTmp.drop 2).drop (4 * Count)
  let Count ← loadCount pTmp
  let found ← walk 4 (fun pTmp => hit (RTMPEqualMemory sta_akm pTmp 4)) Count (pTmp.drop 2)
  return found.isSome

def RTMPCheckAUTH (pMbss : MULTISSID_STRUCT) (eid_ptr : EID_STRUCT) : Option Bool := do
  if eid_ptr.Len < 16 then return false
  else
    match ucount eid_ptr.Eid with
    | none => return false
    | some off =>
      let pStaTmp := eid_ptr.Octet.drop off
      let Count ← loadCount pStaTmp
      let pStaTmp := (pStaTmp.drop 2).drop (4 * Count)
      let Count ← loadCount pStaTmp
      let found ← walk 4 (fun pStaTmp => hit
        (RTMPCheckAKM pStaTmp (pMbss.ownIe eid_ptr.Eid) (eid_ptr.Eid = IE_RSN))) Count (pStaTmp.drop 2)
      return found.isSome

inductive StatusCode
  | MLME_SUCCESS
  | MLME_UNSPECIFY_FAIL
  | MLME_INVALID_GROUP_CIPHER
  | MLME_INVALID_PAIRWISE_CIPHER
  | MLME_INVALID_AKMP
  deriving DecidableEq

def APValidateRSNIE (pMbss : MULTISSID_STRUCT) (pEntry : MAC_TABLE_ENTRY) (pRsnIe : List UInt8)
    (rsnie_len : UInt8) : Option (StatusCode × MAC_TABLE_ENTRY) := do
  if rsnie_len = 0 then return (.MLME_SUCCESS, pEntry)
  else
    match pRsnIe with
    | Eid :: Len :: Octet =>
      if Len.toNat + 2 ≠ rsnie_len.toNat then return (.MLME_UNSPECIFY_FAIL, pEntry)
      else
        let eid_ptr : EID_STRUCT := ⟨Eid, Len, Octet⟩
        let (mcast, pEntry) ← RTMPCheckMcast pMbss eid_ptr pEntry
        if !mcast then return (.MLME_INVALID_GROUP_CIPHER, pEntry)
        else
          let (ucast, pEntry) ← RTMPCheckUcast pMbss eid_ptr pEntry
          if !ucast then return (.MLME_INVALID_PAIRWISE_CIPHER, pEntry)
          else
            let auth ← RTMPCheckAUTH pMbss eid_ptr
            if !auth then return (.MLME_INVALID_AKMP, pEntry) else return (.MLME_SUCCESS, pEntry)
    | _ => none

end Ralink.Rsn.Validate
