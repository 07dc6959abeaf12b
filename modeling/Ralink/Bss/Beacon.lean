import Ralink.Bss.Decoded

/-! The elements that the beacons of a BSS carry, and what `BssCipherParse` makes of them when the
same driver is the station. -/
namespace Ralink.Bss.Cipher
open Rsn (IE_WPA IE_RSN le16)
open Rsn.Validate
open Wpa (NDIS_802_11_WEP_STATUS)

def withHeader (Eid : UInt8) (RSN_IE : List UInt8) : List UInt8 :=
  Eid :: UInt8.ofNat RSN_IE.length :: RSN_IE

/-- What a beacon carries behind the other elements, without the zeros behind them in the arrays. -/
def beaconElements (pMbss : MULTISSID_STRUCT) : List UInt8 :=
  let RSNIe := if pMbss.AuthMode = .WPA2 ∨ pMbss.AuthMode = .WPA2PSK then IE_RSN else IE_WPA
  withHeader RSNIe (pMbss.makeElement (PrimaryRsnie pMbss.AuthMode)) ++
    if bMixRsnIe pMbss.AuthMode then withHeader IE_RSN (pMbss.makeElement .Wpa2Ie) else []

def status : Rsn.Validate.Cipher → NDIS_802_11_WEP_STATUS
  | .TKIP => .Encryption2Enabled
  | .AES => .Encryption3Enabled

def modeOf : AuthMode → NDIS_802_11_AUTHENTICATION_MODE
  | .WPA => .WPA
  | .WPAPSK => .WPAPSK
  | .WPA2 => .WPA2
  | .WPA2PSK => .WPA2PSK
  | .WPA1WPA2 => .WPA1WPA2
  | .WPA1PSKWPA2PSK => .WPA1PSKWPA2PSK

/-- What the BSS has under a protocol: its group cipher, the stronger of its pairwise ciphers, and
the weaker one if there are two. -/
def offered (pMbss : MULTISSID_STRUCT) (p : Protocol) : CIPHER_SUITE :=
  let PairCipher := status (if .AES ∈ pMbss.ciphers p then .AES else .TKIP)
  { PairCipher
    PairCipherAux := if pMbss.ciphers p = [.TKIP, .AES] then .Encryption2Enabled else .EncryptionDisabled
    GroupCipher := status pMbss.groupCipher
    RsnCapability := if p = .RSN ∧ pMbss.PreAuth = true then 1 else 0
    bMixMode := status pMbss.groupCipher ≠ PairCipher }

def heard (pMbss : MULTISSID_STRUCT) (pBss : BSS_ENTRY) : BSS_ENTRY :=
  { pBss with
    WepStatus := (offered pMbss (if pMbss.offers .RSN then .RSN else .WPA)).PairCipher
    AuthMode := modeOf (pMbss.authMode (if pMbss.offers .WPA then .WPA else .RSN))
    AuthModeAux :=
      if pMbss.offers .WPA ∧ pMbss.offers .RSN then modeOf (pMbss.authMode .RSN) else .Open
    WPA := if pMbss.offers .WPA then offered pMbss .WPA else noCipher
    WPA2 := if pMbss.offers .RSN then offered pMbss .RSN else noCipher }

section Elements

variable {pMbss : MULTISSID_STRUCT} {pBss : BSS_ENTRY} {mem : List UInt8} {p : Protocol}

def BSS_ENTRY.setSuite (pBss : BSS_ENTRY) (c : CIPHER_SUITE) : Protocol → BSS_ENTRY
  | .WPA => { pBss with WPA := c }
  | .RSN => { pBss with WPA2 := c }

def finish (pMbss : MULTISSID_STRUCT) : Protocol → BSS_ENTRY → BSS_ENTRY
  | .WPA => finishWPA
  | .RSN => finishRSN (offered pMbss .RSN).RsnCapability

def element (pMbss : MULTISSID_STRUCT) (p : Protocol) : List UInt8 :=
  withHeader p.Eid (pMbss.makeElement p.ElementID)

def told (pMbss : MULTISSID_STRUCT) (p : Protocol) (pBss : BSS_ENTRY) : BSS_ENTRY :=
  ({ pBss with WepStatus := (offered pMbss p).PairCipher }.setSuite (offered pMbss p) p).setAuth
    (modeOf (pMbss.authMode p))

/-- Before the loop over an element is finished. -/
def unfinished (c : CIPHER_SUITE) : CIPHER_SUITE := { c with RsnCapability := 0, bMixMode := false }

theorem parse_element (hoffers : pMbss.offers p = true) (hsuite : pBss.suite p = noCipher) :
    parseElement (element pMbss p ++ mem) pBss =
      some ((pMbss.makeElement p.ElementID).length, finish pMbss p
        ((pBss.setSuite (unfinished (offered pMbss p)) p).setAuth (modeOf (pMbss.authMode p)))) := by
  have hcap : (offered pMbss .RSN).RsnCapability = le16 (if pMbss.PreAuth then 1 else 0) 0 := by
    unfold offered
    cases pMbss.PreAuth <;> rfl
  unfold finish
  rw [hcap]
  obtain ⟨mode, cipher, mix, pre⟩ := pMbss
  obtain ⟨_, _, _, _, _, wpa, wpa2, _, _, _⟩ := pBss
  generalize htkip : p.TKIP_ON mix = tkip
  generalize haes : p.AES_ON mix = aes
  cases p <;> obtain rfl := hsuite <;> cases mode <;> cases hoffers
  all_goals
    cases cipher
    · rfl
    · rfl
    · unfold Protocol.TKIP_ON at htkip
      unfold Protocol.AES_ON at haes
      cases tkip <;> cases aes
      all_goals
        simp only [element, Protocol.ElementID, MULTISSID_STRUCT.makeElement, RTMPMakeRsnIeCipher,
          MULTISSID_STRUCT.FlexibleCipher, if_true, offered, MULTISSID_STRUCT.ciphers,
          Protocol.TKIP_ON, Protocol.AES_ON, htkip, haes]
        rfl

theorem finish_told (h : pBss.BssType ≠ BSS_ADHOC) (mode : NDIS_802_11_AUTHENTICATION_MODE) :
    finish pMbss p ((pBss.setSuite (unfinished (offered pMbss p)) p).setAuth mode) =
      ({ pBss with WepStatus := (offered pMbss p).PairCipher }.setSuite (offered pMbss p) p).setAuth
        mode := by
  by_cases hopen : pBss.AuthMode = .Open
  all_goals
    by_cases hmix : status pMbss.groupCipher = (offered pMbss p).PairCipher
    all_goals
      cases p
      all_goals
        simp only [BSS_ENTRY.setAuth, BSS_ENTRY.setSuite, finish, finishWPA, finishRSN, hopen, h,
          if_true, if_false]
        simp_all [unfinished, offered]

/-- The loop goes over an element and on behind it. -/
theorem parseElements_step {front : List UInt8} {n : Nat} (hinfra : pBss.BssType ≠ BSS_ADHOC)
    (hoffers : pMbss.offers p = true) (hsuite : pBss.suite p = noCipher)
    (hlen : pBss.VarIELen = front.length + ((element pMbss p).length + n))
    (hmem : pBss.VarIEs = front ++ (element pMbss p ++ mem)) :
    parseElements ((element pMbss p).length + n) pBss = parseElements n (told pMbss p pBss) := by
  have hsize : (element pMbss p).length = (pMbss.makeElement p.ElementID).length + 2 := rfl
  have hdrop : pBss.VarIEs.drop (pBss.VarIELen - ((element pMbss p).length + n)) =
      element pMbss p ++ mem := by
    rw [hlen, Nat.add_sub_cancel, hmem, List.drop_left]
  have hparse := @parse_element pMbss pBss mem p hoffers hsuite
  rw [finish_told hinfra] at hparse
  rw [parseElements, if_pos (by omega), hdrop, hparse, hsize]
  show parseElements (_ + 2 + n - (_ + 2)) (told pMbss p pBss) = _
  rw [Nat.add_sub_cancel_left]

theorem parseElements_zero : parseElements 0 pBss = some pBss := by
  rw [parseElements, if_neg (Nat.lt_irrefl 0)]

/-- The first element of a beacon. -/
theorem heard_first {n : Nat} (hinfra : pBss.BssType ≠ BSS_ADHOC) (hoffers : pMbss.offers p = true)
    (hlen : pBss.VarIELen = (element pMbss p).length + n)
    (hmem : pBss.VarIEs = element pMbss p ++ mem) :
    BssCipherParse pBss = parseElements n (told pMbss p (cleared pBss)) := by
  show parseElements pBss.VarIELen (cleared pBss) = _
  rw [hlen]
  exact @parseElements_step pMbss (cleared pBss) mem p [] n hinfra hoffers (by cases p <;> rfl)
    (hlen.trans (Nat.zero_add _).symm) hmem

theorem heard_one (hinfra : pBss.BssType ≠ BSS_ADHOC) (hoffers : pMbss.offers p = true)
    (hlen : pBss.VarIELen = (element pMbss p).length)
    (hmem : pBss.VarIEs = element pMbss p ++ mem) :
    BssCipherParse pBss = some (told pMbss p (cleared pBss)) := by
  rw [heard_first (n := 0) hinfra hoffers hlen hmem, parseElements_zero]

theorem heard_both (hinfra : pBss.BssType ≠ BSS_ADHOC) (hwpa : pMbss.offers .WPA = true)
    (hrsn : pMbss.offers .RSN = true)
    (hlen : pBss.VarIELen = (element pMbss .WPA).length + (element pMbss .RSN).length)
    (hmem : pBss.VarIEs = element pMbss .WPA ++ (element pMbss .RSN ++ mem)) :
    BssCipherParse pBss = some (told pMbss .RSN (told pMbss .WPA (cleared pBss))) := by
  rw [heard_first hinfra hwpa hlen hmem]
  exact (@parseElements_step pMbss (told pMbss .WPA (cleared pBss)) mem .RSN (element pMbss .WPA) 0 hinfra
    hrsn rfl hlen hmem).trans parseElements_zero

theorem beaconElements_eq : beaconElements pMbss =
    (if pMbss.offers .WPA then element pMbss .WPA else []) ++
      if pMbss.offers .RSN then element pMbss .RSN else [] := by
  obtain ⟨mode, _, _, _⟩ := pMbss
  cases mode
  all_goals first | rfl | exact List.append_nil _

theorem offers_one (hwpa : pMbss.offers .WPA = false) : pMbss.offers .RSN = true := by
  obtain ⟨mode, _, _, _⟩ := pMbss
  cases mode <;> cases hwpa <;> rfl

end Elements

/-- A station has the ciphers and modes of an access point from the elements of its beacons,
whatever lies behind them in the entry. -/
theorem beacon_heard (pMbss : MULTISSID_STRUCT) (pBss : BSS_ENTRY)
    (hinfra : pBss.BssType ≠ BSS_ADHOC) (hlen : pBss.VarIELen = (beaconElements pMbss).length)
    (hmem : beaconElements pMbss <+: pBss.VarIEs) : BssCipherParse pBss = some (heard pMbss pBss) := by
  obtain ⟨mem, hmem⟩ := hmem
  rw [beaconElements_eq] at hlen hmem
  cases hwpa : pMbss.offers .WPA with
  | false =>
    have hrsn := offers_one hwpa
    simp only [hwpa, hrsn, Bool.false_eq_true, if_false, if_true, List.nil_append] at hlen hmem
    rw [heard_one hinfra hrsn hlen hmem.symm]
    simp [heard, told, hwpa, hrsn, cleared, BSS_ENTRY.setAuth, BSS_ENTRY.setSuite]
  | true =>
    cases hrsn : pMbss.offers .RSN with
    | false =>
      simp only [hwpa, hrsn, Bool.false_eq_true, if_false, if_true, List.append_nil] at hlen hmem
      rw [heard_one hinfra hwpa hlen hmem.symm]
      simp [heard, told, hwpa, hrsn, cleared, BSS_ENTRY.setAuth, BSS_ENTRY.setSuite]
    | true =>
      simp only [hwpa, hrsn, if_true, List.length_append, List.append_assoc] at hlen hmem
      rw [heard_both hinfra hwpa hrsn hlen hmem.symm]
      have hne : modeOf (pMbss.authMode .WPA) ≠ .Open := by
        cases pMbss.authMode .WPA <;> exact NDIS_802_11_AUTHENTICATION_MODE.noConfusion
      simp [heard, told, hwpa, hrsn, cleared, BSS_ENTRY.setAuth, BSS_ENTRY.setSuite, hne]

/-- A BSS with both protocols and both ciphers. -/
def mixedBss : MULTISSID_STRUCT := ⟨.WPA1PSKWPA2PSK, .Encryption4Enabled, 0x0f, false⟩

def mixedEntry : BSS_ENTRY :=
  ⟨1, true, .EncryptionDisabled, .Open, .Open, noCipher, noCipher, false,
    (beaconElements mixedBss).length, beaconElements mixedBss⟩

theorem beacon_heard_mixed :
    mixedEntry.BssType ≠ BSS_ADHOC ∧ BssCipherParse mixedEntry = some (heard mixedBss mixedEntry) :=
  ⟨by decide, beacon_heard mixedBss mixedEntry (by decide) rfl (List.prefix_refl _)⟩

end Ralink.Bss.Cipher
