import Ralink.Rsn.Validate

/-! An element should be accepted if it is one of a protocol that the BSS offers, is well formed up
to its AKM list, names the group cipher and has a pairwise and an AKM suite among those of the BSS.
-/
namespace Ralink.Rsn

def Counted.suites (l : Counted 4) : List (List UInt8) := Walk.entries 4 l.count l.entries

namespace Validate
open Walk

inductive Protocol
  | WPA
  | RSN
  deriving DecidableEq

namespace Protocol

def Eid : Protocol → UInt8
  | WPA => IE_WPA
  | RSN => IE_RSN

def ElementID : Protocol → ElementID
  | WPA => .WpaIe
  | RSN => .Wpa2Ie

def OUI : Protocol → List UInt8
  | WPA => OUI_WPA
  | RSN => [0x00, 0x0F, 0xAC]

/-- What the BSS writes in front of its group suite. -/
def version : Protocol → List UInt8
  | WPA => OUI_WPA_VERSION ++ [1, 0]
  | RSN => [1, 0]

/-- Where the group suite stands behind the header. -/
def group : Protocol → Nat
  | WPA => 6
  | RSN => 2

def ucount (p : Protocol) : Nat := p.group + 4

def TKIP_ON : Protocol → UInt8 → Bool
  | WPA => MIX_CIPHER_WPA_TKIP_ON
  | RSN => MIX_CIPHER_WPA2_TKIP_ON

def AES_ON : Protocol → UInt8 → Bool
  | WPA => MIX_CIPHER_WPA_AES_ON
  | RSN => MIX_CIPHER_WPA2_AES_ON

end Protocol

inductive Cipher
  | TKIP
  | AES
  deriving DecidableEq

namespace Cipher

def suite (p : Protocol) : Cipher → List UInt8
  | TKIP => p.OUI ++ [2]
  | AES => p.OUI ++ [4]

def WepStatus : Cipher → WepStatus
  | TKIP => .Encryption2Enabled
  | AES => .Encryption3Enabled

end Cipher

namespace MULTISSID_STRUCT
variable (pMbss : MULTISSID_STRUCT) (p : Protocol)

def offers : Bool :=
  match p, pMbss.AuthMode with
  | .WPA, .WPA | .WPA, .WPAPSK | .RSN, .WPA2 | .RSN, .WPA2PSK => true
  | _, .WPA1WPA2 | _, .WPA1PSKWPA2PSK => true
  | _, _ => false

/-- The mode of a station with an element of this protocol. -/
def authMode : Validate.AuthMode :=
  match p, pMbss.AuthMode with
  | .WPA, .WPA1WPA2 => .WPA
  | .WPA, .WPA1PSKWPA2PSK => .WPAPSK
  | .RSN, .WPA1WPA2 => .WPA2
  | .RSN, .WPA1PSKWPA2PSK => .WPA2PSK
  | _, mode => mode

def groupCipher : Cipher := if pMbss.WepStatus = .Encryption3Enabled then .AES else .TKIP

def ciphers : List Cipher :=
  match pMbss.WepStatus with
  | .Encryption2Enabled => [.TKIP]
  | .Encryption3Enabled => [.AES]
  | .Encryption4Enabled =>
    if p.TKIP_ON pMbss.WpaMixPairCipher then
      if p.AES_ON pMbss.WpaMixPairCipher then [.TKIP, .AES] else [.TKIP]
    else [.AES]

/-- The cipher of the BSS that a suite stands for. -/
def cipherOf (s : List UInt8) : Option Cipher := (pMbss.ciphers p).find? fun c => s = c.suite p

def akmSuite : List UInt8 :=
  p.OUI ++ match pMbss.AuthMode with
  | .WPA | .WPA2 | .WPA1WPA2 => [1]
  | .WPAPSK | .WPA2PSK | .WPA1PSKWPA2PSK => [2]

end MULTISSID_STRUCT

/-- The element of a station is one of the BSS, and the first of its pairwise suites that the BSS
has is that of the cipher. -/
structure Matches (pMbss : MULTISSID_STRUCT) (bytes : List UInt8) (p : Protocol) (c : Cipher) : Prop where
  offered : pMbss.offers p = true
  element : ∃ version l l' rest,
    Behind p.Eid bytes .header (version ++ (pMbss.groupCipher.suite p ++
      (Counted.encode l ++ (Counted.encode l' ++ rest)))) ∧
    version.length = p.group ∧ (p = .WPA → version.take 4 = OUI_WPA_VERSION) ∧
    l.suites.findSome? (pMbss.cipherOf p) = some c ∧ pMbss.akmSuite p ∈ l'.suites

/-- Only the bytes of the element and those of the BSS are read, exactly the elements that match
are accepted, and the entry gets their protocol and cipher. -/
def Meets (pMbss : MULTISSID_STRUCT) (pEntry : MAC_TABLE_ENTRY) (pRsnIe : List UInt8)
    (rsnie_len : UInt8) : Prop :=
  ∃ status pEntry', APValidateRSNIE pMbss pEntry pRsnIe rsnie_len = some (status, pEntry') ∧
    (status = .MLME_SUCCESS ↔ ∃ p c, Matches pMbss pRsnIe p c) ∧
    (status = .MLME_SUCCESS → ∃ p c, Matches pMbss pRsnIe p c ∧
      pEntry'.AuthMode = pMbss.authMode p ∧ pEntry'.WepStatus = c.WepStatus)

namespace MULTISSID_STRUCT

variable {pMbss : MULTISSID_STRUCT} {p : Protocol} {sta_akm : List UInt8}

theorem make_cipher (pMbss : MULTISSID_STRUCT) (p : Protocol) :
    RTMPMakeRsnIeCipher p.ElementID pMbss.WepStatus false pMbss.FlexibleCipher =
      p.version ++ (pMbss.groupCipher.suite p ++ counted ((pMbss.ciphers p).map (Cipher.suite p))) := by
  obtain ⟨auth, wep, mix, pre⟩ := pMbss
  cases wep with
  | Encryption2Enabled => cases p <;> rfl
  | Encryption3Enabled => cases p <;> rfl
  | Encryption4Enabled =>
    have hciphers : ciphers ⟨auth, .Encryption4Enabled, mix, pre⟩ p =
        if p.TKIP_ON mix then if p.AES_ON mix then [.TKIP, .AES] else [.TKIP] else [.AES] := rfl
    have hmake : RTMPMakeRsnIeCipher p.ElementID .Encryption4Enabled false mix =
        p.version ++ (Cipher.suite p .TKIP ++
          if p.TKIP_ON mix then
            if p.AES_ON mix then counted [Cipher.suite p .TKIP, Cipher.suite p .AES]
            else counted [Cipher.suite p .TKIP]
          else counted [Cipher.suite p .AES]) := by cases p <;> rfl
    rw [hciphers]
    refine hmake.trans ?_
    cases p.TKIP_ON mix <;> cases p.AES_ON mix <;> rfl

theorem make_akm (h : pMbss.offers p = true) :
    RTMPMakeRsnIeAKM p.ElementID pMbss.AuthMode = counted [pMbss.akmSuite p] := by
  obtain ⟨auth, wep, mix, pre⟩ := pMbss
  cases p <;> cases auth <;> first | rfl | cases h

theorem length_makeElement (pMbss : MULTISSID_STRUCT) (ElementID : ElementID) :
    (pMbss.makeElement ElementID).length ≤ MAX_LEN_OF_RSNIE := by
  have hcipher : (RTMPMakeRsnIeCipher ElementID pMbss.WepStatus false pMbss.FlexibleCipher).length ≤ 20 := by
    unfold RTMPMakeRsnIeCipher
    cases ElementID <;> cases pMbss.WepStatus <;> dsimp only <;> (try split_ifs) <;> decide
  have hakm : (RTMPMakeRsnIeAKM ElementID pMbss.AuthMode).length ≤ 6 := by
    cases ElementID <;> cases pMbss.AuthMode <;> decide
  have hcap : (RTMPMakeRsnIeCap ElementID pMbss.PreAuth).length ≤ 2 := by
    cases ElementID <;> simp [RTMPMakeRsnIeCap]
  unfold makeElement MAX_LEN_OF_RSNIE
  rw [List.length_append, List.length_append]
  omega

theorem length_zeroMemory {ie : List UInt8} (h : ie.length ≤ MAX_LEN_OF_RSNIE) :
    (zeroMemory ie).length = MAX_LEN_OF_RSNIE := by
  rw [zeroMemory, List.length_append, List.length_replicate, Nat.add_sub_cancel' h]

theorem length_RSN_IE (pMbss : MULTISSID_STRUCT) : pMbss.RSN_IE.length = 510 := by
  have hextra : (if bMixRsnIe pMbss.AuthMode then pMbss.makeElement .Wpa2Ie else []).length ≤
      MAX_LEN_OF_RSNIE := by
    split
    · exact length_makeElement pMbss _
    · exact Nat.zero_le _
  rw [RSN_IE, List.length_append, length_zeroMemory (length_makeElement pMbss _),
    length_zeroMemory hextra]
  rfl

theorem length_ownIe_le (pMbss : MULTISSID_STRUCT) (Eid : UInt8) : (pMbss.ownIe Eid).length ≤ 510 := by
  rw [ownIe, List.length_drop, length_RSN_IE]
  exact Nat.sub_le _ _

theorem ownIe_offered (h : pMbss.offers p = true) :
    ∃ tail, pMbss.ownIe p.Eid = pMbss.makeElement p.ElementID ++ tail := by
  have hfirst : ∀ ElementID rest, ∃ tail, (zeroMemory (pMbss.makeElement ElementID) ++ rest).drop 0 =
      pMbss.makeElement ElementID ++ tail := fun _ _ => ⟨_, List.append_assoc _ _ _⟩
  have hlen := length_zeroMemory (length_makeElement pMbss (PrimaryRsnie pMbss.AuthMode))
  unfold ownIe RSN_IE IE_Idx
  cases p with
  | WPA =>
    have hprimary : PrimaryRsnie pMbss.AuthMode = .WpaIe := by
      unfold offers at h
      cases hauth : pMbss.AuthMode <;> first | rfl | (rw [hauth] at h; cases h)
    rw [hprimary]
    exact hfirst _ _
  | RSN =>
    cases hmix : bMixRsnIe pMbss.AuthMode with
    | true =>
      rw [if_pos ⟨rfl, rfl⟩, if_pos rfl, Nat.mul_one, List.drop_left' hlen]
      exact ⟨_, rfl⟩
    | false =>
      have hprimary : PrimaryRsnie pMbss.AuthMode = .Wpa2Ie := by
        unfold offers at h
        cases hauth : pMbss.AuthMode <;>
          first
            | rfl
            | (rw [hauth] at hmix; exact absurd hmix (by decide))
            | (rw [hauth] at h; cases h)
      rw [if_neg nofun, hprimary]
      exact hfirst _ _

theorem ownIe_other (h : pMbss.offers p = false) : ∃ q tail, q ≠ p ∧
    pMbss.ownIe p.Eid = pMbss.makeElement q.ElementID ++ tail := by
  have hfirst : ∀ ElementID rest, ∃ tail, (zeroMemory (pMbss.makeElement ElementID) ++ rest).drop 0 =
      pMbss.makeElement ElementID ++ tail := fun _ _ => ⟨_, List.append_assoc _ _ _⟩
  unfold ownIe RSN_IE IE_Idx
  cases p with
  | WPA =>
    have hprimary : PrimaryRsnie pMbss.AuthMode = .Wpa2Ie := by
      unfold offers at h
      cases hauth : pMbss.AuthMode <;> first | rfl | (rw [hauth] at h; cases h)
    rw [hprimary]
    obtain ⟨tail, htail⟩ := hfirst .Wpa2Ie (zeroMemory _)
    exact ⟨.RSN, tail, nofun, htail⟩
  | RSN =>
    have hprimary : PrimaryRsnie pMbss.AuthMode = .WpaIe ∧ bMixRsnIe pMbss.AuthMode = false := by
      unfold offers at h
      cases hauth : pMbss.AuthMode <;> first | exact ⟨rfl, rfl⟩ | (rw [hauth] at h; cases h)
    rw [hprimary.1, hprimary.2, if_neg nofun]
    obtain ⟨tail, htail⟩ := hfirst .WpaIe (zeroMemory _)
    exact ⟨.WPA, tail, nofun, htail⟩

theorem ciphers_length (pMbss : MULTISSID_STRUCT) (p : Protocol) :
    (pMbss.ciphers p).length = 1 ∨ (pMbss.ciphers p).length = 2 := by
  unfold ciphers
  cases pMbss.WepStatus <;> dsimp only <;> (try split_ifs) <;> decide

theorem length_suite (p : Protocol) (c : Cipher) : (c.suite p).length = 4 := by cases p <;> cases c <;> rfl

theorem length_akmSuite (pMbss : MULTISSID_STRUCT) (p : Protocol) : (pMbss.akmSuite p).length = 4 := by
  unfold akmSuite
  cases p <;> cases pMbss.AuthMode <;> rfl

theorem loadCount_counted {suites : List (List UInt8)} (h : suites.length = 1 ∨ suites.length = 2)
    (q : List UInt8) : loadCount (counted suites ++ q) = some suites.length := by
  show some (le16 (UInt8.ofNat suites.length) 0).toNat = _
  rcases h with h | h <;> rw [h] <;> rfl

theorem drop_counted {suites : List (List UInt8)} (h : ∀ s ∈ suites, s.length = 4) (q : List UInt8) :
    ((counted suites ++ q).drop 2).drop (4 * suites.length) = q := by
  have hlen : suites.flatten.length = 4 * suites.length := by
    rw [List.length_flatten, List.map_congr_left h, List.map_const', List.sum_replicate, smul_eq_mul,
      Nat.mul_comm]
  show (suites.flatten ++ q).drop _ = q
  exact List.drop_left' hlen

theorem length_version (p : Protocol) : p.version.length = p.group := by cases p <;> rfl

theorem ownIe_group (h : pMbss.offers p = true) :
    ∃ rest, (pMbss.ownIe p.Eid).drop p.group = pMbss.groupCipher.suite p ++
      (counted ((pMbss.ciphers p).map (Cipher.suite p)) ++ (counted [pMbss.akmSuite p] ++ rest)) := by
  obtain ⟨tail, hown⟩ := ownIe_offered h
  refine ⟨RTMPMakeRsnIeCap p.ElementID pMbss.PreAuth ++ tail, ?_⟩
  rw [hown, makeElement, make_cipher, make_akm h]
  simp only [List.append_assoc]
  exact List.drop_left' (length_version p)

theorem ownIe_ucount (h : pMbss.offers p = true) :
    ∃ rest, (pMbss.ownIe p.Eid).drop p.ucount =
      counted ((pMbss.ciphers p).map (Cipher.suite p)) ++ (counted [pMbss.akmSuite p] ++ rest) := by
  obtain ⟨rest, hrest⟩ := ownIe_group h
  refine ⟨rest, ?_⟩
  rw [Protocol.ucount, ← List.drop_drop, hrest]
  exact List.drop_left' (length_suite p _)

theorem RTMPCheckAKM_offered (h : pMbss.offers p = true) :
    RTMPCheckAKM sta_akm (pMbss.ownIe p.Eid) (p.Eid = IE_RSN) =
      if 4 ≤ sta_akm.length then some (decide (sta_akm.take 4 = pMbss.akmSuite p)) else none := by
  obtain ⟨rest, hown⟩ := ownIe_ucount h
  have hoff : (if decide (p.Eid = IE_RSN) = true then 6 else 10) = p.ucount := by cases p <;> rfl
  have hlen : ((pMbss.ciphers p).map (Cipher.suite p)).length = 1 ∨
      ((pMbss.ciphers p).map (Cipher.suite p)).length = 2 := by
    rw [List.length_map]
    exact ciphers_length pMbss p
  have hsuites : ∀ s ∈ (pMbss.ciphers p).map (Cipher.suite p), s.length = 4 := by
    intro s hs
    obtain ⟨c, -, rfl⟩ := List.mem_map.mp hs
    exact length_suite p c
  have hequal : RTMPEqualMemory sta_akm ((counted [pMbss.akmSuite p] ++ rest).drop 2) 4 =
      if 4 ≤ sta_akm.length then some (decide (sta_akm.take 4 = pMbss.akmSuite p)) else none := by
    have hakm := length_akmSuite pMbss p
    show RTMPEqualMemory sta_akm ([pMbss.akmSuite p].flatten ++ rest) 4 = _
    rw [List.flatten_singleton, RTMPEqualMemory, List.length_append, List.take_left' hakm]
    exact if_congr (and_iff_left (by omega)) rfl rfl
  unfold RTMPCheckAKM
  rw [hoff, hown]
  dsimp only
  rw [loadCount_counted hlen]
  simp only [Option.bind_eq_bind, Option.bind_some]
  rw [drop_counted hsuites, loadCount_counted (.inl rfl)]
  simp only [Option.bind_some, List.length_singleton, walk, Option.bind_eq_bind, hequal]
  split
  · cases decide (sta_akm.take 4 = pMbss.akmSuite p) <;> rfl
  · rfl

theorem RTMPCheckAKM_other (h : pMbss.offers p = false) :
    RTMPCheckAKM sta_akm (pMbss.ownIe p.Eid) (p.Eid = IE_RSN) = none := by
  obtain ⟨q, tail, hne, hown⟩ := ownIe_other h
  have hoff : (if decide (p.Eid = IE_RSN) = true then 6 else 10) = p.ucount := by cases p <;> rfl
  obtain ⟨n, hn, hcount⟩ : ∃ n, 128 ≤ n ∧ loadCount ((pMbss.ownIe p.Eid).drop p.ucount) = some n := by
    rw [hown, makeElement, make_cipher]
    cases p with
    | WPA =>
      obtain rfl : q = .RSN := by cases q <;> first | rfl | exact absurd rfl hne
      obtain ⟨c, cs, hciphers⟩ : ∃ c cs, pMbss.ciphers .RSN = c :: cs := by
        cases hc : pMbss.ciphers .RSN with
        | nil => rcases hc ▸ ciphers_length pMbss .RSN with h | h <;> cases h
        | cons c cs => exact ⟨c, cs, rfl⟩
      rw [hciphers]
      cases pMbss.groupCipher <;> cases c <;> exact ⟨_, by decide, rfl⟩
    | RSN =>
      obtain rfl : q = .WPA := by cases q <;> first | rfl | exact absurd rfl hne
      cases pMbss.groupCipher <;> exact ⟨_, by decide, rfl⟩
  have hend : (((pMbss.ownIe p.Eid).drop p.ucount).drop 2).drop (4 * n) = [] := by
    have hlen := length_ownIe_le pMbss p.Eid
    apply List.drop_eq_nil_of_le
    rw [List.length_drop, List.length_drop]
    omega
  unfold RTMPCheckAKM
  rw [hoff]
  dsimp only
  rw [hcount]
  simp only [Option.bind_eq_bind, Option.bind_some, hend]
  rfl

/-- The pairwise suites that those of a station are compared with, and what they stand for. -/
def compared (pMbss : MULTISSID_STRUCT) (p : Protocol) : List (List UInt8 × Validate.WepStatus) :=
  let pRsnIe := (pMbss.ownIe p.Eid).drop (p.ucount + 2)
  if pMbss.WepStatus = .Encryption4Enabled then
    if p.TKIP_ON pMbss.WpaMixPairCipher then
      if p.AES_ON pMbss.WpaMixPairCipher then
        [(pRsnIe.take 4, .Encryption2Enabled), ((pRsnIe.drop 4).take 4, .Encryption3Enabled)]
      else [(pRsnIe.take 4, .Encryption2Enabled)]
    else [(pRsnIe.take 4, .Encryption3Enabled)]
  else [(pRsnIe.take 4, pMbss.WepStatus)]

def standsFor (pMbss : MULTISSID_STRUCT) (p : Protocol) (s : List UInt8) : Option Validate.WepStatus :=
  ((pMbss.compared p).find? fun own => s = own.1).map (·.2)

/-- The group suite is the one at its place in the element of the BSS. -/
def SameGroup (pMbss : MULTISSID_STRUCT) (p : Protocol) (Octet : List UInt8) : Prop :=
  (Octet.drop p.group).take 4 = ((pMbss.ownIe p.Eid).drop p.group).take 4

instance (Octet : List UInt8) : Decidable (pMbss.SameGroup p Octet) := inferInstanceAs (Decidable (_ = _))

theorem le_length_ownIe (pMbss : MULTISSID_STRUCT) (p : Protocol) : 255 ≤ (pMbss.ownIe p.Eid).length := by
  have hidx : pMbss.IE_Idx p.Eid ≤ 1 := by
    unfold IE_Idx
    split
    · exact Nat.le_refl _
    · exact Nat.zero_le _
  rw [ownIe, List.length_drop, length_RSN_IE, MAX_LEN_OF_RSNIE]
  omega

end MULTISSID_STRUCT

end Validate

end Ralink.Rsn
