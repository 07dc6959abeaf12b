import Ralink.Bss.Cipher
import Ralink.Bss.Table

/-! The elements with any numbers of suites, what they say, and the loop over their pairwise suites.
-/
namespace Ralink.Bss.Cipher
open Rsn (IE_WPA IE_RSN le16)
open Rsn.Validate (Protocol)
open Wpa (NDIS_802_11_WEP_STATUS)
open Sized (slice)

def suites (oui types : List UInt8) : List UInt8 := types.flatMap fun type => oui ++ [type]

def countedSuites (oui types : List UInt8) : List UInt8 :=
  UInt8.ofNat types.length :: UInt8.ofNat (types.length / 256) :: suites oui types

def elementBody (p : Protocol) (group : UInt8) (pairwise akms : List UInt8) (lo hi : UInt8) :
    List UInt8 :=
  p.version ++ (p.OUI ++ (group :: (countedSuites p.OUI pairwise ++
    (countedSuites p.OUI akms ++ [lo, hi]))))

def Known : Protocol → UInt8 → Prop
  | .WPA, type => type = 1 ∨ type = 2
  | .RSN, type => type = 0 ∨ type = 1 ∨ type = 2

instance : ∀ p type, Decidable (Known p type)
  | .WPA, type => inferInstanceAs (Decidable (type = 1 ∨ type = 2))
  | .RSN, type => inferInstanceAs (Decidable (type = 0 ∨ type = 1 ∨ type = 2))

/-- An element with its suites by their types and its capability field, the lower byte first. -/
structure Element where
  protocol : Protocol
  group : UInt8
  pairwise : List UInt8
  akms : List UInt8
  lo : UInt8
  hi : UInt8
  pairwise_ne : pairwise ≠ []
  akms_ne : akms ≠ []
  known : ∀ type ∈ akms, Known protocol type
  fits : (elementBody protocol group pairwise akms lo hi).length < 256

namespace Element
variable (e : Element)

def body : List UInt8 := elementBody e.protocol e.group e.pairwise e.akms e.lo e.hi

def bytes : List UInt8 := e.protocol.Eid :: UInt8.ofNat e.body.length :: e.body

end Element

/-- The entry keeps this element only; behind it lies what was there before. -/
structure Holds (e : Element) (pBss : BSS_ENTRY) : Prop where
  length : pBss.VarIELen = e.bytes.length
  array : pBss.VarIEs.length = MAX_VIE_LEN
  element : e.bytes <+: pBss.VarIEs

/-- An entry whose memory behind the element is a given byte and then all ones. -/
def Element.entry (e : Element) (BssType b2 : UInt8) : BSS_ENTRY where
  BssType := BssType
  Privacy := true
  WepStatus := .EncryptionDisabled
  AuthMode := .Open
  AuthModeAux := .Open
  WPA := noCipher
  WPA2 := noCipher
  bSES := false
  VarIELen := e.bytes.length
  VarIEs := e.bytes ++ b2 :: List.replicate (1021 - e.body.length) 0xff

theorem Element.holds_entry (e : Element) (BssType b2 : UInt8) : Holds e (e.entry BssType b2) where
  length := rfl
  array := by
    have hfits : e.body.length < 256 := e.fits
    simp only [entry, bytes, List.length_append, List.length_cons, List.length_replicate,
      MAX_VIE_LEN]
    omega
  element := List.prefix_append ..

def strength : NDIS_802_11_WEP_STATUS → Nat
  | .Encryption1Enabled => 1
  | .Encryption2Enabled => 2
  | .Encryption3Enabled => 3
  | _ => 0

/-- The cipher of one of the suites that none is stronger than. -/
def IsStrongest (types : List UInt8) (cipher : NDIS_802_11_WEP_STATUS) : Prop :=
  (∃ type ∈ types, pairCipher type = cipher) ∧
    ∀ type ∈ types, strength (pairCipher type) ≤ strength cipher

def akmMode : Protocol → UInt8 → NDIS_802_11_AUTHENTICATION_MODE
  | .WPA, type => if type = 1 then .WPA else .WPAPSK
  | .RSN, type => if type = 0 then .WPANone else if type = 1 then .WPA2 else .WPA2PSK

def BSS_ENTRY.suite (pBss : BSS_ENTRY) : Protocol → CIPHER_SUITE
  | .WPA => pBss.WPA
  | .RSN => pBss.WPA2

/-- What the element says is what the entry has afterwards. -/
def Faithful (e : Element) (pBss : BSS_ENTRY) : Prop :=
  ∃ after, BssCipherParse pBss = some after ∧
    (after.suite e.protocol).GroupCipher = groupCipher e.group .EncryptionDisabled ∧
    IsStrongest e.pairwise (after.suite e.protocol).PairCipher ∧
    (e.protocol = .RSN → after.WPA2.RsnCapability = le16 e.lo e.hi) ∧
    (∀ a, e.akms = [a] → after.AuthMode = akmMode e.protocol a) ∧
    ∀ a a', e.akms = [a, a'] → a ≠ a' →
      after.AuthMode = akmMode e.protocol a ∧ after.AuthModeAux = akmMode e.protocol a'

/-- One of the suites is TKIP or CCMP, or none is WEP. -/
def Ranked (types : List UInt8) : Prop :=
  (∃ type ∈ types, type = 2 ∨ type = 4) ∨ ∀ type ∈ types, ¬ (type = 1 ∨ type = 5)

/-- The elements that are decoded whatever lies behind them. -/
def Decodable (e : Element) (BssType : UInt8) : Prop :=
  Ranked e.pairwise ∧
    (∀ a a', e.akms = [a, a'] → a = a') ∧
    match e.protocol with
    | .RSN => e.akms.length = 1 ∨ ¬ (e.lo = 0 ∧ e.hi = 0x0f)
    | .WPA => e.akms.length = 1 → BssType ≠ BSS_ADHOC

section Pairwise

variable {oui types rest : List UInt8} {c : CIPHER_SUITE} {type : UInt8}

theorem length_suites (h : oui.length = 3) : (suites oui types).length = 4 * types.length := by
  induction types with
  | nil => rfl
  | cons type types ih =>
    rw [suites, List.flatMap_cons, List.length_append, List.length_append, h]
    show 3 + 1 + (suites oui types).length = _
    rw [ih, List.length_cons]
    omega

theorem suites_cons (oui : List UInt8) (type : UInt8) (types rest : List UInt8) :
    suites oui (type :: types) ++ rest = oui ++ type :: (suites oui types ++ rest) := by
  rw [suites, List.flatMap_cons, List.append_assoc, List.append_assoc]
  rfl

def paired (types : List UInt8) (c : CIPHER_SUITE) : CIPHER_SUITE :=
  types.foldl (fun c type => c.pair (pairCipher type)) c

theorem pairLoop_eq (h : oui.length = 3) :
    pairLoop types.length (suites oui types ++ rest) c = some (rest, paired types c) := by
  induction types generalizing c with
  | nil => rfl
  | cons type types ih =>
    have hdrop : (oui ++ type :: (suites oui types ++ rest)).drop 4 = suites oui types ++ rest := by
      rw [List.drop_append, h]
      simp [List.drop_of_length_le, h]
    have hget : (oui ++ type :: (suites oui types ++ rest))[3]? = some type := by
      rw [List.getElem?_append_right (by omega), h]
      rfl
    rw [suites_cons, List.length_cons, pairLoop, hget, Option.bind_eq_bind, Option.bind_some, hdrop, ih]
    rfl

theorem pair_GroupCipher (c : CIPHER_SUITE) (t : NDIS_802_11_WEP_STATUS) :
    (c.pair t).GroupCipher = c.GroupCipher := by
  unfold CIPHER_SUITE.pair
  split <;> rfl

theorem paired_GroupCipher (types : List UInt8) (c : CIPHER_SUITE) :
    (paired types c).GroupCipher = c.GroupCipher := by
  induction types generalizing c with
  | nil => rfl
  | cons type types ih => exact (ih _).trans (pair_GroupCipher c _)

theorem paired_PairCipher (types : List UInt8) (c : CIPHER_SUITE) :
    ((paired types c).PairCipher = c.PairCipher ∨
        ∃ type ∈ types, pairCipher type = (paired types c).PairCipher) ∧
      c.PairCipher.ctorIdx ≤ (paired types c).PairCipher.ctorIdx ∧
      ∀ type ∈ types, (pairCipher type).ctorIdx ≤ (paired types c).PairCipher.ctorIdx := by
  induction types generalizing c with
  | nil => exact ⟨.inl rfl, le_rfl, fun type h => absurd h List.not_mem_nil⟩
  | cons type types ih =>
    obtain ⟨hone, hle, hall⟩ := ih (c.pair (pairCipher type))
    have hpair : (c.pair (pairCipher type)).PairCipher =
        if (pairCipher type).ctorIdx > c.PairCipher.ctorIdx then pairCipher type
        else c.PairCipher := by
      unfold CIPHER_SUITE.pair
      split <;> rfl
    change (paired types (c.pair (pairCipher type))).PairCipher = _ ∨ _ at hone
    change _ ≤ (paired types (c.pair (pairCipher type))).PairCipher.ctorIdx at hle
    have hsame : paired (type :: types) c = paired types (c.pair (pairCipher type)) := rfl
    rw [hsame]
    rw [hpair] at hone hle
    refine ⟨?_, ?_, ?_⟩
    · rcases hone with heq | ⟨type', hmem, heq⟩
      · rw [heq]
        split
        · exact .inr ⟨type, List.mem_cons_self, rfl⟩
        · exact .inl rfl
      · exact .inr ⟨type', List.mem_cons_of_mem _ hmem, heq⟩
    · split at hle <;> omega
    · intro type' hmem
      rcases List.mem_cons.mp hmem with rfl | hmem
      · split at hle <;> omega
      · exact hall type' hmem

theorem pairCipher_cases (type : UInt8) :
    ((type = 1 ∨ type = 5) ∧ pairCipher type = .Encryption1Enabled) ∨
      (type = 2 ∧ pairCipher type = .Encryption2Enabled) ∨
      (type = 4 ∧ pairCipher type = .Encryption3Enabled) ∨
      (¬ (type = 1 ∨ type = 5) ∧ type ≠ 2 ∧ type ≠ 4 ∧ pairCipher type = .EncryptionDisabled) := by
  unfold pairCipher
  split
  · next h => exact .inl ⟨h, rfl⟩
  · next h =>
    split
    · next h2 => exact .inr (.inl ⟨h2, rfl⟩)
    · next h2 =>
      split
      · next h4 => exact .inr (.inr (.inl ⟨h4, rfl⟩))
      · next h4 => exact .inr (.inr (.inr ⟨h, h2, h4, rfl⟩))

theorem isStrongest_iff (hne : types ≠ []) (hc : c.PairCipher = .EncryptionDisabled) :
    IsStrongest types (paired types c).PairCipher ↔ Ranked types := by
  obtain ⟨hone, hle, hall⟩ := paired_PairCipher types c
  generalize (paired types c).PairCipher = r at *
  rw [hc] at hone hle
  have hr : r = .EncryptionDisabled ∨ r = .Encryption2Enabled ∨ r = .Encryption3Enabled := by
    rcases hone with rfl | ⟨type, -, rfl⟩
    · exact .inl rfl
    · obtain ⟨-, h⟩ | ⟨-, h⟩ | ⟨-, h⟩ | ⟨-, -, -, h⟩ := pairCipher_cases type
      · rw [h] at hle
        exact absurd hle (by decide)
      · exact .inr (.inl h)
      · exact .inr (.inr h)
      · exact .inl h
  constructor
  · rintro ⟨⟨type, hmem, heq⟩, hstrong⟩
    rcases hr with rfl | rfl | rfl
    · refine .inr fun type' hmem' hwep => ?_
      have hle' := hstrong type' hmem'
      obtain ⟨-, h⟩ | ⟨rfl, -⟩ | ⟨rfl, -⟩ | ⟨h, -⟩ := pairCipher_cases type'
      · rw [h] at hle'
        exact absurd hle' (by decide)
      · exact absurd hwep (by decide)
      · exact absurd hwep (by decide)
      · exact h hwep
    · refine .inl ⟨type, hmem, .inl ?_⟩
      obtain ⟨-, h⟩ | ⟨h2, -⟩ | ⟨-, h⟩ | ⟨-, -, -, h⟩ := pairCipher_cases type
      · cases heq.symm.trans h
      · exact h2
      · cases heq.symm.trans h
      · cases heq.symm.trans h
    · refine .inl ⟨type, hmem, .inr ?_⟩
      obtain ⟨-, h⟩ | ⟨-, h⟩ | ⟨h4, -⟩ | ⟨-, -, -, h⟩ := pairCipher_cases type
      · cases heq.symm.trans h
      · cases heq.symm.trans h
      · exact h4
      · cases heq.symm.trans h
  · intro hcond
    have hstrong : ∀ type ∈ types, r ≠ .EncryptionDisabled ∨ ¬ (type = 1 ∨ type = 5) →
        strength (pairCipher type) ≤ strength r := by
      intro type hmem hor
      have hidx := hall type hmem
      obtain ⟨hwep, h⟩ | ⟨-, h⟩ | ⟨-, h⟩ | ⟨-, -, -, h⟩ := pairCipher_cases type
      · have hne' := hor.resolve_right (not_not_intro hwep)
        rw [h]
        rcases hr with rfl | rfl | rfl
        · exact absurd rfl hne'
        · decide
        · decide
      · rw [h] at hidx ⊢
        rcases hr with rfl | rfl | rfl
        · exact absurd hidx (by decide)
        · decide
        · decide
      · rw [h] at hidx ⊢
        rcases hr with rfl | rfl | rfl
        · exact absurd hidx (by decide)
        · exact absurd hidx (by decide)
        · decide
      · rw [h]
        exact Nat.zero_le _
    by_cases hdisabled : r = .EncryptionDisabled
    · subst hdisabled
      have hnone : ∀ type ∈ types, ¬ (type = 1 ∨ type = 5) := by
        rcases hcond with ⟨type, hmem, htype⟩ | hnone
        · have hidx := hall type hmem
          rcases htype with rfl | rfl <;> exact absurd hidx (by decide)
        · exact hnone
      refine ⟨?_, fun type hmem => hstrong type hmem (.inr (hnone type hmem))⟩
      obtain ⟨type, hmem⟩ := List.exists_mem_of_ne_nil types hne
      refine ⟨type, hmem, ?_⟩
      have hidx := hall type hmem
      obtain ⟨hwep, -⟩ | ⟨-, h⟩ | ⟨-, h⟩ | ⟨-, -, -, h⟩ := pairCipher_cases type
      · exact absurd hwep (hnone type hmem)
      · rw [h] at hidx
        exact absurd hidx (by decide)
      · rw [h] at hidx
        exact absurd hidx (by decide)
      · exact h
    · exact ⟨hone.resolve_left hdisabled, fun type hmem => hstrong type hmem (.inl hdisabled)⟩

end Pairwise

end Ralink.Bss.Cipher
