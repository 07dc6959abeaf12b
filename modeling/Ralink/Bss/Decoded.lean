import Ralink.Bss.Element

/-! Which of the elements are decoded as what they say, whatever lies behind them in the memory of
the entry. -/
namespace Ralink.Bss.Cipher
open Rsn (IE_WPA IE_RSN le16)
open Rsn.Validate (Protocol)
open Wpa (NDIS_802_11_WEP_STATUS)
open Sized (slice)

section Memory

variable {e : Element} {pBss : BSS_ENTRY} {mem as : List UInt8} {a lo hi : UInt8}

theorem length_OUI (p : Protocol) : p.OUI.length = 3 := by cases p <;> rfl

def cleared (pBss : BSS_ENTRY) : BSS_ENTRY :=
  { pBss with
    WepStatus := if pBss.Privacy then .Encryption1Enabled else .EncryptionDisabled
    AuthMode := .Open
    AuthModeAux := .Open
    WPA := noCipher
    WPA2 := noCipher }

theorem toNat_counted {n : Nat} (h : n < 256) :
    (le16 (UInt8.ofNat n) (UInt8.ofNat (n / 256))).toNat = n := by
  rw [Nat.div_eq_of_lt h]
  simp [le16, Nat.mod_eq_of_lt h]

theorem Element.length_bytes (e : Element) : e.bytes.length = e.body.length + 2 := rfl

theorem bytes_append (e : Element) (mem : List UInt8) :
    e.bytes ++ mem = e.protocol.Eid :: UInt8.ofNat e.body.length :: (e.protocol.version ++
      (e.protocol.OUI ++ (e.group :: (countedSuites e.protocol.OUI e.pairwise ++
        (countedSuites e.protocol.OUI e.akms ++ e.lo :: e.hi :: mem))))) := by
  simp [Element.bytes, Element.body, elementBody]

theorem Element.length_le (e : Element) : e.pairwise.length < 64 ∧ e.akms.length < 64 := by
  have h := e.fits
  simp only [elementBody, countedSuites, List.length_append, List.length_cons,
    length_suites (length_OUI e.protocol)] at h
  omega

theorem pairLoop_counted {oui types : List UInt8} (h : oui.length = 3) (hcount : types.length < 64)
    (rest : List UInt8) (c : CIPHER_SUITE) :
    pairLoop (le16 (UInt8.ofNat types.length) (UInt8.ofNat (types.length / 256))).toNat
        (suites oui types ++ rest) c = some (rest, paired types c) := by
  rw [toNat_counted (by omega)]
  exact pairLoop_eq h

theorem parseWPA_element (he : e.protocol = .WPA) (ha : e.akms = a :: as) :
    parseWPA (e.bytes ++ mem) pBss =
      some (finishWPA (wpaMode a { pBss with
        WPA := paired e.pairwise
          { pBss.WPA with GroupCipher := groupCipher e.group pBss.WPA.GroupCipher } })) := by
  have hpair := pairLoop_counted (length_OUI .WPA) e.length_le.1
  rw [bytes_append, he, ha]
  change (pairLoop _ (suites Protocol.WPA.OUI e.pairwise ++ _) _).bind _ = _
  rw [hpair]
  rfl

theorem parseRSN_element (he : e.protocol = .RSN) (ha : e.akms = a :: as) :
    parseRSN (e.bytes ++ mem) pBss =
      (akmLoop as.length (e.lo :: e.hi :: mem)
        ({ pBss with
          WPA2 := paired e.pairwise
            { pBss.WPA2 with GroupCipher := groupCipher e.group pBss.WPA2.GroupCipher } }.setAuth
          (rsnMode a))).bind fun p => (loadWord p.1).map fun c => finishRSN c p.2 := by
  have hpair := pairLoop_counted (length_OUI .RSN) e.length_le.1
  have hcount := e.length_le.2
  rw [ha] at hcount
  have hdrop : (suites RSN_OUI (a :: as) ++ e.lo :: e.hi :: mem).drop ((as.length + 1) * 4) =
      e.lo :: e.hi :: mem := by
    have hlen : (suites RSN_OUI (a :: as)).length = 4 * (as.length + 1) := length_suites rfl
    exact List.drop_left' (by omega)
  rw [bytes_append, he, ha]
  change (pairLoop _ (suites Protocol.RSN.OUI e.pairwise ++ _) _).bind _ = _
  rw [hpair]
  change (akmLoop (le16 _ _).toNat (suites RSN_OUI (a :: as) ++ _) _).bind _ = _
  rw [toNat_counted (by omega)]
  change (akmLoop as.length ((suites RSN_OUI (a :: as) ++ _).drop _) _).bind _ = _
  rw [hdrop]
  congr 1
  funext p
  show (loadWord p.1).bind _ = _
  cases loadWord p.1 <;> rfl

theorem Holds.eq_append (h : Holds e pBss) :
    ∃ mem, mem.length = 1022 - e.body.length ∧ pBss.VarIEs = e.bytes ++ mem := by
  obtain ⟨mem, hmem⟩ := h.element
  refine ⟨mem, ?_, hmem.symm⟩
  have hlen := congrArg List.length hmem
  rw [List.length_append, e.length_bytes, h.array, MAX_VIE_LEN] at hlen
  omega

theorem Holds.bssCipherParse (h : Holds e pBss) (hmem : pBss.VarIEs = e.bytes ++ mem) :
    BssCipherParse pBss =
      match e.protocol with
      | .WPA => parseWPA (e.bytes ++ mem) (cleared pBss)
      | .RSN => parseRSN (e.bytes ++ mem) (cleared pBss) := by
  have hLen : (UInt8.ofNat e.body.length).toNat = e.body.length := by
    rw [UInt8.toNat_ofNat']
    exact Nat.mod_eq_of_lt e.fits
  have hparse : parseElement (e.bytes ++ mem) (cleared pBss) =
      (match e.protocol with
      | .WPA => parseWPA (e.bytes ++ mem) (cleared pBss)
      | .RSN => parseRSN (e.bytes ++ mem) (cleared pBss)).map (e.body.length, ·) := by
    rw [← hLen]
    cases hp : e.protocol with
    | WPA | RSN =>
      have hbytes := bytes_append e mem
      rw [hp] at hbytes
      rw [hbytes]
      rfl
  have hstart : (cleared pBss).VarIEs.drop ((cleared pBss).VarIELen - (e.body.length + 2)) =
      e.bytes ++ mem := by
    show pBss.VarIEs.drop (pBss.VarIELen - _) = _
    rw [h.length, e.length_bytes, Nat.sub_self, hmem]
    rfl
  show parseElements pBss.VarIELen (cleared pBss) = _
  rw [h.length, e.length_bytes, parseElements, if_pos (by omega), hstart, hparse]
  generalize (match e.protocol with
    | .WPA => parseWPA (e.bytes ++ mem) (cleared pBss)
    | .RSN => parseRSN (e.bytes ++ mem) (cleared pBss)) = r
  cases r with
  | none => rfl
  | some after =>
    show parseElements (e.body.length + 2 - (e.body.length + 2)) after = _
    rw [Nat.sub_self, parseElements, if_neg (Nat.lt_irrefl 0)]

def Element.ciphers (e : Element) : CIPHER_SUITE :=
  paired e.pairwise { noCipher with GroupCipher := groupCipher e.group .EncryptionDisabled }

theorem akmMode_ne_Open (p : Protocol) (type : UInt8) : akmMode p type ≠ .Open := by
  cases p with
  | WPA =>
    show (if _ then _ else _) ≠ _
    split <;> exact NDIS_802_11_AUTHENTICATION_MODE.noConfusion
  | RSN =>
    show (if _ then _ else if _ then _ else _) ≠ _
    split
    · exact NDIS_802_11_AUTHENTICATION_MODE.noConfusion
    · split <;> exact NDIS_802_11_AUTHENTICATION_MODE.noConfusion

theorem faithful_iff {after : BSS_ENTRY} (ha : e.akms = a :: as)
    (hafter : BssCipherParse pBss = some after)
    (hgroup : (after.suite e.protocol).GroupCipher = e.ciphers.GroupCipher)
    (hpair : (after.suite e.protocol).PairCipher = e.ciphers.PairCipher)
    (hcap : e.protocol = .RSN → after.WPA2.RsnCapability = le16 e.lo e.hi)
    (haux : ∀ type, after.AuthModeAux ≠ akmMode e.protocol type) :
    Faithful e pBss ↔ Ranked e.pairwise ∧ (∀ a a', e.akms = [a, a'] → a = a') ∧
      (e.akms.length = 1 → after.AuthMode = akmMode e.protocol a) := by
  have hstrongest := isStrongest_iff (c := { noCipher with
    GroupCipher := groupCipher e.group .EncryptionDisabled }) e.pairwise_ne rfl
  constructor
  · rintro ⟨after', heq, -, hstrong, -, hone, htwo⟩
    obtain rfl : after' = after := Option.some.inj (heq.symm.trans hafter)
    refine ⟨hstrongest.mp ?_, ?_, ?_⟩
    · rw [hpair] at hstrong
      exact hstrong
    · intro b b' hakms
      by_contra hne
      exact haux b' (htwo b b' hakms hne).2
    · intro hlen
      obtain ⟨b, hb⟩ := List.length_eq_one_iff.mp hlen
      obtain rfl : a = b := (List.cons.inj (ha.symm.trans hb)).1
      exact hone a hb
  · rintro ⟨hranked, hsame, hone⟩
    refine ⟨after, hafter, hgroup.trans (paired_GroupCipher _ _), ?_, hcap, ?_, ?_⟩
    · rw [hpair]
      exact hstrongest.mpr hranked
    · intro b hb
      obtain rfl : a = b := (List.cons.inj (ha.symm.trans hb)).1
      exact hone (congrArg List.length hb)
    · intro b b' hakms hne
      exact absurd (hsame b b' hakms) hne

end Memory

section WPA

variable {e : Element} {pBss : BSS_ENTRY} {as : List UInt8} {a type : UInt8}

theorem finishWPA_ciphers (pBss : BSS_ENTRY) :
    (finishWPA pBss).WPA.GroupCipher = pBss.WPA.GroupCipher ∧
      (finishWPA pBss).WPA.PairCipher = pBss.WPA.PairCipher := by
  simp only [finishWPA]
  split_ifs <;> exact ⟨rfl, rfl⟩

theorem finishWPA_modes (pBss : BSS_ENTRY) :
    ((finishWPA pBss).AuthMode, (finishWPA pBss).AuthModeAux) =
      if pBss.BssType = BSS_ADHOC then (.WPANone, .WPANone)
      else (pBss.AuthMode, pBss.AuthModeAux) := by
  simp only [finishWPA]
  split_ifs <;> rfl

theorem wpaMode_known (h : Known .WPA type) (hopen : pBss.AuthMode = .Open) :
    wpaMode type pBss = { pBss with AuthMode := akmMode .WPA type } := by
  rcases h with rfl | rfl
  · show pBss.setAuth .WPA = _
    exact if_pos hopen
  · show pBss.setAuth .WPAPSK = _
    exact if_pos hopen

theorem bssCipherParse_WPA (he : e.protocol = .WPA) (ha : e.akms = a :: as) (h : Holds e pBss) :
    BssCipherParse pBss =
      some (finishWPA { cleared pBss with WPA := e.ciphers, AuthMode := akmMode .WPA a }) := by
  obtain ⟨mem, -, hmem⟩ := h.eq_append
  have hknown : Known .WPA a := he ▸ e.known a (ha ▸ List.mem_cons_self)
  rw [h.bssCipherParse hmem, he]
  show parseWPA _ _ = _
  rw [parseWPA_element he ha, wpaMode_known hknown rfl]
  rfl

theorem faithful_WPA (he : e.protocol = .WPA) (h : Holds e pBss) :
    Faithful e pBss ↔ Ranked e.pairwise ∧ (∀ a a', e.akms = [a, a'] → a = a') ∧
      (e.akms.length = 1 → pBss.BssType ≠ BSS_ADHOC) := by
  obtain ⟨a, as, ha⟩ := List.exists_cons_of_ne_nil e.akms_ne
  have hciphers := finishWPA_ciphers
    { cleared pBss with WPA := e.ciphers, AuthMode := akmMode .WPA a }
  have hmodes := finishWPA_modes
    { cleared pBss with WPA := e.ciphers, AuthMode := akmMode .WPA a }
  have hafter := bssCipherParse_WPA he ha h
  generalize finishWPA _ = after at hciphers hmodes hafter
  change _ = if pBss.BssType = BSS_ADHOC then _ else
    (akmMode .WPA a, NDIS_802_11_AUTHENTICATION_MODE.Open) at hmodes
  have haux : ∀ type, after.AuthModeAux ≠ akmMode e.protocol type := by
    intro type
    rw [he]
    split at hmodes
    · rw [(Prod.mk.inj hmodes).2]
      show _ ≠ (if _ then _ else _)
      split <;> exact NDIS_802_11_AUTHENTICATION_MODE.noConfusion
    · rw [(Prod.mk.inj hmodes).2]
      exact (akmMode_ne_Open .WPA type).symm
  have hsuite : after.suite e.protocol = after.WPA := by rw [he]; rfl
  rw [faithful_iff ha hafter (hsuite ▸ hciphers.1) (hsuite ▸ hciphers.2)
    (fun hrsn => absurd (he.symm.trans hrsn) nofun) haux]
  refine and_congr_right fun _ => and_congr_right fun _ => forall_congr' fun _ => ?_
  rw [he]
  split at hmodes
  · next hadhoc =>
    rw [(Prod.mk.inj hmodes).1]
    refine iff_of_false ?_ (not_not_intro hadhoc)
    show _ ≠ (if _ then _ else _)
    split <;> exact NDIS_802_11_AUTHENTICATION_MODE.noConfusion
  · next hadhoc => exact iff_of_true (Prod.mk.inj hmodes).1 hadhoc

end WPA

section RSN

variable {e : Element} {pBss : BSS_ENTRY} {mem as : List UInt8} {a b0 b1 b2 type : UInt8}

theorem finishRSN_ciphers (RsnCapability : UInt16) (pBss : BSS_ENTRY) :
    (finishRSN RsnCapability pBss).WPA2.GroupCipher = pBss.WPA2.GroupCipher ∧
      (finishRSN RsnCapability pBss).WPA2.PairCipher = pBss.WPA2.PairCipher ∧
      (finishRSN RsnCapability pBss).WPA2.RsnCapability = RsnCapability := by
  simp only [finishRSN]
  split_ifs <;> exact ⟨rfl, rfl, rfl⟩

theorem finishRSN_modes (RsnCapability : UInt16) (pBss : BSS_ENTRY) :
    (finishRSN RsnCapability pBss).AuthMode = pBss.AuthMode ∧
      (finishRSN RsnCapability pBss).AuthModeAux = pBss.AuthModeAux := by
  simp only [finishRSN]
  split_ifs <;> exact ⟨rfl, rfl⟩

theorem rsnMode_known (h : Known .RSN type) : rsnMode type = akmMode .RSN type := by
  rcases h with rfl | rfl | rfl <;> rfl

theorem slice_three (b0 b1 b2 : UInt8) (rest : List UInt8) :
    slice (b0 :: b1 :: b2 :: rest) 3 = some [b0, b1, b2] := by
  rw [slice, if_pos (by simp only [List.length_cons]; omega)]
  rfl

theorem akmLoop_stop {k : Nat} (h : k = 0 ∨ [b0, b1, b2] ≠ RSN_OUI) :
    akmLoop k (b0 :: b1 :: b2 :: mem) pBss = some (b0 :: b1 :: b2 :: mem, pBss) := by
  cases k with
  | zero => rfl
  | succ k =>
    rw [akmLoop, slice_three, Option.bind_eq_bind, Option.bind_some,
      if_pos (h.resolve_left (Nat.succ_ne_zero k))]

theorem bssCipherParse_RSN (he : e.protocol = .RSN) (ha : e.akms = a :: as) (h : Holds e pBss)
    (hmem : pBss.VarIEs = e.bytes ++ b2 :: mem) (hstop : as.length = 0 ∨ [e.lo, e.hi, b2] ≠ RSN_OUI) :
    BssCipherParse pBss = some (finishRSN (le16 e.lo e.hi)
      { cleared pBss with WPA2 := e.ciphers, AuthMode := akmMode .RSN a }) := by
  have hknown : Known .RSN a := he ▸ e.known a (ha ▸ List.mem_cons_self)
  rw [h.bssCipherParse hmem, he]
  show parseRSN _ _ = _
  rw [parseRSN_element he ha, akmLoop_stop hstop, rsnMode_known hknown]
  rfl

theorem faithful_RSN (he : e.protocol = .RSN) (h : Holds e pBss)
    (hmem : pBss.VarIEs = e.bytes ++ b2 :: mem)
    (hstop : e.akms.length = 1 ∨ [e.lo, e.hi, b2] ≠ RSN_OUI) :
    Faithful e pBss ↔ Ranked e.pairwise ∧ ∀ a a', e.akms = [a, a'] → a = a' := by
  obtain ⟨a, as, ha⟩ := List.exists_cons_of_ne_nil e.akms_ne
  rw [ha, List.length_cons, Nat.add_eq_right] at hstop
  have hafter := bssCipherParse_RSN he ha h hmem hstop
  have hciphers := finishRSN_ciphers (le16 e.lo e.hi)
    { cleared pBss with WPA2 := e.ciphers, AuthMode := akmMode .RSN a }
  have hmodes := finishRSN_modes (le16 e.lo e.hi)
    { cleared pBss with WPA2 := e.ciphers, AuthMode := akmMode .RSN a }
  generalize finishRSN _ _ = after at hciphers hmodes hafter
  have haux : ∀ type, after.AuthModeAux ≠ akmMode e.protocol type := by
    intro type heq
    exact akmMode_ne_Open _ _ (heq.symm.trans hmodes.2)
  have hsuite : after.suite e.protocol = after.WPA2 := by rw [he]; rfl
  rw [faithful_iff ha hafter (hsuite ▸ hciphers.1) (hsuite ▸ hciphers.2.1)
    (fun _ => hciphers.2.2) haux]
  refine and_congr_right fun _ => and_iff_left fun _ => ?_
  rw [he]
  exact hmodes.1

theorem akmLoop_overrun (k n : Nat) (pBss : BSS_ENTRY) :
    ∃ pBss', akmLoop (k + 1)
      (0 :: 0x0f :: 0xac :: List.replicate (k * 4 + 1 + (n + 3)) 0xff) pBss =
        some (0xff :: 0xff :: 0xff :: List.replicate n 0xff, pBss') := by
  have hdrop : (0 :: 0x0f :: 0xac :: List.replicate (k * 4 + 1 + (n + 3)) (0xff : UInt8)).drop
      ((k + 1) * 4) = 0xff :: 0xff :: 0xff :: List.replicate n 0xff := by
    rw [show (k + 1) * 4 = k * 4 + 1 + 3 by omega, ← List.replicate_append_replicate]
    exact List.drop_left' (List.length_replicate ..)
  have htype : (0 :: 0x0f :: 0xac :: List.replicate (k * 4 + 1 + (n + 3)) (0xff : UInt8))[3]? =
      some 0xff := by
    rw [show k * 4 + 1 + (n + 3) = k * 4 + (n + 3) + 1 by omega]
    rfl
  refine ⟨pBss.setAuth .Max, ?_⟩
  have houi : ¬ [0, 0x0f, 0xac] ≠ RSN_OUI := not_not_intro rfl
  rw [akmLoop, slice_three, Option.bind_eq_bind, Option.bind_some, if_neg houi, htype]
  show akmLoop k (List.drop _ _) _ = _
  rw [hdrop, akmLoop_stop (.inr (by decide))]
  rfl

theorem not_faithful_overrun (he : e.protocol = .RSN) (hlen : e.akms.length ≠ 1) (hlo : e.lo = 0)
    (hhi : e.hi = 0x0f) (h : Holds e pBss)
    (hmem : pBss.VarIEs = e.bytes ++ 0xac :: List.replicate (1021 - e.body.length) 0xff) :
    ¬ Faithful e pBss := by
  rintro ⟨after, hafter, -, -, hcap, -⟩
  obtain ⟨a, as, ha⟩ := List.exists_cons_of_ne_nil e.akms_ne
  have hle := e.length_le.2
  have hfits : e.body.length < 256 := e.fits
  rw [ha, List.length_cons] at hlen hle
  obtain ⟨k, hk⟩ := Nat.exists_eq_succ_of_ne_zero (show as.length ≠ 0 by omega)
  obtain ⟨n, hn⟩ : ∃ n, 1021 - e.body.length = k * 4 + 1 + (n + 3) :=
    ⟨1021 - e.body.length - (k * 4 + 4), by omega⟩
  rw [h.bssCipherParse hmem, he] at hafter
  change parseRSN _ _ = _ at hafter
  rw [parseRSN_element he ha, hlo, hhi, hk, hn] at hafter
  obtain ⟨pBss', hloop⟩ := akmLoop_overrun k n ({ cleared pBss with
    WPA2 := paired e.pairwise { (cleared pBss).WPA2 with
      GroupCipher := groupCipher e.group (cleared pBss).WPA2.GroupCipher } }.setAuth (rsnMode a))
  rw [hloop] at hafter
  obtain rfl : finishRSN 0xffff pBss' = after := Option.some.inj hafter
  have heq := hcap he
  rw [(finishRSN_ciphers _ _).2.2, hlo, hhi] at heq
  exact absurd heq (by decide)

end RSN

/-- The AKM suites are stepped over as a whole by the first turn over them, so that a second mode is
never taken, and a capability that looks like the OUI is stepped over as well. -/
theorem decoded_iff (e : Element) (BssType : UInt8) :
    (∀ pBss, pBss.BssType = BssType → Holds e pBss → Faithful e pBss) ↔ Decodable e BssType := by
  cases he : e.protocol with
  | WPA =>
    rw [Decodable, he]
    constructor
    · intro hall
      exact (faithful_WPA he (e.holds_entry BssType 0)).mp (hall _ rfl (e.holds_entry _ _))
    · rintro hcond pBss rfl h
      exact (faithful_WPA he h).mpr hcond
  | RSN =>
    rw [Decodable, he]
    constructor
    · intro hall
      have hentry := e.holds_entry BssType 0xff
      have hstop : [e.lo, e.hi, 0xff] ≠ RSN_OUI := by
        intro heq
        exact absurd (List.cons.inj (List.cons.inj (List.cons.inj heq).2).2).1 (by decide)
      obtain ⟨hranked, hsame⟩ := (faithful_RSN he hentry rfl (.inr hstop)).mp (hall _ rfl hentry)
      refine ⟨hranked, hsame, ?_⟩
      by_contra hnot
      obtain ⟨hlen, hcap⟩ := not_or.mp hnot
      obtain ⟨hlo, hhi⟩ := not_not.mp hcap
      exact not_faithful_overrun he hlen hlo hhi (e.holds_entry BssType 0xac) rfl
        (hall _ rfl (e.holds_entry _ _))
    · rintro ⟨hranked, hsame, hcap⟩ pBss - h
      obtain ⟨mem, hlen, hmem⟩ := h.eq_append
      have hfits : e.body.length < 256 := e.fits
      cases mem with
      | nil =>
        rw [List.length_nil] at hlen
        omega
      | cons b2 mem =>
        refine (faithful_RSN he h hmem (hcap.imp_right fun hcap heq => ?_)).mpr ⟨hranked, hsame⟩
        obtain ⟨hlo, heq⟩ := List.cons.inj heq
        exact hcap ⟨hlo, (List.cons.inj heq).1⟩

/-- CCMP, with 802.1X and with the pre-shared key. -/
def mixedElement : Element where
  protocol := .RSN
  group := 4
  pairwise := [4]
  akms := [1, 2]
  lo := 0
  hi := 0
  pairwise_ne := List.cons_ne_nil _ _
  akms_ne := List.cons_ne_nil _ _
  known := List.forall_mem_cons.mpr ⟨by decide, List.forall_mem_singleton.mpr (by decide)⟩
  fits := by decide

theorem second_akm : ¬ Faithful mixedElement (mixedElement.entry 1 0) := by
  intro h
  have hsame := ((faithful_RSN rfl (mixedElement.holds_entry 1 0) rfl (.inr (by decide))).mp h).2
  exact absurd (hsame 1 2 rfl) (by decide)

end Ralink.Bss.Cipher
