import Ralink.Wpa.Agree
import Ralink.Wpa.Port

/-! The key that a PTK is derived from is kept once for a BSS. What the handshake of a station comes
to when the events of another one are left out. -/
namespace Ralink.Wpa
open Function
open Station (Wcid)

variable {C : Crypto} {cfg : Config} {pAd : RTMP_ADAPTER}

variable {a b : Wcid}

def bssOf (pAd : RTMP_ADAPTER) (i : Wcid) : MULTISSID_STRUCT := pAd.MBSSID (pAd.Content i).apidx

/-- The frame is a message 2 or 4 of the 4-way handshake. -/
def MLME_QUEUE_ELEM.OfPair (cfg : Config) (Elem : MLME_QUEUE_ELEM) : Prop :=
  let k := Elem.Msg.KeyDesc
  k.KeyInfo.KeyAck = false ∧
    (toAuthenticator cfg k.KeyInfo k.KeyDataLen = some .PeerPairMsg2Action ∨
      toAuthenticator cfg k.KeyInfo k.KeyDataLen = some .PeerPairMsg4Action)

def Event.station : Event → Option Wcid
  | .key _ i _ | .start4Way _ i | .retry _ i => some i
  | _ => none

/-- The event is one of the 4-way handshake of one of the stations. -/
def Event.Of4Way (cfg : Config) (a b : Wcid) (e : Event) : Prop :=
  (e.station = some a ∨ e.station = some b) ∧
    ∀ env i Elem, e = .key env i Elem → Elem.OfPair cfg

/-- Two stations of one BSS, with keys of their own in the cache or with a pre-shared key. The
zero address stands for no station. -/
structure Together (a b : Wcid) (pAd : RTMP_ADAPTER) : Prop where
  bss : (pAd.Content b).apidx = (pAd.Content a).apidx
  apart : (pAd.Content a).Addr ≠ (pAd.Content b).Addr
  known : ∀ i, i = a ∨ i = b → (pAd.Content i).Addr ≠ Vector.replicate 6 0
  modes : (pAd.Content a).AuthMode = .WPA2 ↔ (pAd.Content b).AuthMode = .WPA2
  cached : ∀ i, i = a ∨ i = b → Cached (bssOf pAd i) (pAd.Content i)

theorem putLocal_localOf (pAd : RTMP_ADAPTER) (i : Wcid) :
    putLocal cfg pAd i (localOf cfg pAd i) = pAd := by
  unfold putLocal localOf linkOf
  cases cfg.OpMode <;> simp

theorem perform_turn (C : Crypto) {e : Event} {i : Wcid} (he : e.station = some i)
    (hpair : ∀ env j Elem, e = .key env j Elem → Elem.OfPair cfg) (pAd : RTMP_ADAPTER) :
    perform C cfg e pAd = onEntry cfg (fun l => turn C cfg l e) i pAd := by
  cases e with
  | key env j Elem =>
    obtain rfl := Option.some.inj he
    have hdrop : onEntry cfg drop j pAd = (.dropped, [], pAd) := by
      simp only [onEntry, drop, putLocal_localOf, List.map_nil]
    obtain ⟨hack, htype⟩ := hpair env j Elem rfl
    have hcases : handlerOf cfg (pAd.Content j) Elem = none ∨
        handlerOf cfg (pAd.Content j) Elem = some .PeerPairMsg2Action ∨
        handlerOf cfg (pAd.Content j) Elem = some .PeerPairMsg4Action := by
      unfold handlerOf
      dsimp only
      split
      · rw [hack, if_neg Bool.false_ne_true]
        exact .inr htype
      · exact .inl rfl
    rcases hcases with hh | hh | hh
    · simp only [perform, WpaEAPOLKeyAction, hh]
      rw [← hdrop]
      simp only [onEntry, turn, localOf_entry, hh]
    · rw [key_onEntry C env hh rfl]
      simp only [onEntry, turn, localOf_entry, hh]
    · rw [key_onEntry C env hh rfl]
      simp only [onEntry, turn, localOf_entry, hh]
  | start4Way env j =>
    obtain rfl := Option.some.inj he
    rfl
  | retry env j =>
    obtain rfl := Option.some.inj he
    rfl
  | _ => cases he

theorem onEntry_bss {f : Local → Out} {i j : Wcid}
    (hsame : (f (localOf cfg pAd i)).next.entry.apidx = (pAd.Content i).apidx)
    (hbss : (pAd.Content j).apidx = (pAd.Content i).apidx) :
    bssOf (onEntry cfg f i pAd).2.2 j = (f (localOf cfg pAd i)).next.mbss := by
  have hidx : ((onEntry cfg f i pAd).2.2.Content j).apidx = (pAd.Content i).apidx := by
    rw [onEntry_content]
    rcases eq_or_ne j i with rfl | hji
    · rw [update_self]
      exact hsame
    · rw [update_of_ne hji]
      exact hbss
  unfold bssOf
  rw [hidx]
  exact update_self _ _ _

theorem Cached.of_view {m m' : MULTISSID_STRUCT} {e : MAC_TABLE_ENTRY} (hc : Cached m e)
    (h : view e.Addr m = view e.Addr m') : Cached m' e := by
  intro hkind hmode
  obtain ⟨idx, hidx, hvalid, hmac⟩ := hc hkind hmode
  have hslot := slot_of_view h hmac
  exact ⟨idx, hidx, hslot ▸ hvalid, hslot ▸ hmac⟩

theorem Together.symm (h : Together a b pAd) : Together b a pAd :=
  ⟨h.bss.symm, h.apart.symm, fun i hi => h.known i hi.symm, h.modes.symm,
    fun i hi => h.cached i hi.symm⟩

theorem Together.step (h : Together a b pAd) (hab : a ≠ b) (f : Local → Out)
    (hleaves : ∀ x, Leaves x (localOf cfg pAd a) (f (localOf cfg pAd a)).next) :
    Together a b (onEntry cfg f a pAd).2.2 ∧
      (onEntry cfg f a pAd).2.2.Content b = pAd.Content b ∧
      view (pAd.Content b).Addr (bssOf (onEntry cfg f a pAd).2.2 b) =
        view (pAd.Content b).Addr (bssOf pAd b) := by
  have hx := hleaves (pAd.Content b).Addr
  have hself : (onEntry cfg f a pAd).2.2.Content a = (f (localOf cfg pAd a)).next.entry :=
    onEntry_self f
  have hother : (onEntry cfg f a pAd).2.2.Content b = pAd.Content b := by
    rw [onEntry_content, update_of_ne hab.symm]
  have hbssA := onEntry_bss (j := a) hx.same.apidx rfl
  have hbssB := onEntry_bss hx.same.apidx h.bss
  have hold : bssOf pAd b = (localOf cfg pAd a).mbss := by
    unfold bssOf
    rw [h.bss]
    rfl
  have hcached := h.cached a (.inl rfl)
  have hview : view (pAd.Content b).Addr (bssOf (onEntry cfg f a pAd).2.2 b) =
      view (pAd.Content b).Addr (bssOf pAd b) := by
    rw [hbssB, hold]
    exact hx.view hcached h.apart.symm (h.known b (.inr rfl))
  refine ⟨?_, hother, hview⟩
  constructor
  · rw [hself, hother]
    exact h.bss.trans hx.same.apidx.symm
  · rw [hself, hother]
    exact fun heq => h.apart (hx.same.Addr.symm.trans heq)
  · rintro i (rfl | rfl)
    · rw [hself, hx.same.Addr]
      exact h.known i (.inl rfl)
    · rw [hother]
      exact h.known i (.inr rfl)
  · rw [hself, hother, hx.same.AuthMode]
    exact h.modes
  · rintro i (rfl | rfl)
    · rw [hself, hbssA]
      exact hx.cached hcached
    · rw [hother]
      exact (h.cached i (.inr rfl)).of_view hview.symm

/-- Beside the adapter stands the key that the BSS had when the station was last sent a
message 1. -/
structure Watched where
  pAd : RTMP_ADAPTER
  PMK : PMK

def askedOf (a : Wcid) (acts : Acts) : Bool := acts.any fun x => x.1 = .entry a ∧ asks x.2

def watch (C : Crypto) (cfg : Config) (a : Wcid) (s : Watched) (e : Event) : Watched :=
  let r := perform C cfg e s.pAd
  ⟨r.2.2, if askedOf a r.2.1 then (bssOf r.2.2 a).PMK else s.PMK⟩

/-- When the station uses the key of the BSS, it is the key that it was asked with. -/
def KeyKept (C : Crypto) (cfg : Config) (a : Wcid) (s : Watched) : Event → Prop
  | .key _ i Elem =>
    i = a → (s.pAd.Content a).AuthMode = .WPA2 →
      usesPmk C cfg (s.pAd.Content a) Elem = true → (bssOf s.pAd a).PMK = s.PMK
  | _ => True

instance (C : Crypto) (cfg : Config) (a : Wcid) (s : Watched) :
    ∀ e, Decidable (KeyKept C cfg a s e)
  | .key _ _ _ => inferInstanceAs (Decidable (_ → _ → _ → _))
  | .eapolStart _ _ _ | .start4Way _ _ | .start2Way _ _ | .retry _ _ | .rekey _ _ | .leave _
  | .join _ _ => .isTrue trivial

structure Lockstep (a b : Wcid) (s : Watched) (t : RTMP_ADAPTER) : Prop where
  together : Together a b s.pAd
  entry : t.Content a = s.pAd.Content a
  view : view (s.pAd.Content a).Addr (bssOf s.pAd a) = view (s.pAd.Content a).Addr (bssOf t a)
  own : (bssOf t a).PMK = s.PMK
  psk : (s.pAd.Content a).AuthMode ≠ .WPA2 → (bssOf s.pAd a).PMK = s.PMK

variable {s : Watched} {t : RTMP_ADAPTER}

theorem askedOf_self (f : Local → Out) :
    askedOf a (onEntry cfg f a pAd).2.1 = (f (localOf cfg pAd a)).acts.any asks := by
  simp [askedOf, onEntry_acts, List.any_map, Function.comp_def]

theorem askedOf_other (hab : a ≠ b) (f : Local → Out) :
    askedOf a (onEntry cfg f b pAd).2.1 = false := by
  simp [askedOf, onEntry_acts, hab.symm]

theorem Lockstep.hidden (hAP : cfg.OpMode = .AP) (hab : a ≠ b) (h : Lockstep a b s t) {e : Event}
    (he : e.station = some b) (hpair : ∀ env j Elem, e = .key env j Elem → Elem.OfPair cfg) :
    Lockstep a b (watch C cfg a s e) t := by
  have hturn := perform_turn C he hpair s.pAd
  obtain ⟨htogether, hentry, hview⟩ := h.together.symm.step hab.symm (fun l => turn C cfg l e)
    fun x => turn_leaves (x := x) C hAP e (localOf cfg s.pAd b)
  have hbss : bssOf (onEntry cfg (fun l => turn C cfg l e) b s.pAd).2.2 a =
      (turn C cfg (localOf cfg s.pAd b) e).next.mbss :=
    onEntry_bss (turn_leaves (x := default) C hAP e _).same.apidx h.together.bss.symm
  have hwatch : watch C cfg a s e =
      ⟨(onEntry cfg (fun l => turn C cfg l e) b s.pAd).2.2, s.PMK⟩ := by
    unfold watch
    simp only [hturn, askedOf_other hab, Bool.false_eq_true, if_false]
  rw [hwatch]
  constructor
  · exact htogether.symm
  · exact h.entry.trans hentry.symm
  · rw [hentry, hview]
    exact h.view
  · exact h.own
  · rw [hentry]
    intro hmode
    have hmodeB : (localOf cfg s.pAd b).entry.AuthMode ≠ .WPA2 :=
      mt h.together.modes.mpr hmode
    have hkept := (turn_leaves (x := default) C hAP e (localOf cfg s.pAd b)).PMK hmodeB
    rw [hbss, hkept]
    have hold : (localOf cfg s.pAd b).mbss = bssOf s.pAd a := by
      unfold bssOf
      rw [← h.together.bss]
      rfl
    rw [hold]
    exact h.psk hmode

theorem Lockstep.seen (hAP : cfg.OpMode = .AP) (hab : a ≠ b) (h : Lockstep a b s t) {e : Event}
    (he : e.station = some a) (hpair : ∀ env j Elem, e = .key env j Elem → Elem.OfPair cfg)
    (hkept : KeyKept C cfg a s e) :
    (perform C cfg e s.pAd).1 = (perform C cfg e t).1 ∧
      Lockstep a b (watch C cfg a s e) (step C cfg t e) := by
  have hturn := perform_turn C he hpair
  have hlocal : (localOf cfg s.pAd a).mbss = bssOf s.pAd a := rfl
  have halike : Alike (localOf cfg s.pAd a) (localOf cfg t a) := ⟨h.entry, h.view⟩
  have hagree : Agree (turn C cfg (localOf cfg s.pAd a) e) (turn C cfg (localOf cfg t a) e) := by
    apply turn_agree hAP halike (h.together.cached a (.inl rfl))
    · exact fun hmode => (h.psk hmode).trans h.own.symm
    · rintro env i Elem rfl hmode huses
      obtain rfl : i = a := Option.some.inj he
      exact (hkept rfl hmode huses).trans h.own.symm
  have hleaves := fun x => turn_leaves (x := x) C hAP e (localOf cfg s.pAd a)
  obtain ⟨htogether, -, -⟩ := h.together.step hab (fun l => turn C cfg l e) hleaves
  have hbss : bssOf (onEntry cfg (fun l => turn C cfg l e) a s.pAd).2.2 a =
      (turn C cfg (localOf cfg s.pAd a) e).next.mbss :=
    onEntry_bss (hleaves default).same.apidx rfl
  have hbss' : bssOf (onEntry cfg (fun l => turn C cfg l e) a t).2.2 a =
      (turn C cfg (localOf cfg t a) e).next.mbss :=
    onEntry_bss (turn_leaves (x := default) C hAP e (localOf cfg t a)).same.apidx rfl
  have hself : (onEntry cfg (fun l => turn C cfg l e) a s.pAd).2.2.Content a =
      (turn C cfg (localOf cfg s.pAd a) e).next.entry := onEntry_self _
  have hself' : (onEntry cfg (fun l => turn C cfg l e) a t).2.2.Content a =
      (turn C cfg (localOf cfg t a) e).next.entry := onEntry_self _
  constructor
  · rw [hturn s.pAd, hturn t]
    exact hagree.verdict
  · unfold watch step
    simp only [hturn, askedOf_self]
    constructor
    · exact htogether
    · simp only [hself, hself']
      exact hagree.next.entry
    · simp only [hself, hbss, hbss']
      exact hagree.next.view
    · simp only [hbss, hbss']
      split
      · rename_i hasked
        exact (hagree.PMK hasked).symm
      · rename_i hasked
        rw [turn_PMK hAP (hagree.asks ▸ by simpa using hasked)]
        exact h.own
    · simp only [hself, hbss]
      intro hmode
      split
      · rfl
      · rw [(hleaves default).same.AuthMode] at hmode
        rw [(hleaves default).PMK hmode]
        exact h.psk hmode

def ofStation (a : Wcid) (e : Event) : Bool := e.station = some a

def verdicts (C : Crypto) (cfg : Config) (a : Wcid) (pAd : RTMP_ADAPTER) (es : List Event) :
    List Verdict :=
  Run.outputs (step C cfg) (ofStation a) (fun pAd e => (perform C cfg e pAd).1) pAd es

def SameEnd (a : Wcid) (pAd pAd' : RTMP_ADAPTER) : Prop :=
  (pAd.Content a).PTK = (pAd'.Content a).PTK ∧
    cachedPmk (pAd.Content a).Addr (bssOf pAd a) = cachedPmk (pAd'.Content a).Addr (bssOf pAd' a)

/-- As long as a station uses the key of the BSS only while it is the one that it was asked with,
the events of another station change neither what is made of its own events nor the PTK and the
cached key that it ends up with. -/
theorem handshakes_apart (C : Crypto) (hAP : cfg.OpMode = .AP) (hab : a ≠ b)
    (h : Together a b pAd) {es : List Event} (hes : ∀ e ∈ es, e.Of4Way cfg a b)
    (hkept : Run.AllSteps (watch C cfg a) (KeyKept C cfg a) ⟨pAd, (bssOf pAd a).PMK⟩ es) :
    verdicts C cfg a pAd es = verdicts C cfg a pAd (es.filter (ofStation a)) ∧
      SameEnd a (Run.exec (step C cfg) pAd es)
        (Run.exec (step C cfg) pAd (es.filter (ofStation a))) := by
  have hstart : Lockstep a b ⟨pAd, (bssOf pAd a).PMK⟩ pAd := ⟨h, rfl, rfl, rfl, fun _ => rfl⟩
  have hall : Run.AllSteps (watch C cfg a) (fun s e => KeyKept C cfg a s e ∧ e.Of4Way cfg a b)
      ⟨pAd, (bssOf pAd a).PMK⟩ es := hkept.and (.of_forall fun e he _ => hes e he)
  have hhidden : ∀ (s : Watched) t e, Lockstep a b s t → (KeyKept C cfg a s e ∧ e.Of4Way cfg a b) →
      ofStation a e = false → Lockstep a b (watch C cfg a s e) t := by
    intro s t e hr hp hseen
    rcases hp.2.1 with he | he
    · simp [ofStation, he] at hseen
    · exact hr.hidden hAP hab he hp.2.2
  have hseen : ∀ (s : Watched) t e, Lockstep a b s t → (KeyKept C cfg a s e ∧ e.Of4Way cfg a b) →
      ofStation a e = true → (perform C cfg e s.pAd).1 = (perform C cfg e t).1 ∧
        Lockstep a b (watch C cfg a s e) (step C cfg t e) :=
    fun s t e hr hp hseen => hr.seen hAP hab (of_decide_eq_true hseen) hp.2.2 hp.1
  obtain ⟨houts, hend⟩ := Run.exec_purged hhidden hseen hstart hall
  have hmap : ∀ (s : Watched) (e : Event), (watch C cfg a s e).pAd = step C cfg s.pAd e :=
    fun _ _ => rfl
  have hout : ∀ (s : Watched) (e : Event),
      (perform C cfg e s.pAd).1 = (fun pAd e => (perform C cfg e pAd).1) s.pAd e :=
    fun _ _ => rfl
  have hpAd := Run.exec_map hmap ⟨pAd, (bssOf pAd a).PMK⟩ es
  constructor
  · exact (Run.outputs_map hmap hout _ es).symm.trans houts
  · rw [← hpAd]
    constructor
    · rw [hend.entry]
    · rw [hend.entry]
      exact cachedPmk_of_view hend.view

/-- An access point with two stations whose keys are in the cache. -/
def enterpriseAp : RTMP_ADAPTER :=
  { (default : RTMP_ADAPTER) with
    MBSSID := fun _ =>
      { (default : MULTISSID_STRUCT) with
        PMKIDCache := fun idx =>
          { (default : Pmkid.AP_BSSID_INFO) with
            MAC := Vector.replicate 6 (BitVec.ofNat 8 (idx.val + 1))
            PMK := Vector.replicate 32 (BitVec.ofNat 8 (idx.val + 1))
            Valid := true } }
    Content := fun i =>
      { (default : MAC_TABLE_ENTRY) with
        EntryType := .CLIENT
        Addr := Vector.replicate 6 (BitVec.ofNat 8 (i.val + 1))
        AuthMode := .WPA2
        WepStatus := .Encryption3Enabled
        Sst := .SST_ASSOC
        WpaState := .AS_INITPMK
        PMKID_CacheIdx := if i = 1 then some 1 else some 0 } }

theorem enterpriseAp_together : Together 0 1 enterpriseAp := by
  constructor
  · rfl
  · decide
  · rintro i (rfl | rfl) <;> decide
  · exact Iff.rfl
  · rintro i (rfl | rfl) _ _
    · exact ⟨0, rfl, rfl, rfl⟩
    · exact ⟨1, rfl, rfl, rfl⟩

def keyHash : Crypto := { (default : Crypto) with RT_HMAC_SHA1 := fun key _ => firstBytes 20 key }

/-- A message of a station whose key consists of ones. -/
def onesMsg (counter : BitVec 64) (KeyDataLen : BitVec 16) : MLME_QUEUE_ELEM :=
  { pairMsg counter KeyDataLen with Msg.KeyDesc.KeyMic := Vector.replicate 16 1 }

/-- Another station, which was sent a message 1 before, answers between message 2 and message 4. -/
theorem handshakes_apart_run :
    verdicts keyHash apConfig 0 enterpriseAp
        [.start4Way ready 1, .start4Way ready 0, .key ready 0 (onesMsg 1 1),
          .key ready 1 (onesMsg 1 1), .key ready 0 (onesMsg 2 0)] =
      verdicts keyHash apConfig 0 enterpriseAp
        [.start4Way ready 0, .key ready 0 (onesMsg 1 1), .key ready 0 (onesMsg 2 0)] :=
  (handshakes_apart keyHash rfl (by decide) enterpriseAp_together
    (by
      have hpair2 : (onesMsg 1 1).OfPair apConfig := ⟨rfl, .inl rfl⟩
      have hpair4 : (onesMsg 2 0).OfPair apConfig := ⟨rfl, .inr rfl⟩
      simpa [Event.Of4Way, Event.station] using ⟨hpair2, hpair4⟩)
    (by decide +kernel)).1

/-- Between message 1 and message 2 of a station another one is sent a message 1: the message 2 is
checked with the key of the other station. -/
theorem handshakes_interfere :
    ¬ ∀ (C : Crypto) (cfg : Config) (pAd : RTMP_ADAPTER) (a b : Wcid) (es : List Event),
      cfg.OpMode = .AP → a ≠ b → Together a b pAd → (∀ e ∈ es, e.Of4Way cfg a b) →
        verdicts C cfg a pAd es = verdicts C cfg a pAd (es.filter (ofStation a)) ∧
          SameEnd a (Run.exec (step C cfg) pAd es)
            (Run.exec (step C cfg) pAd (es.filter (ofStation a))) := by
  intro h
  have hpair : (onesMsg 1 1).OfPair apConfig := ⟨rfl, .inl rfl⟩
  obtain ⟨hverdicts, -⟩ := h keyHash apConfig enterpriseAp 0 1
    [.start4Way ready 0, .start4Way ready 1, .key ready 0 (onesMsg 1 1)] rfl (by decide)
    enterpriseAp_together (by simpa [Event.Of4Way, Event.station] using hpair)
  exact absurd hverdicts (by decide +kernel)

end Ralink.Wpa
