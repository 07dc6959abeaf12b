import Ralink.Wpa.View

/-! What an event makes of an entry is the same in two runs in which its station sees the same of
its BSS, as long as the key of the BSS is not used. -/
namespace Ralink.Wpa
open Function
open Station (Wcid)

variable {C : Crypto} {cfg : Config} {env : Env} {i : Wcid} {Elem : MLME_QUEUE_ELEM}
  {l l' : Local}

structure Alike (l l' : Local) : Prop where
  entry : l'.entry = l.entry
  view : view l.entry.Addr l.mbss = view l.entry.Addr l'.mbss

def asks : Act → Bool
  | .pairMsg1 _ _ _ => true
  | _ => false

structure Agree (o o' : Out) : Prop where
  verdict : o.verdict = o'.verdict
  next : Alike o.next o'.next
  asks : o.acts.any Wpa.asks = o'.acts.any Wpa.asks
  PMK : o.acts.any Wpa.asks = true → o.next.mbss.PMK = o'.next.mbss.PMK

section Pairs

variable {m m' : MULTISSID_STRUCT} {k k' : APCLI_STRUCT} {e e' : MAC_TABLE_ENTRY}
  (h : view e.Addr m = view e.Addr m')

include h

theorem alike_entry (haddr : e'.Addr = e.Addr) : Alike ⟨m, k, e'⟩ ⟨m', k', e'⟩ :=
  ⟨rfl, haddr ▸ h⟩

theorem drop_agree (haddr : e'.Addr = e.Addr) : Agree (drop ⟨m, k, e'⟩) (drop ⟨m', k', e'⟩) :=
  ⟨rfl, alike_entry h haddr, rfl, Bool.false_ne_true.elim⟩

theorem isEnrollee_of_view (k k' : APCLI_STRUCT) (haddr : e'.Addr = e.Addr) :
    isEnrollee ⟨m', k', e'⟩ = isEnrollee ⟨m, k, e'⟩ := by
  simp only [isEnrollee, haddr]
  by_cases hmine : m.WscControl.EntryAddr = e.Addr
  · rw [registrar_of_view h hmine]
  · have hmine' := mt (forMe_of_view h).mpr hmine
    simp [Ne.symm hmine, Ne.symm hmine']

theorem sendMsg1_agree (hc : Cached m e) (hpsk : e.AuthMode ≠ .WPA2 → m.PMK = m'.PMK)
    (hkind : e.EntryType = .CLIENT) (hsame : Same e e') :
    Agree (sendMsg1 ⟨m, k, e'⟩) (sendMsg1 ⟨m', k', e'⟩) := by
  by_cases hmode : e.AuthMode = .WPA2
  · obtain ⟨idx, hidx, -, hmac⟩ := hc hkind hmode
    have hslot := slot_of_view h hmac
    simp only [sendMsg1, takePmk, hsame.AuthMode, hmode, hsame.PMKID_CacheIdx, hidx]
    refine ⟨rfl, alike_entry ?_ hsame.Addr, rfl, fun _ => ?_⟩
    · exact h
    · simp only [hslot]
  · have htake : ∀ n q, takePmk ⟨n, q, e'⟩ = (⟨n, q, e'⟩, none) := by
      intro n q
      unfold takePmk
      split
      · rename_i heq _
        exact (hmode (hsame.AuthMode.symm.trans heq)).elim
      · rfl
    simp only [sendMsg1, htake]
    exact ⟨rfl, alike_entry h hsame.Addr, rfl, fun _ => hpsk hmode⟩

theorem start4Way_agree (hc : Cached m e) (hpsk : e.AuthMode ≠ .WPA2 → m.PMK = m'.PMK)
    (hsame : Same e e') :
    Agree (WPAStart4WayHS cfg env i ⟨m, k, e'⟩) (WPAStart4WayHS cfg env i ⟨m', k', e'⟩) := by
  unfold WPAStart4WayHS
  simp only [isEnrollee_of_view h k k' hsame.Addr]
  split_ifs with hno hen hmem
  · exact drop_agree h hsame.Addr
  · exact ⟨rfl, alike_entry h hsame.Addr, rfl, Bool.false_ne_true.elim⟩
  · exact drop_agree h hsame.Addr
  · have hcan : canStart cfg e' = true := by simpa using (not_or.mp hno).2
    simp only [canStart, isClient, decide_eq_true_eq] at hcan
    exact sendMsg1_agree h hc hpsk (hsame.client hcan.2.1)
      ⟨hsame.Addr, hsame.apidx, hsame.AuthMode, hsame.PMKID_CacheIdx, hsame.client⟩

theorem start2Way_agree (hAP : cfg.OpMode = .AP) (haddr : e'.Addr = e.Addr) :
    Agree (WPAStart2WayGroupHS cfg env i ⟨m, k, e'⟩)
      (WPAStart2WayGroupHS cfg env i ⟨m', k', e'⟩) := by
  unfold WPAStart2WayGroupHS
  simp only [hAP]
  split
  · exact drop_agree h haddr
  · exact ⟨rfl, alike_entry h haddr, rfl, Bool.false_ne_true.elim⟩

theorem view_update {idx : Pmkid.Idx} {slot slot' : Pmkid.AP_BSSID_INFO} (hslot : slot = slot') :
    view e.Addr { m with PMKIDCache := update m.PMKIDCache idx slot } =
      view e.Addr { m' with PMKIDCache := update m'.PMKIDCache idx slot' } := by
  have hslots : (view e.Addr { m with PMKIDCache := update m.PMKIDCache idx slot }).slots =
      (view e.Addr { m' with PMKIDCache := update m'.PMKIDCache idx slot' }).slots := by
    funext j
    rcases eq_or_ne j idx with rfl | hne
    · simp only [view, update_self, hslot]
    · have hold := congrFun (congrArg View.slots h) j
      simpa only [view, update_of_ne hne] using hold
  simp only [view] at h hslots ⊢
  simp only [View.mk.injEq] at h ⊢
  exact ⟨h.1, h.2.1, h.2.2.1, hslots⟩

theorem view_setRegistrar {w w' : WSC_CTRL} (hw : w = w') :
    view e.Addr { m with WscControl := w } = view e.Addr { m' with WscControl := w' } := by
  simp only [view, View.mk.injEq] at h ⊢
  exact ⟨h.1, by rw [hw], by rw [hw], h.2.2.2⟩

section

variable (haddr : e'.Addr = e.Addr)
include haddr

theorem forgetEnrollee_alike : Alike (forgetEnrollee ⟨m, k, e'⟩) (forgetEnrollee ⟨m', k', e'⟩) := by
  unfold forgetEnrollee
  simp only [haddr]
  by_cases hmine : e.Addr = m.WscControl.EntryAddr
  · have hreg := registrar_of_view h hmine.symm
    rw [hreg]
    split
    · exact ⟨rfl, haddr ▸ view_setRegistrar h rfl⟩
    · exact alike_entry h haddr
  · have hmine' : ¬ e.Addr = m'.WscControl.EntryAddr := fun heq =>
      hmine ((forMe_of_view h).mpr heq.symm).symm
    simp only [hmine, hmine', false_and, if_false]
    exact alike_entry h haddr

theorem dropped_alike : view e.Addr { m with PMKIDCache := forgetPmk m.PMKIDCache e'.Addr } =
      view e.Addr { m' with PMKIDCache := forgetPmk m'.PMKIDCache e'.Addr } := by
  unfold forgetPmk
  rw [haddr, ← search_of_view h]
  cases hfind : Pmkid.RTMPSearchPMKIDCache m.PMKIDCache e.Addr with
  | none => exact h
  | some idx =>
    have hfound := Fin.eq_true_of_find?_eq_some hfind
    simp only [decide_eq_true_eq] at hfound
    have hslot := slot_of_view h hfound.2
    have hvalid : (m'.PMKIDCache idx).Valid = true := hslot ▸ hfound.1
    simp only [Pmkid.RTMPDeletePMKIDCache, if_pos hfound.1, if_pos hvalid]
    exact view_update h (by rw [hslot])

theorem delete_alike :
    Alike (MacTableDeleteEntry cfg ⟨m, k, e'⟩) (MacTableDeleteEntry cfg ⟨m', k', e'⟩) := by
  unfold MacTableDeleteEntry
  split_ifs
  · exact alike_entry h haddr
  · let n : MULTISSID_STRUCT :=
      { m with
        PMKIDCache := forgetPmk m.PMKIDCache e'.Addr
        StaCount := (m.StaCount + 255) % 256 }
    let n' : MULTISSID_STRUCT :=
      { m' with
        PMKIDCache := forgetPmk m'.PMKIDCache e'.Addr
        StaCount := (m'.StaCount + 255) % 256 }
    have hforget : Alike (forgetEnrollee ⟨n, k, e'⟩) (forgetEnrollee ⟨n', k', e'⟩) :=
      forgetEnrollee_alike (dropped_alike h haddr) haddr
    constructor
    · simp only [forgetEnrollee_entry]
    · simpa only [forgetEnrollee_entry] using hforget.view
  · exact alike_entry h haddr

theorem deAuth_agree :
    Agree (MlmeDeAuthAction cfg env i ⟨m, k, e'⟩) (MlmeDeAuthAction cfg env i ⟨m', k', e'⟩) := by
  unfold MlmeDeAuthAction
  split
  · exact drop_agree h haddr
  · exact ⟨rfl, delete_alike h haddr, rfl, Bool.false_ne_true.elim⟩

end

theorem retry_agree (hAP : cfg.OpMode = .AP) (hc : Cached m e)
    (hpsk : e.AuthMode ≠ .WPA2 → m.PMK = m'.PMK) :
    Agree (WPARetryExec cfg env i ⟨m, k, e⟩) (WPARetryExec cfg env i ⟨m', k', e⟩) := by
  have hsame : ∀ RetryTimer ReTryCounter, Same e { e with RetryTimer, ReTryCounter } :=
    fun _ _ => ⟨rfl, rfl, rfl, rfl, id⟩
  unfold WPARetryExec retryTurn
  dsimp only
  split_ifs
  · exact deAuth_agree h rfl
  · let counted := { e with RetryTimer := false, ReTryCounter := (e.ReTryCounter + 1) % 256 }
    have hsend : Agree (WPAStart2WayGroupHS cfg env i ⟨m, k, counted⟩)
        (WPAStart2WayGroupHS cfg env i ⟨m', k', counted⟩) := start2Way_agree h hAP rfl
    obtain ⟨hverdict, hnext, hasks, hpmk⟩ := hsend
    refine ⟨hverdict, ⟨?_, ?_⟩, hasks, hpmk⟩
    · exact congrArg (fun e => { e with RetryTimer := true }) hnext.entry
    · exact hnext.view
  · exact drop_agree h rfl
  · exact deAuth_agree h rfl
  · exact start4Way_agree h hc hpsk (hsame _ _)
  · exact start4Way_agree h hc hpsk (hsame _ _)
  · exact drop_agree h rfl
  · exact drop_agree h rfl
  · exact drop_agree h rfl

theorem msg2_agree (hAP : cfg.OpMode = .AP)
    (hpmk : takesMsg2 Elem e = true → inBss cfg e = true → m.PMK = m'.PMK) :
    Agree (PeerPairMsg2Action C cfg env i Elem ⟨m, k, e⟩)
      (PeerPairMsg2Action C cfg env i Elem ⟨m', k', e⟩) := by
  rw [msg2_eq C env i Elem _ hAP, msg2_eq C env i Elem _ hAP]
  by_cases hlook : takesMsg2 Elem e = true ∧ inBss cfg e = true
  · have hbssid : m.Bssid = m'.Bssid := congrArg View.Bssid h
    have hderive : (derivePtk C ⟨m', k', e⟩ Elem.Msg).entry =
        (derivePtk C ⟨m, k, e⟩ Elem.Msg).entry := by
      simp only [derivePtk, hpmk hlook.1 hlook.2, hbssid]
    rw [if_pos hlook, if_pos hlook, hderive]
    split
    · refine ⟨rfl, ⟨?_, h⟩, rfl, Bool.false_ne_true.elim⟩
      simp only [sendMsg3, hderive]
    · exact ⟨rfl, ⟨hderive, h⟩, rfl, Bool.false_ne_true.elim⟩
  · rw [if_neg hlook, if_neg hlook]
    exact drop_agree h rfl

end Pairs

theorem inform_alike (cfg : Config) (h : Alike l l') :
    Alike (WscInformFromWPA cfg l) (WscInformFromWPA cfg l') := by
  obtain ⟨m, k, e⟩ := l
  obtain ⟨m', k', e'⟩ := l'
  obtain ⟨rfl, h⟩ := h
  dsimp only at h
  have hen : m.WscControl.enabled = m'.WscControl.enabled := congrArg View.enabled h
  unfold WscInformFromWPA
  dsimp only
  by_cases hmine : e'.Addr = m.WscControl.EntryAddr
  · rw [registrar_of_view h hmine.symm]
    split
    · exact ⟨rfl, view_setRegistrar h rfl⟩
    · exact ⟨rfl, h⟩
  · have hmine' : ¬ e'.Addr = m'.WscControl.EntryAddr := fun heq =>
      hmine ((forMe_of_view h).mpr heq.symm).symm
    simp only [hmine, hmine', and_false, if_false]
    exact ⟨rfl, h⟩

theorem cachePmk_alike (h : Alike l l') (hc : Cached l.mbss l.entry)
    (hkind : l.entry.EntryType = .CLIENT)
    (hpmk : l.entry.AuthMode = .WPA2 → l.mbss.PMK = l'.mbss.PMK) :
    Alike (cachePmk C cfg env l) (cachePmk C cfg env l') := by
  obtain ⟨m, k, e⟩ := l
  obtain ⟨m', k', e'⟩ := l'
  obtain ⟨rfl, h⟩ := h
  dsimp only at h hkind hpmk
  have hbssid : m.Bssid = m'.Bssid := congrArg View.Bssid h
  unfold cachePmk
  dsimp only
  split
  · rename_i hmode
    obtain ⟨idx, -, hvalid, hmac⟩ := hc hkind hmode.2
    dsimp only at hvalid hmac
    obtain ⟨at', hat, hfind, hadd⟩ := add_of_cached
      (pmkidOf C m.PMK m.Bssid e'.Addr) m.PMK env.Now hvalid hmac
    have hslot := slot_of_view h hat
    have hadd' : Pmkid.RTMPAddPMKIDCache m'.PMKIDCache e'.Addr
          (pmkidOf C m'.PMK m'.Bssid e'.Addr) m'.PMK env.Now =
        update m'.PMKIDCache at'
          { m'.PMKIDCache at' with
            RefreshTime := env.Now
            PMKID := pmkidOf C m'.PMK m'.Bssid e'.Addr
            PMK := m'.PMK } := by
      simp only [Pmkid.RTMPAddPMKIDCache, ← search_of_view h, hfind]
    refine ⟨rfl, ?_⟩
    dsimp only
    rw [hadd, hadd']
    exact view_update h (by rw [hslot, hpmk hmode.2, hbssid])
  · exact ⟨rfl, h⟩

@[simp] theorem inform_PMK (l : Local) : (WscInformFromWPA cfg l).mbss.PMK = l.mbss.PMK := by
  unfold WscInformFromWPA
  split <;> rfl

@[simp] theorem inform_EntryType (l : Local) :
    (WscInformFromWPA cfg l).entry.EntryType = l.entry.EntryType := by
  unfold WscInformFromWPA
  split <;> rfl

theorem afterMsg4_agree (C : Crypto) (env : Env) (i : Wcid) (hAP : cfg.OpMode = .AP)
    (h : Alike l l') (hc : Cached l.mbss l.entry)
    (hkind : l.entry.EntryType = .CLIENT)
    (hpmk : l.entry.AuthMode = .WPA2 → l.mbss.PMK = l'.mbss.PMK) :
    Agree (afterMsg4 C cfg env i l) (afterMsg4 C cfg env i l') := by
  have hleaves := inform_leaves (x := l.entry.Addr) cfg l
  have hinform := inform_alike cfg h
  have hcached := hleaves.cached hc
  have hmode := hleaves.same.AuthMode
  have hkey : (WscInformFromWPA cfg l).entry.AuthMode = .WPA2 →
      (WscInformFromWPA cfg l).mbss.PMK = (WscInformFromWPA cfg l').mbss.PMK := by
    rw [inform_PMK, inform_PMK, hmode]
    exact hpmk
  have hclient : (WscInformFromWPA cfg l).entry.EntryType = .CLIENT := by
    rw [inform_EntryType]
    exact hkind
  unfold afterMsg4
  rw [if_pos hAP, if_pos hAP]
  generalize WscInformFromWPA cfg l = a at hinform hcached hkey hclient
  generalize WscInformFromWPA cfg l' = b at hinform hkey
  obtain ⟨m, k, e⟩ := a
  obtain ⟨m', k', e'⟩ := b
  obtain ⟨rfl, hview⟩ := hinform
  dsimp only at hview hkey hclient ⊢
  by_cases hwpa2 : e'.bWPA2 = true
  · rw [if_pos hwpa2, if_pos hwpa2]
    refine ⟨rfl, cachePmk_alike ⟨rfl, hview⟩ ?_ hclient hkey, rfl, Bool.false_ne_true.elim⟩
    exact Same.cached (l := ⟨m, k, e'⟩) ⟨rfl, rfl, rfl, rfl, id⟩ rfl hcached
  · rw [if_neg hwpa2, if_neg hwpa2]
    have hsend : Agree (WPAStart2WayGroupHS cfg env i ⟨m, k, e'⟩)
        (WPAStart2WayGroupHS cfg env i ⟨m', k', e'⟩) := start2Way_agree hview hAP rfl
    obtain ⟨hverdict, hnext, hasks, hasked⟩ := hsend
    rw [← hverdict]
    split
    · exact ⟨hverdict, hnext, hasks, hasked⟩
    · refine ⟨rfl, ⟨?_, hnext.view⟩, hasks, hasked⟩
      simp only [hnext.entry]

theorem openPort_asks (bAE : Bool) (l : Local) : (openPort bAE l).acts.any asks = false := by
  unfold openPort WPAInstallPairwiseKey
  cases pairwiseKey l.entry.WepStatus l.entry.PTK bAE <;> rfl

theorem msg4_agree (hAP : cfg.OpMode = .AP) (h : Alike l l') (hc : Cached l.mbss l.entry)
    (hpmk : takesMsg4 cfg Elem l.entry = true → Genuine C l.entry Elem.Msg →
      l.entry.AuthMode = .WPA2 → l.mbss.PMK = l'.mbss.PMK) :
    Agree (PeerPairMsg4Action C cfg env i Elem l) (PeerPairMsg4Action C cfg env i Elem l') := by
  rw [msg4_eq, msg4_eq, h.entry]
  split
  · rename_i hright
    have htakes := hright.1
    simp only [takesMsg4, isClient, decide_eq_true_eq] at htakes
    have hopen : Alike (openPort true l).next (openPort true l').next := by
      refine ⟨?_, ?_⟩
      · simp only [openPort, h.entry]
      · obtain ⟨PairwiseKey, heq⟩ := openPort_entry true l
        rw [heq]
        exact h.view
    obtain ⟨PairwiseKey, heq⟩ := openPort_entry true l
    have hafter := afterMsg4_agree C env i hAP hopen
      (by
        rw [heq]
        exact Same.cached ⟨rfl, rfl, rfl, rfl, id⟩ rfl hc)
      (by
        rw [heq]
        exact htakes.1)
      (by
        rw [heq]
        exact hpmk hright.1 hright.2.1)
    refine ⟨hafter.verdict, hafter.next, ?_, fun hasked => hafter.PMK ?_⟩
    · simp only [Out.then, List.any_append, openPort_asks, hafter.asks]
    · simpa only [Out.then, List.any_append, openPort_asks, Bool.false_or] using hasked
  · exact ⟨rfl, h, rfl, Bool.false_ne_true.elim⟩

def usesPmk (C : Crypto) (cfg : Config) (e : MAC_TABLE_ENTRY) (Elem : MLME_QUEUE_ELEM) : Bool :=
  match handlerOf cfg e Elem with
  | some .PeerPairMsg2Action => takesMsg2 Elem e ∧ inBss cfg e
  | some .PeerPairMsg4Action => takesMsg4 cfg Elem e ∧ Genuine C e Elem.Msg
  | _ => false

theorem turn_agree (hAP : cfg.OpMode = .AP) (h : Alike l l') (hc : Cached l.mbss l.entry)
    (hpsk : l.entry.AuthMode ≠ .WPA2 → l.mbss.PMK = l'.mbss.PMK) {e : Event}
    (huses : ∀ env i Elem, e = .key env i Elem → l.entry.AuthMode = .WPA2 →
      usesPmk C cfg l.entry Elem = true → l.mbss.PMK = l'.mbss.PMK) :
    Agree (turn C cfg l e) (turn C cfg l' e) := by
  have hkey : ∀ env i Elem, e = .key env i Elem → usesPmk C cfg l.entry Elem = true →
      l.mbss.PMK = l'.mbss.PMK := by
    intro env i Elem heq hu
    by_cases hmode : l.entry.AuthMode = .WPA2
    · exact huses env i Elem heq hmode hu
    · exact hpsk hmode
  obtain ⟨m, k, entry⟩ := l
  obtain ⟨m', k', entry'⟩ := l'
  obtain ⟨rfl, h⟩ := h
  dsimp only at h hpsk hkey
  cases e with
  | key env i Elem =>
    dsimp only [turn]
    cases hh : handlerOf cfg entry' Elem with
    | none => exact drop_agree h rfl
    | some handler =>
      cases handler with
      | PeerPairMsg2Action =>
        apply msg2_agree h hAP
        intro htakes hin
        apply hkey env i Elem rfl
        simp only [usesPmk, hh, htakes, hin, and_self, decide_true]
      | PeerPairMsg4Action =>
        have halike : Alike ⟨m, k, entry'⟩ ⟨m', k', entry'⟩ := ⟨rfl, h⟩
        apply msg4_agree hAP halike hc
        intro htakes hright _
        apply hkey env i Elem rfl
        dsimp only at htakes hright
        simp only [usesPmk, hh, htakes, hright, and_self, decide_true]
      | _ => exact drop_agree h rfl
  | start4Way env i => exact start4Way_agree h hc hpsk (Same.refl entry')
  | retry env i => exact retry_agree h hAP hc hpsk
  | _ => exact drop_agree h rfl

theorem start4Way_PMK (hno : (WPAStart4WayHS cfg env i l).acts.any asks = false) :
    (WPAStart4WayHS cfg env i l).next.mbss.PMK = l.mbss.PMK := by
  rcases start4Way_cases cfg env i l with heq | ⟨-, heq | heq | heq⟩ <;> rw [heq] at hno ⊢
  · rfl
  · rfl
  · cases hno

theorem start2Way_PMK : (WPAStart2WayGroupHS cfg env i l).next.mbss.PMK = l.mbss.PMK := by
  unfold WPAStart2WayGroupHS
  split
  · rfl
  · cases cfg.OpMode <;> rfl

theorem deAuth_PMK : (MlmeDeAuthAction cfg env i l).next.mbss.PMK = l.mbss.PMK := by
  unfold MlmeDeAuthAction MacTableDeleteEntry
  split_ifs
  · rfl
  · rfl
  · simp only [forgetEnrollee_PMK]
  · rfl

theorem retry_PMK (hno : (WPARetryExec cfg env i l).acts.any asks = false) :
    (WPARetryExec cfg env i l).next.mbss.PMK = l.mbss.PMK := by
  unfold WPARetryExec retryTurn at hno ⊢
  dsimp only at hno ⊢
  split_ifs at hno ⊢
  · rw [deAuth_PMK]
  · rw [start2Way_PMK]
  · rfl
  · rw [deAuth_PMK]
  · rw [start4Way_PMK hno]
  · rw [start4Way_PMK hno]
  · rfl
  · rfl
  · rfl

theorem afterMsg4_PMK (hAP : cfg.OpMode = .AP) :
    (afterMsg4 C cfg env i l).next.mbss.PMK = l.mbss.PMK := by
  have hcache : ∀ l, (cachePmk C cfg env l).mbss.PMK = l.mbss.PMK := by
    intro l
    unfold cachePmk
    split <;> rfl
  unfold afterMsg4
  rw [if_pos hAP]
  dsimp only
  split
  · rw [hcache]
    exact inform_PMK l
  · split
    · rw [start2Way_PMK, inform_PMK]
    · dsimp only
      rw [start2Way_PMK, inform_PMK]

theorem turn_PMK (hAP : cfg.OpMode = .AP) {e : Event}
    (hno : (turn C cfg l e).acts.any asks = false) :
    (turn C cfg l e).next.mbss.PMK = l.mbss.PMK := by
  cases e with
  | key env i Elem =>
    dsimp only [turn]
    split
    · rw [msg2_eq C env i Elem l hAP]
      split_ifs <;> rfl
    · rw [msg4_eq]
      split
      · simp only [Out.then]
        rw [afterMsg4_PMK hAP]
        rfl
      · rfl
    · rfl
  | start4Way env i => exact start4Way_PMK hno
  | retry env i => exact retry_PMK hno
  | _ => rfl

end Ralink.Wpa
