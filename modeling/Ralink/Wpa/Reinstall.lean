import Ralink.Wpa.Port
import Ralink.Wpa.View

/-! Which events give a pairwise key to the hardware, and which key it is: a message 4 and a message
3 that pass the checks, and the temporal key of the PTK that the entry holds. -/
namespace Ralink.Wpa
open Function
open Station (Wcid)

variable {C : Crypto} {cfg : Config} {env : Env} {i j : Wcid} {Elem : MLME_QUEUE_ELEM}
  {l : Local} {pAd : RTMP_ADAPTER}

abbrev TemporalKey := Vector Byte 16

def Act.temporalKey : Act → Option TemporalKey
  | .installPairwise key => some key.Key
  | _ => none

def installedOf (i : Wcid) (acts : Acts) : List TemporalKey :=
  acts.filterMap fun x => if x.1 = .entry i then x.2.temporalKey else none

def Quiet (acts : List Act) : Prop := ∀ a ∈ acts, a.temporalKey = none

theorem quiet_nil : Quiet [] := nofun

theorem quiet_one {a : Act} (h : a.temporalKey = none) : Quiet [a] := by
  intro a' ha
  rw [List.mem_singleton.mp ha]
  exact h

theorem Quiet.append {acts acts' : List Act} (h : Quiet acts) (h' : Quiet acts') :
    Quiet (acts ++ acts') := by
  intro a ha
  rcases List.mem_append.mp ha with ha | ha
  · exact h a ha
  · exact h' a ha

/-- The entry keeps its state, its nonce and its PTK. -/
structure Rests (e e' : MAC_TABLE_ENTRY) : Prop where
  kind : e'.EntryType = .CLIENT → e.EntryType = .CLIENT
  state : e'.WpaState = e.WpaState
  nonce : e'.ANonce = e.ANonce
  ptk : e'.PTK = e.PTK

/-- There is no handshake, or one that has begun with the random number. -/
def Restarts (r : Nonce) (e : MAC_TABLE_ENTRY) : Prop :=
  e.WpaState < .AS_PTKSTART ∨ e.WpaState = .AS_PTKSTART ∧ e.ANonce = r

variable {e e' : MAC_TABLE_ENTRY} {r : Nonce} {acts acts' : Acts} {pAd' pAd'' : RTMP_ADAPTER}
  {e'' : MAC_TABLE_ENTRY} {f : Local → Out} (apidx : Nat) {o : Out} {link : APCLI_STRUCT}

theorem Rests.refl (e : MAC_TABLE_ENTRY) : Rests e e := ⟨id, rfl, rfl, rfl⟩

theorem Rests.trans (h : Rests e e') (h' : Rests e' e'') : Rests e e'' :=
  ⟨fun hk => h.kind (h'.kind hk), h'.state.trans h.state, h'.nonce.trans h.nonce,
    h'.ptk.trans h.ptk⟩

theorem Rests.or_restarts (h : Rests e e') (h' : Rests e' e'' ∨ Restarts r e'') :
    Rests e e'' ∨ Restarts r e'' :=
  h'.imp_left h.trans

theorem restarts_of_early (he : e.WpaState < .AS_PTKSTART) (h : Rests e e' ∨ Restarts r e') :
    Restarts r e' :=
  h.elim (fun hrests => .inl (hrests.state ▸ he)) id

/-- A handler installs no pairwise key and leaves the handshake of the entry alone. -/
structure Still (l : Local) (o : Out) : Prop where
  quiet : Quiet o.acts
  rests : Rests l.entry o.next.entry

/-- A handler installs no pairwise key, but may begin the handshake again. -/
structure Idle (r : Nonce) (l : Local) (o : Out) : Prop where
  quiet : Quiet o.acts
  entry : Rests l.entry o.next.entry ∨ Restarts r o.next.entry

theorem Still.idle (h : Still l o) : Idle r l o := ⟨h.quiet, .inl h.rests⟩

theorem drop_still : Still l (drop l) := ⟨quiet_nil, Rests.refl _⟩

theorem Idle.before {l' : Local} (h : Idle r l' o)
    (hl : Rests l.entry l'.entry ∨ l'.entry.WpaState < .AS_PTKSTART) : Idle r l o := by
  refine ⟨h.quiet, ?_⟩
  rcases hl with hrests | hearly
  · exact hrests.or_restarts h.entry
  · exact .inr (restarts_of_early hearly h.entry)

theorem start4Way_idle (cfg : Config) (env : Env) (i : Wcid) (l : Local) :
    Idle env.random l (WPAStart4WayHS cfg env i l) := by
  rcases start4Way_cases cfg env i l with heq | ⟨hcan, heq | heq | heq⟩ <;> rw [heq]
  · exact drop_still.idle
  · exact ⟨quiet_nil, .inr (.inl (by decide : AP_WPA_STATE.AS_NOTUSE < _))⟩
  · refine ⟨quiet_nil, .inr ?_⟩
    exact (lt_of_canStart hcan).lt_or_eq.imp id fun hstate => ⟨hstate, rfl⟩
  · refine ⟨quiet_one rfl, ?_⟩
    rw [sendMsg1_entry]
    exact .inr (.inr ⟨rfl, rfl⟩)

theorem start2Way_still (cfg : Config) (env : Env) (i : Wcid) (l : Local) :
    Still l (WPAStart2WayGroupHS cfg env i l) := by
  unfold WPAStart2WayGroupHS
  split
  · exact drop_still
  · cases cfg.OpMode with
    | AP => exact ⟨quiet_one rfl, ⟨id, rfl, rfl, rfl⟩⟩
    | STA => exact ⟨quiet_nil, ⟨id, rfl, rfl, rfl⟩⟩

theorem delete_rests (cfg : Config) (l : Local) :
    Rests l.entry (MacTableDeleteEntry cfg l).entry := by
  unfold MacTableDeleteEntry
  split_ifs
  · exact Rests.refl l.entry
  · simp only [forgetEnrollee_entry]
    exact ⟨nofun, rfl, rfl, rfl⟩
  · exact ⟨nofun, rfl, rfl, rfl⟩

theorem deAuth_still (cfg : Config) (env : Env) (i : Wcid) (l : Local) :
    Still l (MlmeDeAuthAction cfg env i l) := by
  unfold MlmeDeAuthAction
  split
  · exact drop_still
  · exact ⟨quiet_one rfl, delete_rests cfg l⟩

theorem eapolStart_idle (cfg : Config) (env : Env) (i : Wcid) (l : Local) (internal : Bool) :
    Idle env.random l (WpaEAPOLStartAction cfg env i l internal) := by
  unfold WpaEAPOLStartAction
  split_ifs
  · exact drop_still.idle
  · apply (start4Way_idle cfg env i _).before
    exact .inr (by decide : AP_WPA_STATE.AS_INITPSK < .AS_PTKSTART)
  · exact drop_still.idle

theorem retryTurn_idle (cfg : Config) (env : Env) (i : Wcid) (l : Local) :
    Idle env.random l (retryTurn cfg env i l) := by
  unfold retryTurn
  dsimp only
  split_ifs
  · exact (deAuth_still cfg env i l).idle
  · have hsend := start2Way_still cfg env i l
    exact ⟨hsend.quiet, .inl (hsend.rests.trans ⟨id, rfl, rfl, rfl⟩)⟩
  · exact drop_still.idle
  · exact (deAuth_still cfg env i l).idle
  · exact start4Way_idle cfg env i l
  · exact start4Way_idle cfg env i l
  · exact drop_still.idle

theorem retry_idle (cfg : Config) (env : Env) (i : Wcid) (l : Local) :
    Idle env.random l (WPARetryExec cfg env i l) := by
  unfold WPARetryExec
  dsimp only
  split_ifs
  · exact (retryTurn_idle cfg env i _).before (.inl ⟨id, rfl, rfl, rfl⟩)
  · exact ⟨quiet_nil, .inl ⟨id, rfl, rfl, rfl⟩⟩
  · exact drop_still.idle

theorem updatePairwiseKey_idle (cfg : Config) (env : Env) (i : Wcid) (l : Local) :
    Idle env.random l (updatePairwiseKey cfg env i l) := by
  have hstart : ∀ e : MAC_TABLE_ENTRY, Rests l.entry e ∨ e.WpaState < .AS_PTKSTART →
      Idle env.random l
        ⟨.handled, [.removePairwise] ++ (WPAStart4WayHS cfg env i { l with entry := e }).acts,
          (WPAStart4WayHS cfg env i { l with entry := e }).next⟩ := by
    intro e he
    have hturn := (start4Way_idle cfg env i { l with entry := e }).before (l := l) he
    exact ⟨(quiet_one rfl).append hturn.quiet, hturn.entry⟩
  unfold updatePairwiseKey Out.then
  apply hstart
  dsimp only
  split
  · exact .inr (by decide : AP_WPA_STATE.AS_INITPMK < .AS_PTKSTART)
  · exact .inr (by decide : AP_WPA_STATE.AS_INITPMK < .AS_PTKSTART)
  · exact .inr (by decide : AP_WPA_STATE.AS_INITPSK < .AS_PTKSTART)
  · exact .inr (by decide : AP_WPA_STATE.AS_INITPSK < .AS_PTKSTART)
  · exact .inl ⟨id, rfl, rfl, rfl⟩

theorem installShared_quiet {GroupCipher : NDIS_802_11_WEP_STATUS} {BssIdx KeyIdx GtkLen : Nat}
    {bAE : Bool} {pGtk : List Byte} {SharedKey : Nat → CIPHER_KEY} :
    Quiet (WPAInstallSharedKey cfg GroupCipher BssIdx KeyIdx bAE pGtk GtkLen SharedKey).2 := by
  unfold WPAInstallSharedKey
  dsimp only
  split_ifs
  · exact quiet_nil
  · exact quiet_nil
  · exact quiet_nil
  · exact quiet_one rfl

theorem installGroup_quiet {found : Found} : Quiet (installGroupKey cfg e link found).2.2 := by
  unfold installGroupKey
  dsimp only
  split
  · exact quiet_nil
  · cases cfg.OpMode with
    | AP =>
      dsimp only
      split <;> exact quiet_nil
    | STA => exact installShared_quiet

theorem sanity_quiet {Msg : EAPOL_PACKET} {type : MsgType} :
    Quiet (PeerWpaMessageSanity C cfg env Msg type e link).2.2 := by
  unfold PeerWpaMessageSanity
  split_ifs
  · exact quiet_nil
  · exact quiet_nil
  · exact quiet_nil
  · split
    · exact quiet_nil
    · unfold RTMPParseEapolKeyData
      split
      · exact quiet_nil
      · split
        · exact quiet_nil
        · exact installGroup_quiet

theorem msg1_quiet : Quiet (PeerPairMsg1Action C cfg env i Elem l).acts := by
  unfold PeerPairMsg1Action
  split
  · exact quiet_nil
  · dsimp only
    split
    · exact sanity_quiet
    · apply sanity_quiet.append
      split
      · exact quiet_one rfl
      · exact quiet_nil

theorem msg2_quiet : Quiet (PeerPairMsg2Action C cfg env i Elem l).acts := by
  cases hmode : cfg.OpMode with
  | AP =>
    rcases msg2_cases C env i Elem l hmode with heq | ⟨-, -, ⟨heq, -⟩ | ⟨heq, -⟩⟩ <;> rw [heq]
    · exact quiet_nil
    · exact quiet_nil
    · exact quiet_one rfl
  | STA =>
    unfold PeerPairMsg2Action
    split
    · exact quiet_nil
    · rw [hmode]
      exact quiet_nil

theorem groupMsg1_still : Still l (PeerGroupMsg1Action C cfg env i Elem l) := by
  unfold PeerGroupMsg1Action
  split
  · exact drop_still
  · dsimp only
    split
    · exact ⟨sanity_quiet, ⟨id, rfl, rfl, rfl⟩⟩
    · split
      · exact ⟨sanity_quiet, ⟨id, rfl, rfl, rfl⟩⟩
      · exact ⟨sanity_quiet.append (quiet_one rfl), ⟨id, rfl, rfl, rfl⟩⟩

theorem groupMsg2_still : Still l (PeerGroupMsg2Action C cfg env Elem l) := by
  rcases groupMsg2_cases C cfg env Elem l with ⟨heq, -⟩ | ⟨heq, -⟩ <;> rw [heq] <;>
    exact ⟨quiet_nil, ⟨id, rfl, rfl, rfl⟩⟩

theorem afterMsg4_still : Still l (afterMsg4 C cfg env i l) := by
  have hinform : Rests l.entry (if cfg.OpMode = .AP then WscInformFromWPA cfg l else l).entry := by
    split
    · obtain ⟨bWscCapable, heq⟩ := inform_entry cfg l
      rw [heq]
      exact ⟨id, rfl, rfl, rfl⟩
    · exact Rests.refl _
  unfold afterMsg4
  dsimp only
  generalize (if cfg.OpMode = .AP then WscInformFromWPA cfg l else l) = n at hinform ⊢
  have hsend := start2Way_still cfg env i n
  have hsent := hinform.trans hsend.rests
  split_ifs
  · refine ⟨quiet_nil, ?_⟩
    rw [cachePmk_entry]
    exact hinform.trans ⟨id, rfl, rfl, rfl⟩
  · exact ⟨hsend.quiet, hsent⟩
  · exact ⟨hsend.quiet, hsent.trans ⟨id, rfl, rfl, rfl⟩⟩

/-- No pairwise key is installed for any entry, and the handshake of the entry is left alone. -/
structure StillTable (i : Wcid) (pAd : RTMP_ADAPTER) (r : Acts × RTMP_ADAPTER) : Prop where
  quiet : ∀ x ∈ r.1, x.2.temporalKey = none
  rests : Rests (pAd.Content i) (r.2.Content i)

theorem StillTable.refl (i : Wcid) (pAd : RTMP_ADAPTER) : StillTable i pAd ([], pAd) :=
  ⟨nofun, Rests.refl _⟩

theorem StillTable.trans (h : StillTable i pAd (acts, pAd')) (h' : StillTable i pAd' (acts', pAd'')) :
    StillTable i pAd (acts ++ acts', pAd'') := by
  refine ⟨fun x hx => ?_, h.rests.trans h'.rests⟩
  rcases List.mem_append.mp hx with hx | hx
  · exact h.quiet x hx
  · exact h'.quiet x hx

theorem StillTable.installedOf {r : Acts × RTMP_ADAPTER} (h : StillTable i pAd r) :
    installedOf i r.1 = [] := by
  apply List.filterMap_eq_nil_iff.mpr
  intro x hx
  split
  · exact h.quiet x hx
  · rfl

theorem Quiet.map {acts : List Act} (h : Quiet acts) (target : Target) :
    ∀ x ∈ acts.map fun a => (target, a), x.2.temporalKey = none := by
  intro x hx
  obtain ⟨a, ha, rfl⟩ := List.mem_map.mp hx
  exact h a ha

theorem Quiet.installedOf {acts : List Act} (h : Quiet acts) (i : Wcid) (target : Target) :
    Wpa.installedOf i (acts.map fun a => (target, a)) = [] := by
  apply List.filterMap_eq_nil_iff.mpr
  intro x hx
  split
  · exact h.map target x hx
  · rfl

theorem onEntry_still (hf : ∀ l, Still l (f l)) : StillTable i pAd (onEntry cfg f j pAd).2 := by
  refine ⟨(hf _).quiet.map _, ?_⟩
  rw [onEntry_content]
  rcases eq_or_ne i j with rfl | hij
  · rw [update_self]
    exact (hf (localOf cfg pAd i)).rests
  · rw [update_of_ne hij]
    exact Rests.refl _

theorem setEntry_still (he : Rests (pAd.Content j) e) :
    StillTable i pAd ([], setEntry pAd j e) := by
  refine ⟨nofun, ?_⟩
  rw [setEntry_content]
  rcases eq_or_ne i j with rfl | hij
  · rwa [update_self]
  · rw [update_of_ne hij]
    exact Rests.refl _

theorem forEntries_still {f : Wcid → RTMP_ADAPTER → Acts × RTMP_ADAPTER}
    (hf : ∀ j pAd, StillTable i pAd (f j pAd)) (pAd : RTMP_ADAPTER) :
    StillTable i pAd (forEntries f pAd) :=
  ⟨forEntries_acts pAd fun j pAd => (hf j pAd).quiet,
    forEntries_inv (P := fun s => Rests (pAd.Content i) (s.Content i)) pAd
      (fun j s hs => hs.trans (hf j s).rests) (Rests.refl _)⟩

theorem sendGtk_still (cfg : Config) (env : Env) (retry : Bool) (apidx : Nat) (j : Wcid)
    (pAd : RTMP_ADAPTER) : StillTable i pAd (sendGtk cfg env retry apidx j pAd) := by
  unfold sendGtk
  split
  · apply onEntry_still
    intro l
    have hsend := start2Way_still cfg env j { l with entry.GTKState := .REKEY_NEGOTIATING }
    have hall : Rests l.entry _ :=
      ⟨hsend.rests.kind, hsend.rests.state, hsend.rests.nonce, hsend.rests.ptk⟩
    dsimp only
    split
    · exact ⟨hsend.quiet, hall.trans ⟨id, rfl, rfl, rfl⟩⟩
    · exact ⟨hsend.quiet, hall⟩
  · exact StillTable.refl i pAd

theorem installGtk_still (cfg : Config) (apidx : Nat) (pAd : RTMP_ADAPTER) :
    StillTable i pAd (installGtk cfg apidx pAd) := ⟨installShared_quiet.map _, Rests.refl _⟩

theorem disconnect_still (cfg : Config) (env : Env) (j : Wcid) (pAd : RTMP_ADAPTER) :
    StillTable i pAd (disconnect cfg env j pAd) := by
  unfold disconnect
  split
  · exact onEntry_still (deAuth_still cfg env j)
  · exact StillTable.refl i pAd

theorem counterMeasure_still : StillTable i pAd (HandleCounterMeasure cfg env j pAd) := by
  unfold HandleCounterMeasure
  dsimp only
  split_ifs
  · exact StillTable.refl i pAd
  · exact ⟨nofun, Rests.refl _⟩
  · have hgone : ∀ s, StillTable i s (forEntries (disconnect cfg env) s) :=
      forEntries_still (disconnect_still cfg env)
    exact ⟨(hgone (setMbss pAd _ _)).quiet, (hgone (setMbss pAd _ _)).rests⟩

theorem updateGroupKey_still : StillTable i pAd (updateGroupKey C cfg env apidx pAd) := by
  have hsent := forEntries_still (i := i) (sendGtk_still cfg env true apidx)
    (setMbss pAd apidx (newGtk C env (pAd.MBSSID apidx)))
  exact StillTable.trans ⟨hsent.quiet, hsent.rests⟩ (installGtk_still cfg apidx _)

theorem sendStaKey_still (DA : Mac) : StillTable i pAd (sendStaKey C env apidx DA pAd) := by
  unfold sendStaKey
  split
  · exact StillTable.refl i pAd
  · rename_i j _
    have hcount : StillTable i pAd ([], setEntry pAd j (countUp (pAd.Content j))) :=
      setEntry_still ⟨id, rfl, rfl, rfl⟩
    dsimp only
    split_ifs
    · exact StillTable.refl i pAd
    · exact hcount
    · exact ⟨(quiet_one rfl).map _, hcount.rests⟩

theorem handleSTAKey_still : StillTable i pAd (RTMPHandleSTAKey C env j Elem pAd) := by
  have hnote : StillTable i pAd ([], noteRequest j Elem.Msg.KeyDesc.KeyInfo pAd) := by
    unfold noteRequest
    split
    · exact setEntry_still ⟨id, rfl, rfl, rfl⟩
    · exact StillTable.refl i pAd
  have hdls : ∀ apidx Addr, StillTable i pAd
      ([], deriveDls C apidx Addr (noteRequest j Elem.Msg.KeyDesc.KeyInfo pAd)) :=
    fun _ _ => ⟨nofun, hnote.rests⟩
  unfold RTMPHandleSTAKey takeStaKey
  dsimp only
  split_ifs
  · exact StillTable.refl i pAd
  · exact hnote
  · exact hdls _ _
  · exact (hdls _ _).trans (setEntry_still ⟨id, rfl, rfl, rfl⟩)
  · exact hdls _ _
  · exact (hdls _ _).trans (sendStaKey_still _ _)

theorem rekey_still : StillTable i pAd (GREKEYPeriodicExec C cfg env apidx pAd) := by
  have hset : ∀ pAd m, StillTable i pAd ([], setMbss pAd apidx m) :=
    fun _ _ => ⟨nofun, Rests.refl _⟩
  have hstart : ∀ pAd, StillTable i pAd (startRekey C cfg env apidx pAd) := by
    intro pAd
    unfold startRekey
    dsimp only
    split
    · exact (hset pAd _).trans (forEntries_still (sendGtk_still cfg env false apidx) _)
    · exact hset pAd _
  have hcount : ∀ pAd, StillTable i pAd (countDown cfg apidx pAd) := by
    intro pAd
    unfold countDown
    dsimp only
    split_ifs
    · exact (hset pAd _).trans (installGtk_still cfg apidx _)
    · exact hset pAd _
    · exact StillTable.refl i pAd
  unfold GREKEYPeriodicExec
  dsimp only
  split
  · exact StillTable.refl i pAd
  · split
    · exact StillTable.refl i pAd
    · rename_i REKEYCOUNTER _
      refine (hset pAd { pAd.MBSSID apidx with REKEYCOUNTER }).trans ?_
      split
      · exact (hstart _).trans (hcount _)
      · exact (StillTable.refl i _).trans (hcount _)

def hasCipher (e : MAC_TABLE_ENTRY) : Bool :=
  e.WepStatus = .Encryption2Enabled ∨ e.WepStatus = .Encryption3Enabled

/-- The frame passes all checks of the handler that installs a key. -/
def accepts (C : Crypto) (cfg : Config) (env : Env) (i : Wcid) (Elem : MLME_QUEUE_ELEM)
    (l : Local) : Bool :=
  match handlerOf cfg l.entry Elem with
  | some .PeerPairMsg4Action =>
    takesMsg4 cfg Elem l.entry ∧ Genuine C l.entry Elem.Msg ∧ env.keydata
  | some .PeerPairMsg3Action =>
    takesSupplicant cfg Elem .EAPOL_PAIR_MSG_3 l.entry ∧
      (PeerWpaMessageSanity C cfg env Elem.Msg .EAPOL_PAIR_MSG_3 l.entry l.link).1 ∧
      l.entry.ANonce = Elem.Msg.KeyDesc.KeyNonce ∧ env.mpool i
  | _ => false

def keysOf (acts : List Act) : List TemporalKey := acts.filterMap Act.temporalKey

theorem Quiet.keysOf {acts : List Act} (h : Quiet acts) : keysOf acts = [] :=
  List.filterMap_eq_nil_iff.mpr h

theorem install_keysOf (e : MAC_TABLE_ENTRY) (bAE : Bool) :
    keysOf (WPAInstallPairwiseKey e bAE).2 = if hasCipher e then [TK e.PTK] else [] := by
  unfold WPAInstallPairwiseKey pairwiseKey hasCipher
  cases e.WepStatus <;> rfl

theorem msg4_keysOf (hh : handlerOf cfg l.entry Elem = some .PeerPairMsg4Action) :
    keysOf (PeerPairMsg4Action C cfg env i Elem l).acts =
      if accepts C cfg env i Elem l ∧ hasCipher l.entry then [TK l.entry.PTK] else [] := by
  rw [msg4_eq]
  by_cases hright : takesMsg4 cfg Elem l.entry = true ∧ Genuine C l.entry Elem.Msg ∧
      env.keydata = true
  · have haccepts : accepts C cfg env i Elem l = true := by
      simp only [accepts, hh, hright, and_self, decide_true]
    have hopen : keysOf (openPort true l).acts =
        if hasCipher l.entry then [TK l.entry.PTK] else [] := install_keysOf l.entry true
    rw [if_pos hright, haccepts]
    simp only [Out.then, keysOf, List.filterMap_append, true_and]
    rw [← keysOf, ← keysOf, afterMsg4_still.quiet.keysOf, hopen, List.append_nil]
  · have hrefused : accepts C cfg env i Elem l = false := by
      simp only [accepts, hh, hright, decide_false]
    rw [if_neg hright, hrefused, if_neg (fun h => Bool.false_ne_true h.1)]
    rfl

theorem msg3_keysOf (hh : handlerOf cfg l.entry Elem = some .PeerPairMsg3Action) :
    keysOf (PeerPairMsg3Action C cfg env i Elem l).acts =
      if accepts C cfg env i Elem l ∧ hasCipher l.entry then [TK l.entry.PTK] else [] := by
  have hchecks : Quiet
      (PeerWpaMessageSanity C cfg env Elem.Msg .EAPOL_PAIR_MSG_3 l.entry l.link).2.2 :=
    sanity_quiet
  have hinstall : ∀ l, keysOf (installMsg3 cfg l).acts =
      if hasCipher l.entry then [TK l.entry.PTK] else [] := by
    intro l
    have hkey := install_keysOf { l.entry with WpaState := .AS_PTKINITDONE } false
    simp only [installMsg3, keysOf, List.filterMap_append]
    rw [← keysOf, hkey]
    exact List.append_nil _
  unfold PeerPairMsg3Action
  simp only [accepts, hh]
  by_cases htakes : takesSupplicant cfg Elem .EAPOL_PAIR_MSG_3 l.entry = true
  · rw [if_neg (by simp [htakes])]
    by_cases hok :
        (PeerWpaMessageSanity C cfg env Elem.Msg .EAPOL_PAIR_MSG_3 l.entry l.link).1 = true
    · rw [if_neg (by simp [hok])]
      by_cases hlast : l.entry.ANonce ≠ Elem.Msg.KeyDesc.KeyNonce ∨ env.mpool i = false
      · have hno : ¬ (l.entry.ANonce = Elem.Msg.KeyDesc.KeyNonce ∧ env.mpool i = true) := by
          rintro ⟨hnonce, hmem⟩
          simp [hnonce, hmem] at hlast
        rw [if_pos hlast, hchecks.keysOf]
        simp only [htakes, hok, hno, and_false, decide_false, Bool.false_eq_true, false_and,
          if_false]
      · have hyes : l.entry.ANonce = Elem.Msg.KeyDesc.KeyNonce ∧ env.mpool i = true := by
          simpa using hlast
        rw [if_neg hlast]
        simp only [htakes, hok, hyes, and_self, decide_true, true_and, Out.then, keysOf,
          List.filterMap_append]
        rw [← keysOf, ← keysOf, hchecks.keysOf, hinstall, List.nil_append]
        rfl
    · rw [if_pos (by simpa using hok), hchecks.keysOf]
      simp only [hok, and_false, false_and, decide_false, Bool.false_eq_true, if_false]
  · rw [if_pos (by simpa using htakes)]
    simp only [htakes, false_and, decide_false, Bool.false_eq_true, if_false]
    rfl

/-- The event is a frame of the station that passes the checks, and a key is made of its PTK. -/
def installs (C : Crypto) (cfg : Config) (i : Wcid) (pAd : RTMP_ADAPTER) : Event → Bool
  | .key env j Elem =>
    j = i ∧ accepts C cfg env i Elem (localOf cfg pAd i) ∧ hasCipher (pAd.Content i)
  | _ => false

theorem installedOf_onEntry (f : Local → Out) :
    installedOf i (onEntry cfg f i pAd).2.1 = keysOf (f (localOf cfg pAd i)).acts := by
  simp [installedOf, keysOf, onEntry_acts, List.filterMap_map]

theorem installedOf_other (hji : j ≠ i) (f : Local → Out) :
    installedOf i (onEntry cfg f j pAd).2.1 = [] := by
  simp [installedOf, onEntry_acts, List.filterMap_map, hji]

theorem other_rests (hji : j ≠ i) :
    Rests (pAd.Content i) ((onEntry cfg f j pAd).2.2.Content i) := by
  rw [onEntry_content, update_of_ne hji.symm]
  exact Rests.refl _

theorem table_still {handler : Handler} (hh : handlerOf cfg (pAd.Content j) Elem = some handler)
    (hf : handler.onLocal C cfg env j Elem = none) :
    StillTable i pAd (perform C cfg (.key env j Elem) pAd).2 := by
  simp only [perform, WpaEAPOLKeyAction, hh, hf]
  cases handler with
  | RTMPHandleSTAKey => exact handleSTAKey_still
  | HandleCounterMeasure => exact counterMeasure_still
  | updateGroupKey => exact updateGroupKey_still _
  | _ => cases hf

/-- The frame of another station. -/
theorem other_key (hji : j ≠ i) :
    installedOf i (perform C cfg (.key env j Elem) pAd).2.1 = [] ∧
      Rests (pAd.Content i) ((step C cfg pAd (.key env j Elem)).Content i) := by
  unfold step
  cases hh : handlerOf cfg (pAd.Content j) Elem with
  | none =>
    simp only [perform, WpaEAPOLKeyAction, hh]
    exact ⟨rfl, Rests.refl _⟩
  | some handler =>
    cases hf : handler.onLocal C cfg env j Elem with
    | none =>
      have hstill := table_still (i := i) hh hf
      exact ⟨hstill.installedOf, hstill.rests⟩
    | some f =>
      rw [key_onEntry C env hh hf]
      exact ⟨installedOf_other hji f, other_rests hji⟩

theorem key_installedOf (C : Crypto) (cfg : Config) (env : Env) (i : Wcid)
    (Elem : MLME_QUEUE_ELEM) (pAd : RTMP_ADAPTER) :
    installedOf i (perform C cfg (.key env i Elem) pAd).2.1 =
      if installs C cfg i pAd (.key env i Elem) then [TK (pAd.Content i).PTK] else [] := by
  have hrefused : accepts C cfg env i Elem (localOf cfg pAd i) = false →
      installs C cfg i pAd (.key env i Elem) = false := by
    intro hno
    simp [installs, hno]
  cases hh : handlerOf cfg (pAd.Content i) Elem with
  | none =>
    rw [hrefused (by simp only [accepts, localOf_entry, hh])]
    simp [perform, WpaEAPOLKeyAction, hh, installedOf]
  | some handler =>
    cases hf : handler.onLocal C cfg env i Elem with
    | none =>
      have hno : accepts C cfg env i Elem (localOf cfg pAd i) = false := by
        simp only [accepts, localOf_entry, hh]
        cases handler <;> first | rfl | cases hf
      rw [(table_still (i := i) hh hf).installedOf, hrefused hno]
      rfl
    | some f =>
      have hquiet : ∀ {g : Local → Out}, f = g → (∀ l, Quiet (g l).acts) →
          accepts C cfg env i Elem (localOf cfg pAd i) = false →
          keysOf (f (localOf cfg pAd i)).acts =
            if installs C cfg i pAd (.key env i Elem) then [TK (pAd.Content i).PTK]
            else [] := by
        rintro g rfl hg hno
        rw [(hg _).keysOf, hrefused hno]
        rfl
      rw [key_onEntry C env hh hf, installedOf_onEntry]
      cases handler with
      | PeerPairMsg4Action =>
        cases hf
        rw [msg4_keysOf hh]
        simp only [installs, true_and, decide_eq_true_eq, localOf_entry]
        rfl
      | PeerPairMsg3Action =>
        cases hf
        rw [msg3_keysOf hh]
        simp only [installs, true_and, decide_eq_true_eq, localOf_entry]
        rfl
      | PeerPairMsg1Action =>
        exact hquiet (Option.some.inj hf).symm (fun _ => msg1_quiet) (by simp [accepts, hh])
      | PeerPairMsg2Action =>
        exact hquiet (Option.some.inj hf).symm (fun _ => msg2_quiet) (by simp [accepts, hh])
      | PeerGroupMsg1Action =>
        exact hquiet (Option.some.inj hf).symm (fun _ => groupMsg1_still.quiet)
          (by simp [accepts, hh])
      | PeerGroupMsg2Action =>
        exact hquiet (Option.some.inj hf).symm (fun _ => groupMsg2_still.quiet)
          (by simp [accepts, hh])
      | updatePairwiseKey =>
        exact hquiet (Option.some.inj hf).symm (fun l => (updatePairwiseKey_idle cfg env i l).quiet)
          (by simp [accepts, hh])
      | _ => cases hf

theorem perform_installedOf (C : Crypto) (cfg : Config) (i : Wcid) (e : Event)
    (pAd : RTMP_ADAPTER) :
    installedOf i (perform C cfg e pAd).2.1 =
      if installs C cfg i pAd e then [TK (pAd.Content i).PTK] else [] := by
  cases e with
  | key env j Elem =>
    rcases eq_or_ne j i with rfl | hji
    · exact key_installedOf C cfg env j Elem pAd
    · have hno : installs C cfg i pAd (.key env j Elem) = false := by simp [installs, hji]
      rw [hno, (other_key hji).1]
      rfl
  | eapolStart env j internal =>
    exact ((eapolStart_idle cfg env j _ internal).quiet.installedOf i _)
  | start4Way env j => exact (start4Way_idle cfg env j _).quiet.installedOf i _
  | start2Way env j => exact (start2Way_still cfg env j _).quiet.installedOf i _
  | retry env j => exact (retry_idle cfg env j _).quiet.installedOf i _
  | rekey env apidx => exact (rekey_still (i := i) apidx).installedOf
  | leave j => rfl
  | join j e => rfl

/-- The nonces of a handshake, with the key and the addresses that a PTK is derived from with
them. -/
structure Derivation where
  PMK : PMK
  ANonce : Nonce
  AA : Mac
  SNonce : Nonce
  SA : Mac

namespace Derivation

def ptk (C : Crypto) (d : Derivation) : PTK := WpaDerivePTK C d.PMK d.ANonce d.AA d.SNonce d.SA

def hashed (d : Derivation) : Wpa.PMK × List Byte :=
  (d.PMK, concatenation d.ANonce d.AA d.SNonce d.SA)

/-- One of the nonces is among the random numbers. -/
def Renewed (drawn : List Nonce) (d : Derivation) : Prop := d.ANonce ∈ drawn ∨ d.SNonce ∈ drawn

def Uses (r : Nonce) (d : Derivation) : Prop := r = d.ANonce ∨ r = d.SNonce

instance (r : Nonce) (d : Derivation) : Decidable (d.Uses r) :=
  inferInstanceAs (Decidable (_ ∨ _))

end Derivation

def derived (C : Crypto) (cfg : Config) (env : Env) (Elem : MLME_QUEUE_ELEM) (l : Local) :
    Option Derivation :=
  let KeyNonce := Elem.Msg.KeyDesc.KeyNonce
  match handlerOf cfg l.entry Elem with
  | some .PeerPairMsg1Action =>
    if takesSupplicant cfg Elem .EAPOL_PAIR_MSG_1 l.entry ∧
        (PeerWpaMessageSanity C cfg env Elem.Msg .EAPOL_PAIR_MSG_1 l.entry l.link).1 then
      some ⟨l.link.PMK, KeyNonce, l.entry.Addr, env.random, l.link.CurrentAddress⟩
    else none
  | some .PeerPairMsg2Action =>
    if cfg.OpMode = .AP ∧ takesMsg2 Elem l.entry ∧ inBss cfg l.entry then
      some ⟨l.mbss.PMK, l.entry.ANonce, l.mbss.Bssid, KeyNonce, l.entry.Addr⟩
    else none
  | _ => none

def derivation (C : Crypto) (cfg : Config) (i : Wcid) (pAd : RTMP_ADAPTER) :
    Event → Option Derivation
  | .key env j Elem => if j = i then derived C cfg env Elem (localOf cfg pAd i) else none
  | _ => none

def Event.random (i : Wcid) : Event → Option Nonce
  | .key env j _ | .eapolStart env j _ | .start4Way env j | .start2Way env j | .retry env j =>
    if j = i then some env.random else none
  | .rekey _ _ | .leave _ | .join _ _ => none

/-- Beside the adapter stand the temporal keys that have been installed for the entry, what their
PTKs were derived from, what the one that the entry holds was derived from, and the random numbers
since the last install. -/
structure Tracked where
  pAd : RTMP_ADAPTER
  keys : List TemporalKey
  spent : List Derivation
  made : Option Derivation
  drawn : List Nonce

def Tracked.start (pAd : RTMP_ADAPTER) : Tracked := ⟨pAd, [], [], none, []⟩

def track (C : Crypto) (cfg : Config) (i : Wcid) (s : Tracked) (e : Event) : Tracked :=
  let r := perform C cfg e s.pAd
  let new := installedOf i r.2.1
  { pAd := r.2.2
    keys := new ++ s.keys
    spent := if new = [] then s.spent else s.made.toList ++ s.spent
    made := (derivation C cfg i s.pAd e).or s.made
    drawn := if new = [] then (e.random i).toList ++ s.drawn else [] }

/-- Where a key is installed again, the PTK has been derived with a random number that has been
drawn since the last install. -/
def InstallsRenewed (C : Crypto) (cfg : Config) (i : Wcid) (s : Tracked) (e : Event) : Prop :=
  installedOf i (perform C cfg e s.pAd).2.1 ≠ [] → s.keys ≠ [] →
    ∃ d, s.made = some d ∧ (s.pAd.Content i).PTK = d.ptk C ∧ d.Renewed s.drawn

/-- A message 2 of the entry passes all checks. -/
def answers (C : Crypto) (cfg : Config) (env : Env) (i : Wcid) (Elem : MLME_QUEUE_ELEM)
    (l : Local) : Prop :=
  handlerOf cfg l.entry Elem = some .PeerPairMsg2Action ∧ takesMsg2 Elem l.entry = true ∧
    inBss cfg l.entry = true ∧ Genuine C (derivePtk C l Elem.Msg).entry Elem.Msg ∧
    env.keydata = true ∧ env.mpool i = true

instance : Decidable (answers C cfg env i Elem l) := inferInstanceAs (Decidable (_ ∧ _))

/-- A message 3 or 4 passes the checks only while a handshake is going on, and a message 2 not
after its end; a station that is new has not begun one. -/
def InTurn (C : Crypto) (cfg : Config) (i : Wcid) (s : Tracked) : Event → Prop
  | .key env j Elem => j = i →
    (accepts C cfg env i Elem (localOf cfg s.pAd i) = true →
      (s.pAd.Content i).WpaState = .AS_PTKINIT_NEGOTIATING) ∧
    (answers C cfg env i Elem (localOf cfg s.pAd i) →
      (s.pAd.Content i).WpaState ≤ .AS_PTKINIT_NEGOTIATING)
  | .join j e => j = i → e.WpaState < .AS_PTKSTART
  | _ => True

instance (C : Crypto) (cfg : Config) (i : Wcid) (s : Tracked) :
    ∀ e, Decidable (InTurn C cfg i s e)
  | .key .. => inferInstanceAs (Decidable (_ → (_ → _) ∧ (_ → _)))
  | .join .. => inferInstanceAs (Decidable (_ → _))
  | .eapolStart .. | .start4Way .. | .start2Way .. | .retry .. | .rekey .. | .leave .. =>
    .isTrue trivial

/-- The random number is none of the nonces of a PTK that has been used, and the two nonces of a
PTK differ. -/
def FreshNonces (C : Crypto) (cfg : Config) (i : Wcid) (s : Tracked) (e : Event) : Prop :=
  (∀ r ∈ e.random i, ∀ d ∈ s.spent, ¬ d.Uses r) ∧
    ∀ d ∈ derivation C cfg i s.pAd e, d.ANonce ≠ d.SNonce

instance (C : Crypto) (cfg : Config) (i : Wcid) (s : Tracked) (e : Event) :
    Decidable (FreshNonces C cfg i s e) :=
  @instDecidableAnd _ _ (Option.decidableForallMem _) (Option.decidableForallMem _)

/-- The hash has no collision among what it was given. -/
def NoCollision (C : Crypto) (ds : List Derivation) : Prop :=
  ∀ d ∈ ds, ∀ d' ∈ ds, TK (d.ptk C) = TK (d'.ptk C) → d.hashed = d'.hashed

instance (C : Crypto) (ds : List Derivation) : Decidable (NoCollision C ds) :=
  inferInstanceAs (Decidable (∀ d ∈ ds, ∀ d' ∈ ds, _ → _))

theorem compareMemory_eq {as bs : List Byte} (hlen : as.length = bs.length)
    (h : RTMPCompareMemory as bs = 0) : as = bs := by
  induction as generalizing bs with
  | nil => exact (List.length_eq_zero_iff.mp hlen.symm).symm
  | cons a as ih =>
    cases bs with
    | nil => cases hlen
    | cons b bs =>
      rw [RTMPCompareMemory] at h
      split_ifs at h with hgt hlt
      have hab : a = b := BitVec.le_antisymm (BitVec.not_lt.mp hgt) (BitVec.not_lt.mp hlt)
      rw [hab, ih (Nat.succ.inj hlen) h]

/-- Two nonces that differ stand behind the addresses in one order or in the other. -/
theorem concatenation_nonces {ANonce SNonce : Nonce} (h : ANonce ≠ SNonce) (AA SA : Mac) :
    ∃ (macs : Vector Byte 12) (x y : Nonce),
      concatenation ANonce AA SNonce SA = macs.toList ++ (x.toList ++ y.toList) ∧
        (x = ANonce ∧ y = SNonce ∨ x = SNonce ∧ y = ANonce) := by
  have hne : RTMPCompareMemory ANonce.toList SNonce.toList ≠ 0 := fun hzero =>
    h (Vector.toList_inj.mp (compareMemory_eq (by simp) hzero))
  have hpair : ∀ a b : Mac, ∃ macs : Vector Byte 12, macs.toList = a.toList ++ b.toList :=
    fun a b => ⟨a ++ b, Vector.toList_append⟩
  unfold concatenation
  dsimp only
  rw [if_neg hne, if_neg hne]
  generalize hsmaller : (if RTMPCompareMemory SA.toList AA.toList = 1 then AA else SA) = a
  generalize hlarger : (if RTMPCompareMemory SA.toList AA.toList = 1 then SA else AA) = b
  obtain ⟨macs, hmacs⟩ := hpair a b
  rw [← hmacs]
  by_cases hone : RTMPCompareMemory ANonce.toList SNonce.toList = 1
  · rw [if_pos hone, if_pos hone]
    exact ⟨macs, SNonce, ANonce, List.append_assoc .., .inr ⟨rfl, rfl⟩⟩
  · rw [if_neg hone, if_neg hone]
    exact ⟨macs, ANonce, SNonce, List.append_assoc .., .inl ⟨rfl, rfl⟩⟩

theorem Derivation.uses_of_hashed {d d' : Derivation} (hd : d.ANonce ≠ d.SNonce)
    (hd' : d'.ANonce ≠ d'.SNonce) (h : d.hashed = d'.hashed) {r : Nonce} (hr : d.Uses r) :
    d'.Uses r := by
  obtain ⟨macs, x, y, heq, hxy⟩ := concatenation_nonces hd d.AA d.SA
  obtain ⟨macs', x', y', heq', hxy'⟩ := concatenation_nonces hd' d'.AA d'.SA
  have hlists := (heq.symm.trans (congrArg Prod.snd h)).trans heq'
  obtain ⟨-, hnonces⟩ := List.append_inj hlists (by simp)
  obtain ⟨hx, hy⟩ := List.append_inj hnonces (by simp)
  obtain rfl := Vector.toList_inj.mp hx
  obtain rfl := Vector.toList_inj.mp hy
  unfold Uses at hr ⊢
  rcases hxy with ⟨rfl, rfl⟩ | ⟨rfl, rfl⟩ <;> rcases hxy' with ⟨ha, hs⟩ | ⟨hs, ha⟩ <;>
    rw [← ha, ← hs]
  · exact hr
  · exact hr.symm
  · exact hr.symm
  · exact hr

theorem install_rests (e : MAC_TABLE_ENTRY) (bAE : Bool) :
    Rests e (WPAInstallPairwiseKey e bAE).1 := by
  unfold WPAInstallPairwiseKey
  split <;> exact ⟨id, rfl, rfl, rfl⟩

theorem msg4_ends (hh : handlerOf cfg l.entry Elem = some .PeerPairMsg4Action) :
    Rests l.entry (PeerPairMsg4Action C cfg env i Elem l).next.entry ∧
        accepts C cfg env i Elem l = false ∨
      (PeerPairMsg4Action C cfg env i Elem l).next.entry.WpaState = .AS_PTKINITDONE := by
  rcases msg4_cases C cfg env i Elem l with ⟨heq, hno⟩ | ⟨heq, -⟩ <;> rw [heq]
  · exact .inl ⟨Rests.refl _, by simp only [accepts, hh, hno, decide_false]⟩
  · right
    obtain ⟨PairwiseKey, hopen⟩ := openPort_entry true l
    rw [Out.then, afterMsg4_still.rests.state, hopen]

theorem msg3_ends (hh : handlerOf cfg l.entry Elem = some .PeerPairMsg3Action) :
    Rests l.entry (PeerPairMsg3Action C cfg env i Elem l).next.entry ∧
        accepts C cfg env i Elem l = false ∨
      (PeerPairMsg3Action C cfg env i Elem l).next.entry.WpaState = .AS_PTKINITDONE := by
  have hinstall : ∀ l, (installMsg3 cfg l).next.entry.WpaState = .AS_PTKINITDONE := by
    intro l
    have hkey := (install_rests { l.entry with WpaState := .AS_PTKINITDONE } false).state
    unfold installMsg3
    dsimp only
    split_ifs <;> exact hkey
  unfold PeerPairMsg3Action
  simp only [accepts, hh]
  split_ifs with htakes hok hlast
  · exact .inl ⟨Rests.refl _, by simp [htakes]⟩
  · exact .inl ⟨⟨id, rfl, rfl, rfl⟩, by simp [hok]⟩
  · refine .inl ⟨⟨id, rfl, rfl, rfl⟩, decide_eq_false ?_⟩
    rintro ⟨-, -, hnonce, hmem⟩
    simp [hnonce, hmem] at hlast
  · exact .inr (hinstall _)

/-- What an event comes to for the entry: in the last two cases a PTK is derived. -/
inductive Turn (cfg : Config) (made : Option Derivation) (random : Option Nonce) (C : Crypto)
    (x x' : MAC_TABLE_ENTRY) : Prop
  | rests (hmade : made = none) (h : Rests x x')
  | restarts (r : Nonce) (hmade : made = none) (hr : random = some r) (h : Restarts r x')
  | ends (hmade : made = none) (h : x'.WpaState < .AS_PTKSTART ∨ x'.WpaState = .AS_PTKINITDONE)
  | asked (d : Derivation) (hmade : made = some d) (hr : random = some d.SNonce)
      (hptk : x'.PTK = d.ptk C) (hkind : cfg.OpMode = .AP → x'.EntryType ≠ .CLIENT)
  | answered (d : Derivation) (hmade : made = some d) (hptk : x'.PTK = d.ptk C)
      (hnonce : d.ANonce = x.ANonce) (hkept : x'.ANonce = x.ANonce)
      (hkind : cfg.OpMode = .AP ∧ x.EntryType = .CLIENT) (hstate : .AS_PTKSTART ≤ x.WpaState)
      (hstep : x'.WpaState = x.WpaState ∨ x.WpaState ≤ .AS_PTKINIT_NEGOTIATING)

theorem sanity_pairMsg1 (C : Crypto) (cfg : Config) (env : Env) (Msg : EAPOL_PACKET)
    (e : MAC_TABLE_ENTRY) (link : APCLI_STRUCT) :
    ∃ ok, PeerWpaMessageSanity C cfg env Msg .EAPOL_PAIR_MSG_1 e link = (ok, link, []) := by
  have hnone : clearKeyData C e .EAPOL_PAIR_MSG_1 Msg = none := by simp [clearKeyData]
  unfold PeerWpaMessageSanity
  rw [hnone]
  split_ifs <;> exact ⟨_, rfl⟩

theorem msg1_turn (hh : handlerOf cfg l.entry Elem = some .PeerPairMsg1Action) :
    Turn cfg (derived C cfg env Elem l) (some env.random) C l.entry
      (PeerPairMsg1Action C cfg env i Elem l).next.entry := by
  obtain ⟨ok, hsane⟩ := sanity_pairMsg1 C cfg env Elem.Msg l.entry l.link
  simp only [PeerPairMsg1Action, derived, hh, hsane]
  cases htakes : takesSupplicant cfg Elem .EAPOL_PAIR_MSG_1 l.entry with
  | false => exact .rests (if_neg (by simp)) (Rests.refl _)
  | true =>
    cases ok with
    | false => exact .rests (if_neg (by simp)) ⟨id, rfl, rfl, rfl⟩
    | true =>
      refine .asked _ (if_pos ⟨rfl, rfl⟩) rfl rfl fun hAP (hkind : l.entry.EntryType = _) => ?_
      rw [takesSupplicant_ap hAP (by rw [hkind]; decide)] at htakes
      cases htakes

theorem msg2_turn (hh : handlerOf cfg l.entry Elem = some .PeerPairMsg2Action)
    (hturn : answers C cfg env i Elem l → l.entry.WpaState ≤ .AS_PTKINIT_NEGOTIATING) :
    Turn cfg (derived C cfg env Elem l) (some env.random) C l.entry
      (PeerPairMsg2Action C cfg env i Elem l).next.entry := by
  have hmade : derived C cfg env Elem l =
      if cfg.OpMode = .AP ∧ takesMsg2 Elem l.entry ∧ inBss cfg l.entry then
        some ⟨l.mbss.PMK, l.entry.ANonce, l.mbss.Bssid, Elem.Msg.KeyDesc.KeyNonce, l.entry.Addr⟩
      else none := by
    simp only [derived, hh]
  cases hmode : cfg.OpMode with
  | STA =>
    rw [hmode, if_neg (fun h => OpMode.noConfusion h.1)] at hmade
    refine .rests hmade ?_
    unfold PeerPairMsg2Action
    rw [hmode]
    split
    · exact Rests.refl _
    · exact ⟨id, rfl, rfl, rfl⟩
  | AP =>
    rw [msg2_eq C env i Elem l hmode]
    by_cases hlook : takesMsg2 Elem l.entry = true ∧ inBss cfg l.entry = true
    · have htakes := hlook.1
      simp only [takesMsg2, isClient, decide_eq_true_eq, not_lt] at htakes
      rw [if_pos ⟨hmode, hlook⟩] at hmade
      rw [if_pos hlook]
      split
      · rename_i hg
        refine .answered _ hmade rfl rfl rfl ⟨hmode, htakes.1⟩ htakes.2.2 (.inr (hturn ?_))
        exact ⟨hh, hlook.1, hlook.2, hg⟩
      · exact .answered _ hmade rfl rfl rfl ⟨hmode, htakes.1⟩ htakes.2.2 (.inl rfl)
    · rw [if_neg fun h => hlook h.2] at hmade
      rw [if_neg hlook]
      exact .rests hmade (Rests.refl _)

variable {s : Tracked} {d : Derivation}

theorem key_turn (hturn : InTurn C cfg i s (.key env i Elem)) :
    Turn cfg (derivation C cfg i s.pAd (.key env i Elem)) (some env.random) C (s.pAd.Content i)
      ((step C cfg s.pAd (.key env i Elem)).Content i) := by
  obtain ⟨-, hanswers⟩ := hturn rfl
  simp only [derivation, if_true]
  cases hh : handlerOf cfg (s.pAd.Content i) Elem with
  | none =>
    refine .rests (by simp only [derived, localOf_entry, hh]) ?_
    simp only [step, perform, WpaEAPOLKeyAction, hh]
    exact Rests.refl _
  | some handler =>
    have hnone : handler ∉ [.PeerPairMsg1Action, .PeerPairMsg2Action] →
        derived C cfg env Elem (localOf cfg s.pAd i) = none := by
      intro hne
      simp only [derived, localOf_entry, hh]
      cases handler <;> first | rfl | exact absurd (by decide) hne
    have hown : ∀ {f}, handler.onLocal C cfg env i Elem = some f →
        (step C cfg s.pAd (.key env i Elem)).Content i = (f (localOf cfg s.pAd i)).next.entry := by
      intro f hf
      rw [step, key_onEntry C env hh hf, onEntry_self]
    cases handler with
    | PeerPairMsg1Action =>
      rw [hown rfl]
      exact msg1_turn (l := localOf cfg s.pAd i) hh
    | PeerPairMsg2Action =>
      rw [hown rfl]
      exact msg2_turn (l := localOf cfg s.pAd i) hh hanswers
    | PeerPairMsg3Action =>
      rw [hown rfl]
      rcases msg3_ends (l := localOf cfg s.pAd i) hh with ⟨h, -⟩ | h
      · exact .rests (hnone (by decide)) h
      · exact .ends (hnone (by decide)) (.inr h)
    | PeerPairMsg4Action =>
      rw [hown rfl]
      rcases msg4_ends (l := localOf cfg s.pAd i) hh with ⟨h, -⟩ | h
      · exact .rests (hnone (by decide)) h
      · exact .ends (hnone (by decide)) (.inr h)
    | PeerGroupMsg1Action =>
      rw [hown rfl]
      exact .rests (hnone (by decide)) (groupMsg1_still (l := localOf cfg s.pAd i)).rests
    | PeerGroupMsg2Action =>
      rw [hown rfl]
      exact .rests (hnone (by decide)) (groupMsg2_still (l := localOf cfg s.pAd i)).rests
    | updatePairwiseKey =>
      rw [hown rfl]
      rcases (updatePairwiseKey_idle cfg env i (localOf cfg s.pAd i)).entry with h | h
      · exact .rests (hnone (by decide)) h
      · exact .restarts _ (hnone (by decide)) rfl h
    | RTMPHandleSTAKey => exact .rests (hnone (by decide)) (table_still hh rfl).rests
    | HandleCounterMeasure => exact .rests (hnone (by decide)) (table_still hh rfl).rests
    | updateGroupKey => exact .rests (hnone (by decide)) (table_still hh rfl).rests

theorem onEntry_turn {f : Local → Out} {random : Option Nonce} (hr : j = i → random = some r)
    (hf : ∀ l, Idle r l (f l)) :
    Turn cfg none random C (pAd.Content i) ((onEntry cfg f j pAd).2.2.Content i) := by
  rcases eq_or_ne j i with rfl | hji
  · rw [onEntry_self]
    rcases (hf (localOf cfg pAd j)).entry with h | h
    · exact .rests rfl h
    · exact .restarts r rfl (hr rfl) h
  · exact .rests rfl (other_rests hji)

theorem event_turn {e : Event} (hturn : InTurn C cfg i s e) :
    Turn cfg (derivation C cfg i s.pAd e) (e.random i) C (s.pAd.Content i)
      ((step C cfg s.pAd e).Content i) := by
  cases e with
  | key env j Elem =>
    rcases eq_or_ne j i with rfl | hji
    · simp only [Event.random, if_true]
      exact key_turn hturn
    · exact .rests (if_neg hji) (other_key hji).2
  | eapolStart env j internal =>
    exact onEntry_turn (fun h => if_pos h) fun l => eapolStart_idle cfg env j l internal
  | start4Way env j => exact onEntry_turn (fun h => if_pos h) (start4Way_idle cfg env j)
  | start2Way env j => exact .rests rfl (onEntry_still (start2Way_still cfg env j)).rests
  | retry env j => exact onEntry_turn (fun h => if_pos h) (retry_idle cfg env j)
  | rekey env apidx => exact .rests rfl (rekey_still apidx).rests
  | leave j =>
    have hstill : ∀ l, Still l ⟨.handled, [], MacTableDeleteEntry cfg l⟩ :=
      fun l => ⟨quiet_nil, delete_rests cfg l⟩
    exact .rests rfl (onEntry_still hstill).rests
  | join j e =>
    rcases eq_or_ne j i with rfl | hji
    · refine .ends rfl (.inl ?_)
      simp only [step, perform, MacTableInsertEntry, setEntry_content, update_self]
      exact hturn rfl
    · refine .rests rfl ?_
      simp only [step, perform, MacTableInsertEntry, setEntry_content, update_of_ne hji.symm]
      exact Rests.refl _

theorem installs_ends {e : Event} (h : installs C cfg i pAd e = true) :
    ((step C cfg pAd e).Content i).WpaState = .AS_PTKINITDONE := by
  cases e with
  | key env j Elem =>
    simp only [installs, decide_eq_true_eq] at h
    obtain ⟨rfl, haccepts, -⟩ := h
    have hhandler := haccepts
    unfold accepts at hhandler
    split at hhandler
    · rename_i hh
      rw [step, key_onEntry C env hh rfl, onEntry_self]
      rcases @msg4_ends C cfg env j Elem (localOf cfg pAd j) hh with ⟨-, hno⟩ | hends
      · rw [haccepts] at hno
        cases hno
      · exact hends
    · rename_i hh
      rw [step, key_onEntry C env hh rfl, onEntry_self]
      rcases @msg3_ends C cfg env j Elem (localOf cfg pAd j) hh with ⟨-, hno⟩ | hends
      · rw [haccepts] at hno
        cases hno
      · exact hends
    · cases hhandler
  | _ => cases h

/-- What the entry holds while a handshake is going on: the key of the derivation that was made
last, with a nonce that is new since the last install. -/
structure Follows (C : Crypto) (cfg : Config) (i : Wcid) (s : Tracked) : Prop where
  keys : s.keys = s.spent.map fun d => TK (d.ptk C)
  made : (s.pAd.Content i).WpaState = .AS_PTKINIT_NEGOTIATING →
    ∃ d, s.made = some d ∧ (s.pAd.Content i).PTK = d.ptk C ∧ (s.spent ≠ [] → d.Renewed s.drawn)
  asked : cfg.OpMode = .AP → (s.pAd.Content i).EntryType = .CLIENT →
    .AS_PTKSTART ≤ (s.pAd.Content i).WpaState →
    (s.pAd.Content i).WpaState ≤ .AS_PTKINIT_NEGOTIATING → s.spent ≠ [] →
      (s.pAd.Content i).ANonce ∈ s.drawn

theorem Follows.start (hstart : (pAd.Content i).WpaState < .AS_PTKSTART) :
    Follows C cfg i (.start pAd) := by
  constructor
  · rfl
  · intro (hstate : (pAd.Content i).WpaState = _)
    rw [hstate] at hstart
    exact absurd hstart (by decide)
  · exact fun _ _ _ _ hspent => (hspent rfl).elim

theorem track_installs {e : Event} (h : installs C cfg i s.pAd e = true) :
    track C cfg i s e =
      ⟨step C cfg s.pAd e, TK (s.pAd.Content i).PTK :: s.keys, s.made.toList ++ s.spent,
        (derivation C cfg i s.pAd e).or s.made, []⟩ := by
  simp only [track, step, perform_installedOf, h, if_true, List.cons_ne_nil, if_false,
    List.singleton_append]

theorem track_quiet {e : Event} (h : installs C cfg i s.pAd e = false) :
    track C cfg i s e =
      ⟨step C cfg s.pAd e, s.keys, s.spent, (derivation C cfg i s.pAd e).or s.made,
        (e.random i).toList ++ s.drawn⟩ := by
  simp only [track, step, perform_installedOf, h, Bool.false_eq_true, if_false, if_true,
    List.nil_append]

theorem Derivation.Renewed.append (h : d.Renewed s.drawn) (rs : List Nonce) :
    d.Renewed (rs ++ s.drawn) :=
  h.imp (List.mem_append_right _) (List.mem_append_right _)

theorem not_going_on {e : MAC_TABLE_ENTRY}
    (h : e.WpaState < .AS_PTKSTART ∨ e.WpaState = .AS_PTKINITDONE) :
    e.WpaState ≠ .AS_PTKINIT_NEGOTIATING ∧
      ¬ (.AS_PTKSTART ≤ e.WpaState ∧ e.WpaState ≤ .AS_PTKINIT_NEGOTIATING) := by
  rcases h with h | h
  · refine ⟨fun hstate => ?_, fun hgoing => absurd h (not_lt.mpr hgoing.1)⟩
    rw [hstate] at h
    exact absurd h (by decide)
  · rw [h]
    exact ⟨nofun, by decide⟩

/-- The PTK that is installed has been derived with a nonce that is new. -/
theorem Follows.used {e : Event} (h : Follows C cfg i s) (hturn : InTurn C cfg i s e)
    (hinstalls : installs C cfg i s.pAd e = true) :
    ∃ d, s.made = some d ∧ (s.pAd.Content i).PTK = d.ptk C ∧ (s.spent ≠ [] → d.Renewed s.drawn) := by
  cases e with
  | key env j Elem =>
    simp only [installs, decide_eq_true_eq] at hinstalls
    exact h.made ((hturn hinstalls.1).1 hinstalls.2.1)
  | _ => cases hinstalls

theorem Follows.track {e : Event} (h : Follows C cfg i s) (hturn : InTurn C cfg i s e) :
    Follows C cfg i (track C cfg i s e) := by
  cases hinstalls : installs C cfg i s.pAd e with
  | true =>
    obtain ⟨hno, hnone⟩ := not_going_on (.inr (installs_ends hinstalls))
    obtain ⟨d, hmade, hptk, -⟩ := h.used hturn hinstalls
    rw [track_installs hinstalls]
    refine ⟨?_, fun hstate => (hno hstate).elim, fun _ _ hge hle => (hnone ⟨hge, hle⟩).elim⟩
    simp only [hmade, hptk, h.keys, Option.toList_some, List.singleton_append, List.map_cons]
  | false =>
    rw [track_quiet hinstalls]
    refine ⟨h.keys, ?_, ?_⟩ <;> dsimp only
    all_goals rcases event_turn hturn with
      ⟨hmade, hrests⟩ | ⟨r, hmade, hr, hrestarts⟩ | ⟨hmade, hends⟩ |
        ⟨d, hmade, hr, hptk, hkind⟩ |
        ⟨d, hmade, hptk, hnonce, hkept, hkind, hstate, hstep⟩
    · intro hstate
      obtain ⟨d, hd, hptk, hnew⟩ := h.made (hrests.state.symm.trans hstate)
      rw [hmade, Option.none_or]
      exact ⟨d, hd, hrests.ptk.trans hptk, fun hspent => (hnew hspent).append _⟩
    · intro hstate
      rcases hrestarts with hearly | ⟨hstart, -⟩
      · exact ((not_going_on (.inl hearly)).1 hstate).elim
      · rw [hstart] at hstate
        cases hstate
    · exact fun hstate => ((not_going_on hends).1 hstate).elim
    · intro _
      rw [hmade, hr]
      exact ⟨d, rfl, hptk, fun _ => .inr List.mem_cons_self⟩
    · intro hgoing
      rw [hmade]
      refine ⟨d, rfl, hptk, fun hspent => .inl (List.mem_append_right _ ?_)⟩
      rw [hnonce]
      refine h.asked hkind.1 hkind.2 hstate ?_ hspent
      exact hstep.elim (fun hsame => (hsame.symm.trans hgoing).le) id
    · intro hAP hkind hge hle hspent
      rw [hrests.state] at hge hle
      rw [hrests.nonce]
      exact List.mem_append_right _ (h.asked hAP (hrests.kind hkind) hge hle hspent)
    · intro _ _ hge _ _
      rcases hrestarts with hearly | ⟨-, hnonce⟩
      · exact absurd hearly (not_lt.mpr hge)
      · rw [hnonce, hr]
        exact List.mem_cons_self
    · exact fun _ _ hge hle => ((not_going_on hends).2 ⟨hge, hle⟩).elim
    · exact fun hAP hclient => (hkind hAP hclient).elim
    · intro _ _ _ hle hspent
      rw [hkept]
      refine List.mem_append_right _ (h.asked hkind.1 hkind.2 hstate ?_ hspent)
      exact hstep.elim (fun hsame => hsame ▸ hle) id

theorem Follows.renewed {e : Event} (h : Follows C cfg i s) (hturn : InTurn C cfg i s e) :
    InstallsRenewed C cfg i s e := by
  intro hinstalled hkeys
  rw [perform_installedOf] at hinstalled
  split at hinstalled
  · rename_i hinstalls
    obtain ⟨d, hmade, hptk, hnew⟩ := h.used hturn hinstalls
    refine ⟨d, hmade, hptk, hnew fun hspent => hkeys ?_⟩
    rw [h.keys, hspent, List.map_nil]
  · exact (hinstalled rfl).elim

/-- No random number since the last install is a nonce of a PTK that has been used, and no two of
these have the same nonces. -/
structure Unspent (s : Tracked) : Prop where
  fresh : ∀ r ∈ s.drawn, ∀ d ∈ s.spent, ¬ d.Uses r
  made : ∀ d ∈ s.made, d.ANonce ≠ d.SNonce
  spent : ∀ d ∈ s.spent, d.ANonce ≠ d.SNonce
  nodup : (s.spent.map Derivation.hashed).Nodup

theorem Unspent.track {e : Event} (hu : Unspent s) (h : Follows C cfg i s)
    (hturn : InTurn C cfg i s e) (hfresh : FreshNonces C cfg i s e) :
    Unspent (track C cfg i s e) := by
  have hmade : ∀ d ∈ (derivation C cfg i s.pAd e).or s.made, d.ANonce ≠ d.SNonce := by
    intro d hd
    rcases Option.or_eq_some_iff.mp hd with hd | ⟨-, hd⟩
    · exact hfresh.2 d hd
    · exact hu.made d hd
  cases hinstalls : installs C cfg i s.pAd e with
  | true =>
    obtain ⟨d, hd, -, hnew⟩ := h.used hturn hinstalls
    rw [track_installs hinstalls, hd]
    refine ⟨nofun, hd ▸ hmade, ?_, ?_⟩
    · intro d' hd'
      rcases List.mem_cons.mp hd' with rfl | hd'
      · exact hu.made _ hd
      · exact hu.spent d' hd'
    · refine List.nodup_cons.mpr ⟨fun hmem => ?_, hu.nodup⟩
      obtain ⟨d', hd', hsame⟩ := List.mem_map.mp hmem
      have huses : ∀ {r}, d.Uses r → d'.Uses r :=
        Derivation.uses_of_hashed (hu.made d hd) (hu.spent d' hd') hsame.symm
      rcases hnew (List.ne_nil_of_mem hd') with hr | hr
      · exact hu.fresh _ hr d' hd' (huses (.inl rfl))
      · exact hu.fresh _ hr d' hd' (huses (.inr rfl))
  | false =>
    rw [track_quiet hinstalls]
    refine ⟨fun r hr d hd => ?_, hmade, hu.spent, hu.nodup⟩
    rcases List.mem_append.mp hr with hr | hr
    · exact hfresh.1 r (Option.mem_toList.mp hr) d hd
    · exact hu.fresh r hr d hd

/-- In a run in which the messages 2, 3 and 4 are taken in turn, a further pairwise key is only
installed from a PTK that was derived with a random number drawn since the last install. If the
random numbers are new and the hash has no collision, no temporal key is installed twice. -/
theorem installs_once (C : Crypto) (cfg : Config) (i : Wcid) (pAd : RTMP_ADAPTER)
    (es : List Event) (hstart : (pAd.Content i).WpaState < .AS_PTKSTART)
    (hturn : Run.AllSteps (track C cfg i) (InTurn C cfg i) (.start pAd) es) :
    Run.AllSteps (track C cfg i) (InstallsRenewed C cfg i) (.start pAd) es ∧
      (Run.AllSteps (track C cfg i) (FreshNonces C cfg i) (.start pAd) es →
        NoCollision C (Run.exec (track C cfg i) (.start pAd) es).spent →
          (Run.exec (track C cfg i) (.start pAd) es).keys.Nodup) := by
  have hfollows : Follows C cfg i (.start pAd) := .start hstart
  constructor
  · exact Run.AllSteps.of_inv (fun s e h hp => h.track hp) (fun s e h hp => h.renewed hp) hfollows
      hturn
  · intro hfresh hhash
    have hall := Run.exec_inv (I := fun s => Follows C cfg i s ∧ Unspent s)
      (fun s e hs hp => ⟨hs.1.track hp.1, hs.2.track hs.1 hp.1 hp.2⟩)
      ⟨hfollows, nofun, nofun, nofun, List.nodup_nil⟩ (hturn.and hfresh)
    rw [hall.1.keys]
    have hinj := List.inj_on_of_nodup_map hall.2.nodup
    exact (hall.2.nodup.of_map _).map_on fun d hd d' hd' hkey =>
      hinj hd hd' (hhash d hd d' hd' hkey)

/-- A handshake, and after the request for a new pairwise key another one. -/
def twoHandshakes : List Event :=
  [.start4Way (drawing 1) 0, .key (drawing 1) 0 (tkipMsg 1 1 1), .key (drawing 1) 0 (tkipMsg 1 2 0),
    .key (drawing 2) 0 (tkipMsg 8 2 0), .key (drawing 2) 0 (tkipMsg 1 1 1),
    .key (drawing 2) 0 (tkipMsg 1 2 0)]

theorem installs_once_twoHandshakes :
    (Run.exec (track sumHash apConfig 0) (.start tkipAp) twoHandshakes).keys.length = 2 ∧
      Run.AllSteps (track sumHash apConfig 0) (InstallsRenewed sumHash apConfig 0) (.start tkipAp)
        twoHandshakes ∧
      (Run.exec (track sumHash apConfig 0) (.start tkipAp) twoHandshakes).keys.Nodup := by
  have hall := installs_once sumHash apConfig 0 tkipAp twoHandshakes (by decide) (by decide +kernel)
  exact ⟨by decide +kernel, hall.1, hall.2 (by decide +kernel) (by decide +kernel)⟩

/-- A message 4 is taken twice. -/
theorem key_installed_twice :
    ¬ ∀ (C : Crypto) (cfg : Config) (i : Wcid) (pAd : RTMP_ADAPTER) (es : List Event),
      (pAd.Content i).WpaState < .AS_PTKSTART →
      Run.AllSteps (track C cfg i) (FreshNonces C cfg i) (.start pAd) es →
      NoCollision C (Run.exec (track C cfg i) (.start pAd) es).spent →
        (Run.exec (track C cfg i) (.start pAd) es).keys.Nodup ∧
          Run.AllSteps (track C cfg i) (InstallsRenewed C cfg i) (.start pAd) es := by
  intro h
  have hall := h sumHash apConfig 0 tkipAp
    [.start4Way (drawing 1) 0, .key (drawing 1) 0 (tkipMsg 1 1 1),
      .key (drawing 1) 0 (tkipMsg 1 2 0), .key (drawing 2) 0 (tkipMsg 1 2 0)]
    (by decide) (by decide +kernel) (by decide +kernel)
  exact absurd hall.1 (by decide +kernel)

end Ralink.Wpa
