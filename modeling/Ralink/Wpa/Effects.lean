import Ralink.Wpa.Machine

/-! For each handler the ways it can end, with what it has looked at and what it leaves behind. -/
namespace Ralink.Wpa
open Function
open Station (Wcid)

variable {C : Crypto} {cfg : Config} {env : Env} {i : Wcid} {Elem : MLME_QUEUE_ELEM} {l : Local}
  (Msg : EAPOL_PACKET) {e : MAC_TABLE_ENTRY}

theorem start4Way_cases (cfg : Config) (env : Env) (i : Wcid) (l : Local) :
    WPAStart4WayHS cfg env i l = drop l ∨
    canStart cfg l.entry = true ∧
      (WPAStart4WayHS cfg env i l = ⟨.handled, [], { l with entry.WpaState := .AS_NOTUSE }⟩ ∨
        WPAStart4WayHS cfg env i l =
          drop { l with entry.R_Counter := l.entry.R_Counter + 1, entry.ANonce := env.random } ∨
        WPAStart4WayHS cfg env i l =
          sendMsg1
            { l with
              entry.R_Counter := l.entry.R_Counter + 1, entry.ANonce := env.random }) := by
  unfold WPAStart4WayHS
  by_cases hno : env.closed = true ∨ canStart cfg l.entry = false
  · exact .inl (if_pos hno)
  · have hcan : canStart cfg l.entry = true := by simpa using (not_or.mp hno).2
    rw [if_neg hno]
    refine .inr ⟨hcan, ?_⟩
    by_cases hen : isEnrollee l = true
    · exact .inl (if_pos hen)
    · rw [if_neg hen]
      by_cases hmem : env.mpool i = false
      · exact .inr (.inl (if_pos hmem))
      · exact .inr (.inr (if_neg hmem))

theorem msg2_eq (C : Crypto) (env : Env) (i : Wcid) (Elem : MLME_QUEUE_ELEM) (l : Local)
    (hAP : cfg.OpMode = .AP) :
    PeerPairMsg2Action C cfg env i Elem l =
      if takesMsg2 Elem l.entry = true ∧ inBss cfg l.entry = true then
        if Genuine C (derivePtk C l Elem.Msg).entry Elem.Msg ∧ env.keydata = true ∧
            env.mpool i = true then
          sendMsg3 (derivePtk C l Elem.Msg)
        else drop (derivePtk C l Elem.Msg)
      else drop l := by
  unfold PeerPairMsg2Action
  rw [hAP]
  cases htakes : takesMsg2 Elem l.entry with
  | false => rfl
  | true =>
    cases hin : inBss cfg l.entry with
    | false => rfl
    | true =>
      simp only [sanity_toAuthenticator (.inl rfl)]
      by_cases hg : Genuine C (derivePtk C l Elem.Msg).entry Elem.Msg
      · cases hk : env.keydata <;> cases hm : env.mpool i <;>
          simp [hg, drop, Out.then, sendMsg3]
      · cases hk : env.keydata <;> simp [hg, drop]

theorem msg2_cases (C : Crypto) (env : Env) (i : Wcid) (Elem : MLME_QUEUE_ELEM) (l : Local)
    (hAP : cfg.OpMode = .AP) :
    PeerPairMsg2Action C cfg env i Elem l = drop l ∨
    takesMsg2 Elem l.entry = true ∧ inBss cfg l.entry = true ∧
      (PeerPairMsg2Action C cfg env i Elem l = drop (derivePtk C l Elem.Msg) ∧
          ¬ (Genuine C (derivePtk C l Elem.Msg).entry Elem.Msg ∧ env.keydata = true ∧
            env.mpool i = true) ∨
        PeerPairMsg2Action C cfg env i Elem l = sendMsg3 (derivePtk C l Elem.Msg) ∧
          Genuine C (derivePtk C l Elem.Msg).entry Elem.Msg ∧ env.keydata = true ∧
            env.mpool i = true) := by
  rw [msg2_eq C env i Elem l hAP]
  by_cases hlook : takesMsg2 Elem l.entry = true ∧ inBss cfg l.entry = true
  · rw [if_pos hlook]
    refine .inr ⟨hlook.1, hlook.2, ?_⟩
    split
    · rename_i hg
      exact .inr ⟨rfl, hg⟩
    · rename_i hg
      exact .inl ⟨rfl, hg⟩
  · exact .inl (if_neg hlook)

theorem msg4_eq (C : Crypto) (cfg : Config) (env : Env) (i : Wcid) (Elem : MLME_QUEUE_ELEM)
    (l : Local) :
    PeerPairMsg4Action C cfg env i Elem l =
      if takesMsg4 cfg Elem l.entry = true ∧ Genuine C l.entry Elem.Msg ∧ env.keydata = true then
        (openPort true l).then (afterMsg4 C cfg env i)
      else drop l := by
  unfold PeerPairMsg4Action
  rw [sanity_toAuthenticator (.inr (.inl rfl))]
  cases htakes : takesMsg4 cfg Elem l.entry with
  | false => rfl
  | true =>
    by_cases hg : Genuine C l.entry Elem.Msg
    · cases hk : env.keydata <;> simp [hg, drop, Out.then]
    · cases hk : env.keydata <;> simp [hg, drop]

theorem msg4_cases (C : Crypto) (cfg : Config) (env : Env) (i : Wcid) (Elem : MLME_QUEUE_ELEM)
    (l : Local) :
    PeerPairMsg4Action C cfg env i Elem l = drop l ∧
        ¬ (takesMsg4 cfg Elem l.entry = true ∧ Genuine C l.entry Elem.Msg ∧
          env.keydata = true) ∨
    PeerPairMsg4Action C cfg env i Elem l = (openPort true l).then (afterMsg4 C cfg env i) ∧
      takesMsg4 cfg Elem l.entry = true ∧ Genuine C l.entry Elem.Msg ∧ env.keydata = true := by
  rw [msg4_eq]
  split
  · rename_i hg
    exact .inr ⟨rfl, hg⟩
  · rename_i hg
    exact .inl ⟨rfl, hg⟩

theorem openPort_entry (bAE : Bool) (l : Local) :
    ∃ PairwiseKey, (openPort bAE l).next =
      { l with
        entry :=
          { l.entry with
            PairwiseKey := PairwiseKey
            PrivacyFilter := .PrivFilterAcceptAll
            WpaState := .AS_PTKINITDONE
            PortSecured := .WPA_802_1X_PORT_SECURED } } := by
  unfold openPort WPAInstallPairwiseKey
  cases pairwiseKey l.entry.WepStatus l.entry.PTK bAE with
  | none => exact ⟨noKey, rfl⟩
  | some key => exact ⟨key, rfl⟩

@[simp] theorem cachePmk_entry (C : Crypto) (cfg : Config) (env : Env) (l : Local) :
    (cachePmk C cfg env l).entry = l.entry := by
  unfold cachePmk
  split <;> rfl

@[simp] theorem forgetEnrollee_entry (l : Local) : (forgetEnrollee l).entry = l.entry := by
  unfold forgetEnrollee
  dsimp only
  split <;> rfl

theorem inform_entry (cfg : Config) (l : Local) :
    ∃ bWscCapable,
      (WscInformFromWPA cfg l).entry = { l.entry with bWscCapable := bWscCapable } := by
  unfold WscInformFromWPA
  split
  · exact ⟨false, rfl⟩
  · exact ⟨l.entry.bWscCapable, rfl⟩

theorem groupMsg2_eq (C : Crypto) (cfg : Config) (env : Env) (Elem : MLME_QUEUE_ELEM)
    (l : Local) :
    PeerGroupMsg2Action C cfg env Elem l =
      if takesGroupMsg2 cfg Elem l.entry = true ∧ Genuine C l.entry Elem.Msg ∧
          env.keydata = true then
        ⟨.handled, [],
          { l with entry.GTKState := .REKEY_ESTABLISHED, entry.RetryTimer := false }⟩
      else drop l := by
  unfold PeerGroupMsg2Action
  rw [sanity_toAuthenticator (.inr (.inr rfl))]
  cases htakes : takesGroupMsg2 cfg Elem l.entry with
  | false => rfl
  | true =>
    by_cases hg : Genuine C l.entry Elem.Msg
    · cases hk : env.keydata <;> simp [hg, drop]
    · cases hk : env.keydata <;> simp [hg, drop]

theorem groupMsg2_cases (C : Crypto) (cfg : Config) (env : Env) (Elem : MLME_QUEUE_ELEM)
    (l : Local) :
    PeerGroupMsg2Action C cfg env Elem l = drop l ∧
        ¬ (takesGroupMsg2 cfg Elem l.entry = true ∧ Genuine C l.entry Elem.Msg ∧
          env.keydata = true) ∨
    PeerGroupMsg2Action C cfg env Elem l =
        ⟨.handled, [],
          { l with entry.GTKState := .REKEY_ESTABLISHED, entry.RetryTimer := false }⟩ ∧
      takesGroupMsg2 cfg Elem l.entry = true ∧ Genuine C l.entry Elem.Msg ∧
        env.keydata = true := by
  rw [groupMsg2_eq]
  split
  · rename_i hg
    exact .inr ⟨rfl, hg⟩
  · rename_i hg
    exact .inl ⟨rfl, hg⟩

theorem start2Way_cases (env : Env) (i : Wcid) (l : Local) (hAP : cfg.OpMode = .AP) :
    WPAStart2WayGroupHS cfg env i l = drop l ∨
    WPAStart2WayGroupHS cfg env i l =
      ⟨.handled, [.groupMsg1 (l.entry.R_Counter + 1) l.mbss.DefaultKeyId l.mbss.GTK],
        { l with entry.R_Counter := l.entry.R_Counter + 1 }⟩ := by
  unfold WPAStart2WayGroupHS
  rw [hAP]
  split
  · exact .inl rfl
  · exact .inr rfl

theorem start2Way_entry (cfg : Config) (env : Env) (i : Wcid) (l : Local) :
    (WPAStart2WayGroupHS cfg env i l).next.entry = l.entry ∨
    (WPAStart2WayGroupHS cfg env i l).next.entry =
      { l.entry with R_Counter := l.entry.R_Counter + 1 } := by
  unfold WPAStart2WayGroupHS
  split
  · exact .inl rfl
  · cases cfg.OpMode <;> exact .inr rfl

@[simp] theorem takePmk_entry (l : Local) : (takePmk l).1.entry = l.entry := by
  unfold takePmk
  split <;> rfl

@[simp] theorem sendMsg1_entry (l : Local) :
    (sendMsg1 l).next.entry = { l.entry with RetryTimer := true, WpaState := .AS_PTKSTART } := by
  simp [sendMsg1]

@[simp] theorem sendMsg3_verdict (l : Local) : (sendMsg3 l).verdict = .handled := rfl

@[simp] theorem sendMsg3_acts (l : Local) :
    (sendMsg3 l).acts =
      [.pairMsg3 (l.entry.R_Counter + 1) l.entry.ANonce l.mbss.DefaultKeyId l.mbss.GTK] := rfl

@[simp] theorem sendMsg3_R_Counter (l : Local) :
    (sendMsg3 l).next.entry.R_Counter = l.entry.R_Counter + 1 := rfl

@[simp] theorem derivePtk_mbss : (derivePtk C l Msg).mbss = l.mbss := rfl

@[simp] theorem derivePtk_R_Counter : (derivePtk C l Msg).entry.R_Counter = l.entry.R_Counter := rfl

@[simp] theorem derivePtk_ANonce : (derivePtk C l Msg).entry.ANonce = l.entry.ANonce := rfl

theorem derivePtk_PTK :
    (derivePtk C l Msg).entry.PTK =
      WpaDerivePTK C l.mbss.PMK l.entry.ANonce l.mbss.Bssid Msg.KeyDesc.KeyNonce l.entry.Addr :=
  rfl

theorem lt_of_canStart (h : canStart cfg e = true) : e.WpaState ≤ .AS_PTKSTART := by
  simp only [canStart, decide_eq_true_eq, not_or, not_lt] at h
  exact h.2.2.2.1

theorem afterMsg4_verdict (hAP : cfg.OpMode = .AP) :
    (afterMsg4 C cfg env i l).verdict = .handled := by
  unfold afterMsg4
  rw [if_pos hAP]
  generalize WscInformFromWPA cfg l = l'
  dsimp only
  by_cases h2 : l'.entry.bWPA2 = true
  · rw [if_pos h2]
  · rw [if_neg h2]
    rcases start2Way_cases env i l' hAP with hsend | hsend <;>
      rw [hsend, if_neg] <;> exact Verdict.noConfusion

theorem takesSupplicant_ap (hAP : cfg.OpMode = .AP) {type : MsgType} (hne : e.EntryType ≠ .APCLI) :
    takesSupplicant cfg Elem type e = false := by
  simp [takesSupplicant, hasCurrentAddr, hAP, hne]

variable {pAd : RTMP_ADAPTER} {j : Wcid} (apidx : Nat) (f : Local → Out) {h : Handler}
  (s : RTMP_ADAPTER)

@[simp] theorem setEntry_content (e : MAC_TABLE_ENTRY) :
    (setEntry pAd i e).Content = update pAd.Content i e := rfl

@[simp] theorem setMbss_content (m : MULTISSID_STRUCT) :
    (setMbss pAd apidx m).Content = pAd.Content := rfl

@[simp] theorem deriveDls_content (Addr : Mac) :
    (deriveDls C apidx Addr pAd).Content = pAd.Content := rfl

@[simp] theorem localOf_entry : (localOf cfg pAd j).entry = pAd.Content j := rfl

theorem onEntry_content :
    (onEntry cfg f j pAd).2.2.Content =
      update pAd.Content j (f (localOf cfg pAd j)).next.entry := rfl

theorem onEntry_verdict : (onEntry cfg f j pAd).1 = (f (localOf cfg pAd j)).verdict := rfl

theorem onEntry_acts :
    (onEntry cfg f j pAd).2.1 = (f (localOf cfg pAd j)).acts.map fun a => (.entry j, a) := rfl

theorem onEntry_self : (onEntry cfg f j pAd).2.2.Content j = (f (localOf cfg pAd j)).next.entry :=
  update_self j _ _

theorem key_onEntry (C : Crypto) (env : Env) {f : Local → Out}
    (hh : handlerOf cfg (pAd.Content i) Elem = some h) (hf : h.onLocal C cfg env i Elem = some f) :
    perform C cfg (.key env i Elem) pAd = onEntry cfg f i pAd := by
  simp only [perform, WpaEAPOLKeyAction, hh, hf]

theorem wellFormed_of_handlerOf {e : MAC_TABLE_ENTRY} (hh : handlerOf cfg e Elem = some h) :
    wellFormed e Elem = true ∧ e.Sst = .SST_ASSOC ∧ e.WpaState ≥ .AS_INITPSK := by
  unfold handlerOf at hh
  by_contra hno
  rw [if_neg hno] at hh
  exact (Option.some_ne_none h hh.symm).elim

theorem forEntries_inv {P : RTMP_ADAPTER → Prop} {f : Wcid → RTMP_ADAPTER → Acts × RTMP_ADAPTER}
    (hf : ∀ j pAd, P pAd → P (f j pAd).2) (h : P s) : P (forEntries f s).2 := by
  have hfold : ∀ (js : List Wcid) (s : Acts × RTMP_ADAPTER), P s.2 →
      P (js.foldl (fun s i => let r := f i s.2; (s.1 ++ r.1, r.2)) s).2 := by
    intro js
    induction js with
    | nil => exact fun s hs => hs
    | cons j js ih => exact fun s hs => ih _ (hf j s.2 hs)
  unfold forEntries
  exact hfold _ ([], s) h

theorem forEntries_all {P : Wcid → RTMP_ADAPTER → Prop}
    {f : Wcid → RTMP_ADAPTER → Acts × RTMP_ADAPTER} (hturn : ∀ j pAd, P j (f j pAd).2)
    (hkeep : ∀ i j pAd, P i pAd → P i (f j pAd).2) : ∀ i, P i (forEntries f s).2 := by
  have hfold : ∀ (js : List Wcid) (s : Acts × RTMP_ADAPTER) (i : Wcid), i ∈ js ∨ P i s.2 →
      P i (js.foldl (fun s i => let r := f i s.2; (s.1 ++ r.1, r.2)) s).2 := by
    intro js
    induction js with
    | nil => exact fun s i h => h.resolve_left List.not_mem_nil
    | cons j js ih =>
      intro s i h
      apply ih
      rcases h with h | h
      · rcases List.mem_cons.mp h with rfl | h
        · exact .inr (hturn i s.2)
        · exact .inl h
      · exact .inr (hkeep i j s.2 h)
  intro i
  unfold forEntries
  exact hfold _ ([], s) i (.inl (List.mem_finRange i))

theorem forEntries_acts {P : Target × Act → Prop} {f : Wcid → RTMP_ADAPTER → Acts × RTMP_ADAPTER}
    (hf : ∀ j pAd, ∀ x ∈ (f j pAd).1, P x) : ∀ x ∈ (forEntries f s).1, P x := by
  have hfold : ∀ (js : List Wcid) (s : Acts × RTMP_ADAPTER), (∀ x ∈ s.1, P x) →
      ∀ x ∈ (js.foldl (fun s i => let r := f i s.2; (s.1 ++ r.1, r.2)) s).1, P x := by
    intro js
    induction js with
    | nil => exact fun s hs => hs
    | cons j js ih =>
      intro s hs
      apply ih
      intro x hx
      rcases List.mem_append.mp hx with hx | hx
      · exact hs x hx
      · exact hf j s.2 x hx
  unfold forEntries
  exact hfold _ ([], s) nofun

end Ralink.Wpa
