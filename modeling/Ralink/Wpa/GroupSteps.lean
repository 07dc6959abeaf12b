import Ralink.Wpa.Effects

/-! The handlers of one entry leave the group keys of its BSS alone. What they send of them, and
which of them can make an entry one that has confirmed the group key. -/
namespace Ralink.Wpa
open Function
open Station (Wcid)

variable {C : Crypto} {cfg : Config} {env : Env} {i : Wcid} {Elem : MLME_QUEUE_ELEM} {l l' : Local}
  {o : Out} {acts : List Act} (bWPA2 : Bool) (sent : Sent)

abbrev Sent := Option (Nat × GTK)

/-- The group key in a frame, with its index. In a message 3 it is with WPA2 only. -/
def carried (bWPA2 : Bool) : Act → Sent
  | .groupMsg1 _ DefaultKeyId gtk => some (DefaultKeyId, gtk)
  | .pairMsg3 _ _ DefaultKeyId gtk => if bWPA2 then some (DefaultKeyId, gtk) else none
  | _ => none

def lastSent (bWPA2 : Bool) (sent : Sent) (acts : List Act) : Sent :=
  acts.foldl (fun sent a => (carried bWPA2 a).or sent) sent

@[simp] theorem lastSent_nil : lastSent bWPA2 sent [] = sent := rfl

theorem lastSent_append (acts acts' : List Act) :
    lastSent bWPA2 sent (acts ++ acts') = lastSent bWPA2 (lastSent bWPA2 sent acts) acts' :=
  List.foldl_append

def Mute (acts : List Act) : Prop := ∀ bWPA2, ∀ a ∈ acts, carried bWPA2 a = none

theorem Mute.lastSent (h : Mute acts) (bWPA2 : Bool) (sent : Sent) :
    lastSent bWPA2 sent acts = sent := by
  induction acts with
  | nil => rfl
  | cons a acts ih =>
    have hone := h bWPA2 a List.mem_cons_self
    have hrest := ih fun b a' ha => h b a' (List.mem_cons_of_mem a ha)
    simpa only [Wpa.lastSent, List.foldl_cons, hone, Option.none_or] using hrest

theorem mute_nil : Mute [] := nofun

theorem mute_one {a : Act} (h : ∀ bWPA2, carried bWPA2 a = none) : Mute [a] := by
  intro bWPA2 a' ha
  rw [List.mem_singleton.mp ha]
  exact h bWPA2

theorem Mute.append {acts' : List Act} (h : Mute acts) (h' : Mute acts') :
    Mute (acts ++ acts') := by
  intro bWPA2 a ha
  rcases List.mem_append.mp ha with ha | ha
  · exact h bWPA2 a ha
  · exact h' bWPA2 a ha

def MULTISSID_STRUCT.groupState (m : MULTISSID_STRUCT) :=
  (m.GroupKeyWepStatus, m.GMK, m.Bssid, m.DefaultKeyId, m.GTK, m.SharedKey, m.RekeyCountDown)

def currentGtk (m : MULTISSID_STRUCT) : Nat × GTK := (m.DefaultKeyId, m.GTK)

theorem current_of_group {m m' : MULTISSID_STRUCT} (h : m'.groupState = m.groupState) :
    currentGtk m' = currentGtk m := by
  simp only [MULTISSID_STRUCT.groupState, Prod.mk.injEq] at h
  simp only [currentGtk, h]

/-- A client that is done and has confirmed the group key. -/
def Established (e : MAC_TABLE_ENTRY) : Prop :=
  e.EntryType = .CLIENT ∧ e.WpaState = .AS_PTKINITDONE ∧ e.GTKState = .REKEY_ESTABLISHED

/-- An entry that has confirmed the group key was last sent the one in force. -/
def InStep (m : MULTISSID_STRUCT) (e : MAC_TABLE_ENTRY) (sent : Sent) : Prop :=
  Established e → sent = some (currentGtk m)

structure Steady (sent : Sent) (l : Local) (o : Out) : Prop where
  group : o.next.mbss.groupState = l.mbss.groupState
  apidx : o.next.entry.apidx = l.entry.apidx
  inStep : InStep l.mbss l.entry sent →
    InStep o.next.mbss o.next.entry (lastSent l.entry.bWPA2 sent o.acts)

variable {sent} {e : MAC_TABLE_ENTRY}

theorem Steady.of_not (hgroup : o.next.mbss.groupState = l.mbss.groupState)
    (hapidx : o.next.entry.apidx = l.entry.apidx) (h : ¬ Established o.next.entry) :
    Steady sent l o :=
  ⟨hgroup, hapidx, fun _ hdone => (h hdone).elim⟩

theorem Steady.of_mute (hgroup : o.next.mbss.groupState = l.mbss.groupState)
    (hapidx : o.next.entry.apidx = l.entry.apidx) (hmute : Mute o.acts)
    (h : Established o.next.entry → Established l.entry) : Steady sent l o := by
  refine ⟨hgroup, hapidx, fun hstep hdone => ?_⟩
  rw [hmute.lastSent, current_of_group hgroup]
  exact hstep (h hdone)

theorem drop_steady : Steady sent l (drop l) := Steady.of_mute rfl rfl mute_nil id

theorem Steady.before (h : Steady sent l' o) (hgroup : l'.mbss.groupState = l.mbss.groupState)
    (hapidx : l'.entry.apidx = l.entry.apidx) (hmode : l'.entry.bWPA2 = l.entry.bWPA2)
    (hdone : Established l'.entry → Established l.entry) :
    Steady sent l o := by
  refine ⟨h.group.trans hgroup, h.apidx.trans hapidx, fun hstep => ?_⟩
  have hstep' : InStep l'.mbss l'.entry sent := by
    intro hest
    rw [current_of_group hgroup]
    exact hstep (hdone hest)
  rw [← hmode]
  exact h.inStep hstep'

theorem not_established_of_state (h : e.WpaState ≠ .AS_PTKINITDONE) :
    ¬ Established e := fun hdone => h hdone.2.1

theorem not_established_of_kind (h : e.EntryType ≠ .CLIENT) :
    ¬ Established e := fun hdone => h hdone.1

theorem takePmk_group (l : Local) : (takePmk l).1.mbss.groupState = l.mbss.groupState := by
  unfold takePmk
  split <;> rfl

theorem start4Way_steady (cfg : Config) (env : Env) (i : Wcid) (l : Local) :
    Steady sent l (WPAStart4WayHS cfg env i l) := by
  rcases start4Way_cases cfg env i l with heq | ⟨-, heq | heq | heq⟩ <;> rw [heq]
  · exact drop_steady
  · exact Steady.of_not rfl rfl (not_established_of_state nofun)
  · exact Steady.of_mute rfl rfl mute_nil id
  · apply Steady.of_not
    · exact takePmk_group _
    · rw [sendMsg1_entry]
    · rw [sendMsg1_entry]
      exact not_established_of_state nofun

theorem start2Way_steady (env : Env) (i : Wcid) (l : Local) (hAP : cfg.OpMode = .AP) :
    Steady sent l (WPAStart2WayGroupHS cfg env i l) := by
  rcases start2Way_cases env i l hAP with heq | heq <;> rw [heq]
  · exact drop_steady
  · exact ⟨rfl, rfl, fun _ _ => rfl⟩

theorem eapolStart_steady (cfg : Config) (env : Env) (i : Wcid) (l : Local) (internal : Bool) :
    Steady sent l (WpaEAPOLStartAction cfg env i l internal) := by
  unfold WpaEAPOLStartAction
  split_ifs
  · exact drop_steady
  · refine (start4Way_steady cfg env i _).before ?_ ?_ ?_ ?_
    · rfl
    · rfl
    · rfl
    · intro hdone
      cases hdone.2.1
  · exact drop_steady

theorem forgetEnrollee_group (l : Local) :
    (forgetEnrollee l).mbss.groupState = l.mbss.groupState := by
  unfold forgetEnrollee
  dsimp only
  split <;> rfl

theorem delete_group (cfg : Config) (l : Local) :
    (MacTableDeleteEntry cfg l).mbss.groupState = l.mbss.groupState := by
  unfold MacTableDeleteEntry
  split_ifs
  · rfl
  · exact forgetEnrollee_group _
  · rfl

theorem delete_not_established (cfg : Config) (l : Local) :
    ¬ Established (MacTableDeleteEntry cfg l).entry := by
  apply not_established_of_kind
  unfold MacTableDeleteEntry
  split_ifs with hnone
  · rw [hnone]
    exact nofun
  · exact nofun
  · exact nofun

theorem delete_apidx (cfg : Config) (l : Local) :
    (MacTableDeleteEntry cfg l).entry.apidx = l.entry.apidx := by
  unfold MacTableDeleteEntry
  split_ifs
  · rfl
  · simp only [forgetEnrollee_entry]
  · rfl

theorem deAuth_steady (cfg : Config) (env : Env) (i : Wcid) (l : Local) :
    Steady sent l (MlmeDeAuthAction cfg env i l) := by
  unfold MlmeDeAuthAction
  split
  · exact drop_steady
  · exact Steady.of_not (delete_group cfg l) (delete_apidx cfg l) (delete_not_established cfg l)

theorem retryTurn_steady (env : Env) (i : Wcid) (l : Local) (hAP : cfg.OpMode = .AP) :
    Steady sent l (retryTurn cfg env i l) := by
  unfold retryTurn
  dsimp only
  split_ifs
  · exact deAuth_steady cfg env i l
  · have hsend : Steady sent l (WPAStart2WayGroupHS cfg env i l) := start2Way_steady env i l hAP
    exact ⟨hsend.group, hsend.apidx, hsend.inStep⟩
  · exact drop_steady
  · exact deAuth_steady cfg env i l
  · exact start4Way_steady cfg env i l
  · exact start4Way_steady cfg env i l
  · exact drop_steady

theorem retry_steady (env : Env) (i : Wcid) (l : Local) (hAP : cfg.OpMode = .AP) :
    Steady sent l (WPARetryExec cfg env i l) := by
  unfold WPARetryExec
  dsimp only
  split_ifs
  · refine (retryTurn_steady env i _ hAP).before ?_ ?_ ?_ ?_
    · rfl
    · rfl
    · rfl
    · exact id
  · exact Steady.of_mute rfl rfl mute_nil id
  · exact drop_steady

theorem msg2_steady (C : Crypto) (env : Env) (i : Wcid) (Elem : MLME_QUEUE_ELEM) (l : Local)
    (hAP : cfg.OpMode = .AP) : Steady sent l (PeerPairMsg2Action C cfg env i Elem l) := by
  rcases msg2_cases C env i Elem l hAP with heq | ⟨-, -, ⟨heq, -⟩ | ⟨heq, -⟩⟩ <;> rw [heq]
  · exact drop_steady
  · exact Steady.of_mute rfl rfl mute_nil id
  · exact Steady.of_not rfl rfl (not_established_of_state nofun)

theorem updatePairwiseKey_steady (cfg : Config) (env : Env) (i : Wcid) (l : Local) :
    Steady sent l (updatePairwiseKey cfg env i l) := by
  have hstart : ∀ e : MAC_TABLE_ENTRY, e.apidx = l.entry.apidx → e.bWPA2 = l.entry.bWPA2 →
      e.GTKState = .REKEY_NEGOTIATING →
      Steady sent l
        ⟨.handled, [.removePairwise] ++ (WPAStart4WayHS cfg env i { l with entry := e }).acts,
          (WPAStart4WayHS cfg env i { l with entry := e }).next⟩ := by
    intro e hapidx hmode hgtk
    have hturn : Steady sent l (WPAStart4WayHS cfg env i { l with entry := e }) := by
      refine (start4Way_steady cfg env i { l with entry := e }).before rfl hapidx hmode ?_
      intro hdone
      rw [Established, hgtk] at hdone
      cases hdone.2.2
    refine ⟨hturn.group, hturn.apidx, fun hstep => ?_⟩
    rw [lastSent_append]
    exact hturn.inStep hstep
  unfold updatePairwiseKey Out.then
  apply hstart
  · rfl
  · rfl
  · rfl

theorem apCli_of_takes {type : MsgType} (hAP : cfg.OpMode = .AP)
    (h : ¬ takesSupplicant cfg Elem type e = false) : e.EntryType ≠ .CLIENT := by
  intro hkind
  apply h
  apply takesSupplicant_ap hAP
  rw [hkind]
  exact nofun

theorem msg1_steady (hAP : cfg.OpMode = .AP) :
    Steady sent l (PeerPairMsg1Action C cfg env i Elem l) := by
  unfold PeerPairMsg1Action
  split
  · exact drop_steady
  · rename_i htakes
    have hkind := apCli_of_takes hAP htakes
    dsimp only
    split <;> exact Steady.of_not rfl rfl (not_established_of_kind hkind)

theorem groupMsg1_steady (hAP : cfg.OpMode = .AP) :
    Steady sent l (PeerGroupMsg1Action C cfg env i Elem l) := by
  unfold PeerGroupMsg1Action
  split
  · exact drop_steady
  · rename_i htakes
    have hkind := apCli_of_takes hAP htakes
    dsimp only
    split_ifs <;> exact Steady.of_not rfl rfl (not_established_of_kind hkind)

theorem installMsg3_kind (cfg : Config) (l : Local) :
    (installMsg3 cfg l).next.entry.EntryType = l.entry.EntryType ∧
      (installMsg3 cfg l).next.entry.apidx = l.entry.apidx := by
  have hinstall : ∀ e : MAC_TABLE_ENTRY,
      (WPAInstallPairwiseKey e false).1.EntryType = e.EntryType ∧
        (WPAInstallPairwiseKey e false).1.apidx = e.apidx := by
    intro e
    unfold WPAInstallPairwiseKey
    split <;> exact ⟨rfl, rfl⟩
  unfold installMsg3
  dsimp only
  split_ifs <;> exact hinstall _

theorem msg3_steady (hAP : cfg.OpMode = .AP) :
    Steady sent l (PeerPairMsg3Action C cfg env i Elem l) := by
  unfold PeerPairMsg3Action
  split
  · exact drop_steady
  · rename_i htakes
    have hkind := apCli_of_takes hAP htakes
    dsimp only
    split_ifs
    · exact Steady.of_not rfl rfl (not_established_of_kind hkind)
    · exact Steady.of_not rfl rfl (not_established_of_kind hkind)
    · apply Steady.of_not
      · rfl
      · exact (installMsg3_kind cfg _).2
      · apply not_established_of_kind
        rw [Out.then, (installMsg3_kind cfg _).1]
        exact hkind

theorem inform_group (cfg : Config) (l : Local) :
    (WscInformFromWPA cfg l).mbss.groupState = l.mbss.groupState := by
  unfold WscInformFromWPA
  split <;> rfl

theorem cachePmk_group (C : Crypto) (cfg : Config) (env : Env) (l : Local) :
    (cachePmk C cfg env l).mbss.groupState = l.mbss.groupState := by
  unfold cachePmk
  split <;> rfl

/-- A message 4 that is taken may come when the group key in force is the one that was sent last;
without WPA2 it is sent behind the message, if there is memory for it. -/
def SentBefore4 (env : Env) (i : Wcid) (sent : Sent) (l : Local) : Prop :=
  if l.entry.bWPA2 = true then sent = some (currentGtk l.mbss)
  else l.entry.GTKState = .REKEY_ESTABLISHED →
    env.mpool i = true ∨ sent = some (currentGtk l.mbss)

theorem openPort_mute (bAE : Bool) (l : Local) : Mute (openPort bAE l).acts := by
  unfold openPort WPAInstallPairwiseKey
  cases pairwiseKey l.entry.WepStatus l.entry.PTK bAE with
  | none => exact mute_nil
  | some key => exact mute_one fun _ => rfl

theorem afterMsg4_inStep (C : Crypto) (hAP : cfg.OpMode = .AP) (hkind : l.entry.EntryType = .CLIENT)
    (hin : inBss cfg l.entry = true) (hsent : SentBefore4 env i sent l) :
    (afterMsg4 C cfg env i l).next.mbss.groupState = l.mbss.groupState ∧
      (afterMsg4 C cfg env i l).next.entry.apidx = l.entry.apidx ∧
      InStep (afterMsg4 C cfg env i l).next.mbss (afterMsg4 C cfg env i l).next.entry
        (lastSent l.entry.bWPA2 sent (afterMsg4 C cfg env i l).acts) := by
  obtain ⟨b, hinformed⟩ := inform_entry cfg l
  have hgroup := inform_group cfg l
  unfold afterMsg4
  rw [if_pos hAP]
  dsimp only
  generalize WscInformFromWPA cfg l = n at hinformed hgroup ⊢
  have hmode : n.entry.bWPA2 = l.entry.bWPA2 := by
    rw [hinformed]
    rfl
  have hapidx : n.entry.apidx = l.entry.apidx := by rw [hinformed]
  have hgtk : n.entry.GTKState = l.entry.GTKState := by rw [hinformed]
  rw [hmode]
  unfold SentBefore4 at hsent
  split at hsent
  · rename_i hwpa2
    rw [if_pos hwpa2]
    have hcached : ∀ l', l'.mbss = n.mbss →
        (cachePmk C cfg env l').mbss.groupState = l.mbss.groupState := fun l' heq =>
      (cachePmk_group C cfg env l').trans ((congrArg _ heq).trans hgroup)
    refine ⟨hcached _ rfl, ?_, fun _ => ?_⟩
    · rwa [cachePmk_entry]
    · refine hsent.trans (congrArg some (current_of_group ?_).symm)
      exact hcached _ rfl
  · rename_i hwpa2
    have hclient : isClient n.entry = true := by
      rw [hinformed]
      exact decide_eq_true hkind
    have hbss : inBss cfg n.entry = true := by
      rw [hinformed]
      exact hin
    rw [if_neg hwpa2]
    unfold WPAStart2WayGroupHS
    simp only [hclient, hbss, hAP, Bool.true_eq_false, false_or]
    cases hmem : env.mpool i with
    | false =>
      refine ⟨hgroup, hapidx, fun hdone => ?_⟩
      have hsame := hsent (hgtk.symm.trans hdone.2.2)
      rw [hmem, or_iff_right Bool.false_ne_true] at hsame
      exact hsame.trans (congrArg some (current_of_group hgroup).symm)
    | true => exact ⟨hgroup, hapidx, fun _ => rfl⟩

theorem msg4_steady (C : Crypto) (hAP : cfg.OpMode = .AP)
    (hsent : takesMsg4 cfg Elem l.entry = true ∧ Genuine C l.entry Elem.Msg ∧ env.keydata = true →
      SentBefore4 env i sent l) :
    Steady sent l (PeerPairMsg4Action C cfg env i Elem l) := by
  rw [msg4_eq]
  split
  · rename_i hright
    have htakes := hright.1
    simp only [takesMsg4, isClient, decide_eq_true_eq] at htakes
    have hlater := openPort_mute true l
    obtain ⟨PairwiseKey, hopen⟩ := openPort_entry true l
    rw [Out.then]
    generalize openPort true l = o at hopen hlater ⊢
    have hbefore : SentBefore4 env i sent o.next := by
      rw [hopen]
      exact hsent hright
    have hafter := fun hkind hin => afterMsg4_inStep C hAP hkind hin hbefore
    rw [hopen] at hafter ⊢
    obtain ⟨hgroup, hapidx, hstep⟩ := hafter htakes.1 htakes.2.2.2
    refine ⟨hgroup, hapidx, fun _ => ?_⟩
    rw [lastSent_append, hlater.lastSent]
    exact hstep
  · exact drop_steady

theorem groupMsg2_steady (C : Crypto) (cfg : Config)
    (hsent : takesGroupMsg2 cfg Elem l.entry = true ∧ Genuine C l.entry Elem.Msg ∧
      env.keydata = true → sent = some (currentGtk l.mbss)) :
    Steady sent l (PeerGroupMsg2Action C cfg env Elem l) := by
  rw [groupMsg2_eq]
  split
  · rename_i hright
    exact ⟨rfl, rfl, fun _ _ => hsent hright⟩
  · exact drop_steady

end Ralink.Wpa
