import Ralink.Wpa.GroupSteps
import Ralink.Wpa.View
import Ralink.Wpa.Port

/-! For one BSS: which stations have been sent the group key in force, whether it is installed, and
whether it is installed again. -/
namespace Ralink.Wpa
open Function
open Station (Wcid)

variable {C : Crypto} {cfg : Config} {env : Env} {i j : Wcid} {Elem : MLME_QUEUE_ELEM} {k : Nat}
  {pAd pAd' : RTMP_ADAPTER} {acts : Acts} {s : Served} {f : Local → Out} {m : MULTISSID_STRUCT}
  {sent : Wcid → Sent} {r : Acts × RTMP_ADAPTER}

def actsOf (i : Wcid) (acts : Acts) : List Act :=
  acts.filterMap fun x => if x.1 = .entry i then some x.2 else none

/-- Beside the adapter stands what group key every station has been sent last. -/
structure Served where
  pAd : RTMP_ADAPTER
  sent : Wcid → Sent

def Served.after (s : Served) (r : Acts × RTMP_ADAPTER) : Served :=
  ⟨r.2, fun i => lastSent (s.pAd.Content i).bWPA2 (s.sent i) (actsOf i r.1)⟩

/-- The events of the state machine, and frames that are sent to the stations of a BSS. -/
inductive GroupEvent where
  | wpa (e : Event)
  | mcast (SrcBufLen : Nat)

/-- Where a new key is due after some number of packets, the frames of all BSSes are counted. -/
def countMcast (cfg : Config) (SrcBufLen : Nat) (pAd : RTMP_ADAPTER) : RTMP_ADAPTER :=
  { pAd with
    MBSSID := fun idx =>
      let m := pAd.MBSSID idx
      if idx < cfg.BssidNum ∧ m.ReKeyMethod = .PKT_REKEY then
        { m with REKEYCOUNTER := (m.REKEYCOUNTER + SrcBufLen) % 2 ^ 32 }
      else m }

/-- A station that is new has been sent nothing. -/
def serve (C : Crypto) (cfg : Config) (s : Served) : GroupEvent → Served
  | .wpa (.join i e) => ⟨MacTableInsertEntry i e s.pAd, update s.sent i none⟩
  | .wpa e => s.after (perform C cfg e s.pAd).2
  | .mcast SrcBufLen => { s with pAd := countMcast cfg SrcBufLen s.pAd }

/-- The key that is made of the group key in force. -/
def gtkKey (m : MULTISSID_STRUCT) : CIPHER_KEY :=
  groupKey (groupAlg m.GroupKeyWepStatus) true m.GTK.toList 32

/-- The stations that have confirmed the group key were last sent the one in force, and it is
installed unless a countdown to it is on its way. -/
structure InForce (k : Nat) (s : Served) : Prop where
  inStep : ∀ i, (s.pAd.Content i).apidx = k →
    InStep (s.pAd.MBSSID k) (s.pAd.Content i) (s.sent i)
  installed : (s.pAd.MBSSID k).RekeyCountDown = 0 →
    (s.pAd.MBSSID k).SharedKey (s.pAd.MBSSID k).DefaultKeyId = gtkKey (s.pAd.MBSSID k)

def HasGroupCipher (k : Nat) (pAd : RTMP_ADAPTER) : Prop :=
  (pAd.MBSSID k).GroupKeyWepStatus = .Encryption2Enabled ∨
    (pAd.MBSSID k).GroupKeyWepStatus = .Encryption3Enabled

/-- No key that is installed for the BSS is one that is installed already. -/
def Fresh (k : Nat) (pAd : RTMP_ADAPTER) (acts : Acts) : Prop :=
  ∀ KeyIdx key, (Target.bss k, Act.installShared KeyIdx key) ∈ acts →
    ∀ slot, (pAd.MBSSID k).SharedKey slot ≠ key

def NotAgain (C : Crypto) (cfg : Config) (k : Nat) (s : Served) : GroupEvent → Prop
  | .wpa e => Fresh k s.pAd (perform C cfg e s.pAd).2.1
  | .mcast _ => True

structure Calm (k : Nat) (pAd : RTMP_ADAPTER) (r : Acts × RTMP_ADAPTER) : Prop where
  group : (r.2.MBSSID k).groupState = (pAd.MBSSID k).groupState
  apidx : ∀ i, (r.2.Content i).apidx = (pAd.Content i).apidx
  entry : ∀ i, (pAd.Content i).apidx = k → Established (r.2.Content i) →
    Established (pAd.Content i)
  mute : ∀ i, (pAd.Content i).apidx = k → Mute (actsOf i r.1)
  shared : ∀ KeyIdx key, (Target.bss k, Act.installShared KeyIdx key) ∉ r.1

theorem actsOf_append (i : Wcid) (acts acts' : Acts) :
    actsOf i (acts ++ acts') = actsOf i acts ++ actsOf i acts' := List.filterMap_append

theorem Calm.refl (k : Nat) (pAd : RTMP_ADAPTER) : Calm k pAd ([], pAd) :=
  ⟨rfl, fun _ => rfl, fun _ _ h => h, fun _ _ => mute_nil, fun _ _ => List.not_mem_nil⟩

theorem Calm.trans {acts' : Acts} {pAd'' : RTMP_ADAPTER} (h : Calm k pAd (acts, pAd'))
    (h' : Calm k pAd' (acts', pAd'')) : Calm k pAd (acts ++ acts', pAd'') := by
  constructor
  · exact h'.group.trans h.group
  · exact fun i => (h'.apidx i).trans (h.apidx i)
  · exact fun i hi hdone => h.entry i hi (h'.entry i ((h.apidx i).trans hi) hdone)
  · intro i hi
    rw [actsOf_append]
    exact (h.mute i hi).append (h'.mute i ((h.apidx i).trans hi))
  · intro KeyIdx key hmem
    rcases List.mem_append.mp hmem with hmem | hmem
    · exact h.shared KeyIdx key hmem
    · exact h'.shared KeyIdx key hmem

theorem calm_forEntries {f : Wcid → RTMP_ADAPTER → Acts × RTMP_ADAPTER}
    (hf : ∀ j pAd, Calm k pAd (f j pAd)) (pAd : RTMP_ADAPTER) : Calm k pAd (forEntries f pAd) := by
  have hfold : ∀ (js : List Wcid) (s : Acts × RTMP_ADAPTER), Calm k pAd s →
      Calm k pAd (js.foldl (fun s i => let r := f i s.2; (s.1 ++ r.1, r.2)) s) := by
    intro js
    induction js with
    | nil => exact fun s hs => hs
    | cons j js ih => exact fun s hs => ih _ (hs.trans (hf j s.2))
  unfold forEntries
  exact hfold _ ([], pAd) (Calm.refl k pAd)

theorem currentGtk_of_group {m' : MULTISSID_STRUCT} (h : m'.groupState = m.groupState) :
    gtkKey m' = gtkKey m ∧ m'.SharedKey = m.SharedKey ∧ m'.DefaultKeyId = m.DefaultKeyId ∧
      m'.RekeyCountDown = m.RekeyCountDown ∧ m'.GroupKeyWepStatus = m.GroupKeyWepStatus ∧
      m'.GMK = m.GMK ∧ m'.Bssid = m.Bssid := by
  simp only [MULTISSID_STRUCT.groupState, Prod.mk.injEq] at h
  simp only [gtkKey, h, and_self]

theorem InForce.of_current {sent : Wcid → Sent}
    (hcurrent : currentGtk (pAd'.MBSSID k) = currentGtk (pAd.MBSSID k))
    (hentries : ∀ i, (pAd'.Content i).apidx = k →
      InStep (pAd.MBSSID k) (pAd'.Content i) (sent i))
    (hinstalled : (pAd'.MBSSID k).RekeyCountDown = 0 →
      (pAd'.MBSSID k).SharedKey (pAd'.MBSSID k).DefaultKeyId = gtkKey (pAd'.MBSSID k)) :
    InForce k ⟨pAd', sent⟩ := by
  constructor
  · intro i hi
    rw [InStep, hcurrent]
    exact hentries i hi
  · exact hinstalled

theorem InForce.of_group (h : InForce k s)
    (hgroup : (pAd.MBSSID k).groupState = (s.pAd.MBSSID k).groupState)
    (hentries : ∀ i, (pAd.Content i).apidx = k → InStep (s.pAd.MBSSID k) (pAd.Content i) (sent i)) :
    InForce k ⟨pAd, sent⟩ := by
  obtain ⟨hkey, hshared, hidx, hcount, -, -, -⟩ := currentGtk_of_group hgroup
  apply InForce.of_current (current_of_group hgroup) hentries
  intro hzero
  rw [hkey, hshared, hidx]
  exact h.installed (hcount.symm.trans hzero)

theorem InForce.calm (h : InForce k s) (hcalm : Calm k s.pAd r) : InForce k (s.after r) := by
  apply h.of_group hcalm.group
  intro i hi hdone
  have hin : (s.pAd.Content i).apidx = k := (hcalm.apidx i).symm.trans hi
  rw [(hcalm.mute i hin).lastSent]
  exact h.inStep i hin (hcalm.entry i hin hdone)

theorem actsOf_self (j : Wcid) (acts : List Act) :
    actsOf j (acts.map fun a => (.entry j, a)) = acts := by
  induction acts with
  | nil => rfl
  | cons a acts ih =>
    simp only [actsOf, List.map_cons, List.filterMap_cons, if_true] at ih ⊢
    rw [ih]

theorem actsOf_other {j : Wcid} (h : i ≠ j) (acts : List Act) :
    actsOf i (acts.map fun a => (.entry j, a)) = [] := by
  have hne : Target.entry j ≠ .entry i := fun heq => h (Target.entry.inj heq).symm
  induction acts with
  | nil => rfl
  | cons a acts ih =>
    simp only [actsOf, List.map_cons, List.filterMap_cons, if_neg hne] at ih ⊢
    exact ih

theorem Mute.actsOf {acts : List Act} (h : Mute acts) (i j : Wcid) :
    Mute (actsOf i (acts.map fun a => (.entry j, a))) := by
  rcases eq_or_ne i j with rfl | hij
  · rwa [actsOf_self]
  · rw [actsOf_other hij]
    exact mute_nil

theorem onEntry_shared (f : Local → Out) (j : Wcid) (pAd : RTMP_ADAPTER) {KeyIdx : Nat}
    {key : CIPHER_KEY} :
    (Target.bss k, Act.installShared KeyIdx key) ∉ (onEntry cfg f j pAd).2.1 := by
  intro hmem
  obtain ⟨a, -, heq⟩ := List.mem_map.mp hmem
  cases heq

theorem onEntry_group {f : Local → Out} {j : Wcid}
    (hgroup : (f (localOf cfg pAd j)).next.mbss.groupState =
      (pAd.MBSSID (pAd.Content j).apidx).groupState) :
    ((onEntry cfg f j pAd).2.2.MBSSID k).groupState = (pAd.MBSSID k).groupState := by
  show (update pAd.MBSSID (pAd.Content j).apidx _ k).groupState = _
  rcases eq_or_ne k (pAd.Content j).apidx with rfl | hne
  · rw [update_self]
    exact hgroup
  · rw [update_of_ne hne]

theorem onEntry_steady (h : InForce k s) {j : Wcid}
    (hf : Steady (s.sent j) (localOf cfg s.pAd j) (f (localOf cfg s.pAd j))) :
    InForce k (s.after (onEntry cfg f j s.pAd).2) := by
  apply h.of_group (onEntry_group hf.group)
  intro i hi
  rcases eq_or_ne i j with rfl | hij
  · rw [onEntry_self] at hi ⊢
    have hk : (s.pAd.Content i).apidx = k := hf.apidx.symm.trans hi
    subst hk
    have hstep := hf.inStep (h.inStep i rfl)
    rw [InStep, current_of_group hf.group] at hstep
    rwa [onEntry_acts, actsOf_self]
  · rw [onEntry_content, update_of_ne hij] at hi ⊢
    rw [onEntry_acts, actsOf_other hij]
    exact h.inStep i hi

theorem Calm.then (h : Calm k pAd ([], pAd')) (h' : Calm k pAd' r) : Calm k pAd r := h.trans h'

theorem calm_same (hmbssid : pAd'.MBSSID = pAd.MBSSID) (hcontent : pAd'.Content = pAd.Content) :
    Calm k pAd ([], pAd') := by
  constructor
  · rw [hmbssid]
  · intro i
    rw [hcontent]
  · intro i _
    rw [hcontent]
    exact id
  · exact fun _ _ => mute_nil
  · exact fun _ _ => List.not_mem_nil

@[simp] theorem setMbss_self (apidx : Nat) (m : MULTISSID_STRUCT) :
    (setMbss pAd apidx m).MBSSID apidx = m := by
  simp only [setMbss, update_self]

theorem calm_setMbss {apidx : Nat} (h : apidx = k → m.groupState = (pAd.MBSSID k).groupState) :
    Calm k pAd ([], setMbss pAd apidx m) := by
  constructor
  · show (update pAd.MBSSID apidx m k).groupState = _
    rcases eq_or_ne k apidx with rfl | hne
    · rw [update_self]
      exact h rfl
    · rw [update_of_ne hne]
  · exact fun _ => rfl
  · exact fun _ _ hdone => hdone
  · exact fun _ _ => mute_nil
  · exact fun _ _ => List.not_mem_nil

theorem calm_setEntry {j : Wcid} {e : MAC_TABLE_ENTRY} (hapidx : e.apidx = (pAd.Content j).apidx)
    (hdone : Established e → Established (pAd.Content j)) :
    Calm k pAd ([], setEntry pAd j e) := by
  constructor
  · rfl
  · intro i
    rcases eq_or_ne i j with rfl | hij
    · rw [setEntry_content, update_self, hapidx]
    · rw [setEntry_content, update_of_ne hij]
  · intro i _
    rcases eq_or_ne i j with rfl | hij
    · rw [setEntry_content, update_self]
      exact hdone
    · rw [setEntry_content, update_of_ne hij]
      exact id
  · exact fun _ _ => mute_nil
  · exact fun _ _ => List.not_mem_nil

theorem calm_onEntry {f : Local → Out} {j : Wcid}
    (hgroup : (f (localOf cfg pAd j)).next.mbss.groupState =
      (pAd.MBSSID (pAd.Content j).apidx).groupState)
    (hapidx : (f (localOf cfg pAd j)).next.entry.apidx = (pAd.Content j).apidx)
    (hmute : Mute (f (localOf cfg pAd j)).acts)
    (hdone : Established (f (localOf cfg pAd j)).next.entry → Established (pAd.Content j)) :
    Calm k pAd (onEntry cfg f j pAd).2 := by
  constructor
  · exact onEntry_group hgroup
  · intro i
    rcases eq_or_ne i j with rfl | hij
    · rw [onEntry_self, hapidx]
    · rw [onEntry_content, update_of_ne hij]
  · intro i _
    rcases eq_or_ne i j with rfl | hij
    · rw [onEntry_self]
      exact hdone
    · rw [onEntry_content, update_of_ne hij]
      exact id
  · exact fun i _ => hmute.actsOf i j
  · exact fun _ _ => onEntry_shared f j pAd

theorem calm_onEntry_other {j : Wcid} (hother : (pAd.Content j).apidx ≠ k)
    (hapidx : (f (localOf cfg pAd j)).next.entry.apidx = (pAd.Content j).apidx) :
    Calm k pAd (onEntry cfg f j pAd).2 := by
  have hij : ∀ i, (pAd.Content i).apidx = k → i ≠ j := by
    rintro i hi rfl
    exact hother hi
  constructor
  · show (update pAd.MBSSID (pAd.Content j).apidx _ k).groupState = _
    rw [update_of_ne hother.symm]
  · intro i
    rcases eq_or_ne i j with rfl | hne
    · rw [onEntry_self, hapidx]
    · rw [onEntry_content, update_of_ne hne]
  · intro i hi
    rw [onEntry_content, update_of_ne (hij i hi)]
    exact id
  · intro i hi
    rw [onEntry_acts, actsOf_other (hij i hi)]
    exact mute_nil
  · exact fun _ _ => onEntry_shared f j pAd

theorem disconnect_calm (cfg : Config) (env : Env) (j : Wcid) (pAd : RTMP_ADAPTER) :
    Calm k pAd (disconnect cfg env j pAd) := by
  have hturn : Steady none (localOf cfg pAd j) (MlmeDeAuthAction cfg env j (localOf cfg pAd j)) :=
    deAuth_steady cfg env j (localOf cfg pAd j)
  unfold disconnect
  split
  · apply calm_onEntry
    · exact hturn.group
    · exact hturn.apidx
    · unfold MlmeDeAuthAction
      split
      · exact mute_nil
      · exact mute_one fun _ => rfl
    · unfold MlmeDeAuthAction
      split
      · exact id
      · exact fun hdone => (delete_not_established cfg _ hdone).elim
  · exact Calm.refl k pAd

theorem counterMeasure_calm (cfg : Config) (env : Env) (j : Wcid) (pAd : RTMP_ADAPTER) :
    Calm k pAd (HandleCounterMeasure cfg env j pAd) := by
  unfold HandleCounterMeasure
  dsimp only
  split_ifs
  · exact Calm.refl k pAd
  · exact calm_same rfl rfl
  · generalize hpAd : setMbss pAd _ _ = pAd'
    have hnonce : Calm k pAd ([], pAd') := by
      rw [← hpAd]
      apply calm_setMbss
      rintro rfl
      rfl
    have hgone := hnonce.then (calm_forEntries (disconnect_calm cfg env) pAd')
    exact ⟨hgone.group, hgone.apidx, hgone.entry, hgone.mute, hgone.shared⟩

theorem deriveDls_calm (C : Crypto) (apidx : Nat) (Addr : Mac) (pAd : RTMP_ADAPTER) :
    Calm k pAd ([], deriveDls C apidx Addr pAd) := by
  unfold deriveDls
  apply calm_setMbss
  rintro rfl
  simp only [MULTISSID_STRUCT.groupState]

theorem sendStaKey_calm (C : Crypto) (env : Env) (apidx : Nat) (DA : Mac) (pAd : RTMP_ADAPTER) :
    Calm k pAd (sendStaKey C env apidx DA pAd) := by
  unfold sendStaKey
  split
  · exact Calm.refl k pAd
  · rename_i j _
    split_ifs
    · exact Calm.refl k pAd
    · exact calm_setEntry rfl id
    · have hcount : Calm k pAd ([], setEntry pAd j (countUp (pAd.Content j))) :=
        calm_setEntry rfl id
      have hset := hcount.then (deriveDls_calm C apidx DA _)
      refine ⟨hset.group, hset.apidx, hset.entry, fun i _ => ?_, fun KeyIdx key hmem => ?_⟩
      · have hkey : ∀ R_Counter, Mute [Act.staKey R_Counter] := fun _ => mute_one fun _ => rfl
        exact (hkey _).actsOf i j
      · cases List.mem_singleton.mp hmem

theorem handleSTAKey_calm (C : Crypto) (env : Env) (j : Wcid) (Elem : MLME_QUEUE_ELEM)
    (pAd : RTMP_ADAPTER) : Calm k pAd (RTMPHandleSTAKey C env j Elem pAd) := by
  have hnote : Calm k pAd ([], noteRequest j Elem.Msg.KeyDesc.KeyInfo pAd) := by
    unfold noteRequest
    split
    · exact calm_setEntry rfl id
    · exact Calm.refl k pAd
  unfold RTMPHandleSTAKey
  dsimp only
  split_ifs
  · exact Calm.refl k pAd
  · exact hnote
  · refine (hnote.then (deriveDls_calm C (pAd.Content j).apidx (pAd.Content j).Addr _)).then ?_
    unfold takeStaKey
    dsimp only
    split_ifs
    · exact Calm.refl k _
    · exact calm_setEntry rfl id
    · exact Calm.refl k _
    · exact sendStaKey_calm C env _ _ _

end Ralink.Wpa
