import Ralink.Wpa.GroupKeys

/-! What a request for a new group key and a turn of the group key timer do to the stations of the
BSS, and when every station that has confirmed the group key has been sent the one in force and none
is installed again. -/
namespace Ralink.Wpa
open Function
open Station (Wcid EntryType)

variable {C : Crypto} {cfg : Config} {env : Env} {i : Wcid} {Elem : MLME_QUEUE_ELEM} {k : Nat}
  {pAd : RTMP_ADAPTER} {s : Served} {acts : Acts} {key : Option CIPHER_KEY} {e : MAC_TABLE_ENTRY}
  {m m' : MULTISSID_STRUCT} {r : Acts × RTMP_ADAPTER} {f : Local → Out} {es : List GroupEvent}

theorem sendGtk_group (cfg : Config) (env : Env) (retry : Bool) (apidx : Nat) (j : Wcid)
    (pAd : RTMP_ADAPTER) (hAP : cfg.OpMode = .AP) :
    ((sendGtk cfg env retry apidx j pAd).2.MBSSID k).groupState =
      (pAd.MBSSID k).groupState := by
  unfold sendGtk
  split
  · apply onEntry_group
    have hturn : Steady none _ _ := start2Way_steady env j
      { localOf cfg pAd j with entry.GTKState := .REKEY_NEGOTIATING } hAP
    have hsend := hturn.group
    dsimp only
    split <;> exact hsend
  · rfl

theorem sendGtk_entry (cfg : Config) (env : Env) (retry : Bool) (apidx : Nat) (j : Wcid)
    (pAd : RTMP_ADAPTER) :
    ((sendGtk cfg env retry apidx j pAd).2.Content j).apidx = (pAd.Content j).apidx ∧
      ((pAd.Content j).apidx = apidx →
        ¬ Established ((sendGtk cfg env retry apidx j pAd).2.Content j)) := by
  unfold sendGtk
  split
  · let l : Local := { localOf cfg pAd j with entry.GTKState := .REKEY_NEGOTIATING }
    have hsend : (WPAStart2WayGroupHS cfg env j l).next.entry.apidx = (pAd.Content j).apidx ∧
        (WPAStart2WayGroupHS cfg env j l).next.entry.GTKState = .REKEY_NEGOTIATING := by
      rcases start2Way_entry cfg env j l with heq | heq <;> rw [heq] <;> exact ⟨rfl, rfl⟩
    rw [onEntry_self]
    dsimp only
    split
    · refine ⟨hsend.1, fun _ hdone => ?_⟩
      cases hsend.2.symm.trans hdone.2.2
    · refine ⟨hsend.1, fun _ hdone => ?_⟩
      cases hsend.2.symm.trans hdone.2.2
  · rename_i hout
    refine ⟨rfl, fun hj hdone => hout ?_⟩
    simp only [inStep, isClient, decide_eq_true_eq]
    exact ⟨hdone.1, hdone.2.1, hj⟩

theorem sendGtk_other {j : Wcid} (hij : i ≠ j) (retry : Bool) (apidx : Nat) :
    (sendGtk cfg env retry apidx j pAd).2.Content i = pAd.Content i := by
  unfold sendGtk
  split
  · rw [onEntry_content, update_of_ne hij]
  · rfl

theorem sendGtk_acts (cfg : Config) (env : Env) (retry : Bool) (apidx : Nat) (j : Wcid)
    (pAd : RTMP_ADAPTER) :
    ∀ x ∈ (sendGtk cfg env retry apidx j pAd).1, ∀ b, x.1 ≠ Target.bss b := by
  unfold sendGtk
  split
  · intro x hx b
    obtain ⟨a, -, rfl⟩ := List.mem_map.mp hx
    exact nofun
  · exact nofun

theorem sent_not_established (cfg : Config) (env : Env) (retry : Bool) (apidx : Nat)
    (pAd : RTMP_ADAPTER) (i : Wcid) :
    ((forEntries (sendGtk cfg env retry apidx) pAd).2.Content i).apidx = apidx →
      ¬ Established ((forEntries (sendGtk cfg env retry apidx) pAd).2.Content i) := by
  have hturn : ∀ j pAd, ((sendGtk cfg env retry apidx j pAd).2.Content j).apidx = apidx →
      ¬ Established ((sendGtk cfg env retry apidx j pAd).2.Content j) := by
    intro j pAd hj
    obtain ⟨hapidx, hdone⟩ := sendGtk_entry cfg env retry apidx j pAd
    exact hdone (hapidx.symm.trans hj)
  refine forEntries_all
    (P := fun i s => (s.Content i).apidx = apidx → ¬ Established (s.Content i)) pAd hturn ?_ i
  intro i j s hs
  rcases eq_or_ne i j with rfl | hij
  · exact hturn i s
  · rwa [sendGtk_other hij]

theorem sent_group (cfg : Config) (env : Env) (retry : Bool) (apidx : Nat) (pAd : RTMP_ADAPTER)
    (hAP : cfg.OpMode = .AP) :
    ((forEntries (sendGtk cfg env retry apidx) pAd).2.MBSSID k).groupState =
      (pAd.MBSSID k).groupState :=
  forEntries_inv (P := fun s => (s.MBSSID k).groupState = (pAd.MBSSID k).groupState) pAd
    (fun j s hs => (sendGtk_group cfg env retry apidx j s hAP).trans hs) rfl

theorem sent_acts (cfg : Config) (env : Env) (retry : Bool) (apidx : Nat) (pAd : RTMP_ADAPTER) :
    ∀ x ∈ (forEntries (sendGtk cfg env retry apidx) pAd).1, ∀ b, x.1 ≠ Target.bss b :=
  forEntries_acts (P := fun x => ∀ b, x.1 ≠ Target.bss b) pAd (sendGtk_acts cfg env retry apidx)

theorem sendGtk_calm (cfg : Config) (env : Env) (retry : Bool) {apidx : Nat} (hne : apidx ≠ k)
    (j : Wcid) (pAd : RTMP_ADAPTER) : Calm k pAd (sendGtk cfg env retry apidx j pAd) := by
  have hapidx := (sendGtk_entry cfg env retry apidx j pAd).1
  unfold sendGtk at hapidx ⊢
  split
  · rename_i hin
    rw [if_pos hin, onEntry_self] at hapidx
    refine calm_onEntry_other ?_ hapidx
    simp only [inStep, decide_eq_true_eq] at hin
    rwa [hin.2.2]
  · exact Calm.refl k pAd

theorem installGtk_eq (pAd : RTMP_ADAPTER) (hk : k < cfg.MAX_MBSSID_NUM)
    (hcipher : HasGroupCipher k pAd) :
    installGtk cfg k pAd =
      ([(.bss k, .installShared (pAd.MBSSID k).DefaultKeyId (gtkKey (pAd.MBSSID k)))],
        setMbss pAd k
          { pAd.MBSSID k with
            SharedKey := update (pAd.MBSSID k).SharedKey (pAd.MBSSID k).DefaultKeyId
              (gtkKey (pAd.MBSSID k)) }) := by
  have hnot : ¬ k ≥ cfg.MAX_MBSSID_NUM := not_le.mpr hk
  simp only [installGtk, WPAInstallSharedKey, if_neg hnot, gtkKey]
  rcases hcipher with h | h <;> rw [h] <;> rfl

theorem installGtk_calm (cfg : Config) {apidx : Nat} (hne : apidx ≠ k) (pAd : RTMP_ADAPTER) :
    Calm k pAd (installGtk cfg apidx pAd) := by
  constructor
  · show (update pAd.MBSSID apidx _ k).groupState = _
    rw [update_of_ne hne.symm]
  · exact fun _ => rfl
  · exact fun _ _ hdone => hdone
  · intro i _ bWPA2 a ha
    obtain ⟨x, hx, heq⟩ := List.mem_filterMap.mp ha
    obtain ⟨b, -, rfl⟩ := List.mem_map.mp hx
    cases heq
  · intro KeyIdx key hmem
    obtain ⟨b, -, heq⟩ := List.mem_map.mp hmem
    exact hne (Target.bss.inj (Prod.mk.inj heq).1)

theorem fresh_append {acts' : Acts} :
    Fresh k pAd (acts ++ acts') ↔ Fresh k pAd acts ∧ Fresh k pAd acts' := by
  simp only [Fresh, List.mem_append, or_imp, forall_and]

theorem fresh_of_not_bss (h : ∀ x ∈ acts, ∀ b, x.1 ≠ Target.bss b) : Fresh k pAd acts :=
  fun _ _ hmem => (h _ hmem k rfl).elim

theorem fresh_install {KeyIdx : Nat} {key : CIPHER_KEY} :
    Fresh k pAd [(.bss k, .installShared KeyIdx key)] ↔
      ∀ slot, (pAd.MBSSID k).SharedKey slot ≠ key := by
  constructor
  · intro h
    exact h KeyIdx key (List.mem_singleton.mpr rfl)
  · intro h KeyIdx' key' hmem
    obtain ⟨-, heq⟩ := Act.installShared.inj (Prod.mk.inj (List.mem_singleton.mp hmem)).2
    rwa [heq]

theorem InForce.of_nobody (hentries : ∀ i, (s.pAd.Content i).apidx = k →
      ¬ Established (s.pAd.Content i))
    (hinstalled : (s.pAd.MBSSID k).RekeyCountDown = 0 →
      (s.pAd.MBSSID k).SharedKey (s.pAd.MBSSID k).DefaultKeyId = gtkKey (s.pAd.MBSSID k)) :
    InForce k s :=
  ⟨fun i hi hdone => (hentries i hi hdone).elim, hinstalled⟩

/-- The group key that the random number of an event makes: of a request for one, or of a turn of
the timer of the BSS. -/
def GroupEvent.newKey (C : Crypto) (k : Nat) (m : MULTISSID_STRUCT) : GroupEvent → Option CIPHER_KEY
  | .wpa (.key env _ Elem) =>
    if Elem.Msg.KeyDesc.KeyInfo.Request then some (gtkKey (newGtk C env m)) else none
  | .wpa (.rekey env apidx) => if apidx = k then some (gtkKey (newGtk C env m)) else none
  | _ => none

/-- The random numbers make group keys that are all different, and none that is in use. -/
structure KeysNew (C : Crypto) (k : Nat) (m : MULTISSID_STRUCT) (es : List GroupEvent) : Prop where
  nodup : (es.filterMap (GroupEvent.newKey C k m)).Nodup
  fresh : ∀ key ∈ es.filterMap (GroupEvent.newKey C k m),
    key ≠ gtkKey m ∧ ∀ slot, m.SharedKey slot ≠ key

/-- A group key that is counted down to is in no slot. -/
def Awaited (m : MULTISSID_STRUCT) : Prop :=
  m.RekeyCountDown > 0 → ∀ slot, m.SharedKey slot ≠ gtkKey m

/-- What an event does to the group key of the BSS: it stays or is the new one, which goes into a
slot at once or behind a countdown. -/
structure Turned (key : Option CIPHER_KEY) (m m' : MULTISSID_STRUCT) : Prop where
  cipher : m'.GroupKeyWepStatus = m.GroupKeyWepStatus
  GMK : m'.GMK = m.GMK
  Bssid : m'.Bssid = m.Bssid
  gtk : gtkKey m' = gtkKey m ∨ key = some (gtkKey m')
  slots : ∀ slot, m'.SharedKey slot = m.SharedKey slot ∨ m'.SharedKey slot = gtkKey m'
  counting : m'.RekeyCountDown > 0 → m'.SharedKey = m.SharedKey ∧
    (key = some (gtkKey m') ∨ gtkKey m' = gtkKey m ∧ m.RekeyCountDown > 0)

theorem gtkKey_newGtk (C : Crypto) (env : Env)
    (hcipher : m'.GroupKeyWepStatus = m.GroupKeyWepStatus) (hGMK : m'.GMK = m.GMK)
    (hBssid : m'.Bssid = m.Bssid) : gtkKey (newGtk C env m') = gtkKey (newGtk C env m) := by
  simp only [gtkKey, newGtk, hcipher, hGMK, hBssid]

theorem Turned.of_group (h : m'.groupState = m.groupState) : Turned key m m' := by
  obtain ⟨hkey, hshared, -, hcount, hcipher, hGMK, hBssid⟩ := currentGtk_of_group h
  refine ⟨hcipher, hGMK, hBssid, .inl hkey, fun slot => .inl (congrFun hshared slot), ?_⟩
  intro hcounting
  exact ⟨hshared, .inr ⟨hkey, hcount ▸ hcounting⟩⟩

theorem Turned.newKey (h : Turned key m m') (C : Crypto) (k : Nat) :
    GroupEvent.newKey C k m' = GroupEvent.newKey C k m := by
  funext e
  unfold GroupEvent.newKey
  simp only [gtkKey_newGtk C _ h.cipher h.GMK h.Bssid]

theorem KeysNew.step {C : Crypto} {e : GroupEvent} (h : KeysNew C k m (e :: es))
    (hawaited : Awaited m) (hturned : Turned (e.newKey C k m) m m') :
    KeysNew C k m' es ∧ Awaited m' := by
  obtain ⟨hnodup, hfresh⟩ := h
  have hnew : ∀ key, e.newKey C k m = some key →
      key ∉ es.filterMap (GroupEvent.newKey C k m) ∧ key ≠ gtkKey m ∧
        ∀ slot, m.SharedKey slot ≠ key := by
    intro key hkey
    rw [List.filterMap_cons_some hkey] at hnodup hfresh
    exact ⟨(List.nodup_cons.mp hnodup).1, hfresh key List.mem_cons_self⟩
  have hrest : (es.filterMap (GroupEvent.newKey C k m)).Nodup ∧
      ∀ key ∈ es.filterMap (GroupEvent.newKey C k m),
        key ≠ gtkKey m ∧ ∀ slot, m.SharedKey slot ≠ key := by
    cases hkey : e.newKey C k m with
    | none =>
      rw [List.filterMap_cons_none hkey] at hnodup hfresh
      exact ⟨hnodup, hfresh⟩
    | some key =>
      rw [List.filterMap_cons_some hkey] at hnodup hfresh
      exact ⟨(List.nodup_cons.mp hnodup).2, fun key' h' => hfresh key' (List.mem_cons_of_mem _ h')⟩
  have hgtk : ∀ key ∈ es.filterMap (GroupEvent.newKey C k m), key ≠ gtkKey m' := by
    rintro key hmem rfl
    rcases hturned.gtk with hsame | hmade
    · exact (hrest.2 _ hmem).1 hsame
    · exact (hnew _ hmade).1 hmem
  refine ⟨⟨?_, ?_⟩, ?_⟩
  · rw [hturned.newKey]
    exact hrest.1
  · rw [hturned.newKey]
    refine fun key hmem => ⟨hgtk key hmem, fun slot heq => ?_⟩
    rcases hturned.slots slot with hsame | hmade
    · exact (hrest.2 key hmem).2 slot (hsame.symm.trans heq)
    · exact hgtk key hmem (heq.symm.trans hmade)
  · intro hcounting
    obtain ⟨hslots, hmade | ⟨hsame, hwas⟩⟩ := hturned.counting hcounting
    · rw [hslots]
      exact (hnew _ hmade).2.2
    · rw [hslots, hsame]
      exact hawaited hwas

/-- The group keys stay in force, and none is installed again. -/
structure Kept (key : Option CIPHER_KEY) (k : Nat) (s : Served) (r : Acts × RTMP_ADAPTER) :
    Prop where
  inForce : InForce k (s.after r)
  fresh : Fresh k s.pAd r.1
  turned : Turned key (s.pAd.MBSSID k) (r.2.MBSSID k)

theorem Kept.of_calm (h : InForce k s) (hcalm : Calm k s.pAd r) : Kept key k s r :=
  ⟨h.calm hcalm, fun _ _ hmem => (hcalm.shared _ _ hmem).elim, .of_group hcalm.group⟩

theorem updateGroupKey_kept (C : Crypto) (env : Env) (s : Served) (hAP : cfg.OpMode = .AP)
    (hk : k < cfg.MAX_MBSSID_NUM) (hcipher : HasGroupCipher k s.pAd)
    (hzero : (s.pAd.MBSSID k).RekeyCountDown = 0)
    (hnew : ∀ slot, (s.pAd.MBSSID k).SharedKey slot ≠ gtkKey (newGtk C env (s.pAd.MBSSID k))) :
    Kept (some (gtkKey (newGtk C env (s.pAd.MBSSID k)))) k s (updateGroupKey C cfg env k s.pAd) := by
  let pAd := setMbss s.pAd k (newGtk C env (s.pAd.MBSSID k))
  let sent := forEntries (sendGtk cfg env true k) pAd
  have hself : pAd.MBSSID k = newGtk C env (s.pAd.MBSSID k) := setMbss_self k _
  have hgroup : (sent.2.MBSSID k).groupState = (newGtk C env (s.pAd.MBSSID k)).groupState :=
    (sent_group cfg env true k pAd hAP).trans (congrArg _ hself)
  obtain ⟨hkey, hshared, -, hcount, hstatus, hGMK, hBssid⟩ := currentGtk_of_group hgroup
  have hcipher' : HasGroupCipher k sent.2 := by
    rw [HasGroupCipher, hstatus]
    exact hcipher
  have heq : updateGroupKey C cfg env k s.pAd =
      (sent.1 ++ (installGtk cfg k sent.2).1, (installGtk cfg k sent.2).2) := rfl
  rw [heq, installGtk_eq sent.2 hk hcipher']
  constructor
  · apply InForce.of_nobody
    · exact sent_not_established cfg env true k pAd
    · intro _
      simp only [Served.after, setMbss_self]
      rw [update_self]
      rfl
  · rw [fresh_append, fresh_install, hkey]
    exact ⟨fresh_of_not_bss (sent_acts cfg env true k pAd), hnew⟩
  · simp only [setMbss_self]
    refine ⟨hstatus, hGMK, hBssid, .inr (congrArg some hkey.symm), fun slot => ?_, fun hcounting => ?_⟩
    · simp only [update_apply]
      split
      · exact .inr rfl
      · exact .inl (congrFun hshared slot)
    · exact absurd (hcount.trans hzero) hcounting.ne'

theorem updateGroupKey_calm (C : Crypto) (cfg : Config) (env : Env) {apidx : Nat}
    (hne : apidx ≠ k) (pAd : RTMP_ADAPTER) :
    Calm k pAd (updateGroupKey C cfg env apidx pAd) := by
  have hnew : Calm k pAd ([], setMbss pAd apidx (newGtk C env (pAd.MBSSID apidx))) :=
    calm_setMbss fun heq => (hne heq).elim
  have hsent := calm_forEntries (sendGtk_calm cfg env true hne)
    (setMbss pAd apidx (newGtk C env (pAd.MBSSID apidx)))
  exact (hnew.then hsent).trans (installGtk_calm cfg hne _)

theorem countDown_early (cfg : Config) (k : Nat) (pAd : RTMP_ADAPTER)
    (h : (pAd.MBSSID k).RekeyCountDown > 1) :
    countDown cfg k pAd =
      ([], setMbss pAd k
        { pAd.MBSSID k with RekeyCountDown := (pAd.MBSSID k).RekeyCountDown - 1 }) := by
  unfold countDown
  dsimp only
  rw [if_pos (by omega), if_neg (by omega)]

theorem fresh_nil : Fresh k pAd [] := nofun

theorem startRekey_kept (C : Crypto) (env : Env) (h : InForce k s) (hAP : cfg.OpMode = .AP)
    (hm : m.groupState = (s.pAd.MBSSID k).groupState)
    (hnobody : ¬ m.StaCount > 0 → m.RekeyCountDown > 0)
    (hr : startRekey C cfg env k (setMbss s.pAd k m) = r) :
    Kept (some (gtkKey (newGtk C env (s.pAd.MBSSID k)))) k s
      (r.1 ++ (countDown cfg k r.2).1, (countDown cfg k r.2).2) := by
  subst hr
  obtain ⟨hkey, hshared, -, hcount, hstatus, hGMK, hBssid⟩ := currentGtk_of_group hm
  have hcurrent := current_of_group hm
  unfold startRekey
  rw [setMbss_self]
  dsimp only
  split
  · let pAd := setMbss (setMbss s.pAd k m) k
      (newGtk C env { m with REKEYCOUNTER := 0, RekeyCountDown := 3 })
    have hself : pAd.MBSSID k = newGtk C env { m with REKEYCOUNTER := 0, RekeyCountDown := 3 } :=
      setMbss_self k _
    have hgroup := (sent_group (k := k) cfg env false k pAd hAP).trans (congrArg _ hself)
    obtain ⟨hkey', hshared', -, hcount', hstatus', hGMK', hBssid'⟩ := currentGtk_of_group hgroup
    have hthree : ((forEntries (sendGtk cfg env false k) pAd).2.MBSSID k).RekeyCountDown = 3 :=
      hcount'
    have hmade : gtkKey ((forEntries (sendGtk cfg env false k) pAd).2.MBSSID k) =
        gtkKey (newGtk C env (s.pAd.MBSSID k)) :=
      hkey'.trans (gtkKey_newGtk C env hstatus hGMK hBssid)
    rw [countDown_early cfg k _ (by rw [hthree]; decide), List.append_nil]
    constructor
    · apply InForce.of_nobody
      · exact sent_not_established cfg env false k pAd
      · intro hzero
        simp only [Served.after, setMbss_self] at hzero
        rw [hthree] at hzero
        cases hzero
    · exact fresh_of_not_bss (sent_acts cfg env false k pAd)
    · simp only [setMbss_self]
      have hslots := hshared'.trans hshared
      refine ⟨hstatus'.trans hstatus, hGMK'.trans hGMK, hBssid'.trans hBssid,
        .inr (congrArg some hmade.symm), fun slot => .inl (congrFun hslots slot), fun _ => ?_⟩
      exact ⟨hslots, .inl (congrArg some hmade.symm)⟩
  · rename_i hempty
    rw [countDown_early cfg k _ (by simp only [setMbss_self]; decide)]
    constructor
    · apply InForce.of_current
      · simp only [setMbss_self]
        exact hcurrent
      · exact h.inStep
      · intro hzero
        simp only [setMbss_self] at hzero
        cases hzero
    · exact fresh_nil
    · simp only [setMbss_self]
      refine ⟨hstatus, hGMK, hBssid, .inl hkey, fun slot => .inl (congrFun hshared slot), fun _ => ?_⟩
      exact ⟨hshared, .inr ⟨hkey, hcount ▸ hnobody hempty⟩⟩

theorem countDown_kept (h : InForce k s) (hk : k < cfg.MAX_MBSSID_NUM)
    (hcipher : HasGroupCipher k s.pAd) (hawaited : Awaited (s.pAd.MBSSID k))
    (hm : m.groupState = (s.pAd.MBSSID k).groupState) :
    Kept key k s (countDown cfg k (setMbss s.pAd k m)) := by
  obtain ⟨hkey, hshared, -, hcount, hstatus, hGMK, hBssid⟩ := currentGtk_of_group hm
  have hcurrent := current_of_group hm
  have hself : (setMbss s.pAd k m).MBSSID k = m := setMbss_self k _
  rcases lt_trichotomy m.RekeyCountDown 1 with hzero | hone | hmore
  · have heq : countDown cfg k (setMbss s.pAd k m) = ([], setMbss s.pAd k m) := by
      unfold countDown
      rw [hself]
      exact if_neg (by omega)
    rw [heq]
    exact Kept.of_calm h (calm_setMbss fun _ => hm)
  · let pAd := setMbss (setMbss s.pAd k m) k { m with RekeyCountDown := m.RekeyCountDown - 1 }
    have heq : countDown cfg k (setMbss s.pAd k m) = installGtk cfg k pAd := by
      unfold countDown
      rw [hself]
      dsimp only
      rw [if_pos (by omega), if_pos hone]
    have hnext : pAd.MBSSID k = { m with RekeyCountDown := m.RekeyCountDown - 1 } :=
      setMbss_self k _
    have hcipher' : HasGroupCipher k pAd := by
      rw [HasGroupCipher, hnext, hstatus]
      exact hcipher
    have hgtk : gtkKey (pAd.MBSSID k) = gtkKey (s.pAd.MBSSID k) := by
      rw [hnext, ← hkey]
      rfl
    rw [heq, installGtk_eq pAd hk hcipher', hgtk]
    constructor
    · apply InForce.of_current
      · simp only [setMbss_self, hnext]
        exact hcurrent
      · exact h.inStep
      · intro _
        simp only [setMbss_self]
        rw [update_self, ← hgtk]
        rfl
    · rw [fresh_install]
      exact hawaited (by omega)
    · simp only [setMbss_self, hnext]
      refine ⟨hstatus, hGMK, hBssid, .inl hkey, fun slot => ?_, fun hcounting => ?_⟩
      · simp only [update_apply]
        split
        · exact .inr hkey.symm
        · exact .inl (congrFun hshared slot)
      · simp only at hcounting
        omega
  · rw [countDown_early cfg k _ (by rwa [hself]), hself]
    constructor
    · apply InForce.of_current
      · simp only [setMbss_self]
        exact hcurrent
      · exact h.inStep
      · intro hzero
        simp only [setMbss_self] at hzero
        omega
    · exact fresh_nil
    · simp only [setMbss_self]
      refine ⟨hstatus, hGMK, hBssid, .inl hkey, fun slot => .inl (congrFun hshared slot), fun _ => ?_⟩
      exact ⟨hshared, .inr ⟨hkey, by omega⟩⟩

/-- The interval of the BSS is over with this turn of its timer. -/
def Due (cfg : Config) (apidx : Nat) (m : MULTISSID_STRUCT) : Prop :=
  apidx < cfg.BssidNum ∧ ¬ m.AuthMode < .WPA ∧ ¬ m.AuthMode > .WPA1PSKWPA2PSK ∧
    (rekeyCount m).any fun count => count.1 > m.ReKeyInterval

instance (apidx : Nat) (m : MULTISSID_STRUCT) : Decidable (Due cfg apidx m) :=
  inferInstanceAs (Decidable (_ ∧ _))

theorem rekey_kept (C : Crypto) (env : Env) (h : InForce k s) (hAP : cfg.OpMode = .AP)
    (hk : k < cfg.MAX_MBSSID_NUM) (hcipher : HasGroupCipher k s.pAd)
    (hawaited : Awaited (s.pAd.MBSSID k))
    (hdue : Due cfg k (s.pAd.MBSSID k) → (s.pAd.MBSSID k).RekeyCountDown = 0 →
      (s.pAd.MBSSID k).StaCount > 0) :
    Kept (some (gtkKey (newGtk C env (s.pAd.MBSSID k)))) k s
      (GREKEYPeriodicExec C cfg env k s.pAd) := by
  unfold GREKEYPeriodicExec
  dsimp only
  split
  · exact Kept.of_calm h (Calm.refl k s.pAd)
  · rename_i hin
    simp only [not_or, not_le] at hin
    cases hcount : rekeyCount (s.pAd.MBSSID k) with
    | none => exact Kept.of_calm h (Calm.refl k s.pAd)
    | some count =>
      obtain ⟨temp_counter, REKEYCOUNTER⟩ := count
      dsimp only
      split
      · rename_i hover
        refine startRekey_kept C env h hAP (m := { s.pAd.MBSSID k with REKEYCOUNTER }) rfl ?_ rfl
        intro hnobody
        by_contra hzero
        refine hnobody (hdue ⟨hin.1, hin.2.1, hin.2.2, ?_⟩ (Nat.eq_zero_of_not_pos hzero))
        rw [hcount]
        exact decide_eq_true hover
      · rw [List.nil_append]
        exact countDown_kept h hk hcipher hawaited (m := { s.pAd.MBSSID k with REKEYCOUNTER }) rfl

theorem rekey_calm (C : Crypto) (cfg : Config) (env : Env) {apidx : Nat} (hne : apidx ≠ k)
    (pAd : RTMP_ADAPTER) : Calm k pAd (GREKEYPeriodicExec C cfg env apidx pAd) := by
  have hset : ∀ pAd m, Calm k pAd ([], setMbss pAd apidx m) := fun pAd m =>
    calm_setMbss fun heq => (hne heq).elim
  have hcountDown : ∀ pAd, Calm k pAd (countDown cfg apidx pAd) := by
    intro pAd
    unfold countDown
    dsimp only
    split_ifs
    · exact (hset pAd _).then (installGtk_calm cfg hne _)
    · exact hset pAd _
    · exact Calm.refl k pAd
  have hstart : ∀ pAd, Calm k pAd (startRekey C cfg env apidx pAd) := by
    intro pAd
    unfold startRekey
    dsimp only
    split_ifs
    · exact (hset pAd _).then (calm_forEntries (sendGtk_calm cfg env false hne) _)
    · exact hset pAd _
  unfold GREKEYPeriodicExec
  dsimp only
  split
  · exact Calm.refl k pAd
  · split
    · exact Calm.refl k pAd
    · rename_i REKEYCOUNTER _
      refine (hset pAd { pAd.MBSSID apidx with REKEYCOUNTER }).then ?_
      split
      · exact (hstart _).trans (hcountDown _)
      · exact (Calm.refl k _).trans (hcountDown _)

theorem fresh_onEntry (f : Local → Out) (j : Wcid) (pAd : RTMP_ADAPTER) :
    Fresh k pAd (onEntry cfg f j pAd).2.1 :=
  fun _ _ hmem => (onEntry_shared f j pAd hmem).elim

theorem onEntry_kept {key : Option CIPHER_KEY} (h : InForce k s) {f : Local → Out} {j : Wcid}
    (hapidx : (f (localOf cfg s.pAd j)).next.entry.apidx = (s.pAd.Content j).apidx)
    (hf : (s.pAd.Content j).apidx = k →
      Steady (s.sent j) (localOf cfg s.pAd j) (f (localOf cfg s.pAd j))) :
    Kept key k s (onEntry cfg f j s.pAd).2 := by
  rcases eq_or_ne (s.pAd.Content j).apidx k with hj | hj
  · have hsteady := hf hj
    exact ⟨onEntry_steady h hsteady, fresh_onEntry f j s.pAd,
      .of_group (onEntry_group hsteady.group)⟩
  · exact Kept.of_calm h (calm_onEntry_other hj hapidx)

theorem Kept.of_steady (h : InForce k s) {j : Wcid}
    (hf : Steady (s.sent j) (localOf cfg s.pAd j) (f (localOf cfg s.pAd j))) :
    Kept key k s (onEntry cfg f j s.pAd).2 :=
  onEntry_kept h hf.apidx fun _ => hf

theorem handler_steady {handler : Handler} {sent : Sent} {l : Local} (hAP : cfg.OpMode = .AP)
    (hf : handler.onLocal C cfg env i Elem = some f) (h4 : handler ≠ .PeerPairMsg4Action)
    (h2 : handler ≠ .PeerGroupMsg2Action) : Steady sent l (f l) := by
  cases handler with
  | PeerPairMsg1Action =>
    cases hf
    exact msg1_steady hAP
  | PeerPairMsg2Action =>
    cases hf
    exact msg2_steady C env i Elem l hAP
  | PeerPairMsg3Action =>
    cases hf
    exact msg3_steady hAP
  | PeerPairMsg4Action => exact (h4 rfl).elim
  | PeerGroupMsg1Action =>
    cases hf
    exact groupMsg1_steady hAP
  | PeerGroupMsg2Action => exact (h2 rfl).elim
  | updatePairwiseKey =>
    cases hf
    exact updatePairwiseKey_steady cfg env i l
  | _ => cases hf

/-- A frame is in time: where it confirms the group key, the one in force is the one that was sent
last, and where a new group key is asked for, none is counted down to. -/
def KeyInTime (C : Crypto) (cfg : Config) (k : Nat) (env : Env) (i : Wcid)
    (Elem : MLME_QUEUE_ELEM) (s : Served) : Prop :=
  let e := s.pAd.Content i
  let genuine := Genuine C e Elem.Msg ∧ env.keydata = true
  e.apidx = k →
    (handlerOf cfg e Elem = some .PeerPairMsg4Action ∧ takesMsg4 cfg Elem e = true ∧ genuine →
      SentBefore4 env i (s.sent i) (localOf cfg s.pAd i)) ∧
    (handlerOf cfg e Elem = some .PeerGroupMsg2Action ∧ takesGroupMsg2 cfg Elem e = true ∧
      genuine → s.sent i = some (currentGtk (localOf cfg s.pAd i).mbss)) ∧
    (handlerOf cfg e Elem = some .updateGroupKey → (s.pAd.MBSSID k).RekeyCountDown = 0)

/-- When the interval of the BSS is over, there is a station in it or a group key is counted down
to. -/
def InTime (C : Crypto) (cfg : Config) (k : Nat) (s : Served) : GroupEvent → Prop
  | .wpa (.key env i Elem) => KeyInTime C cfg k env i Elem s
  | .wpa (.rekey _ apidx) =>
    apidx = k → Due cfg k (s.pAd.MBSSID k) → (s.pAd.MBSSID k).RekeyCountDown = 0 →
      (s.pAd.MBSSID k).StaCount > 0
  | _ => True

theorem request_of_updateGroupKey (h : handlerOf cfg e Elem = some .updateGroupKey) :
    Elem.Msg.KeyDesc.KeyInfo.Request = true := by
  unfold handlerOf toSupplicant toAuthenticator ofHandshake at h
  dsimp only at h
  split_ifs at h <;> simp_all

theorem key_kept (C : Crypto) (env : Env) (i : Wcid) (Elem : MLME_QUEUE_ELEM) (h : InForce k s)
    (hAP : cfg.OpMode = .AP) (hk : k < cfg.MAX_MBSSID_NUM) (hcipher : HasGroupCipher k s.pAd)
    (hnew : ∀ key, (GroupEvent.wpa (.key env i Elem)).newKey C k (s.pAd.MBSSID k) = some key →
      ∀ slot, (s.pAd.MBSSID k).SharedKey slot ≠ key)
    (hin : KeyInTime C cfg k env i Elem s) :
    Kept ((GroupEvent.wpa (.key env i Elem)).newKey C k (s.pAd.MBSSID k)) k s
      (perform C cfg (.key env i Elem) s.pAd).2 := by
  cases hh : handlerOf cfg (s.pAd.Content i) Elem with
  | none =>
    simp only [perform, WpaEAPOLKeyAction, hh]
    exact Kept.of_calm h (Calm.refl k s.pAd)
  | some handler =>
    have hsteady : ∀ {f}, handler.onLocal C cfg env i Elem = some f →
        handler ≠ .PeerPairMsg4Action → handler ≠ .PeerGroupMsg2Action →
        Kept ((GroupEvent.wpa (.key env i Elem)).newKey C k (s.pAd.MBSSID k)) k s
          (perform C cfg (.key env i Elem) s.pAd).2 := by
      intro f hf h4 h2
      rw [key_onEntry C env hh hf]
      exact Kept.of_steady h (handler_steady hAP hf h4 h2)
    cases handler with
    | PeerPairMsg1Action => exact hsteady rfl (by decide) (by decide)
    | PeerPairMsg2Action => exact hsteady rfl (by decide) (by decide)
    | PeerPairMsg3Action => exact hsteady rfl (by decide) (by decide)
    | PeerGroupMsg1Action => exact hsteady rfl (by decide) (by decide)
    | updatePairwiseKey => exact hsteady rfl (by decide) (by decide)
    | PeerPairMsg4Action =>
      rw [key_onEntry C env hh rfl]
      have hleaves := msg4_leaves (x := (s.pAd.Content i).Addr) C env i Elem
        (localOf cfg s.pAd i) hAP
      exact onEntry_kept h hleaves.same.apidx fun hi =>
        msg4_steady C hAP fun hright => (hin hi).1 ⟨hh, hright⟩
    | PeerGroupMsg2Action =>
      rw [key_onEntry C env hh rfl]
      refine onEntry_kept h ?_ fun hi =>
        groupMsg2_steady C cfg fun hright => (hin hi).2.1 ⟨hh, hright⟩
      rw [groupMsg2_eq]
      split <;> rfl
    | RTMPHandleSTAKey =>
      simp only [perform, WpaEAPOLKeyAction, hh, Handler.onLocal]
      exact Kept.of_calm h (handleSTAKey_calm C env i Elem s.pAd)
    | HandleCounterMeasure =>
      simp only [perform, WpaEAPOLKeyAction, hh, Handler.onLocal]
      exact Kept.of_calm h (counterMeasure_calm cfg env i s.pAd)
    | updateGroupKey =>
      have hkey : (GroupEvent.wpa (.key env i Elem)).newKey C k (s.pAd.MBSSID k) =
          some (gtkKey (newGtk C env (s.pAd.MBSSID k))) :=
        if_pos (request_of_updateGroupKey hh)
      simp only [perform, WpaEAPOLKeyAction, hh, Handler.onLocal]
      rcases eq_or_ne (s.pAd.Content i).apidx k with hi | hi
      · rw [hi, hkey]
        exact updateGroupKey_kept C env s hAP hk hcipher ((hin hi).2.2 hh) (hnew _ hkey)
      · exact Kept.of_calm h (updateGroupKey_calm C cfg env hi s.pAd)

/-- A station that is new has not finished its handshake. -/
def NewComer : GroupEvent → Prop
  | .wpa (.join _ e) => e.WpaState ≠ .AS_PTKINITDONE
  | _ => True

theorem join_group :
    ((MacTableInsertEntry i e pAd).MBSSID k).groupState = (pAd.MBSSID k).groupState := by
  show (update pAd.MBSSID e.apidx _ k).groupState = _
  rcases eq_or_ne k e.apidx with rfl | hne
  · rw [update_self]
    rfl
  · rw [update_of_ne hne]

theorem join_inForce (h : InForce k s) (C : Crypto) (cfg : Config) (i : Wcid)
    (he : e.WpaState ≠ .AS_PTKINITDONE) : InForce k (serve C cfg s (.wpa (.join i e))) := by
  apply h.of_group join_group
  · intro j hj
    rcases eq_or_ne j i with rfl | hji
    · intro hdone
      simp only [MacTableInsertEntry, setEntry_content, update_self] at hdone
      exact (he hdone.2.1).elim
    · simp only [MacTableInsertEntry, setEntry_content, setMbss_content,
        update_of_ne hji] at hj ⊢
      exact h.inStep j hj

theorem mcast_group (cfg : Config) (SrcBufLen : Nat) (pAd : RTMP_ADAPTER) :
    ((countMcast cfg SrcBufLen pAd).MBSSID k).groupState = (pAd.MBSSID k).groupState := by
  simp only [countMcast]
  split <;> rfl

theorem event_kept (C : Crypto) (h : InForce k s) (hAP : cfg.OpMode = .AP)
    (hk : k < cfg.MAX_MBSSID_NUM) (hcipher : HasGroupCipher k s.pAd) {e : GroupEvent}
    (hjoin : NewComer e) (hawaited : Awaited (s.pAd.MBSSID k))
    (hnew : ∀ key, e.newKey C k (s.pAd.MBSSID k) = some key →
      ∀ slot, (s.pAd.MBSSID k).SharedKey slot ≠ key)
    (hin : InTime C cfg k s e) :
    InForce k (serve C cfg s e) ∧ NotAgain C cfg k s e ∧
      Turned (e.newKey C k (s.pAd.MBSSID k)) (s.pAd.MBSSID k) ((serve C cfg s e).pAd.MBSSID k) := by
  have hkept : ∀ {r : Verdict × Acts × RTMP_ADAPTER},
      Kept (e.newKey C k (s.pAd.MBSSID k)) k s r.2 →
      InForce k (s.after r.2) ∧ Fresh k s.pAd r.2.1 ∧
        Turned (e.newKey C k (s.pAd.MBSSID k)) (s.pAd.MBSSID k) ((s.after r.2).pAd.MBSSID k) :=
    fun hr => ⟨hr.inForce, hr.fresh, hr.turned⟩
  rcases e with e | SrcBufLen
  · cases e with
    | key env i Elem => exact hkept (key_kept C env i Elem h hAP hk hcipher hnew hin)
    | eapolStart env i internal =>
      exact hkept (.of_steady h (eapolStart_steady cfg env i _ internal))
    | start4Way env i => exact hkept (.of_steady h (start4Way_steady cfg env i _))
    | start2Way env i => exact hkept (.of_steady h (start2Way_steady env i _ hAP))
    | retry env i => exact hkept (.of_steady h (retry_steady env i _ hAP))
    | rekey env apidx =>
      apply hkept
      rcases eq_or_ne apidx k with rfl | hne
      · have hturn := rekey_kept C env h hAP hk hcipher hawaited (hin rfl)
        simp only [GroupEvent.newKey, if_true]
        exact hturn
      · exact Kept.of_calm h (rekey_calm C cfg env hne s.pAd)
    | leave i =>
      apply hkept
      apply Kept.of_steady h
      exact Steady.of_not (delete_group cfg _) (delete_apidx cfg _)
        (delete_not_established cfg _)
    | join i e =>
      refine ⟨join_inForce h C cfg i hjoin, fresh_nil, .of_group ?_⟩
      exact join_group
  · have hgroup := mcast_group (k := k) cfg SrcBufLen s.pAd
    exact ⟨h.of_group hgroup h.inStep, trivial, .of_group hgroup⟩

/-- In a run whose events are in time the group keys stay in force and none is installed again, as
long as the random numbers make group keys that are new. -/
theorem group_keys_in_step (C : Crypto) (hAP : cfg.OpMode = .AP) (hk : k < cfg.MAX_MBSSID_NUM)
    (hcipher : HasGroupCipher k s.pAd) (h : InForce k s) (hawaited : Awaited (s.pAd.MBSSID k))
    {es : List GroupEvent} (hes : ∀ e ∈ es, NewComer e) (hnew : KeysNew C k (s.pAd.MBSSID k) es)
    (hin : Run.AllSteps (serve C cfg) (InTime C cfg k) s es) :
    (∀ n, InForce k (Run.exec (serve C cfg) s (es.take n))) ∧
      Run.AllSteps (serve C cfg) (NotAgain C cfg k) s es := by
  induction es generalizing s with
  | nil => exact ⟨fun n => by rwa [List.take_nil], trivial⟩
  | cons e es ih =>
    have hmade : ∀ key, e.newKey C k (s.pAd.MBSSID k) = some key →
        ∀ slot, (s.pAd.MBSSID k).SharedKey slot ≠ key := by
      intro key hkey
      have hfresh := hnew.fresh key
      rw [List.filterMap_cons_some hkey] at hfresh
      exact (hfresh List.mem_cons_self).2
    obtain ⟨hforce, hagain, hturned⟩ :=
      event_kept C h hAP hk hcipher (hes e List.mem_cons_self) hawaited hmade hin.1
    obtain ⟨hnew', hawaited'⟩ := hnew.step hawaited hturned
    have hcipher' : HasGroupCipher k (serve C cfg s e).pAd := by
      rw [HasGroupCipher, hturned.cipher]
      exact hcipher
    obtain ⟨hall, hrest⟩ := ih hcipher' hforce hawaited'
      (fun e' he' => hes e' (List.mem_cons_of_mem e he')) hnew' hin.2
    refine ⟨fun n => ?_, hagain, hrest⟩
    cases n with
    | zero => exact h
    | succ n => exact hall n

instance (env : Env) (sent : Sent) (l : Local) : Decidable (SentBefore4 env i sent l) :=
  inferInstanceAs
    (Decidable (if _ = true then _ = some _ else (_ = GTK_STATE.REKEY_ESTABLISHED → _ = true ∨ _ = some _)))

instance (C : Crypto) (env : Env) : Decidable (KeyInTime C cfg k env i Elem s) :=
  inferInstanceAs (Decidable (_ → (_ ∧ _ → _) ∧ (_ ∧ _ → _) ∧ (_ → _)))

instance (C : Crypto) : ∀ e, Decidable (InTime C cfg k s e)
  | .wpa (.key env i Elem) => inferInstanceAs (Decidable (KeyInTime C cfg k env i Elem s))
  | .wpa (.rekey _ _) => inferInstanceAs (Decidable (_ → _ → _ → _))
  | .wpa (.eapolStart ..) | .wpa (.start4Way ..) | .wpa (.start2Way ..) | .wpa (.retry ..)
  | .wpa (.leave _) | .wpa (.join ..) | .mcast _ => .isTrue trivial

/-- A BSS whose interval is over, with its group key installed. There is a client in it or there is
not. -/
def rekeyBss (EntryType : EntryType) (StaCount : Nat) : Served :=
  let m :=
    { (default : MULTISSID_STRUCT) with
      AuthMode := .WPA2PSK
      GroupKeyWepStatus := .Encryption2Enabled
      DefaultKeyId := 1
      ReKeyMethod := .TIME_REKEY
      ReKeyInterval := 60
      REKEYCOUNTER := 60
      StaCount }
  { pAd :=
      { tkipAp with
        Content := fun i =>
          { tkipAp.Content i with EntryType := if i = 0 then EntryType else .NONE }
        MBSSID := fun _ => { m with SharedKey := update (fun _ => noKey) 1 (gtkKey m) } }
    sent := fun _ => none }

def tick (r : Byte) : GroupEvent := .wpa (.rekey (drawing r) 0)

theorem rekeyBss_inForce (kind : EntryType) (StaCount : Nat) : InForce 0 (rekeyBss kind StaCount) :=
  ⟨fun _ _ hdone => (nomatch hdone.2.1), fun _ => rfl⟩

theorem rekeyBss_keysNew {kind : EntryType} {StaCount : Nat} {es : List GroupEvent}
    (h : (noKey :: gtkKey ((rekeyBss kind StaCount).pAd.MBSSID 0) :: es.filterMap
      (GroupEvent.newKey sumHash 0 ((rekeyBss kind StaCount).pAd.MBSSID 0))).Nodup) :
    KeysNew sumHash 0 ((rekeyBss kind StaCount).pAd.MBSSID 0) es := by
  simp only [List.nodup_cons, List.mem_cons, not_or] at h
  obtain ⟨⟨-, hno⟩, hgtk, hnodup⟩ := h
  refine ⟨hnodup, ?_⟩
  rintro key hmem
  refine ⟨ne_of_mem_of_not_mem hmem hgtk, ?_⟩
  rintro slot rfl
  rcases eq_or_ne slot 1 with rfl | hslot
  · exact hgtk hmem
  · refine hno ?_
    have hempty : ((rekeyBss kind StaCount).pAd.MBSSID 0).SharedKey slot = noKey := by
      show update (fun _ => noKey) 1 _ slot = noKey
      rw [update_of_ne hslot]
    rwa [hempty] at hmem

/-- A handshake, a tick that makes a new group key, its confirmation and the ticks up to its
install. -/
def rekeyRun : List GroupEvent :=
  [.wpa (.start4Way (drawing 1) 0), .wpa (.key (drawing 1) 0 (tkipMsg 1 1 1)),
    .wpa (.key (drawing 1) 0 (tkipMsg 1 2 0)), tick 2,
    .wpa (.key (drawing 2) 0 { tkipMsg 3 3 0 with Msg.KeyDesc.KeyInfo := ⟨3, 1⟩ }), tick 3, tick 4]

theorem group_keys_in_step_rekeyRun :
    (∀ n, InForce 0 (Run.exec (serve sumHash apConfig) (rekeyBss .CLIENT 1) (rekeyRun.take n))) ∧
      Run.AllSteps (serve sumHash apConfig) (NotAgain sumHash apConfig 0) (rekeyBss .CLIENT 1)
        rekeyRun := by
  apply group_keys_in_step sumHash rfl (by decide) (.inl rfl) (rekeyBss_inForce .CLIENT 1) nofun
  · simp [rekeyRun, tick, NewComer]
  · exact rekeyBss_keysNew (by decide +kernel)
  · decide +kernel

/-- Without stations no new key is made, and the one that is installed is installed again. -/
theorem group_key_installed_again :
    ¬ ∀ (C : Crypto) (cfg : Config) (k : Nat) (s : Served) (es : List GroupEvent),
      cfg.OpMode = .AP → k < cfg.MAX_MBSSID_NUM → HasGroupCipher k s.pAd → InForce k s →
        Awaited (s.pAd.MBSSID k) → (∀ e ∈ es, NewComer e) → KeysNew C k (s.pAd.MBSSID k) es →
        (∀ n, InForce k (Run.exec (serve C cfg) s (es.take n))) ∧
          Run.AllSteps (serve C cfg) (NotAgain C cfg k) s es := by
  intro hclaim
  have hall := hclaim sumHash apConfig 0 (rekeyBss .NONE 0) [tick 1, tick 2, tick 3] rfl (by decide)
    (.inl rfl) (rekeyBss_inForce .NONE 0) nofun (by simp [tick, NewComer])
    (rekeyBss_keysNew (by decide +kernel))
  have hagain := hall.2.2.2.1 1 (gtkKey ((rekeyBss .NONE 0).pAd.MBSSID 0)) (by decide +kernel) 1
  exact hagain (by decide +kernel)

end Ralink.Wpa
