import Ralink.Wpa.Effects

/-! The part of a BSS that the handshake of a station depends on, beside the key of the BSS, and
what the events of one handshake leave of it for another station. -/
namespace Ralink.Wpa
open Function
open Station (Wcid)

variable {C : Crypto} {cfg : Config} {env : Env} {i : Wcid} {Elem : MLME_QUEUE_ELEM}
  {l l' : Local} {x : Mac}

structure View where
  Bssid : Mac
  enabled : Bool
  WscControl : Option WSC_CTRL
  slots : Pmkid.Idx → Option Pmkid.AP_BSSID_INFO

def view (Addr : Mac) (m : MULTISSID_STRUCT) : View where
  Bssid := m.Bssid
  enabled := m.WscControl.enabled
  WscControl := if m.WscControl.EntryAddr = Addr then some m.WscControl else none
  slots idx := if (m.PMKIDCache idx).MAC = Addr then some (m.PMKIDCache idx) else none

def cachedPmk (Addr : Mac) (m : MULTISSID_STRUCT) : Option PMK :=
  (Pmkid.RTMPSearchPMKIDCache m.PMKIDCache Addr).map fun idx => (m.PMKIDCache idx).PMK

section Views

variable {m m' : MULTISSID_STRUCT} (h : view x m = view x m')

include h

theorem slot_of_view {idx : Pmkid.Idx} (hmac : (m.PMKIDCache idx).MAC = x) :
    m'.PMKIDCache idx = m.PMKIDCache idx := by
  have hslot := congrFun (congrArg View.slots h) idx
  simp only [view, if_pos hmac] at hslot
  split at hslot
  · exact (Option.some.inj hslot).symm
  · cases hslot

theorem search_of_view :
    Pmkid.RTMPSearchPMKIDCache m.PMKIDCache x = Pmkid.RTMPSearchPMKIDCache m'.PMKIDCache x := by
  apply congrArg Fin.find?
  funext idx
  by_cases hmac : (m.PMKIDCache idx).MAC = x
  · rw [slot_of_view h hmac]
  · have hmac' : (m'.PMKIDCache idx).MAC ≠ x := fun heq =>
      hmac (slot_of_view h.symm heq ▸ heq)
    simp [hmac, hmac']

theorem cachedPmk_of_view : cachedPmk x m = cachedPmk x m' := by
  unfold cachedPmk
  rw [← search_of_view h]
  cases hfind : Pmkid.RTMPSearchPMKIDCache m.PMKIDCache x with
  | none => rfl
  | some idx =>
    have hfound := Fin.eq_true_of_find?_eq_some hfind
    simp only [decide_eq_true_eq] at hfound
    simp only [Option.map_some, slot_of_view h hfound.2]

theorem registrar_of_view (haddr : m.WscControl.EntryAddr = x) :
    m'.WscControl = m.WscControl := by
  have hw := congrArg View.WscControl h
  simp only [view, if_pos haddr] at hw
  split at hw
  · exact (Option.some.inj hw).symm
  · cases hw

theorem forMe_of_view : m.WscControl.EntryAddr = x ↔ m'.WscControl.EntryAddr = x := by
  constructor
  · intro haddr
    rw [registrar_of_view h haddr]
    exact haddr
  · intro haddr
    rw [registrar_of_view h.symm haddr]
    exact haddr

end Views

variable {e : MAC_TABLE_ENTRY} {m : MULTISSID_STRUCT} {Addr : Mac} {idx : Pmkid.Idx}

/-- The key of a client that uses 802.1X is in the cache. -/
def Cached (m : MULTISSID_STRUCT) (e : MAC_TABLE_ENTRY) : Prop :=
  e.EntryType = .CLIENT → e.AuthMode = .WPA2 →
    ∃ idx, e.PMKID_CacheIdx = some idx ∧ (m.PMKIDCache idx).Valid = true ∧
      (m.PMKIDCache idx).MAC = e.Addr

structure Same (e e' : MAC_TABLE_ENTRY) : Prop where
  Addr : e'.Addr = e.Addr
  apidx : e'.apidx = e.apidx
  AuthMode : e'.AuthMode = e.AuthMode
  PMKID_CacheIdx : e'.PMKID_CacheIdx = e.PMKID_CacheIdx
  client : e'.EntryType = .CLIENT → e.EntryType = .CLIENT

structure Leaves (x : Mac) (l l' : Local) : Prop where
  same : Same l.entry l'.entry
  cached : Cached l.mbss l.entry → Cached l'.mbss l'.entry
  view : Cached l.mbss l.entry → x ≠ l.entry.Addr → x ≠ Vector.replicate 6 0 →
    view x l'.mbss = view x l.mbss
  PMK : l.entry.AuthMode ≠ .WPA2 → l'.mbss.PMK = l.mbss.PMK

theorem Same.refl (e : MAC_TABLE_ENTRY) : Same e e := ⟨rfl, rfl, rfl, rfl, id⟩

theorem Leaves.refl (l : Local) : Leaves x l l :=
  ⟨Same.refl l.entry, id, fun _ _ _ => rfl, fun _ => rfl⟩

theorem Leaves.trans {l'' : Local} (h : Leaves x l l') (h' : Leaves x l' l'') : Leaves x l l'' := by
  obtain ⟨hsame, hcached, hview, hpmk⟩ := h
  constructor
  · exact ⟨h'.same.Addr.trans hsame.Addr, h'.same.apidx.trans hsame.apidx,
      h'.same.AuthMode.trans hsame.AuthMode, h'.same.PMKID_CacheIdx.trans hsame.PMKID_CacheIdx,
      fun hc => hsame.client (h'.same.client hc)⟩
  · exact fun hc => h'.cached (hcached hc)
  · intro hc haddr hzero
    rw [h'.view (hcached hc) (hsame.Addr ▸ haddr) hzero, hview hc haddr hzero]
  · intro hmode
    rw [h'.PMK (hsame.AuthMode ▸ hmode), hpmk hmode]

theorem Same.cached (h : Same l.entry e) (hslots : m.PMKIDCache = l.mbss.PMKIDCache)
    (hc : Cached l.mbss l.entry) : Cached m e := by
  intro hkind hmode
  obtain ⟨idx, hidx, hvalid, hmac⟩ := hc (h.client hkind) (h.AuthMode ▸ hmode)
  refine ⟨idx, h.PMKID_CacheIdx.trans hidx, ?_, ?_⟩
  · exact hslots ▸ hvalid
  · exact (congrArg (fun c : Pmkid.BSSIDInfo => (c idx).MAC) hslots).trans
      (hmac.trans h.Addr.symm)

theorem view_registrar {w : WSC_CTRL} (hw : m.WscControl.EntryAddr ≠ x) (hw' : w.EntryAddr ≠ x)
    (hen : w.enabled = m.WscControl.enabled) : view x { m with WscControl := w } = view x m := by
  simp only [view, if_neg hw, if_neg hw', hen]

theorem view_slot {slot : Pmkid.AP_BSSID_INFO} (hold : (m.PMKIDCache idx).MAC ≠ x)
    (hnew : slot.MAC ≠ x) :
    view x { m with PMKIDCache := update m.PMKIDCache idx slot } = view x m := by
  have hslots : (fun k => if (update m.PMKIDCache idx slot k).MAC = x
        then some (update m.PMKIDCache idx slot k) else none) =
      fun k => if (m.PMKIDCache k).MAC = x then some (m.PMKIDCache k) else none := by
    funext k
    rcases eq_or_ne k idx with rfl | hne
    · simp only [update_self, if_neg hold, if_neg hnew]
    · simp only [update_of_ne hne]
  simp only [view, hslots]

theorem inform_leaves (cfg : Config) (l : Local) : Leaves x l (WscInformFromWPA cfg l) := by
  unfold WscInformFromWPA
  split
  · rename_i hmine
    constructor
    · exact ⟨rfl, rfl, rfl, rfl, id⟩
    · exact fun hc => hc
    · intro _ haddr hzero
      exact view_registrar (hmine.2.2 ▸ haddr.symm) hzero.symm rfl
    · exact fun _ => rfl
  · exact Leaves.refl l

theorem add_of_cached {info : Pmkid.BSSIDInfo} (id : PMKID) (pmk : PMK) (Now : Nat)
    (hvalid : (info idx).Valid = true) (hmac : (info idx).MAC = Addr) :
    ∃ at', (info at').MAC = Addr ∧
      Pmkid.RTMPSearchPMKIDCache info Addr = some at' ∧
      Pmkid.RTMPAddPMKIDCache info Addr id pmk Now =
        update info at' { info at' with RefreshTime := Now, PMKID := id, PMK := pmk } := by
  cases hfind : Pmkid.RTMPSearchPMKIDCache info Addr with
  | none =>
    have hno := Fin.find?_eq_none_iff.mp hfind idx
    simp [hvalid, hmac] at hno
  | some at' =>
    have hfound := Fin.eq_true_of_find?_eq_some hfind
    simp only [decide_eq_true_eq] at hfound
    refine ⟨at', hfound.2, rfl, ?_⟩
    simp only [Pmkid.RTMPAddPMKIDCache, hfind]

theorem cachePmk_leaves (hkind : l.entry.EntryType = .CLIENT) :
    Leaves x l (cachePmk C cfg env l) := by
  unfold cachePmk
  split
  · rename_i hmode
    constructor
    · exact Same.refl l.entry
    · intro hc _ _
      obtain ⟨idx, hidx, hvalid, hmac⟩ := hc hkind hmode.2
      obtain ⟨at', -, -, hadd⟩ := add_of_cached
        (pmkidOf C l.mbss.PMK l.mbss.Bssid l.entry.Addr) l.mbss.PMK env.Now hvalid hmac
      refine ⟨idx, hidx, ?_⟩
      simp only [hadd]
      rcases eq_or_ne idx at' with rfl | hne
      · simp only [update_self]
        exact ⟨hvalid, hmac⟩
      · simp only [update_of_ne hne]
        exact ⟨hvalid, hmac⟩
    · intro hc haddr _
      obtain ⟨idx, hidx, hvalid, hmac⟩ := hc hkind hmode.2
      obtain ⟨at', hat, -, hadd⟩ := add_of_cached
        (pmkidOf C l.mbss.PMK l.mbss.Bssid l.entry.Addr) l.mbss.PMK env.Now hvalid hmac
      simp only [hadd]
      exact view_slot (hat ▸ haddr.symm) (hat ▸ haddr.symm)
    · exact fun _ => rfl
  · exact Leaves.refl l

theorem takePmk_leaves (l : Local) : Leaves x l (takePmk l).1 := by
  unfold takePmk
  split
  · rename_i hmode _
    exact ⟨Same.refl l.entry, id, fun _ _ _ => rfl, fun hno => (hno hmode).elim⟩
  · exact Leaves.refl l

theorem forgetEnrollee_view (haddr : x ≠ l.entry.Addr) (hzero : x ≠ Vector.replicate 6 0) :
    view x (forgetEnrollee l).mbss = view x l.mbss := by
  unfold forgetEnrollee
  dsimp only
  split
  · rename_i hmine
    exact view_registrar (hmine.1 ▸ haddr.symm) hzero.symm rfl
  · rfl

theorem dropped_view (haddr : x ≠ Addr) :
    view x { m with PMKIDCache := forgetPmk m.PMKIDCache Addr } = view x m := by
  unfold forgetPmk
  cases hfind : Pmkid.RTMPSearchPMKIDCache m.PMKIDCache Addr with
  | none => rfl
  | some idx =>
    have hfound := Fin.eq_true_of_find?_eq_some hfind
    simp only [decide_eq_true_eq] at hfound
    have hne : (m.PMKIDCache idx).MAC ≠ x := hfound.2 ▸ haddr.symm
    simp only [Pmkid.RTMPDeletePMKIDCache, if_pos hfound.1]
    exact view_slot hne hne

@[simp] theorem forgetEnrollee_PMK (l : Local) : (forgetEnrollee l).mbss.PMK = l.mbss.PMK := by
  unfold forgetEnrollee
  dsimp only
  split <;> rfl

theorem delete_leaves (cfg : Config) (l : Local) : Leaves x l (MacTableDeleteEntry cfg l) := by
  have hgone : ∀ {m e}, e.EntryType = .NONE → Cached m e := by
    intro m e hnone hkind
    rw [hnone] at hkind
    cases hkind
  unfold MacTableDeleteEntry
  split
  · exact Leaves.refl l
  · split
    · constructor
      · constructor <;> simp
      · exact fun _ => hgone rfl
      · intro _ haddr hzero
        refine (forgetEnrollee_view ?_ hzero).trans (dropped_view (m := l.mbss) haddr)
        exact haddr
      · intro _
        simp
    · exact ⟨⟨rfl, rfl, rfl, rfl, nofun⟩, fun _ => hgone rfl, fun _ _ _ => rfl, fun _ => rfl⟩

theorem Same.leaves (h : Same l.entry e) : Leaves x l { l with entry := e } :=
  ⟨h, h.cached rfl, fun _ _ _ => rfl, fun _ => rfl⟩

theorem sendMsg1_leaves (l : Local) : Leaves x l (sendMsg1 l).next := by
  apply (takePmk_leaves l).trans
  apply Same.leaves
  exact ⟨rfl, rfl, rfl, rfl, id⟩

theorem start4Way_leaves (cfg : Config) (env : Env) (i : Wcid) (l : Local) :
    Leaves x l (WPAStart4WayHS cfg env i l).next := by
  rcases start4Way_cases cfg env i l with heq | ⟨-, heq | heq | heq⟩ <;> rw [heq]
  · exact Leaves.refl l
  · exact Same.leaves ⟨rfl, rfl, rfl, rfl, id⟩
  · exact Same.leaves ⟨rfl, rfl, rfl, rfl, id⟩
  · refine Leaves.trans (Same.leaves ?_) (sendMsg1_leaves _)
    exact ⟨rfl, rfl, rfl, rfl, id⟩

theorem start2Way_leaves (cfg : Config) (env : Env) (i : Wcid) (l : Local) :
    Leaves x l (WPAStart2WayGroupHS cfg env i l).next := by
  unfold WPAStart2WayGroupHS
  split
  · exact Leaves.refl l
  · cases cfg.OpMode <;> exact Same.leaves ⟨rfl, rfl, rfl, rfl, id⟩

theorem deAuth_leaves (cfg : Config) (env : Env) (i : Wcid) (l : Local) :
    Leaves x l (MlmeDeAuthAction cfg env i l).next := by
  unfold MlmeDeAuthAction
  split
  · exact Leaves.refl l
  · exact delete_leaves cfg l

theorem retryTurn_leaves (cfg : Config) (env : Env) (i : Wcid) (l : Local) :
    Leaves x l (retryTurn cfg env i l).next := by
  unfold retryTurn
  dsimp only
  split_ifs
  · exact deAuth_leaves cfg env i l
  · refine (start2Way_leaves cfg env i l).trans ?_
    exact Same.leaves ⟨rfl, rfl, rfl, rfl, id⟩
  · exact Leaves.refl l
  · exact deAuth_leaves cfg env i l
  · exact start4Way_leaves cfg env i l
  · exact start4Way_leaves cfg env i l
  · exact Leaves.refl l

theorem retry_leaves (cfg : Config) (env : Env) (i : Wcid) (l : Local) :
    Leaves x l (WPARetryExec cfg env i l).next := by
  unfold WPARetryExec
  split
  · have hcount : Leaves x l
        { l with
          entry.RetryTimer := false
          entry.ReTryCounter := (l.entry.ReTryCounter + 1) % 256 } :=
      Same.leaves ⟨rfl, rfl, rfl, rfl, id⟩
    apply hcount.trans
    dsimp only
    split
    · exact retryTurn_leaves cfg env i _
    · exact Leaves.refl _
  · exact Leaves.refl l

theorem msg2_leaves (C : Crypto) (env : Env) (i : Wcid) (Elem : MLME_QUEUE_ELEM) (l : Local)
    (hAP : cfg.OpMode = .AP) : Leaves x l (PeerPairMsg2Action C cfg env i Elem l).next := by
  have hderive : Leaves x l (derivePtk C l Elem.Msg) := Same.leaves ⟨rfl, rfl, rfl, rfl, id⟩
  rcases msg2_cases C env i Elem l hAP with heq | ⟨-, -, ⟨heq, -⟩ | ⟨heq, -⟩⟩ <;> rw [heq]
  · exact Leaves.refl l
  · exact hderive
  · refine hderive.trans ?_
    exact Same.leaves ⟨rfl, rfl, rfl, rfl, id⟩

theorem afterMsg4_leaves (C : Crypto) (env : Env) (i : Wcid) (hAP : cfg.OpMode = .AP)
    (l : Local) (hkind : l.entry.EntryType = .CLIENT) :
    Leaves x l (afterMsg4 C cfg env i l).next := by
  have hinform := inform_leaves (x := x) cfg l
  have hclient : (WscInformFromWPA cfg l).entry.EntryType = .CLIENT := by
    unfold WscInformFromWPA
    split <;> exact hkind
  apply hinform.trans
  unfold afterMsg4
  rw [if_pos hAP]
  generalize WscInformFromWPA cfg l = informed at hclient
  dsimp only
  split
  · refine Leaves.trans (Same.leaves ?_) (cachePmk_leaves ?_)
    · exact ⟨rfl, rfl, rfl, rfl, id⟩
    · exact hclient
  · split
    · exact start2Way_leaves cfg env i _
    · refine (start2Way_leaves cfg env i _).trans (Same.leaves ?_)
      exact ⟨rfl, rfl, rfl, rfl, id⟩

theorem msg4_leaves (C : Crypto) (env : Env) (i : Wcid) (Elem : MLME_QUEUE_ELEM) (l : Local)
    (hAP : cfg.OpMode = .AP) : Leaves x l (PeerPairMsg4Action C cfg env i Elem l).next := by
  rcases msg4_cases C cfg env i Elem l with ⟨heq, -⟩ | ⟨heq, htakes, -⟩ <;> rw [heq]
  · exact Leaves.refl l
  · simp only [takesMsg4, isClient, decide_eq_true_eq] at htakes
    obtain ⟨PairwiseKey, hopen⟩ := openPort_entry true l
    refine Leaves.trans ?_ (afterMsg4_leaves C env i hAP (openPort true l).next ?_)
    · rw [hopen]
      exact Same.leaves ⟨rfl, rfl, rfl, rfl, id⟩
    · rw [hopen]
      exact htakes.1

def turn (C : Crypto) (cfg : Config) (l : Local) : Event → Out
  | .key env i Elem =>
    match handlerOf cfg l.entry Elem with
    | some .PeerPairMsg2Action => PeerPairMsg2Action C cfg env i Elem l
    | some .PeerPairMsg4Action => PeerPairMsg4Action C cfg env i Elem l
    | _ => drop l
  | .start4Way env i => WPAStart4WayHS cfg env i l
  | .retry env i => WPARetryExec cfg env i l
  | _ => drop l

theorem turn_leaves (C : Crypto) (hAP : cfg.OpMode = .AP) (e : Event) (l : Local) :
    Leaves x l (turn C cfg l e).next := by
  cases e with
  | key env i Elem =>
    dsimp only [turn]
    split
    · exact msg2_leaves C env i Elem l hAP
    · exact msg4_leaves C env i Elem l hAP
    · exact Leaves.refl l
  | start4Way env i => exact start4Way_leaves cfg env i l
  | retry env i => exact retry_leaves cfg env i l
  | _ => exact Leaves.refl l

end Ralink.Wpa
