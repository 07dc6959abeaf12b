import Ralink.P2p.Group

/-! An insertion stops at the first free entry, so a peer that stands behind a hole is not seen and
gets a second entry. Without such an insertion the table is a set of device addresses. -/
namespace Ralink.P2p
open Function

inductive Event where
  | init
  | insert (Addr : Mac) (p : Peer) (live : p.State ≠ .P2PSTATE_NONE)
  | delete (p2pindex : Byte) (Addr : Option Mac)
  | search (Addr : Mac)

def step (Tab : RT_P2P_TABLE) : Event → RT_P2P_TABLE
  | .init => P2pGroupTabInit Tab
  | .insert Addr p _ => (P2pGroupTabInsert Tab Addr p).2
  | .delete p2pindex Addr => (P2pGroupTabDelete Tab p2pindex Addr).2
  | .search _ => Tab

/-- One entry for a device address, the entries counted, and every address that one of them
carries found. -/
structure IsSet (Tab : RT_P2P_TABLE) : Prop where
  unique : Slots.Distinct key Tab.Client
  number : Tab.ClientNumber = Slots.used key Tab.Client
  found : ∀ Addr, (P2pGroupTabSearch Tab Addr).isSome ↔
    ∃ i, key (Tab.Client i) ≠ none ∧ Carries (Tab.Client i) Addr
  index : ∀ Addr, ∀ i ∈ P2pGroupTabSearch Tab Addr,
    key (Tab.Client i) ≠ none ∧ Carries (Tab.Client i) Addr

/-- A peer that is there is inserted at its own entry, and no other entry is made. -/
def Kept (Tab : RT_P2P_TABLE) : Event → Prop
  | .insert Addr p _ => ∀ i, key (Tab.Client i) = some Addr →
      (P2pGroupTabInsert Tab Addr p).1 = some i ∧
        ∀ j, key ((P2pGroupTabInsert Tab Addr p).2.Client j) = key (Tab.Client j)
  | _ => True

/-- No free entry stands before that of a peer that is inserted again. -/
def NoHole (Tab : RT_P2P_TABLE) : Event → Prop
  | .insert Addr _ _ => ∀ i j, key (Tab.Client i) = some Addr → key (Tab.Client j) = none → i < j
  | _ => True

structure Named (e : RT_P2P_CLIENT_ENTRY) : Prop where
  bssid : multicast e.bssid = false
  interface : multicast e.InterfaceAddr = false
  device : ∀ Addr, key e = some Addr → Addr ≠ zeroMac ∧ multicast Addr = false

structure Sane (Tab : RT_P2P_TABLE) : Prop where
  number : Tab.ClientNumber = Slots.used key Tab.Client
  named : ∀ i, Named (Tab.Client i)

variable {Tab : RT_P2P_TABLE} {Addr : Mac} {p : Peer} {e : RT_P2P_CLIENT_ENTRY}
  {i : Fin MAX_P2P_GROUP_SIZE}

theorem Named.refresh (h : Named e) (hlive : key e ≠ none) : Named (e.refresh p) :=
  ⟨h.bssid, h.interface, key_refresh hlive ▸ h.device⟩

theorem Named.take (h : Named e) (hp : p.State ≠ .P2PSTATE_NONE) (hzero : Addr ≠ zeroMac)
    (hmulti : multicast Addr = false) : Named (e.take Addr p) := by
  refine ⟨h.bssid, h.interface, fun Addr' hkey => ?_⟩
  obtain rfl := Option.some.inj ((key_take hp).symm.trans hkey)
  exact ⟨hzero, hmulti⟩

theorem named_release (e : RT_P2P_CLIENT_ENTRY) : Named e.release where
  bssid := (by decide : multicast strangeMac = false)
  interface := (by decide : multicast strangeMac = false)
  device Addr h := (Option.some_ne_none Addr h.symm).elim

theorem Sane.named_update (h : Sane Tab) (he : Named e) :
    ∀ j, Named (update Tab.Client i e j) := by
  rw [forall_update_iff Tab.Client fun _ => Named]
  exact ⟨he, fun j _ => h.named j⟩

theorem sane_init (Tab : RT_P2P_TABLE) : Sane (P2pGroupTabInit Tab) where
  number := (Slots.used_eq_zero.mpr fun _ => rfl).symm
  named _ := ⟨(by decide : multicast zeroMac = false), (by decide : multicast zeroMac = false),
    fun Addr h => (Option.some_ne_none Addr h.symm).elim⟩

section

variable (h : Sane Tab)
include h

theorem Sane.insert (Addr : Mac) (hp : p.State ≠ .P2PSTATE_NONE) :
    Sane (P2pGroupTabInsert Tab Addr p).2 := by
  rcases insert_cases Tab Addr p with
    ⟨-, heq⟩ | ⟨i, hi, -, heq⟩ | ⟨i, hi, -, hzero, hmulti, heq⟩ | ⟨-, heq⟩
  · rwa [heq]
  · have hlive : key (Tab.Client i) ≠ none := fun hnone => Option.some_ne_none Addr (hi ▸ hnone)
    rw [heq]
    constructor
    · exact h.number.trans (Slots.used_update_same (congrArg _ (key_refresh hlive))).symm
    · exact h.named_update ((h.named i).refresh hlive)
  · have htake : (key ((Tab.Client i).take Addr p)).isSome :=
      Option.isSome_iff_exists.mpr ⟨Addr, key_take hp⟩
    rw [heq]
    constructor
    · exact (congrArg (· + 1) h.number).trans (Slots.used_take hi htake).symm
    · exact h.named_update ((h.named i).take hp hzero hmulti)
  · rwa [heq]

theorem Sane.release (i : Fin MAX_P2P_GROUP_SIZE) : Sane (Tab.release i) := by
  refine ⟨?_, h.named_update (named_release _)⟩
  by_cases hlive : key (Tab.Client i) = none
  · have hsame : Slots.used key (update Tab.Client i (Tab.Client i).release) =
        Slots.used key Tab.Client := Slots.used_update_same (by rw [hlive, key_release])
    have hstate := key_eq_none.mp hlive
    simp [RT_P2P_TABLE.release, hstate, h.number, hsame]
  · have hless : Slots.used key Tab.Client =
        Slots.used key (update Tab.Client i (Tab.Client i).release) + 1 :=
      Slots.used_free (Option.isSome_iff_ne_none.mpr hlive) key_release
    have hstate : (Tab.Client i).P2pClientState ≠ .P2PSTATE_NONE :=
      fun hnone => hlive (key_eq_none.mpr hnone)
    simp [RT_P2P_TABLE.release, hstate, h.number, hless]

theorem Sane.step (e : Event) : Sane (P2p.step Tab e) := by
  cases e with
  | init => exact sane_init Tab
  | insert Addr p live => exact h.insert Addr live
  | delete p2pindex Addr =>
    show Sane (P2pGroupTabDelete Tab p2pindex Addr).2
    rcases delete_cases Tab p2pindex Addr with heq | ⟨i, heq⟩
    · rwa [heq]
    · rw [heq]
      exact h.release i
  | search Addr => exact h

theorem Sane.isSome_search (Addr : Mac) :
    (P2pGroupTabSearch Tab Addr).isSome ↔
      ∃ i, key (Tab.Client i) ≠ none ∧ Carries (Tab.Client i) Addr := by
  constructor
  · intro hsome
    obtain ⟨i, hi⟩ := Option.isSome_iff_exists.mp hsome
    exact ⟨i, of_search hi⟩
  · rintro ⟨i, hlive, hcarries⟩
    apply search_of_carries hlive hcarries
    rcases hcarries.2 with rfl | rfl | rfl
    · obtain ⟨Addr, hkey⟩ := Option.ne_none_iff_exists'.mp hlive
      have haddr : (Tab.Client i).addr = Addr := by
        have hholds := key_eq_some.mp hkey
        exact (of_decide_eq_true hholds).2
      exact haddr ▸ ((h.named i).device Addr hkey).2
    · exact (h.named i).interface
    · exact (h.named i).bssid

theorem Sane.isSet_iff : IsSet Tab ↔ Slots.Distinct key Tab.Client :=
  ⟨IsSet.unique, fun hd => ⟨hd, h.number, h.isSome_search, fun _ _ hi => of_search hi⟩⟩

theorem distinct_insert_iff (hd : Slots.Distinct key Tab.Client) (Addr : Mac)
    (hp : p.State ≠ .P2PSTATE_NONE) :
    Slots.Distinct key (P2pGroupTabInsert Tab Addr p).2.Client ↔
      NoHole Tab (.insert Addr p hp) := by
  rcases insert_cases Tab Addr p with
    ⟨hrefuse, heq⟩ | ⟨i, hi, hbefore, heq⟩ | ⟨i, hi, hbefore, -, -, heq⟩ | ⟨hfull, heq⟩
  · rw [heq]
    refine iff_of_true hd fun i j hi _ => ?_
    obtain ⟨hzero, hmulti⟩ := (h.named i).device Addr hi
    rcases hrefuse with hrefuse | hrefuse
    · exact (hzero hrefuse).elim
    · exact (Bool.false_ne_true (hmulti.symm.trans hrefuse)).elim
  · have hlive : key (Tab.Client i) ≠ none := fun hnone => Option.some_ne_none Addr (hi ▸ hnone)
    rw [heq]
    show Slots.Distinct key (update Tab.Client i _) ↔ _
    apply iff_of_true
    · apply hd.update
      intro j hj Addr' hkey hsame
      rw [key_refresh hlive] at hkey
      exact hj (hd j i Addr' hsame hkey)
    · intro k j hk hj
      obtain rfl := hd k i Addr hk hi
      have hne : j ≠ k := by
        rintro rfl
        exact hlive hj
      exact lt_of_le_of_ne (not_lt.mp fun hlt => hbefore j hlt hj) hne.symm
  · rw [heq]
    show Slots.Distinct key (update Tab.Client i _) ↔ _
    constructor
    · intro hnew k j hk hj
      have hki : k ≠ i := by
        rintro rfl
        exact Option.some_ne_none Addr (hk.symm.trans hi)
      refine (hki (hnew k i Addr ?_ ?_)).elim
      · rwa [update_of_ne hki]
      · rw [update_self]
        exact key_take hp
    · intro hno
      apply hd.update
      intro j hj Addr' hkey hsame
      obtain rfl := Option.some.inj ((key_take hp).symm.trans hkey)
      exact hbefore j (hno j i hsame hi) hsame
  · rw [heq]
    exact iff_of_true hd fun i j _ hj => ((hfull j).1 hj).elim

end

theorem distinct_release (hd : Slots.Distinct key Tab.Client) (i : Fin MAX_P2P_GROUP_SIZE) :
    Slots.Distinct key (Tab.release i).Client :=
  hd.update fun _ _ _ hkey => (Option.some_ne_none _ hkey.symm).elim

theorem isSet_step_iff (h : Sane Tab) (hset : IsSet Tab) (e : Event) :
    IsSet (step Tab e) ↔ NoHole Tab e := by
  rw [(h.step e).isSet_iff]
  cases e with
  | init => exact iff_of_true (fun i j Addr hi => (Option.some_ne_none _ hi.symm).elim) trivial
  | insert Addr p live => exact distinct_insert_iff h hset.unique Addr live
  | delete p2pindex Addr =>
    refine iff_of_true ?_ trivial
    show Slots.Distinct key (P2pGroupTabDelete Tab p2pindex Addr).2.Client
    rcases delete_cases Tab p2pindex Addr with heq | ⟨i, heq⟩
    · rw [heq]
      exact hset.unique
    · rw [heq]
      exact distinct_release hset.unique i
  | search Addr => exact iff_of_true hset.unique trivial

theorem kept_of_noHole (h : Sane Tab) (hset : IsSet Tab) (e : Event) (hno : NoHole Tab e) :
    Kept Tab e := by
  cases e with
  | insert Addr p live =>
    intro i hi
    rcases insert_cases Tab Addr p with
      ⟨hrefuse, -⟩ | ⟨k, hk, -, heq⟩ | ⟨k, hk, hbefore, -, -, -⟩ | ⟨hfull, -⟩
    · obtain ⟨hzero, hmulti⟩ := (h.named i).device Addr hi
      rcases hrefuse with hrefuse | hrefuse
      · exact (hzero hrefuse).elim
      · exact (Bool.false_ne_true (hmulti.symm.trans hrefuse)).elim
    · obtain rfl := hset.unique i k Addr hi hk
      refine ⟨congrArg Prod.fst heq, fun j => ?_⟩
      rw [heq]
      show key (update Tab.Client i _ j) = _
      rcases eq_or_ne j i with rfl | hj
      · rw [update_self]
        exact key_refresh fun hnone => Option.some_ne_none Addr (hi ▸ hnone)
      · rw [update_of_ne hj]
    · exact (hbefore i (hno i k hi hk) hi).elim
    · exact ((hfull i).2 hi).elim
  | init => trivial
  | delete p2pindex Addr => trivial
  | search Addr => trivial

/-- From an initialisation on the table is a set at any time, and every peer that is inserted
again keeps its entry, exactly when none is inserted again behind a free entry. -/
theorem run_isSet (Tab : RT_P2P_TABLE) (es : List Event) :
    ((∀ n, IsSet (Run.exec step (P2pGroupTabInit Tab) (es.take n))) ∧
      Run.AllSteps step Kept (P2pGroupTabInit Tab) es) ↔
    Run.AllSteps step NoHole (P2pGroupTabInit Tab) es := by
  have hsane := sane_init Tab
  have hset : IsSet (P2pGroupTabInit Tab) :=
    hsane.isSet_iff.mpr fun i j Addr hi => (Option.some_ne_none _ hi.symm).elim
  symm
  apply Run.allSteps_iff_kept (A := Sane) (Q := fun _ _ => True) _ _ hsane hset
  · exact Run.AllSteps.of_forall fun _ _ _ => trivial
  · exact fun Tab e h _ _ => h.step e
  · intro Tab e h hset _
    rw [isSet_step_iff h hset e]
    exact and_iff_left_of_imp (kept_of_noHole h hset e)

def zeroed : RT_P2P_TABLE where
  ClientNumber := 0
  Client _ :=
    { P2pClientState := .P2PSTATE_NONE, MyGOIndex := 0, Peerip := 0, Dbm := 0, P2pFlag := 0
      GeneralToken := 0, StateCount := 0, Rule := .P2P_IS_CLIENT, DevCapability := 0
      GroupCapability := 0, ConfigMethod := 0, Dpid := 0, Ssid := Vector.replicate 32 0
      SsidLen := 0, GoIntent := 0, addr := zeroMac, InterfaceAddr := zeroMac, bssid := zeroMac
      PrimaryDevType := Vector.replicate 8 0, NumSecondaryType := 0
      SecondaryDevType := Vector.replicate 8 0, OpChannel := 0
      DeviceName := Vector.replicate 32 0, DeviceNameLen := 0, ConfigTimeOut := 0
      ListenChannel := 0, bValid := false }

def discovered : Peer := ⟨.P2PSTATE_DISCOVERY, none, 0, 0, 0, 1⟩

/-- Two peers are discovered, the first one is deleted and the second one discovered again. -/
def behindHole : List Event :=
  [.insert #v[2, 0, 0, 0, 0, 1] discovered nofun, .insert #v[2, 0, 0, 0, 0, 2] discovered nofun,
    .delete 0 (some #v[2, 0, 0, 0, 0, 1]), .insert #v[2, 0, 0, 0, 0, 2] discovered nofun]

theorem second_entry :
    ¬ ((∀ n, IsSet (Run.exec step (P2pGroupTabInit zeroed) (behindHole.take n))) ∧
      Run.AllSteps step Kept (P2pGroupTabInit zeroed) behindHole) := by
  intro h
  have hsame : (0 : Fin MAX_P2P_GROUP_SIZE) = 1 :=
    (h.1 4).unique 0 1 #v[2, 0, 0, 0, 0, 2] (by decide +kernel) (by decide +kernel)
  exact absurd hsame (by decide)

end Ralink.P2p
