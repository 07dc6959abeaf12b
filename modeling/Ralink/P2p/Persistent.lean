import Ralink.P2p.Group

/-! The credentials of P2P groups that are formed again later, one entry for the address of a peer.
A search passes over entries of the role the device does not have at the time. -/
namespace Ralink.P2p.Perst
open Function

def MAX_P2P_TABLE_SIZE : Nat := 8

instance : NeZero MAX_P2P_TABLE_SIZE := ⟨nofun⟩

/-- An address the table is used for. -/
structure Unicast where
  val : Mac
  nonzero : val ≠ zeroMac
  unicast : multicast val = false

inductive OPMODE where
  | STA
  | AP
  | APSTA
  deriving DecidableEq

/-- The operating mode, whether a group owner is up, and the device's own P2P address. -/
structure Mode where
  OpMode : OPMODE
  P2P_GO_ON : Bool
  CurrentAddress : Mac

structure WSC_CREDENTIAL where
  SsidLength : BitVec 32
  Ssid : Vector Byte 32
  AuthType : BitVec 16
  EncrType : BitVec 16
  Key : Vector Byte 64
  KeyLength : BitVec 16
  MacAddr : Mac
  KeyIndex : Byte
  bFromUPnP : Byte
  deriving DecidableEq

/-- `MyRule` is `none` in zeroed memory. -/
structure RT_P2P_PERSISTENT_ENTRY where
  bValid : Bool
  MyRule : Option Rule
  Addr : Mac
  Profile : WSC_CREDENTIAL
  deriving DecidableEq

structure RT_P2P_TABLE where
  PerstNumber : Nat
  PerstEntry : Fin MAX_P2P_TABLE_SIZE → RT_P2P_PERSISTENT_ENTRY

def zeroed : RT_P2P_PERSISTENT_ENTRY where
  bValid := false
  MyRule := none
  Addr := zeroMac
  Profile := ⟨0, Vector.replicate 32 0, 0, 0, Vector.replicate 64 0, 0, zeroMac, 0, 0⟩

def P2pPerstTabClean (_ : RT_P2P_TABLE) : RT_P2P_TABLE := ⟨0, fun _ => zeroed⟩

/-- The entry may be used in the mode: that of a client as a station, that of a group owner
if its credential is that of the device itself. -/
def usable (m : Mode) (e : RT_P2P_PERSISTENT_ENTRY) : Bool :=
  (e.MyRule = some .P2P_IS_CLIENT ∧ m.OpMode = .STA) ∨
    (e.MyRule = some .P2P_IS_GO ∧ e.Profile.MacAddr = m.CurrentAddress)

/-- The last entry that matches is the one found. -/
def P2pPerstTabSearch (m : Mode) (Tab : RT_P2P_TABLE) (Addr : Mac) (Bssid InfAddr : Option Mac) :
    Option (Fin MAX_P2P_TABLE_SIZE) :=
  if multicast Addr ∨ Addr = Vector.replicate 6 0xFF ∨ Addr = zeroMac then none
  else Slots.findLast fun i =>
    (Tab.PerstEntry i).bValid ∧
      ((Tab.PerstEntry i).Addr = Addr ∨ Bssid = some (Tab.PerstEntry i).Addr ∨
        InfAddr = some (Tab.PerstEntry i).Addr) ∧
      usable m (Tab.PerstEntry i)

def myRule (m : Mode) : Rule := if m.P2P_GO_ON then .P2P_IS_GO else .P2P_IS_CLIENT

/-- An entry that is there gets the credential from `scProfile`, the first one of the station's
configuration, and not the one that is given. -/
def P2pPerstTabInsert (m : Mode) (Tab : RT_P2P_TABLE) (pAddr : Mac)
    (pProfile scProfile : WSC_CREDENTIAL) : Option (Fin MAX_P2P_TABLE_SIZE) × RT_P2P_TABLE :=
  match P2pPerstTabSearch m Tab pAddr none none with
  | none =>
    match Fin.find? fun i => (Tab.PerstEntry i).bValid = false with
    | some i =>
      (some i, ⟨Tab.PerstNumber + 1,
        update Tab.PerstEntry i ⟨true, some (myRule m), pAddr, pProfile⟩⟩)
    | none => (none, Tab)
  | some i =>
    (some i, { Tab with
      PerstEntry := update Tab.PerstEntry i ⟨true, some (myRule m), pAddr, scProfile⟩ })

/-- The loop returns from the first entry that is in use, whether it is the one to delete or
not. -/
def P2pPerstTabDelete (Tab : RT_P2P_TABLE) (pMacList : Mac) :
    Option (Fin MAX_P2P_TABLE_SIZE) × RT_P2P_TABLE :=
  match Fin.find? fun i => (Tab.PerstEntry i).bValid = true with
  | some i =>
    if (Tab.PerstEntry i).Addr = pMacList then
      (some i, ⟨if Tab.PerstNumber > 0 then Tab.PerstNumber - 1 else Tab.PerstNumber,
        update Tab.PerstEntry i zeroed⟩)
    else (some i, Tab)
  | none => (none, Tab)

inductive Event where
  | clean
  | insert (pAddr : Unicast) (pProfile scProfile : WSC_CREDENTIAL)
  | delete (pMacList : Unicast)

def step (m : Mode) (Tab : RT_P2P_TABLE) : Event → RT_P2P_TABLE
  | .clean => P2pPerstTabClean Tab
  | .insert pAddr pProfile scProfile => (P2pPerstTabInsert m Tab pAddr.val pProfile scProfile).2
  | .delete pMacList => (P2pPerstTabDelete Tab pMacList.val).2

def key (e : RT_P2P_PERSISTENT_ENTRY) : Option Mac := if e.bValid then some e.Addr else none

structure IsMap (Tab : RT_P2P_TABLE) : Prop where
  unique : Slots.Distinct key Tab.PerstEntry
  number : Tab.PerstNumber = Slots.used key Tab.PerstEntry

/-- An insertion that returns an index has left there what it was given. After a deletion no
entry has the address, the others are as before, and nothing is found if none had it. -/
def Kept (m : Mode) (Tab : RT_P2P_TABLE) : Event → Prop
  | .clean => True
  | .insert pAddr pProfile scProfile =>
    ∀ i ∈ (P2pPerstTabInsert m Tab pAddr.val pProfile scProfile).1,
      key ((P2pPerstTabInsert m Tab pAddr.val pProfile scProfile).2.PerstEntry i) =
          some pAddr.val ∧
        ((P2pPerstTabInsert m Tab pAddr.val pProfile scProfile).2.PerstEntry i).Profile = pProfile
  | .delete pMacList =>
    (∀ i, key ((P2pPerstTabDelete Tab pMacList.val).2.PerstEntry i) ≠ some pMacList.val) ∧
      (∀ i, key (Tab.PerstEntry i) ≠ some pMacList.val →
        (P2pPerstTabDelete Tab pMacList.val).2.PerstEntry i = Tab.PerstEntry i) ∧
      ((∀ i, key (Tab.PerstEntry i) ≠ some pMacList.val) →
        (P2pPerstTabDelete Tab pMacList.val).1 = none)

/-- An address that is there is inserted again with the station's own credential, if its entry
can be used in the mode, and otherwise only when the table is full. The address that is
deleted is that of the first entry in use. -/
def Fits (m : Mode) (Tab : RT_P2P_TABLE) : Event → Prop
  | .clean => True
  | .insert pAddr pProfile scProfile => ∀ i, key (Tab.PerstEntry i) = some pAddr.val →
      if usable m (Tab.PerstEntry i) then scProfile = pProfile
      else ∀ j, key (Tab.PerstEntry j) ≠ none
  | .delete pMacList => ∀ i, key (Tab.PerstEntry i) ≠ none →
      (∀ j < i, key (Tab.PerstEntry j) = none) → key (Tab.PerstEntry i) = some pMacList.val

variable {m : Mode} {Tab : RT_P2P_TABLE} {Addr : Mac} {e : RT_P2P_PERSISTENT_ENTRY}
  {pProfile scProfile : WSC_CREDENTIAL} {i : Fin MAX_P2P_TABLE_SIZE}

theorem key_eq_none : key e = none ↔ e.bValid = false := by
  cases hv : e.bValid <;> simp [key, hv]

theorem key_eq_some : key e = some Addr ↔ e.bValid = true ∧ e.Addr = Addr := by
  cases hv : e.bValid <;> simp [key, hv]

@[simp] theorem key_zeroed : key zeroed = none := rfl
@[simp] theorem key_mk (rule : Option Rule) (Addr : Mac) (Profile : WSC_CREDENTIAL) :
    key ⟨true, rule, Addr, Profile⟩ = some Addr := rfl

section

variable (hd : Slots.Distinct key Tab.PerstEntry)
include hd

theorem search_iff (pAddr : Unicast) :
    P2pPerstTabSearch m Tab pAddr.val none none = some i ↔
      key (Tab.PerstEntry i) = some pAddr.val ∧ usable m (Tab.PerstEntry i) = true := by
  have hff : pAddr.val ≠ Vector.replicate 6 0xFF := by
    intro h
    exact absurd (h ▸ pAddr.unicast) (by decide)
  have hpass : ¬ (multicast pAddr.val = true ∨ pAddr.val = Vector.replicate 6 0xFF ∨
      pAddr.val = zeroMac) := by
    rintro (h | h | h)
    · exact Bool.false_ne_true (pAddr.unicast.symm.trans h)
    · exact hff h
    · exact pAddr.nonzero h
  have hmatch : ∀ j, decide ((Tab.PerstEntry j).bValid = true ∧
      ((Tab.PerstEntry j).Addr = pAddr.val ∨ none = some (Tab.PerstEntry j).Addr ∨
        none = some (Tab.PerstEntry j).Addr) ∧ usable m (Tab.PerstEntry j) = true) = true ↔
      key (Tab.PerstEntry j) = some pAddr.val ∧ usable m (Tab.PerstEntry j) = true := by
    intro j
    rw [key_eq_some]
    simp [and_assoc]
  rw [P2pPerstTabSearch, if_neg hpass, ← hmatch i]
  apply Slots.findLast_eq_some
  exact fun j k hj hk => hd j k pAddr.val ((hmatch j).mp hj).1 ((hmatch k).mp hk).1

theorem search_eq_none (pAddr : Unicast) :
    P2pPerstTabSearch m Tab pAddr.val none none = none ↔
      ∀ i, key (Tab.PerstEntry i) = some pAddr.val → usable m (Tab.PerstEntry i) = false := by
  rw [Option.eq_none_iff_forall_not_mem]
  refine forall_congr' fun i => ?_
  rw [Option.mem_def, search_iff hd, not_and, Bool.not_eq_true]

theorem insert_cases (pAddr : Unicast) (pProfile scProfile : WSC_CREDENTIAL) :
    (∃ i, key (Tab.PerstEntry i) = some pAddr.val ∧ usable m (Tab.PerstEntry i) = true ∧
      P2pPerstTabInsert m Tab pAddr.val pProfile scProfile =
        (some i, { Tab with
          PerstEntry := update Tab.PerstEntry i ⟨true, some (myRule m), pAddr.val, scProfile⟩ })) ∨
    (∃ i, key (Tab.PerstEntry i) = none ∧
      (∀ j, key (Tab.PerstEntry j) = some pAddr.val → usable m (Tab.PerstEntry j) = false) ∧
      P2pPerstTabInsert m Tab pAddr.val pProfile scProfile =
        (some i, ⟨Tab.PerstNumber + 1,
          update Tab.PerstEntry i ⟨true, some (myRule m), pAddr.val, pProfile⟩⟩)) ∨
    ((∀ j, key (Tab.PerstEntry j) ≠ none) ∧
      (∀ j, key (Tab.PerstEntry j) = some pAddr.val → usable m (Tab.PerstEntry j) = false) ∧
      P2pPerstTabInsert m Tab pAddr.val pProfile scProfile = (none, Tab)) := by
  unfold P2pPerstTabInsert
  cases hsearch : P2pPerstTabSearch m Tab pAddr.val none none with
  | some i =>
    obtain ⟨hkey, hus⟩ := (search_iff hd pAddr).mp hsearch
    exact .inl ⟨i, hkey, hus, rfl⟩
  | none =>
    have hmiss := (search_eq_none hd pAddr).mp hsearch
    right
    cases hfind : Fin.find? fun i => decide ((Tab.PerstEntry i).bValid = false) with
    | some i =>
      have hi := of_decide_eq_true (Fin.eq_true_of_find?_eq_some hfind)
      exact .inl ⟨i, key_eq_none.mpr hi, hmiss, rfl⟩
    | none =>
      refine .inr ⟨fun j hj => ?_, hmiss, rfl⟩
      have hno := of_decide_eq_false (Fin.find?_eq_none_iff.mp hfind j)
      exact hno (key_eq_none.mp hj)

end

theorem delete_cases (Tab : RT_P2P_TABLE) (Addr : Mac) :
    (∃ i, key (Tab.PerstEntry i) ≠ none ∧ (∀ j < i, key (Tab.PerstEntry j) = none) ∧
      ((key (Tab.PerstEntry i) = some Addr ∧
        P2pPerstTabDelete Tab Addr = (some i,
          ⟨if Tab.PerstNumber > 0 then Tab.PerstNumber - 1 else Tab.PerstNumber,
            update Tab.PerstEntry i zeroed⟩)) ∨
      (key (Tab.PerstEntry i) ≠ some Addr ∧ P2pPerstTabDelete Tab Addr = (some i, Tab)))) ∨
    ((∀ i, key (Tab.PerstEntry i) = none) ∧ P2pPerstTabDelete Tab Addr = (none, Tab)) := by
  unfold P2pPerstTabDelete
  cases hfind : Fin.find? fun i => decide ((Tab.PerstEntry i).bValid = true) with
  | none =>
    refine .inr ⟨fun i => ?_, rfl⟩
    have hno := of_decide_eq_false (Fin.find?_eq_none_iff.mp hfind i)
    exact key_eq_none.mpr (Bool.eq_false_iff.mpr hno)
  | some i =>
    have hi := of_decide_eq_true (Fin.eq_true_of_find?_eq_some hfind)
    have hbefore : ∀ j < i, key (Tab.PerstEntry j) = none := by
      intro j hj
      have hno := of_decide_eq_false (Fin.eq_false_of_find?_eq_some_of_lt hfind j hj)
      exact key_eq_none.mpr (Bool.eq_false_iff.mpr hno)
    have hlive : key (Tab.PerstEntry i) ≠ none := by
      intro hnone
      exact Bool.false_ne_true ((key_eq_none.mp hnone).symm.trans hi)
    refine .inl ⟨i, hlive, hbefore, ?_⟩
    by_cases haddr : (Tab.PerstEntry i).Addr = Addr
    · exact .inl ⟨key_eq_some.mpr ⟨hi, haddr⟩, if_pos haddr⟩
    · exact .inr ⟨fun hkey => haddr (key_eq_some.mp hkey).2, if_neg haddr⟩

theorem isMap_clean (Tab : RT_P2P_TABLE) : IsMap (P2pPerstTabClean Tab) where
  unique _ _ _ h := (Option.some_ne_none _ h.symm).elim
  number := (Slots.used_eq_zero.mpr fun _ => rfl).symm

theorem insert_iff (h : IsMap Tab) (pAddr : Unicast) (pProfile scProfile : WSC_CREDENTIAL) :
    IsMap (step m Tab (.insert pAddr pProfile scProfile)) ∧
        Kept m Tab (.insert pAddr pProfile scProfile) ↔
      Fits m Tab (.insert pAddr pProfile scProfile) := by
  unfold step Kept Fits
  rcases insert_cases (m := m) h.unique pAddr pProfile scProfile with
    ⟨i, hi, hus, heq⟩ | ⟨i, hi, hmiss, heq⟩ | ⟨hfull, hmiss, heq⟩
  · have hmap : IsMap ⟨Tab.PerstNumber,
        update Tab.PerstEntry i ⟨true, some (myRule m), pAddr.val, scProfile⟩⟩ := by
      constructor
      · apply h.unique.update
        intro j hj Addr hkey hsame
        obtain rfl := Option.some.inj hkey
        exact hj (h.unique j i _ hsame hi)
      · exact h.number.trans (Slots.used_update_same (by rw [hi]; rfl)).symm
    simp only [heq]
    rw [and_iff_right hmap]
    constructor
    · intro hkept j hj
      obtain rfl := h.unique i j _ hi hj
      rw [if_pos hus]
      simpa using (hkept i rfl).2
    · intro hfit j hj
      obtain rfl := Option.some.inj hj
      have hprofile := hfit i hi
      rw [if_pos hus] at hprofile
      simp [hprofile]
  · have hused : Tab.PerstNumber + 1 = Slots.used key
        (update Tab.PerstEntry i ⟨true, some (myRule m), pAddr.val, pProfile⟩) := by
      rw [Slots.used_take hi rfl, h.number]
    have hkept : ∀ j ∈ some i,
        key (update Tab.PerstEntry i ⟨true, some (myRule m), pAddr.val, pProfile⟩ j) =
            some pAddr.val ∧
          (update Tab.PerstEntry i ⟨true, some (myRule m), pAddr.val, pProfile⟩ j).Profile =
            pProfile := by
      intro j hj
      obtain rfl := Option.some.inj hj
      simp
    simp only [heq]
    rw [and_iff_left hkept]
    constructor
    · intro hmap j hj
      have hji : j ≠ i := by
        rintro rfl
        exact Option.some_ne_none _ (hj.symm.trans hi)
      refine (hji (hmap.unique j i pAddr.val ?_ ?_)).elim
      · show key (update Tab.PerstEntry i _ j) = _
        rwa [update_of_ne hji]
      · show key (update Tab.PerstEntry i _ i) = _
        rw [update_self, key_mk]
    · intro hfit
      refine ⟨h.unique.update fun j hj Addr hkey hsame => ?_, hused⟩
      obtain rfl := Option.some.inj hkey
      have hall := hfit j hsame
      rw [hmiss j hsame] at hall
      exact hall i hi
  · simp only [heq]
    refine iff_of_true ⟨h, fun _ hj => (Option.not_mem_none _ hj).elim⟩ fun j hj => ?_
    rw [hmiss j hj]
    exact hfull

theorem delete_iff (h : IsMap Tab) (pMacList : Unicast) :
    IsMap (step m Tab (.delete pMacList)) ∧ Kept m Tab (.delete pMacList) ↔
      Fits m Tab (.delete pMacList) := by
  unfold step Kept Fits
  rcases delete_cases Tab pMacList.val with
    ⟨i, hlive, hbefore, ⟨hi, heq⟩ | ⟨hi, heq⟩⟩ | ⟨hempty, heq⟩
  · simp only [heq]
    apply iff_of_true
    · have hused : Slots.used key Tab.PerstEntry =
          Slots.used key (update Tab.PerstEntry i zeroed) + 1 :=
        Slots.used_free (Option.isSome_iff_ne_none.mpr hlive) key_zeroed
      refine ⟨⟨?_, ?_⟩, ?_, ?_, ?_⟩
      · exact h.unique.update fun _ _ _ hkey => (Option.some_ne_none _ hkey.symm).elim
      · show (if Tab.PerstNumber > 0 then _ else _) = _
        rw [h.number, hused, if_pos (Nat.succ_pos _), Nat.add_sub_cancel]
      · intro j hj
        rcases eq_or_ne j i with rfl | hji
        · rw [update_self] at hj
          exact Option.some_ne_none _ hj.symm
        · rw [update_of_ne hji] at hj
          exact hji (h.unique j i _ hj hi)
      · intro j hj
        apply update_of_ne
        rintro rfl
        exact hj hi
      · exact fun hno => (hno i hi).elim
    · intro j hj hbefore'
      rcases lt_trichotomy i j with hlt | rfl | hlt
      · exact (hlive (hbefore' i hlt)).elim
      · exact hi
      · exact (hj (hbefore j hlt)).elim
  · simp only [heq]
    apply iff_of_false
    · rintro ⟨-, hgone, -, hreturn⟩
      exact Option.some_ne_none i (hreturn hgone)
    · exact fun hfit => hi (hfit i hlive hbefore)
  · simp only [heq]
    have hno : ∀ i, key (Tab.PerstEntry i) ≠ some pMacList.val := by
      intro i hi
      exact Option.some_ne_none _ (hi.symm.trans (hempty i))
    exact iff_of_true ⟨h, hno, fun _ _ => trivial, fun _ => trivial⟩ fun i hi => (hi (hempty i)).elim

/-- From a cleaned table on it is a map at any time, and every call keeps its promise, exactly
when every call fits. -/
theorem run_isMap (m : Mode) (Tab : RT_P2P_TABLE) (es : List Event) :
    ((∀ n, IsMap (Run.exec (step m) (P2pPerstTabClean Tab) (es.take n))) ∧
      Run.AllSteps (step m) (Kept m) (P2pPerstTabClean Tab) es) ↔
    Run.AllSteps (step m) (Fits m) (P2pPerstTabClean Tab) es := by
  symm
  apply Run.allSteps_iff_kept (A := fun _ => True) (Q := fun _ _ => True) _ _ trivial
    (isMap_clean Tab)
  · exact Run.AllSteps.of_forall fun _ _ _ => trivial
  · exact fun _ _ _ _ _ => trivial
  · intro Tab e _ h _
    cases e with
    | clean => exact iff_of_true ⟨isMap_clean Tab, trivial⟩ trivial
    | insert pAddr pProfile scProfile => exact insert_iff h pAddr pProfile scProfile
    | delete pMacList => exact delete_iff h pMacList

def station : Mode := ⟨.STA, false, #v[2, 0, 0, 0, 0, 9]⟩

def peer1 : Unicast := ⟨#v[2, 0, 0, 0, 0, 3], by decide, by decide⟩
def peer2 : Unicast := ⟨#v[2, 0, 0, 0, 0, 4], by decide, by decide⟩

/-- The credentials of two groups are stored, and the second group is deleted. -/
def secondGroup : List Event :=
  [.insert peer1 zeroed.Profile zeroed.Profile,
    .insert peer2 zeroed.Profile zeroed.Profile, .delete peer2]

theorem second_group_stays :
    ¬ ((∀ n, IsMap (Run.exec (step station) (P2pPerstTabClean ⟨0, fun _ => zeroed⟩)
        (secondGroup.take n))) ∧
      Run.AllSteps (step station) (Kept station) (P2pPerstTabClean ⟨0, fun _ => zeroed⟩)
        secondGroup) := by
  rintro ⟨-, -, -, ⟨hgone, -⟩, -⟩
  exact hgone 1 (by decide +kernel)

end Ralink.P2p.Perst
