import Ralink.Lib.Cache
import Ralink.Lib.Run
import Ralink.Lib.Slots

/-! The pairwise master keys of stations that have been authenticated, in a table with a slot for
each. When the table is full an old entry makes room. -/
namespace Ralink.Pmkid
open Function

def MAX_PMKID_COUNT : Nat := 8

instance : NeZero MAX_PMKID_COUNT := ⟨nofun⟩

abbrev Mac := Vector (BitVec 8) 6
abbrev PMKID := Vector (BitVec 8) 16
abbrev PMK := Vector (BitVec 8) 32
abbrev Idx := Fin MAX_PMKID_COUNT

instance : Nontrivial Idx := inferInstanceAs (Nontrivial (Fin 8))

structure AP_BSSID_INFO where
  MAC : Mac
  PMKID : PMKID
  PMK : PMK
  RefreshTime : Nat
  Valid : Bool

abbrev BSSIDInfo := Idx → AP_BSSID_INFO

variable (info : BSSIDInfo) (pAddr : Mac) (pmkid : PMKID) (pmk : PMK) (Now : Nat)

def RTMPSearchPMKIDCache : Option Idx :=
  Fin.find? fun i => (info i).Valid ∧ (info i).MAC = pAddr

/-- One turn of the search for an entry to give up: it goes to a later time, not to an earlier
one. -/
def victimTurn (best : Nat × Idx) (i : Idx) : Nat × Idx :=
  if (info i).Valid then
    if (best.1 = 0 ∧ best.2 = 0) ∨ (best.1 ≠ 0 ∧ best.1 < (info i).RefreshTime) then
      ((info i).RefreshTime, i)
    else best
  else best

def victim : Idx := ((List.finRange MAX_PMKID_COUNT).foldl (victimTurn info) (0, 0)).2

def RTMPAddPMKIDCache : BSSIDInfo :=
  match RTMPSearchPMKIDCache info pAddr with
  | some CacheIdx =>
    update info CacheIdx { info CacheIdx with RefreshTime := Now, PMKID := pmkid, PMK := pmk }
  | none =>
    match Fin.find? fun i => (info i).Valid = false with
    | some i => update info i ⟨pAddr, pmkid, pmk, Now, true⟩
    | none => update info (victim info) ⟨pAddr, pmkid, pmk, Now, true⟩

def RTMPDeletePMKIDCache (idx : Idx) : BSSIDInfo :=
  if (info idx).Valid then update info idx { info idx with Valid := false } else info

def RTMPMaintainPMKIDCache (PMKCachePeriod : Nat) (Now : Idx → Nat) : BSSIDInfo :=
  (List.finRange MAX_PMKID_COUNT).foldl (fun info j =>
    if (info j).Valid ∧ Now j - (info j).RefreshTime ≥ PMKCachePeriod then
      RTMPDeletePMKIDCache info j
    else info) info

def key (e : AP_BSSID_INFO) : Option Mac := if e.Valid then some e.MAC else none

def book : Cache.Book Mac (PMKID × PMK) := fun pAddr =>
  (RTMPSearchPMKIDCache info pAddr).map fun i =>
    (((info i).PMKID, (info i).PMK), (info i).RefreshTime)

variable {info pAddr} {e : AP_BSSID_INFO} {i : Idx}

theorem key_eq_none : key e = none ↔ e.Valid = false := by
  cases hv : e.Valid <;> simp [key, hv]

theorem key_eq_some : key e = some pAddr ↔ e.Valid = true ∧ e.MAC = pAddr := by
  cases hv : e.Valid <;> simp [key, hv]

theorem search_eq_find : RTMPSearchPMKIDCache info pAddr = Slots.find key info pAddr := by
  unfold RTMPSearchPMKIDCache Slots.find
  congr 1
  funext i
  exact decide_eq_decide.mpr key_eq_some.symm

theorem book_eq_none : book info pAddr = none ↔ ∀ i, key (info i) ≠ some pAddr := by
  rw [book, Option.map_eq_none_iff, search_eq_find, Slots.find_eq_none]

theorem book_of_key (hd : Slots.Distinct key info) (h : key (info i) = some pAddr) :
    book info pAddr = some (((info i).PMKID, (info i).PMK), (info i).RefreshTime) := by
  rw [book, search_eq_find, hd.find_eq_some.mpr h]
  rfl

theorem book_update (hd : Slots.Distinct key (update info i e)) (hi : Slots.Distinct key info) :
    book (update info i e) = fun a =>
      if key e = some a then some ((e.PMKID, e.PMK), e.RefreshTime)
      else if key (info i) = some a then none else book info a := by
  funext a
  by_cases he : key e = some a
  · rw [if_pos he, book_of_key (i := i) hd (by rwa [update_self]), update_self]
  · rw [if_neg he]
    by_cases hold : key (info i) = some a
    · have hgone : Slots.find key (update info i e) a = none := hi.find_update_gone hold he
      rw [if_pos hold, book, search_eq_find, hgone]
      rfl
    · rw [if_neg hold]
      unfold book
      rw [search_eq_find, search_eq_find, Slots.find_update_other hold he]
      cases hf : Slots.find key info a with
      | none => rfl
      | some j =>
        have hji : j ≠ i := by
          rintro rfl
          exact hold (Slots.key_of_find hf)
        simp [hji]

theorem valid_of_key (h : ∀ i, key (info i) ≠ none) (i : Idx) : (info i).Valid = true := by
  cases hv : (info i).Valid with
  | true => rfl
  | false => exact (h i (key_eq_none.mpr hv)).elim

theorem victimTurn_foldl (hall : ∀ i, (info i).Valid = true)
    (hinj : ∀ i j, (info i).RefreshTime = (info j).RefreshTime → i = j) {l : List Idx} {idx : Idx}
    (hzero : (info idx).RefreshTime = 0 → idx = 0) (hl : 0 ∉ l) :
    (info idx).RefreshTime ≤
        (info (l.foldl (victimTurn info) ((info idx).RefreshTime, idx)).2).RefreshTime ∧
      ∀ j ∈ l, (info j).RefreshTime ≤
        (info (l.foldl (victimTurn info) ((info idx).RefreshTime, idx)).2).RefreshTime := by
  induction l generalizing idx with
  | nil => exact ⟨le_rfl, nofun⟩
  | cons i l ih =>
    obtain ⟨hi, hl⟩ := not_or.mp (mt List.mem_cons.mpr hl)
    by_cases hless : (info idx).RefreshTime < (info i).RefreshTime
    · have hturn : victimTurn info ((info idx).RefreshTime, idx) i =
          ((info i).RefreshTime, i) := by
        rw [victimTurn, if_pos (hall i), if_pos]
        rcases Nat.eq_zero_or_pos (info idx).RefreshTime with h0 | hpos
        · exact .inl ⟨h0, hzero h0⟩
        · exact .inr ⟨hpos.ne', hless⟩
      have hlater : (info i).RefreshTime = 0 → i = 0 := fun h0 => absurd h0 (by omega)
      obtain ⟨hle, hrest⟩ := ih hlater hl
      rw [List.foldl_cons, hturn]
      exact ⟨hless.le.trans hle, List.forall_mem_cons.mpr ⟨hle, hrest⟩⟩
    · have hpos : (info idx).RefreshTime ≠ 0 := by
        intro h0
        have hi0 : (info i).RefreshTime = (info idx).RefreshTime := by omega
        exact hi ((hinj i idx hi0).trans (hzero h0)).symm
      have hturn : victimTurn info ((info idx).RefreshTime, idx) i =
          ((info idx).RefreshTime, idx) := by
        rw [victimTurn, if_pos (hall i), if_neg]
        rintro (⟨h0, -⟩ | ⟨-, hlt⟩)
        · exact hpos h0
        · exact hless hlt
      obtain ⟨hle, hrest⟩ := ih hzero hl
      rw [List.foldl_cons, hturn]
      exact ⟨hle, List.forall_mem_cons.mpr ⟨(Nat.le_of_not_lt hless).trans hle, hrest⟩⟩

theorem victim_latest (hall : ∀ i, (info i).Valid = true)
    (hinj : ∀ i j, (info i).RefreshTime = (info j).RefreshTime → i = j) (j : Idx) :
    (info j).RefreshTime ≤ (info (victim info)).RefreshTime := by
  have hrange : List.finRange MAX_PMKID_COUNT = 0 :: (List.finRange MAX_PMKID_COUNT).tail := rfl
  have hfirst : victimTurn info (0, 0) 0 = ((info 0).RefreshTime, 0) := by
    rw [victimTurn, if_pos (hall 0), if_pos (.inl ⟨rfl, rfl⟩)]
  obtain ⟨hle, hrest⟩ := victimTurn_foldl hall hinj (fun _ => rfl)
    (by decide : (0 : Idx) ∉ (List.finRange MAX_PMKID_COUNT).tail)
  unfold victim
  rw [hrange, List.foldl_cons, hfirst]
  have hj := List.mem_finRange j
  rw [hrange] at hj
  rcases List.mem_cons.mp hj with rfl | hj
  · exact hle
  · exact hrest j hj

end Ralink.Pmkid
