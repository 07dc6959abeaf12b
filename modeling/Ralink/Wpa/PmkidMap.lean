import Mathlib.Algebra.BigOperators.Group.Finset.Basic
import Mathlib.Order.Interval.Finset.Fin
import Ralink.Wpa.Pmkid

/-! Until a station that is not in the cache is added to a full table, the table is a map that loses
nothing. Then the entry that was refreshed last is given up. -/
namespace Ralink.Pmkid
open Function

/-- The table, the last reading of the clock, and what was added last for an address. -/
structure State where
  info : BSSIDInfo
  clock : Nat
  latest : Mac → Option (PMKID × PMK)

/-- Time passes before each reading of the clock. -/
inductive Event where
  | add (tick : Nat) (pAddr : Mac) (pmkid : PMKID) (pmk : PMK)
  | delete (idx : Idx)
  | maintain (tick : Idx → Nat)

def State.now (s : State) (tick : Nat) : Nat := s.clock + 1 + tick

/-- What is read when entry `j` is looked at. -/
def State.reading (s : State) (tick : Idx → Nat) (j : Idx) : Nat :=
  s.now (∑ k ∈ Finset.Iic j, tick k)

variable (PMKCachePeriod : Nat)

def step (s : State) : Event → State
  | .add tick pAddr pmkid pmk =>
    ⟨RTMPAddPMKIDCache s.info pAddr pmkid pmk (s.now tick), s.now tick,
      update s.latest pAddr (some (pmkid, pmk))⟩
  | .delete idx => { s with info := RTMPDeletePMKIDCache s.info idx }
  | .maintain tick =>
    { s with
      info := RTMPMaintainPMKIDCache s.info PMKCachePeriod (s.reading tick)
      clock := s.reading tick (Fin.last 7) }

def start (info : BSSIDInfo) (clock : Nat) : State :=
  ⟨fun i => { info i with Valid := false }, clock, fun _ => none⟩

/-- The operation on the map. A deletion is that of the address in the slot. -/
def op (s : State) : Event → Cache.Op Mac (PMKID × PMK)
  | .add tick pAddr pmkid pmk => .add pAddr (pmkid, pmk) (s.now tick)
  | .delete idx =>
    match key (s.info idx) with
    | some pAddr => .drop pAddr
    | none => .idle
  | .maintain tick =>
    .age (fun pAddr => ((RTMPSearchPMKIDCache s.info pAddr).map (s.reading tick)).getD 0)
      PMKCachePeriod

/-- One valid entry an address, and it has what was added last. -/
structure IsMap (s : State) : Prop where
  unique : Slots.Distinct key s.info
  latest : ∀ pAddr i, RTMPSearchPMKIDCache s.info pAddr = some i →
    key (s.info i) = some pAddr ∧ s.latest pAddr = some ((s.info i).PMKID, (s.info i).PMK)

/-- The step is one of a cache that gives up what was refreshed longest ago. -/
def Kept (s : State) (e : Event) : Prop :=
  Cache.Step MAX_PMKID_COUNT (book s.info) (op PMKCachePeriod s e)
    (book (step PMKCachePeriod s e).info)

/-- The address has an entry, or some entry is free. -/
def Room (s : State) : Event → Prop
  | .add _ pAddr _ _ => (∃ i, key (s.info i) = some pAddr) ∨ ∃ i, key (s.info i) = none
  | _ => True

structure Timed (s : State) : Prop where
  past : ∀ i, key (s.info i) ≠ none → (s.info i).RefreshTime ≤ s.clock
  distinct : ∀ i j, key (s.info i) ≠ none → key (s.info j) ≠ none →
    (s.info i).RefreshTime = (s.info j).RefreshTime → i = j

variable {PMKCachePeriod} {s : State} {info : BSSIDInfo} {pAddr : Mac} {pmkid : PMKID} {pmk : PMK}
  {Now tick : Nat} {i : Idx} {e : AP_BSSID_INFO}

theorem IsMap.latest_of_key (h : IsMap s) (hkey : key (s.info i) = some pAddr) :
    s.latest pAddr = some ((s.info i).PMKID, (s.info i).PMK) := by
  have hsearch : RTMPSearchPMKIDCache s.info pAddr = some i := by
    rw [search_eq_find]
    exact h.unique.find_eq_some.mpr hkey
  exact (h.latest pAddr i hsearch).2

theorem isMap_start (info : BSSIDInfo) (clock : Nat) : IsMap (start info clock) where
  unique _ _ _ h := (Option.some_ne_none _ h.symm).elim
  latest pAddr i h := by
    rw [search_eq_find] at h
    exact (Option.some_ne_none _ (Slots.key_of_find h).symm).elim

theorem timed_start (info : BSSIDInfo) (clock : Nat) : Timed (start info clock) where
  past _ h := (h rfl).elim
  distinct _ _ h := (h rfl).elim

theorem add_cases (info : BSSIDInfo) (pAddr : Mac) (pmkid : PMKID) (pmk : PMK) (Now : Nat) :
    ∃ i, RTMPAddPMKIDCache info pAddr pmkid pmk Now =
        update info i ⟨pAddr, pmkid, pmk, Now, true⟩ ∧
      (key (info i) = some pAddr ∨ (∀ j, key (info j) ≠ some pAddr) ∧
        (key (info i) = none ∨ (∀ j, key (info j) ≠ none) ∧ i = victim info)) := by
  unfold RTMPAddPMKIDCache
  cases hsearch : RTMPSearchPMKIDCache info pAddr with
  | some i =>
    rw [search_eq_find] at hsearch
    have hkey := Slots.key_of_find hsearch
    obtain ⟨hvalid, hmac⟩ := key_eq_some.mp hkey
    refine ⟨i, ?_, .inl hkey⟩
    show update info i ⟨(info i).MAC, pmkid, pmk, Now, (info i).Valid⟩ = _
    rw [hmac, hvalid]
  | none =>
    rw [search_eq_find, Slots.find_eq_none] at hsearch
    cases hfind : Fin.find? fun i => decide ((info i).Valid = false) with
    | some i =>
      have hi := of_decide_eq_true (Fin.eq_true_of_find?_eq_some hfind)
      exact ⟨i, rfl, .inr ⟨hsearch, .inl (key_eq_none.mpr hi)⟩⟩
    | none =>
      refine ⟨victim info, rfl, .inr ⟨hsearch, .inr ⟨fun j hj => ?_, rfl⟩⟩⟩
      have hno := of_decide_eq_false (Fin.find?_eq_none_iff.mp hfind j)
      exact hno (key_eq_none.mp hj)

section

variable (hd : Slots.Distinct key info)
include hd

theorem add_spec (pAddr : Mac) (pmkid : PMKID) (pmk : PMK) (Now : Nat) :
    ∃ i, RTMPAddPMKIDCache info pAddr pmkid pmk Now =
        update info i ⟨pAddr, pmkid, pmk, Now, true⟩ ∧
      ∀ j, j ≠ i → key (info j) ≠ some pAddr := by
  obtain ⟨i, heq, hi | ⟨hnew, -⟩⟩ := add_cases info pAddr pmkid pmk Now
  · exact ⟨i, heq, fun j hj hkey => hj (hd j i pAddr hkey hi)⟩
  · exact ⟨i, heq, fun j _ => hnew j⟩

theorem distinct_write (hother : ∀ j, j ≠ i → key (info j) ≠ some pAddr) :
    Slots.Distinct key (update info i ⟨pAddr, pmkid, pmk, Now, true⟩) := by
  apply hd.update
  intro j hj a hkey
  obtain rfl : pAddr = a := Option.some.inj hkey
  exact hother j hj

theorem book_size : (book info).size = Slots.used key info := by
  have hks : ∀ a, a ∈ Finset.univ.biUnion (fun i => (key (info i)).toFinset) ↔
      ∃ i, key (info i) = some a := by
    intro a
    simp
  rw [← hd.card_eq_used hks]
  apply Cache.Book.size_eq
  intro a
  rw [hks, ne_eq, book_eq_none]
  simp

theorem book_write (hother : ∀ j, j ≠ i → key (info j) ≠ some pAddr)
    (hold : key (info i) = some pAddr ∨ key (info i) = none) :
    book (update info i ⟨pAddr, pmkid, pmk, Now, true⟩) =
      update (book info) pAddr (some ((pmkid, pmk), Now)) := by
  rw [book_update (distinct_write hd hother) hd]
  funext a
  by_cases ha : a = pAddr
  · subst ha
    rw [update_self]
    exact if_pos rfl
  · have hnew : ¬ key ⟨pAddr, pmkid, pmk, Now, true⟩ = some a := fun h => ha (Option.some.inj h).symm
    have hi : ¬ key (info i) = some a := by
      rcases hold with hold | hold
      · exact fun h => ha (Option.some.inj (hold.symm.trans h)).symm
      · exact fun h => Option.some_ne_none a (h.symm.trans hold)
    rw [update_of_ne ha, if_neg hnew, if_neg hi]

end

theorem not_step_of_full (hd : Slots.Distinct key s.info) (ht : Timed s)
    (hnew : ∀ j, key (s.info j) ≠ some pAddr) (hfull : ∀ j, key (s.info j) ≠ none) :
    ¬ Cache.Step MAX_PMKID_COUNT (book s.info) (.add pAddr (pmkid, pmk) Now)
      (book (update s.info (victim s.info) ⟨pAddr, pmkid, pmk, Now, true⟩)) := by
  intro hstep
  have hinj : ∀ i j, (s.info i).RefreshTime = (s.info j).RefreshTime → i = j :=
    fun i j => ht.distinct i j (hfull i) (hfull j)
  obtain ⟨a, ha⟩ := Option.ne_none_iff_exists'.mp (hfull (victim s.info))
  have hane : a ≠ pAddr := by
    rintro rfl
    exact hnew (victim s.info) ha
  obtain ⟨j, hj⟩ : ∃ j, j ≠ victim s.info := exists_ne (victim s.info)
  obtain ⟨c, hc⟩ := Option.ne_none_iff_exists'.mp (hfull j)
  have hless : (s.info j).RefreshTime < (s.info (victim s.info)).RefreshTime := by
    apply lt_of_le_of_ne (victim_latest (valid_of_key hfull) hinj j)
    exact fun h => hj (hinj j _ h)
  have hstays := hstep.newer_stays (book_of_key hd ha) hane ⟨c, _, book_of_key hd hc, hless⟩
  have hgone : book (update s.info (victim s.info) ⟨pAddr, pmkid, pmk, Now, true⟩) a = none := by
    rw [book_update (distinct_write hd fun j _ => hnew j) hd]
    have hfresh : ¬ key ⟨pAddr, pmkid, pmk, Now, true⟩ = some a :=
      fun h => hane (Option.some.inj h).symm
    simp only [if_neg hfresh, if_pos ha]
  exact Option.some_ne_none _ (hstays.symm.trans hgone)

theorem kept_add_iff (hd : Slots.Distinct key s.info) (ht : Timed s) (tick : Nat) (pAddr : Mac)
    (pmkid : PMKID) (pmk : PMK) :
    Kept PMKCachePeriod s (.add tick pAddr pmkid pmk) ↔ Room s (.add tick pAddr pmkid pmk) := by
  show Cache.Step _ _ (.add pAddr (pmkid, pmk) (s.now tick))
    (book (RTMPAddPMKIDCache s.info pAddr pmkid pmk (s.now tick))) ↔ _
  obtain ⟨i, heq, hi | ⟨hnew, hi | ⟨hfull, rfl⟩⟩⟩ :=
    add_cases s.info pAddr pmkid pmk (s.now tick)
  · have hother : ∀ j, j ≠ i → key (s.info j) ≠ some pAddr :=
      fun j hj hkey => hj (hd j i pAddr hkey hi)
    have hheld : book s.info pAddr ≠ none := by
      rw [book_of_key hd hi]
      exact Option.some_ne_none _
    rw [heq, book_write hd hother (.inl hi)]
    exact iff_of_true (.refresh hheld) (.inl ⟨i, hi⟩)
  · have hsize : (book s.info).size < MAX_PMKID_COUNT := by
      rw [book_size hd]
      exact Slots.used_lt hi
    rw [heq, book_write hd (fun j _ => hnew j) (.inr hi)]
    exact iff_of_true (.fill (book_eq_none.mpr hnew) hsize) (.inr ⟨i, hi⟩)
  · rw [heq]
    apply iff_of_false (not_step_of_full hd ht hnew hfull)
    rintro (⟨j, hj⟩ | ⟨j, hj⟩)
    · exact hnew j hj
    · exact hfull j hj

theorem key_invalid (e : AP_BSSID_INFO) : key { e with Valid := false } = none := rfl

theorem delete_eq (info : BSSIDInfo) (idx : Idx) :
    RTMPDeletePMKIDCache info idx = update info idx { info idx with Valid := false } := by
  unfold RTMPDeletePMKIDCache
  cases hv : (info idx).Valid with
  | true => exact if_pos rfl
  | false =>
    rw [if_neg Bool.false_ne_true, ← hv]
    exact (update_eq_self idx info).symm

def Fewer (info' info : BSSIDInfo) : Prop :=
  ∀ j, key (info' j) ≠ none → key (info j) ≠ none ∧ info' j = info j

theorem Fewer.distinct {info' : BSSIDInfo} (h : Fewer info' info)
    (hd : Slots.Distinct key info) : Slots.Distinct key info' := by
  intro i j a hi hj
  have hisame := (h i (by rw [hi]; exact Option.some_ne_none a)).2
  have hjsame := (h j (by rw [hj]; exact Option.some_ne_none a)).2
  exact hd i j a (hisame ▸ hi) (hjsame ▸ hj)

theorem fewer_delete (info : BSSIDInfo) (idx : Idx) :
    Fewer (RTMPDeletePMKIDCache info idx) info := by
  intro j hj
  rw [delete_eq] at hj ⊢
  rcases eq_or_ne j idx with rfl | hji
  · rw [update_self] at hj
    exact (hj (key_invalid _)).elim
  · rw [update_of_ne hji] at hj ⊢
    exact ⟨hj, rfl⟩

theorem kept_delete (hd : Slots.Distinct key s.info) (idx : Idx) :
    Kept PMKCachePeriod s (.delete idx) := by
  have hbook : book (RTMPDeletePMKIDCache s.info idx) =
      fun a => if key (s.info idx) = some a then none else book s.info a := by
    have hd' := (fewer_delete s.info idx).distinct hd
    rw [delete_eq] at hd' ⊢
    rw [book_update hd' hd]
    rfl
  show Cache.Step _ (book s.info) (op PMKCachePeriod s (.delete idx))
    (book (RTMPDeletePMKIDCache s.info idx))
  rw [hbook, op]
  cases hkey : key (s.info idx) with
  | none =>
    have hidle : (fun a => if none = some a then none else book s.info a) = book s.info := by
      funext a
      exact if_neg (Option.some_ne_none a).symm
    rw [hidle]
    exact .idle
  | some c =>
    have hdrop : (fun a => if some c = some a then none else book s.info a) =
        update (book s.info) c none := by
      funext a
      by_cases ha : a = c
      · subst ha
        rw [if_pos rfl, update_self]
      · rw [update_of_ne ha, if_neg fun h => ha (Option.some.inj h).symm]
    rw [hdrop]
    exact .drop

def aged (PMKCachePeriod Now : Nat) (e : AP_BSSID_INFO) : AP_BSSID_INFO :=
  if Now - e.RefreshTime ≥ PMKCachePeriod then { e with Valid := false } else e

theorem maintain_apply (info : BSSIDInfo) (Now : Idx → Nat) (j : Idx) :
    RTMPMaintainPMKIDCache info PMKCachePeriod Now j = aged PMKCachePeriod (Now j) (info j) := by
  have hturn : (fun (info : BSSIDInfo) (j : Idx) =>
      if (info j).Valid = true ∧ Now j - (info j).RefreshTime ≥ PMKCachePeriod then
        RTMPDeletePMKIDCache info j
      else info) = fun info j => update info j (aged PMKCachePeriod (Now j) (info j)) := by
    funext info j
    by_cases hage : Now j - (info j).RefreshTime ≥ PMKCachePeriod
    · rw [aged, if_pos hage, ← delete_eq]
      by_cases hv : (info j).Valid = true
      · exact if_pos ⟨hv, hage⟩
      · rw [if_neg fun h => hv h.1, RTMPDeletePMKIDCache, if_neg hv]
    · rw [if_neg fun h => hage h.2, aged, if_neg hage, update_eq_self]
  rw [RTMPMaintainPMKIDCache, hturn]
  exact Slots.sweep_all (g := fun j => aged PMKCachePeriod (Now j)) info j

theorem key_aged {a : Mac} (h : key (aged PMKCachePeriod Now e) = some a) :
    aged PMKCachePeriod Now e = e ∧ key e = some a := by
  unfold aged at h ⊢
  by_cases hage : Now - e.RefreshTime ≥ PMKCachePeriod
  · rw [if_pos hage] at h
    exact (Option.some_ne_none a h.symm).elim
  · rw [if_neg hage] at h ⊢
    exact ⟨rfl, h⟩

theorem fewer_maintain (info : BSSIDInfo) (Now : Idx → Nat) :
    Fewer (RTMPMaintainPMKIDCache info PMKCachePeriod Now) info := by
  intro j hj
  obtain ⟨a, ha⟩ := Option.ne_none_iff_exists'.mp hj
  rw [maintain_apply] at ha ⊢
  obtain ⟨hsame, hkey⟩ := key_aged ha
  exact ⟨fun hnone => Option.some_ne_none a (hkey.symm.trans hnone), hsame⟩

theorem book_maintain (hd : Slots.Distinct key info) (Now : Idx → Nat) :
    book (RTMPMaintainPMKIDCache info PMKCachePeriod Now) = fun a =>
      (book info a).filter fun w =>
        ((RTMPSearchPMKIDCache info a).map Now).getD 0 - w.2 < PMKCachePeriod := by
  have hd' : Slots.Distinct key (RTMPMaintainPMKIDCache info PMKCachePeriod Now) :=
    (fewer_maintain info Now).distinct hd
  funext a
  cases hsearch : RTMPSearchPMKIDCache info a with
  | none =>
    have hno := hsearch
    rw [search_eq_find, Slots.find_eq_none] at hno
    rw [book_eq_none.mpr hno, Option.filter_none, book_eq_none]
    intro i hi
    rw [maintain_apply] at hi
    exact hno i (key_aged hi).2
  | some j =>
    have hj := hsearch
    rw [search_eq_find] at hj
    have hkey := Slots.key_of_find hj
    rw [book_of_key hd hkey, Option.map_some, Option.getD_some]
    by_cases hage : Now j - (info j).RefreshTime ≥ PMKCachePeriod
    · rw [Option.filter_some_neg (by simpa using hage), book_eq_none]
      intro i hi
      rw [maintain_apply] at hi
      obtain ⟨haged, hkey'⟩ := key_aged hi
      obtain rfl := hd i j a hkey' hkey
      have hinvalid : key (aged PMKCachePeriod (Now i) (info i)) = none := by
        rw [aged, if_pos hage, key_invalid]
      exact Option.some_ne_none a (hi.symm.trans hinvalid)
    · have hsame : RTMPMaintainPMKIDCache info PMKCachePeriod Now j = info j := by
        rw [maintain_apply, aged, if_neg hage]
      rw [Option.filter_some_pos (by simpa using hage),
        book_of_key hd' (i := j) (by rwa [hsame]), hsame]

theorem kept_maintain (hd : Slots.Distinct key s.info) (tick : Idx → Nat) :
    Kept PMKCachePeriod s (.maintain tick) := by
  show Cache.Step _ (book s.info) (op PMKCachePeriod s (.maintain tick))
    (book (RTMPMaintainPMKIDCache s.info PMKCachePeriod (s.reading tick)))
  rw [book_maintain hd]
  exact .age

theorem State.clock_lt_now (s : State) (tick : Nat) : s.clock < s.now tick := by
  unfold State.now
  omega

theorem Timed.of_fewer {s' : State} (h : Timed s) (hfewer : Fewer s'.info s.info)
    (hclock : s.clock ≤ s'.clock) : Timed s' := by
  constructor
  · intro j hj
    obtain ⟨hj', hsame⟩ := hfewer j hj
    rw [hsame]
    exact (h.past j hj').trans hclock
  · intro j k hj hk
    obtain ⟨hj', hjsame⟩ := hfewer j hj
    obtain ⟨hk', hksame⟩ := hfewer k hk
    rw [hjsame, hksame]
    exact h.distinct j k hj' hk'

theorem Timed.step (h : Timed s) (hd : Slots.Distinct key s.info) (e : Event) :
    Timed (Pmkid.step PMKCachePeriod s e) := by
  cases e with
  | add tick pAddr pmkid pmk =>
    obtain ⟨i, heq, -⟩ := add_spec hd pAddr pmkid pmk (s.now tick)
    have hnow := s.clock_lt_now tick
    show Timed ⟨RTMPAddPMKIDCache s.info pAddr pmkid pmk (s.now tick), _, _⟩
    rw [heq]
    constructor
    · intro j hj
      show (update s.info i _ j).RefreshTime ≤ s.now tick
      rcases eq_or_ne j i with rfl | hji
      · rw [update_self]
      · have hj' : key (s.info j) ≠ none := by simpa [hji] using hj
        rw [update_of_ne hji]
        exact (h.past j hj').trans hnow.le
    · intro j k hj hk
      show (update s.info i _ j).RefreshTime = (update s.info i _ k).RefreshTime → j = k
      rcases eq_or_ne j i with rfl | hji
      · rcases eq_or_ne k j with rfl | hkj
        · exact fun _ => rfl
        · have hk' : key (s.info k) ≠ none := by simpa [hkj] using hk
          have hpast := h.past k hk'
          rw [update_self, update_of_ne hkj]
          exact fun htime => absurd (htime.trans_le hpast) hnow.not_ge
      · have hj' : key (s.info j) ≠ none := by simpa [hji] using hj
        rcases eq_or_ne k i with rfl | hki
        · have hpast := h.past j hj'
          rw [update_self, update_of_ne hji]
          exact fun htime => absurd (htime.symm.trans_le hpast) hnow.not_ge
        · have hk' : key (s.info k) ≠ none := by simpa [hki] using hk
          rw [update_of_ne hji, update_of_ne hki]
          exact h.distinct j k hj' hk'
  | delete idx => exact h.of_fewer (fewer_delete s.info idx) le_rfl
  | maintain tick => exact h.of_fewer (fewer_maintain s.info _) (s.clock_lt_now _).le

theorem IsMap.of_fewer {s' : State} (h : IsMap s) (hfewer : Fewer s'.info s.info)
    (hlatest : s'.latest = s.latest) : IsMap s' := by
  refine ⟨hfewer.distinct h.unique, fun a j hsearch => ?_⟩
  rw [search_eq_find] at hsearch
  have hkey := Slots.key_of_find hsearch
  have hsame := (hfewer j (by rw [hkey]; exact Option.some_ne_none a)).2
  refine ⟨hkey, ?_⟩
  rw [hsame] at hkey
  rw [hlatest, hsame]
  exact h.latest_of_key hkey

theorem IsMap.step (h : IsMap s) (e : Event) : IsMap (Pmkid.step PMKCachePeriod s e) := by
  cases e with
  | add tick pAddr pmkid pmk =>
    obtain ⟨i, heq, hother⟩ := add_spec h.unique pAddr pmkid pmk (s.now tick)
    have hd : Slots.Distinct key (update s.info i ⟨pAddr, pmkid, pmk, s.now tick, true⟩) :=
      distinct_write h.unique hother
    show IsMap ⟨RTMPAddPMKIDCache s.info pAddr pmkid pmk (s.now tick), _, _⟩
    rw [heq]
    refine ⟨hd, fun a j hsearch => ?_⟩
    have hkey : key (update s.info i ⟨pAddr, pmkid, pmk, s.now tick, true⟩ j) = some a := by
      rw [search_eq_find] at hsearch
      exact Slots.key_of_find hsearch
    refine ⟨hkey, ?_⟩
    show update s.latest pAddr _ a = some ((update s.info i _ j).PMKID, (update s.info i _ j).PMK)
    rcases eq_or_ne j i with rfl | hji
    · rw [update_self] at hkey
      obtain rfl : pAddr = a := Option.some.inj hkey
      rw [update_self, update_self]
    · rw [update_of_ne hji] at hkey ⊢
      have ha : a ≠ pAddr := by
        rintro rfl
        exact hother j hji hkey
      rw [update_of_ne ha]
      exact h.latest_of_key hkey
  | delete idx => exact h.of_fewer (fewer_delete s.info idx) rfl
  | maintain tick => exact h.of_fewer (fewer_maintain s.info _) rfl

theorem kept_iff (hmap : IsMap s) (ht : Timed s) (e : Event) :
    Kept PMKCachePeriod s e ↔ Room s e := by
  cases e with
  | add tick pAddr pmkid pmk => exact kept_add_iff hmap.unique ht tick pAddr pmkid pmk
  | delete idx => exact iff_of_true (kept_delete hmap.unique idx) trivial
  | maintain tick => exact iff_of_true (kept_maintain hmap.unique tick) trivial

/-- From an empty cache on it is a map that gives up what was refreshed longest ago, and loses
nothing else, exactly when no station that it does not hold is added to it while it is full. -/
theorem run_leastRecent (PMKCachePeriod : Nat) (info : BSSIDInfo) (clock : Nat)
    (es : List Event) :
    ((∀ n, IsMap (Run.exec (step PMKCachePeriod) (start info clock) (es.take n))) ∧
      Run.AllSteps (step PMKCachePeriod) (Kept PMKCachePeriod) (start info clock) es) ↔
    Run.AllSteps (step PMKCachePeriod) Room (start info clock) es := by
  symm
  apply Run.allSteps_iff_kept (A := Timed) (Q := fun _ _ => True) _ _
    (timed_start info clock) (isMap_start info clock)
  · exact Run.AllSteps.of_forall fun _ _ _ => trivial
  · exact fun s e ht hmap _ => ht.step hmap.unique e
  · intro s e ht hmap _
    rw [kept_iff hmap ht e]
    exact and_iff_right (hmap.step e)

def noInfo : BSSIDInfo := fun _ =>
  ⟨Vector.replicate 6 0, Vector.replicate 16 0, Vector.replicate 32 0, 0, false⟩

def addStation (last : BitVec 8) : Event :=
  .add 0 #v[2, 0, 0, 0, 0, last] (Vector.replicate 16 last) (Vector.replicate 32 last)

/-- One station more is added than the cache has room for. -/
def nineStations : List Event :=
  [addStation 1, addStation 2, addStation 3, addStation 4, addStation 5, addStation 6,
    addStation 7, addStation 8, addStation 9]

/-- The eighth station has to go, and not the first. -/
theorem newest_given_up :
    ¬ ((∀ n, IsMap (Run.exec (step 600) (start noInfo 0) (nineStations.take n))) ∧
      Run.AllSteps (step 600) (Kept 600) (start noInfo 0) nineStations) := by
  rintro ⟨-, -, -, -, -, -, -, -, -, hninth, -⟩
  have hstays := Cache.Step.newer_stays (c := #v[2, 0, 0, 0, 0, 8])
    (w := ((Vector.replicate 16 8, Vector.replicate 32 8), 8)) hninth
    (by decide +kernel) (by decide)
    ⟨#v[2, 0, 0, 0, 0, 1], ((Vector.replicate 16 1, Vector.replicate 32 1), 1),
      by decide +kernel, by decide⟩
  exact Option.some_ne_none _ (hstays.symm.trans (by decide +kernel))

end Ralink.Pmkid
