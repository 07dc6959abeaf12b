import Ralink.Lib.Run

/-! An access point counts the PIN failures of its enrollees. The first one opens a window of a
minute, the third one locks the setup for a minute. Time is counted in ticks of the kernel's clock,
`HZ` of them a second, and a timer that is pending holds the tick it fires at. -/
namespace Ralink.Wps

abbrev Timer := Option Nat

/-- A timer that is pending stays as it is. `Value` is in milliseconds. -/
def RTMPSetTimer (HZ jiffies : Nat) (timer : Timer) (Value : Nat) : Timer :=
  match timer with
  | some expires => some expires
  | none => some (jiffies + Value * HZ / 1000)

def RTMPCancelTimer (_ : Timer) : Timer := none

structure WSC_CTRL where
  /-- Whether the pointer to the adapter is set. -/
  pAd : Bool
  PinAttackCount : BitVec 8
  bSetupLock : Bool
  WscSetupLockTimer : Timer
  WscSetupLockTimerRunning : Bool
  WscPinAttackCountCheckTimer : Timer
  WscPinAttackCountCheckTimerRunning : Bool
  deriving DecidableEq

def WscSetupLockTimeout (w : WSC_CTRL) : WSC_CTRL :=
  if !w.pAd then w
  else { w with bSetupLock := false, WscSetupLockTimerRunning := false }

def WscPinAttackCountCheckTimeout (w : WSC_CTRL) : WSC_CTRL :=
  let w :=
    if w.PinAttackCount < 2 ∧ w.WscSetupLockTimerRunning = false then
      { w with PinAttackCount := 0 }
    else w
  { w with WscPinAttackCountCheckTimerRunning := false }

/-- The window of a minute starts with the first failure. -/
def openWindow (HZ jiffies : Nat) (w : WSC_CTRL) : WSC_CTRL :=
  let w :=
    if w.WscPinAttackCountCheckTimerRunning then
      { w with WscPinAttackCountCheckTimer := RTMPCancelTimer w.WscPinAttackCountCheckTimer }
    else { w with WscPinAttackCountCheckTimerRunning := true }
  { w with
    WscPinAttackCountCheckTimer := RTMPSetTimer HZ jiffies w.WscPinAttackCountCheckTimer 60000 }

/-- The setup is locked for a minute with the third one. -/
def lockSetup (HZ jiffies : Nat) (w : WSC_CTRL) : WSC_CTRL :=
  let w := { w with PinAttackCount := 0, bSetupLock := true }
  let w :=
    if w.WscSetupLockTimerRunning then
      { w with WscSetupLockTimer := RTMPCancelTimer w.WscSetupLockTimer }
    else { w with WscSetupLockTimerRunning := true }
  { w with WscSetupLockTimer := RTMPSetTimer HZ jiffies w.WscSetupLockTimer 60000 }

def WscCheckPinAttackCount (HZ jiffies : Nat) (w : WSC_CTRL) : WSC_CTRL :=
  let w := if w.PinAttackCount = 0 then openWindow HZ jiffies w else w
  let w := { w with PinAttackCount := w.PinAttackCount + 1 }
  if 3 ≤ w.PinAttackCount then lockSetup HZ jiffies w else w

/-- The two timers initialised, none of them pending. -/
def initial : WSC_CTRL where
  pAd := true
  PinAttackCount := 0
  bSetupLock := false
  WscSetupLockTimer := none
  WscSetupLockTimerRunning := false
  WscPinAttackCountCheckTimer := none
  WscPinAttackCountCheckTimerRunning := false

inductive What where
  | pinFailure
  | windowExpiry
  | lockExpiry
  deriving DecidableEq

structure Event where
  time : Nat
  what : What
  deriving DecidableEq

/-- The access point, and when something last happened. -/
structure State where
  jiffies : Nat
  wsc : WSC_CTRL
  deriving DecidableEq

def start (jiffies : Nat) : State := ⟨jiffies, initial⟩

/-- A timer that fires is not pending any more when its function is called. -/
def handle (HZ : Nat) (w : WSC_CTRL) (e : Event) : WSC_CTRL :=
  match e.what with
  | .pinFailure => WscCheckPinAttackCount HZ e.time w
  | .windowExpiry => WscPinAttackCountCheckTimeout { w with WscPinAttackCountCheckTimer := none }
  | .lockExpiry => WscSetupLockTimeout { w with WscSetupLockTimer := none }

def step (HZ : Nat) (s : State) (e : Event) : State := ⟨e.time, handle HZ s.wsc e⟩

def WSC_CTRL.due (w : WSC_CTRL) (time : Nat) : What → Prop
  | .pinFailure => True
  | .windowExpiry => w.WscPinAttackCountCheckTimer = some time
  | .lockExpiry => w.WscSetupLockTimer = some time

instance (w : WSC_CTRL) (time : Nat) : ∀ what, Decidable (w.due time what)
  | .pinFailure => inferInstanceAs (Decidable True)
  | .windowExpiry => inferInstanceAs (Decidable (w.WscPinAttackCountCheckTimer = some time))
  | .lockExpiry => inferInstanceAs (Decidable (w.WscSetupLockTimer = some time))

/-- Time does not go back, no pending timer is passed over, and a timer fires when it is due.
Of what falls on the same tick, anything may come first. -/
structure Possible (s : State) (e : Event) : Prop where
  forward : s.jiffies ≤ e.time
  window : ∀ expires ∈ s.wsc.WscPinAttackCountCheckTimer, e.time ≤ expires
  lock : ∀ expires ∈ s.wsc.WscSetupLockTimer, e.time ≤ expires
  due : s.wsc.due e.time e.what

instance (s : State) (e : Event) : Decidable (Possible s e) :=
  decidable_of_iff
    (s.jiffies ≤ e.time ∧ (∀ expires ∈ s.wsc.WscPinAttackCountCheckTimer, e.time ≤ expires) ∧
      (∀ expires ∈ s.wsc.WscSetupLockTimer, e.time ≤ expires) ∧ s.wsc.due e.time e.what)
    ⟨fun h => ⟨h.1, h.2.1, h.2.2.1, h.2.2.2⟩, fun h => ⟨h.forward, h.window, h.lock, h.due⟩⟩

structure Consistent (w : WSC_CTRL) : Prop where
  pAd : w.pAd = true
  count : w.PinAttackCount ≤ 2
  lock : w.bSetupLock = w.WscSetupLockTimerRunning
  lockTimer : w.WscSetupLockTimerRunning = w.WscSetupLockTimer.isSome
  windowTimer : w.WscPinAttackCountCheckTimerRunning = w.WscPinAttackCountCheckTimer.isSome

theorem minute (HZ : Nat) : 60000 * HZ / 1000 = 60 * HZ := by omega

theorem count_cases {n : BitVec 8} (h : n ≤ 2) : n = 0 ∨ n = 1 ∨ n = 2 := by bv_omega

section

variable {HZ jiffies : Nat} {w : WSC_CTRL}

theorem openWindow_eq (hw : Consistent w) :
    openWindow HZ jiffies w =
      { w with
        WscPinAttackCountCheckTimerRunning := true
        WscPinAttackCountCheckTimer := some (jiffies + 60 * HZ) } := by
  have hrun := hw.windowTimer
  cases htimer : w.WscPinAttackCountCheckTimer with
  | none =>
    rw [htimer, Option.isSome_none] at hrun
    simp [openWindow, hrun, htimer, RTMPSetTimer, minute]
  | some expires =>
    rw [htimer, Option.isSome_some] at hrun
    simp [openWindow, hrun, RTMPSetTimer, RTMPCancelTimer, minute]

theorem lockSetup_eq (hlock : w.WscSetupLockTimerRunning = w.WscSetupLockTimer.isSome) :
    lockSetup HZ jiffies w =
      { w with
        PinAttackCount := 0
        bSetupLock := true
        WscSetupLockTimerRunning := true
        WscSetupLockTimer := some (jiffies + 60 * HZ) } := by
  cases htimer : w.WscSetupLockTimer with
  | none =>
    rw [htimer, Option.isSome_none] at hlock
    simp [lockSetup, hlock, htimer, RTMPSetTimer, minute]
  | some expires =>
    rw [htimer, Option.isSome_some] at hlock
    simp [lockSetup, hlock, RTMPSetTimer, RTMPCancelTimer, minute]

theorem first_failure (hw : Consistent w) (h : w.PinAttackCount = 0) :
    WscCheckPinAttackCount HZ jiffies w =
      { w with
        PinAttackCount := 1
        WscPinAttackCountCheckTimerRunning := true
        WscPinAttackCountCheckTimer := some (jiffies + 60 * HZ) } := by
  simp [WscCheckPinAttackCount, h, openWindow_eq hw]

theorem second_failure (h : w.PinAttackCount = 1) :
    WscCheckPinAttackCount HZ jiffies w = { w with PinAttackCount := 2 } := by
  simp [WscCheckPinAttackCount, h]

section

variable (hw : Consistent w)
include hw

theorem third_failure (h : w.PinAttackCount = 2) :
    WscCheckPinAttackCount HZ jiffies w =
      { w with
        PinAttackCount := 0
        bSetupLock := true
        WscSetupLockTimerRunning := true
        WscSetupLockTimer := some (jiffies + 60 * HZ) } := by
  simp [WscCheckPinAttackCount, h, lockSetup_eq, hw.lockTimer]

theorem failure_consistent : Consistent (WscCheckPinAttackCount HZ jiffies w) := by
  rcases count_cases hw.count with h | h | h
  · rw [first_failure hw h]
    exact ⟨hw.pAd, (by decide : (1 : BitVec 8) ≤ 2), hw.lock, hw.lockTimer, rfl⟩
  · rw [second_failure h]
    exact ⟨hw.pAd, (by decide : (2 : BitVec 8) ≤ 2), hw.lock, hw.lockTimer, hw.windowTimer⟩
  · rw [third_failure hw h]
    exact ⟨hw.pAd, (by decide : (0 : BitVec 8) ≤ 2), rfl, rfl, hw.windowTimer⟩

theorem windowExpiry_consistent :
    Consistent (WscPinAttackCountCheckTimeout { w with WscPinAttackCountCheckTimer := none }) := by
  rw [WscPinAttackCountCheckTimeout]
  split
  · exact ⟨hw.pAd, (by decide : (0 : BitVec 8) ≤ 2), hw.lock, hw.lockTimer, rfl⟩
  · exact ⟨hw.pAd, hw.count, hw.lock, hw.lockTimer, rfl⟩

theorem lockExpiry_eq : WscSetupLockTimeout { w with WscSetupLockTimer := none } =
      { w with bSetupLock := false, WscSetupLockTimerRunning := false, WscSetupLockTimer := none } := by
  simp [WscSetupLockTimeout, hw.pAd]

theorem lockExpiry_consistent :
    Consistent (WscSetupLockTimeout { w with WscSetupLockTimer := none }) := by
  rw [lockExpiry_eq hw]
  exact ⟨hw.pAd, hw.count, rfl, rfl, hw.windowTimer⟩

end

end

variable {HZ : Nat} {s : State} {e : Event} {es : List Event}

theorem step_consistent (s : State) (e : Event) (hs : Consistent s.wsc) :
    Consistent (step HZ s e).wsc := by
  obtain ⟨time, what⟩ := e
  cases what with
  | pinFailure => exact failure_consistent hs
  | windowExpiry => exact windowExpiry_consistent hs
  | lockExpiry => exact lockExpiry_consistent hs

theorem start_consistent (jiffies : Nat) : Consistent (start jiffies).wsc :=
  ⟨rfl, (by decide : (0 : BitVec 8) ≤ 2), rfl, rfl, rfl⟩

theorem run_consistent (HZ : Nat) (hs : Consistent s.wsc) (es : List Event) :
    Consistent (Run.exec (step HZ) s es).wsc := by
  refine Run.exec_inv (I := fun s => Consistent s.wsc) (P := fun _ _ => True)
    (fun s e hs _ => step_consistent s e hs) hs ?_
  exact Run.AllSteps.of_forall fun _ _ _ => trivial

end Ralink.Wps

/-! Failures that count, and locks that last. -/
namespace Ralink.Wps

variable {HZ ends n : Nat} {s : State} {e : Event} {es : List Event} {w : WSC_CTRL}

def LockedTo (ends : Nat) (w : WSC_CTRL) : Prop :=
  ∃ expires ∈ w.WscSetupLockTimer, ends ≤ expires

theorem LockedTo.locked (hw : Consistent w) (h : LockedTo ends w) : w.bSetupLock = true := by
  obtain ⟨expires, htimer, -⟩ := h
  rw [hw.lock, hw.lockTimer, Option.mem_def.mp htimer]
  rfl

/-- A failure that locks the setup, or locks it anew. -/
def Locks (s : State) (e : Event) : Prop :=
  e.what = .pinFailure ∧ 3 ≤ s.wsc.PinAttackCount + 1

structure Held (HZ ends : Nat) (s : State) : Prop where
  consistent : Consistent s.wsc
  begun : ends ≤ s.jiffies + 60 * HZ
  locked : LockedTo ends s.wsc

theorem begun_step (hs : ends ≤ s.jiffies + 60 * HZ) (he : Possible s e) :
    ends ≤ e.time + 60 * HZ :=
  hs.trans (Nat.add_le_add_right he.forward _)

theorem held_locks (hs : Consistent s.wsc) (he : Locks s e) :
    Held HZ (e.time + 60 * HZ) (step HZ s e) := by
  have htwo : s.wsc.PinAttackCount = 2 := by
    have := hs.count
    have := he.2
    bv_omega
  refine ⟨step_consistent s e hs, le_refl _, ?_⟩
  simp only [step, handle, he.1, third_failure hs htwo]
  exact ⟨_, rfl, le_refl _⟩

theorem LockedTo.failure {jiffies : Nat} (hw : Consistent w) (hends : ends ≤ jiffies + 60 * HZ)
    (h : LockedTo ends w) : LockedTo ends (WscCheckPinAttackCount HZ jiffies w) := by
  rcases count_cases hw.count with hcount | hcount | hcount
  · rw [first_failure hw hcount]
    exact h
  · rw [second_failure hcount]
    exact h
  · rw [third_failure hw hcount]
    exact ⟨_, rfl, hends⟩

theorem LockedTo.not_due {w : WSC_CTRL} {time : Nat} (h : LockedTo ends w)
    (hdue : w.WscSetupLockTimer = some time) : ends ≤ time := by
  obtain ⟨expires, htimer, hle⟩ := h
  exact Option.some.inj (htimer.symm.trans hdue) ▸ hle

theorem Held.step (hs : Held HZ ends s) (he : Possible s e)
    (hearly : e.what = .lockExpiry → e.time < ends) : Held HZ ends (step HZ s e) := by
  refine ⟨step_consistent s e hs.consistent, begun_step hs.begun he, ?_⟩
  have hends := begun_step hs.begun he
  have hdue := he.due
  obtain ⟨time, what⟩ := e
  cases what with
  | pinFailure => exact hs.locked.failure hs.consistent hends
  | windowExpiry =>
    simp only [Wps.step, handle, WscPinAttackCountCheckTimeout]
    split <;> exact hs.locked
  | lockExpiry => exact absurd (hearly rfl) (Nat.not_lt.mpr (hs.locked.not_due hdue))

theorem Held.run (hs : Held HZ ends s) (hrun : Run.AllSteps (Wps.step HZ) Possible s es)
    (hearly : ∀ e ∈ es, e.what = .lockExpiry → e.time < ends) :
    Held HZ ends (Run.exec (Wps.step HZ) s es) :=
  Run.exec_inv (fun _ _ hs he => hs.step he.1 he.2) hs
    (hrun.and (Run.AllSteps.of_forall fun e he _ => hearly e he))

def Event.Within (e : Event) (ends : Nat) : Prop :=
  e.time < ends ∨ e.time = ends ∧ e.what = .pinFailure

theorem Event.Within.early (h : e.Within ends) (he : e.what ≠ .pinFailure) : e.time < ends :=
  h.resolve_right fun hend => he hend.2

structure Counted (HZ ends n : Nat) (s : State) : Prop where
  consistent : Consistent s.wsc
  begun : ends ≤ s.jiffies + 60 * HZ
  counted : LockedTo ends s.wsc ∨
    n ≤ s.wsc.PinAttackCount.toNat ∧
      (s.wsc.PinAttackCount = 1 →
        ∀ expires ∈ s.wsc.WscPinAttackCountCheckTimer, ends ≤ expires)

theorem two_ne_one : (2 : BitVec 8) ≠ 1 := by decide

theorem counted_first (HZ : Nat) (hs : Consistent s.wsc) (he : e.what = .pinFailure) :
    Counted HZ (e.time + 60 * HZ) 1 (step HZ s e) := by
  refine ⟨step_consistent s e hs, le_refl _, ?_⟩
  simp only [step, handle, he]
  rcases count_cases hs.count with h | h | h
  · rw [first_failure hs h]
    exact .inr ⟨Nat.le_refl 1, fun _ expires hexp => (Option.some.inj hexp).le⟩
  · rw [second_failure h]
    exact .inr ⟨Nat.le_succ 1, fun hone => absurd hone two_ne_one⟩
  · rw [third_failure hs h]
    exact .inl ⟨_, rfl, le_refl _⟩

theorem Counted.failure (hs : Counted HZ ends n s) (hpos : 0 < n) (he : Possible s e)
    (hwhat : e.what = .pinFailure) : Counted HZ ends (n + 1) (step HZ s e) := by
  have hends := begun_step hs.begun he
  refine ⟨step_consistent s e hs.consistent, hends, ?_⟩
  simp only [step, handle, hwhat]
  rcases hs.counted with hlock | ⟨hcount, -⟩
  · exact .inl (hlock.failure hs.consistent hends)
  · rcases count_cases hs.consistent.count with h | h | h
    · rw [h] at hcount
      exact absurd hcount (Nat.not_le.mpr hpos)
    · rw [h] at hcount
      rw [second_failure h]
      exact .inr ⟨Nat.succ_le_succ hcount, fun hone => absurd hone two_ne_one⟩
    · rw [third_failure hs.consistent h]
      exact .inl ⟨_, rfl, hends⟩

theorem Counted.step (hs : Counted HZ ends n s) (hpos : 0 < n) (he : Possible s e)
    (hin : e.Within ends) : Counted HZ ends n (step HZ s e) := by
  rcases hs.counted with hlock | ⟨hcount, hwindow⟩
  · obtain ⟨hcons, hbegun, hlocked⟩ :=
      Held.step ⟨hs.consistent, hs.begun, hlock⟩ he fun h => hin.early (h ▸ by decide)
    exact ⟨hcons, hbegun, .inl hlocked⟩
  refine ⟨step_consistent s e hs.consistent, begun_step hs.begun he, ?_⟩
  have hdue := he.due
  cases hwhat : e.what with
  | pinFailure =>
    exact (hs.failure hpos he hwhat).counted.imp id fun h => ⟨Nat.le_of_succ_le h.1, h.2⟩
  | windowExpiry =>
    have htime := hin.early (hwhat ▸ by decide)
    rw [hwhat] at hdue
    have htwo : s.wsc.PinAttackCount = 2 := by
      rcases count_cases hs.consistent.count with h | h | h
      · rw [h] at hcount
        exact absurd hcount (Nat.not_le.mpr hpos)
      · exact absurd (hwindow h _ hdue) (Nat.not_le.mpr htime)
      · exact h
    simp only [Wps.step, handle, hwhat, WscPinAttackCountCheckTimeout]
    rw [if_neg fun h => absurd (htwo ▸ h.1) (by decide)]
    exact .inr ⟨hcount, fun hone => absurd (htwo.symm.trans hone) two_ne_one⟩
  | lockExpiry =>
    simp only [Wps.step, handle, hwhat, lockExpiry_eq hs.consistent]
    exact .inr ⟨hcount, hwindow⟩

theorem Counted.run (hs : Counted HZ ends n s) (hpos : 0 < n)
    (hrun : Run.AllSteps (Wps.step HZ) Possible s es) (hes : ∀ e ∈ es, e.Within ends) :
    Counted HZ ends n (Run.exec (Wps.step HZ) s es) :=
  Run.exec_inv (fun _ _ hs he => hs.step hpos he.1 he.2) hs
    (hrun.and (Run.AllSteps.of_forall fun e he _ => hes e he))

theorem Counted.locked (hs : Counted HZ ends 3 s) : s.wsc.bSetupLock = true := by
  refine LockedTo.locked hs.consistent (hs.counted.resolve_right fun hcount => ?_)
  have := hs.consistent.count
  have := hcount.1
  bv_omega

theorem time_le {c : Event} (hrun : Run.AllSteps (step HZ) Possible s (es ++ [c])) :
    s.jiffies ≤ c.time ∧ ∀ e ∈ es, e.time ≤ c.time := by
  induction es generalizing s with
  | nil => exact ⟨hrun.1.forward, by simp⟩
  | cons e es ih =>
    obtain ⟨hpos, hrest⟩ := hrun
    obtain ⟨hle, hall⟩ := ih hrest
    exact ⟨hpos.forward.trans hle, List.forall_mem_cons.mpr ⟨hle, hall⟩⟩

def run (HZ jiffies : Nat) (es : List Event) : WSC_CTRL :=
  (Run.exec (step HZ) (start jiffies) es).wsc

/-- The third of three failures in a minute finds the setup locked or locks it, unless an
expiry that falls on the very end of the minute comes first. A lock lasts a minute from the
failure that locked. The counter, the lock, the flags and the timers agree throughout. -/
theorem run_lockedOut (HZ jiffies : Nat) (es : List Event)
    (hrun : Run.AllSteps (step HZ) Possible (start jiffies) es) :
    (∀ (past es₁ es₂ : List Event) (a b c : Event), es = past ++ a :: (es₁ ++ b :: (es₂ ++ [c])) →
      a.what = .pinFailure → b.what = .pinFailure → c.what = .pinFailure →
      c.time ≤ a.time + 60 * HZ →
      (∀ e ∈ es₁ ++ es₂, e.time = a.time + 60 * HZ → e.what = .pinFailure) →
      (run HZ jiffies es).bSetupLock = true) ∧
    (∀ (past later : List Event) (e : Event), es = past ++ e :: later →
      Locks (Run.exec (step HZ) (start jiffies) past) e →
      (∀ e' ∈ later, e'.what = .lockExpiry → e'.time < e.time + 60 * HZ) →
      (run HZ jiffies es).bSetupLock = true) ∧
    (run HZ jiffies es).PinAttackCount ≤ 2 ∧
    ((run HZ jiffies es).bSetupLock = true ↔
      (run HZ jiffies es).WscSetupLockTimerRunning = true) ∧
    ((run HZ jiffies es).WscSetupLockTimerRunning = true ↔
      (run HZ jiffies es).WscSetupLockTimer.isSome = true) ∧
    ((run HZ jiffies es).WscPinAttackCountCheckTimerRunning = true ↔
      (run HZ jiffies es).WscPinAttackCountCheckTimer.isSome = true) := by
  have hcons : Consistent (run HZ jiffies es) := run_consistent HZ (start_consistent jiffies) es
  refine ⟨?_, ?_, hcons.count, ?_, ?_, ?_⟩
  · rintro past es₁ es₂ a b c rfl ha hb hc htime hend
    obtain ⟨-, -, hrest⟩ := Run.allSteps_append.mp hrun
    have hlast : ∀ e ∈ es₁ ++ b :: es₂, e.time ≤ c.time := by
      have h := hrest
      rw [← List.cons_append, ← List.append_assoc] at h
      exact (time_le h).2
    obtain ⟨hes₁, hbstep, hrest₂⟩ := Run.allSteps_append.mp hrest
    obtain ⟨hes₂, hcstep, -⟩ := Run.allSteps_append.mp hrest₂
    have hin : ∀ e ∈ es₁ ++ es₂, e.Within (a.time + 60 * HZ) := by
      intro e he
      have hmem : e ∈ es₁ ++ b :: es₂ := by
        rw [List.mem_append] at he ⊢
        exact he.imp id (List.mem_cons_of_mem b)
      rcases ((hlast e hmem).trans htime).lt_or_eq with hlt | heq
      · exact .inl hlt
      · exact .inr ⟨heq, hend e he heq⟩
    have hpast := run_consistent HZ (start_consistent jiffies) past
    have h₁ := (counted_first HZ hpast ha).run one_pos hes₁
      fun e he => hin e (List.mem_append_left _ he)
    have h₂ := (h₁.failure one_pos hbstep hb).run two_pos hes₂
      fun e he => hin e (List.mem_append_right _ he)
    have h₃ := (h₂.failure two_pos hcstep hc).locked
    simpa [run, Run.exec_append] using h₃
  · rintro past later e rfl hlocks hearly
    obtain ⟨-, hstep, hlater⟩ := Run.allSteps_append.mp hrun
    have hpast := run_consistent HZ (start_consistent jiffies) past
    have hheld := (held_locks hpast hlocks).run hlater hearly
    rw [run, Run.exec_append]
    exact hheld.locked.locked hheld.consistent
  · rw [hcons.lock]
  · rw [hcons.lockTimer]
  · rw [hcons.windowTimer]

theorem run_lockedOut_three :
    (run 1 0 [⟨0, .pinFailure⟩, ⟨60, .pinFailure⟩, ⟨60, .pinFailure⟩]).bSetupLock = true :=
  (run_lockedOut 1 0 _ (by decide)).1 [] [] [] _ _ _ rfl rfl rfl rfl (by decide) (by simp)

/-- The window closes on the tick on which the last two failures come. -/
theorem third_not_locked :
    ¬ ∀ (HZ jiffies : Nat) (past es₁ es₂ : List Event) (a b c : Event),
      Run.AllSteps (step HZ) Possible (start jiffies)
        (past ++ a :: (es₁ ++ b :: (es₂ ++ [c]))) →
      a.what = .pinFailure → b.what = .pinFailure → c.what = .pinFailure →
      c.time ≤ a.time + 60 * HZ →
      (run HZ jiffies (past ++ a :: (es₁ ++ b :: (es₂ ++ [c])))).bSetupLock = true := by
  intro h
  have hlock := h 1 0 [] [⟨60, .windowExpiry⟩] [] ⟨0, .pinFailure⟩ ⟨60, .pinFailure⟩
    ⟨60, .pinFailure⟩ (by decide) rfl rfl rfl (by decide)
  exact absurd hlock (by decide)

end Ralink.Wps
