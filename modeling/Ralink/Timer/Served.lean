import Ralink.Lib.Run
import Ralink.Timer.Queue

/-! The sections that hold the lock are steps, and so are the parts of the loop of the timer task
between them. An insertion gets a ticket, its number among the insertions. -/
namespace Ralink.Timer
open Function Links

/-- Where `RtmpTimerQHandle` is. -/
inductive Phase where
  /-- Asleep until the task is woken. -/
  | asleep
  /-- At the test of `pQHead`. -/
  | look
  /-- Behind it, in front of the lock. -/
  | lock
  /-- Behind the lock, the timer is handled if there is one. -/
  | turn
  deriving DecidableEq

/-- The queue, and `pTimer` of the task. The tickets of the nodes, the ticket that goes with
`pTimer`, and what was inserted, handled and removed are kept along. -/
structure State (τ : Type) where
  queue : RTMP_TIMER_TASK_QUEUE τ
  phase : Phase
  pTimer : Option τ
  ticket : Nat → Nat
  current : Nat
  inserted : List (Option τ)
  handled : List (Option τ × Nat)
  removed : List (Option τ × Nat)

inductive Event (τ : Type) where
  | insert (pTimer : τ)
  | remove (pTimer : τ)
  | wake
  | look
  | dequeue
  | turn

variable {τ : Type}

def nodes (TimerQ : RTMP_TIMER_TASK_QUEUE τ) : List Nat :=
  walk TimerQ.pNext TIMER_QUEUE_SIZE_MAX TimerQ.pQHead

def freeNodes (TimerQ : RTMP_TIMER_TASK_QUEUE τ) : List Nat :=
  walk TimerQ.pNext TIMER_QUEUE_SIZE_MAX TimerQ.pQPollFreeList

def start (τ : Type) (allocated : Bool) : State τ where
  queue := RtmpTimerQInit τ allocated
  phase := .asleep
  pTimer := none
  ticket _ := 0
  current := 0
  inserted := []
  handled := []
  removed := []

def insertStep (pTimer : τ) (s : State τ) : State τ :=
  match RtmpTimerQInsert pTimer s.queue with
  | (none, queue) => { s with queue }
  | (some pQNode, queue) =>
    { s with
      queue
      ticket := update s.ticket pQNode s.inserted.length
      inserted := s.inserted ++ [some pTimer] }

/-- The pending nodes that are not pending any more are those that were removed. -/
def removeTo (pTimer : τ) (s : State τ) (queue : RTMP_TIMER_TASK_QUEUE τ) : State τ :=
  let dropped := (nodes s.queue).filter (· ∉ nodes queue)
  { s with queue, removed := s.removed ++ dropped.map fun x => (some pTimer, s.ticket x) }

def removeStep [DecidableEq τ] (pTimer : τ) (s : State τ) : Option (State τ) :=
  (RtmpTimerQRemove pTimer s.queue).map (removeTo pTimer s)

def dequeueStep (s : State τ) : State τ :=
  let (pTimer, queue) := dequeue s.pTimer s.queue
  { s with
    queue
    pTimer
    phase := .turn
    current := (s.queue.pQHead.map s.ticket).getD s.current }

/-- The timer in hand, when it is about to be handled. -/
def hand (s : State τ) : List (Option τ × Nat) :=
  if s.phase = .turn ∧ s.pTimer.isSome then [(s.pTimer, s.current)] else []

def turnStep (s : State τ) : State τ :=
  { s with handled := s.handled ++ hand s, phase := .look }

/-- The task only does what comes next in its loop. -/
def step [DecidableEq τ] (s : State τ) : Event τ → Option (State τ)
  | .insert pTimer => some (insertStep pTimer s)
  | .remove pTimer => removeStep pTimer s
  | .wake => some (if s.phase = .asleep then { s with phase := .look, pTimer := none } else s)
  | .look =>
    some (if s.phase = .look then
      { s with phase := if s.queue.pQHead.isSome then .lock else .asleep } else s)
  | .dequeue => some (if s.phase = .lock then dequeueStep s else s)
  | .turn => some (if s.phase = .turn then turnStep s else s)

/-- The queue is not found empty behind the lock while the last timer is still in hand. -/
def Fresh (s : State τ) : Event τ → Prop
  | .dequeue => s.phase = .lock → s.queue.pQHead = none → s.pTimer = none
  | _ => True

instance [DecidableEq τ] (s : State τ) : ∀ e, Decidable (Fresh s e)
  | .dequeue =>
    inferInstanceAs (Decidable (s.phase = .lock → s.queue.pQHead = none → s.pTimer = none))
  | .insert _ | .remove _ | .wake | .look | .turn => inferInstanceAs (Decidable True)

def entry (s : State τ) (x : Nat) : Option τ × Nat := (s.queue.pRaTimer x, s.ticket x)

structure Tracked (allocated : Bool) (s : State τ) (pending free : List Nat) : Prop where
  holds : Holds allocated s.queue pending free
  timers : ∀ x ∈ pending, (s.queue.pRaTimer x).isSome = true
  accounted :
    (s.handled ++ hand s ++ s.removed ++ pending.map (entry s)).Perm s.inserted.zipIdx
  sorted : ((s.handled ++ hand s ++ pending.map (entry s)).map Prod.snd).Pairwise (· < ·)

variable {allocated : Bool} {s : State τ} {pending free : List Nat}

theorem Holds.nodes_eq {TimerQ : RTMP_TIMER_TASK_QUEUE τ}
    (h : Holds allocated TimerQ pending free) :
    nodes TimerQ = pending := h.pendingChain.walk_eq h.length_le

theorem Tracked.ticket_lt (hs : Tracked allocated s pending free) {e : Option τ × Nat}
    (he : e ∈ s.handled ++ hand s ++ pending.map (entry s)) : e.2 < s.inserted.length := by
  have hmem : e ∈ s.handled ++ hand s ++ s.removed ++ pending.map (entry s) := by
    rcases List.mem_append.mp he with he | he
    · exact List.mem_append_left _ (List.mem_append_left _ he)
    · exact List.mem_append_right _ he
  exact List.snd_lt_of_mem_zipIdx (hs.accounted.mem_iff.mp hmem)

theorem insert_tracked (pTimer : τ) (hs : Tracked allocated s pending free) :
    ∃ pending' free', Tracked allocated (insertStep pTimer s) pending' free' := by
  cases free with
  | nil =>
    refine ⟨pending, [], ?_⟩
    rw [insertStep, insert_full pTimer hs.holds]
    exact ⟨hs.holds, hs.timers, hs.accounted, hs.sorted⟩
  | cons x free =>
    obtain ⟨queue, heq, hholds, htimers⟩ := hs.holds.insert pTimer
    have hx : x ∉ pending := fun hmem =>
      (List.nodup_append.mp hs.holds.nodup).2.2 x hmem x List.mem_cons_self rfl
    rw [insertStep, heq]
    have hentry : (pending ++ [x]).map (entry
        { s with
          queue
          ticket := update s.ticket x s.inserted.length
          inserted := s.inserted ++ [some pTimer] }) =
        pending.map (entry s) ++ [(some pTimer, s.inserted.length)] := by
      rw [List.map_append, List.map_singleton]
      congr 1
      · refine List.map_congr_left fun y hy => ?_
        have hne : y ≠ x := ne_of_mem_of_not_mem hy hx
        simp only [entry, htimers, update_of_ne hne]
      · simp only [entry, htimers, update_self]
    refine ⟨pending ++ [x], free, hholds, ?_, ?_, ?_⟩
    · intro y hy
      simp only [htimers]
      rcases List.mem_append.mp hy with hy | hy
      · rw [update_of_ne (ne_of_mem_of_not_mem hy hx)]
        exact hs.timers y hy
      · rw [List.mem_singleton.mp hy, update_self]
        rfl
    · rw [hentry, List.zipIdx_append, ← List.append_assoc, Nat.zero_add]
      exact hs.accounted.append_right [(some pTimer, s.inserted.length)]
    · rw [hentry, ← List.append_assoc, List.map_append, List.pairwise_append]
      refine ⟨hs.sorted, List.pairwise_singleton _ _, ?_⟩
      intro k hk k' hk'
      obtain ⟨e, he, rfl⟩ := List.mem_map.mp hk
      obtain rfl := List.mem_singleton.mp hk'
      exact hs.ticket_lt he

section Erase

variable {α : Type} {p : α → Bool}

theorem find_append_eraseP (p : α → Bool) (l : List α) :
    ((l.find? p).toList ++ l.eraseP p).Perm l := by
  induction l with
  | nil => exact .nil
  | cons a l ih =>
    by_cases ha : p a = true
    · rw [List.find?_cons_of_pos ha, List.eraseP_cons_of_pos ha]
      exact .refl _
    · rw [List.find?_cons_of_neg ha, List.eraseP_cons_of_neg ha]
      exact List.perm_middle.trans (ih.cons a)

theorem filter_notMem_eraseP [DecidableEq α] {l : List α} (h : l.Nodup) :
    l.filter (· ∉ l.eraseP p) = (l.find? p).toList := by
  induction l with
  | nil => rfl
  | cons a l ih =>
    obtain ⟨ha, hl⟩ := List.nodup_cons.mp h
    by_cases hp : p a = true
    · rw [List.find?_cons_of_pos hp, List.eraseP_cons_of_pos hp,
        List.filter_cons_of_pos (by simpa using ha)]
      simp
    · rw [List.find?_cons_of_neg hp, List.eraseP_cons_of_neg hp,
        List.filter_cons_of_neg (by simp), ← ih hl]
      refine List.filter_congr fun b hb => ?_
      have hne : b ≠ a := ne_of_mem_of_not_mem hb ha
      simp [hne]

end Erase

theorem entry_eq {s' : State τ} (htimers : s'.queue.pRaTimer = s.queue.pRaTimer)
    (hticket : s'.ticket = s.ticket) : entry s' = entry s := by
  funext x
  rw [entry, entry, htimers, hticket]

theorem remove_tracked [DecidableEq τ] (pTimer : τ) (hs : Tracked allocated s pending free) :
    ∃ s' pending' free', removeStep pTimer s = some s' ∧ Tracked allocated s' pending' free' := by
  obtain ⟨queue, free', heq, hholds, htimers⟩ := hs.holds.remove pTimer
  have hentry : entry (removeTo pTimer s queue) = entry s := entry_eq htimers rfl
  have hremoved : (removeTo pTimer s queue).removed =
      s.removed ++ (pending.find? (isOf s.queue pTimer)).toList.map (entry s) := by
    rw [removeTo, hs.holds.nodes_eq, hholds.nodes_eq,
      filter_notMem_eraseP hs.holds.pendingChain.nodup]
    refine congrArg (s.removed ++ ·) (List.map_congr_left fun x hx => ?_)
    have hof := List.find?_some (Option.mem_toList.mp hx)
    rw [entry, of_decide_eq_true hof]
  refine ⟨removeTo pTimer s queue, _, free', ?_, hholds, ?_, ?_, ?_⟩
  · rw [removeStep, heq]
    rfl
  · intro x hx
    have hx := hs.timers x (List.mem_of_mem_eraseP hx)
    rwa [← htimers] at hx
  · rw [hentry, hremoved]
    refine List.Perm.trans ?_ hs.accounted
    show (s.handled ++ hand s ++ _ ++ _).Perm _
    rw [← List.append_assoc, List.append_assoc, ← List.map_append]
    exact ((find_append_eraseP _ pending).map _).append_left _
  · rw [hentry]
    refine hs.sorted.sublist (List.Sublist.map _ ?_)
    exact (List.Sublist.refl _).append ((List.eraseP_sublist).map _)

section

variable (hs : Tracked allocated s pending free)
include hs

theorem dequeue_tracked (hphase : s.phase = .lock)
    (hfresh : s.queue.pQHead = none → s.pTimer = none) :
    ∃ pending' free', Tracked allocated (dequeueStep s) pending' free' := by
  have hhand : hand s = [] := if_neg fun h => Phase.noConfusion (hphase.symm.trans h.1)
  have haccounted := hs.accounted
  have hsorted := hs.sorted
  rw [hhand, List.append_nil] at haccounted hsorted
  cases pending with
  | nil =>
    have hhead : s.queue.pQHead = none := hs.holds.pendingChain
    have hqueue : (dequeueStep s).queue = s.queue := by
      rw [dequeueStep, dequeue_empty _ hs.holds]
    have hnone : hand (dequeueStep s) = [] := by
      rw [hand, dequeueStep, dequeue_empty _ hs.holds, hfresh hhead]
      rfl
    refine ⟨[], free, ?_, nofun, ?_, ?_⟩
    · rw [hqueue]
      exact hs.holds
    · rw [hnone, List.append_nil]
      exact haccounted
    · rw [hnone, List.append_nil]
      exact hsorted
  | cons x pending =>
    obtain ⟨queue, heq, hholds, htimers⟩ := hs.holds.dequeue s.pTimer
    have hhead : s.queue.pQHead = some x := hs.holds.pendingChain.1
    have hqueue : (dequeueStep s).queue = queue := by rw [dequeueStep, heq]
    have hentry : entry (dequeueStep s) = entry s := by
      refine entry_eq ?_ rfl
      rw [hqueue, htimers]
    have hin : hand (dequeueStep s) = [entry s x] := by
      rw [hand, dequeueStep, heq, if_pos ⟨rfl, hs.timers x List.mem_cons_self⟩, hhead]
      rfl
    refine ⟨pending, x :: free, ?_, ?_, ?_, ?_⟩
    · rw [hqueue]
      exact hholds
    · intro y hy
      rw [hqueue, htimers]
      exact hs.timers y (List.mem_cons_of_mem x hy)
    · rw [hin, hentry]
      refine List.Perm.trans ?_ haccounted
      show (s.handled ++ [entry s x] ++ s.removed ++ _).Perm _
      rw [List.append_assoc, List.append_assoc, List.append_assoc, List.singleton_append]
      exact List.perm_middle.symm.append_left _
    · rw [hin, hentry, List.append_assoc]
      exact hsorted

theorem turn_tracked : Tracked allocated (turnStep s) pending free := by
  have hhand : hand (turnStep s) = [] := if_neg fun h => Phase.noConfusion h.1
  refine ⟨hs.holds, hs.timers, ?_, ?_⟩
  · rw [hhand, List.append_nil]
    exact hs.accounted
  · rw [hhand, List.append_nil]
    exact hs.sorted

theorem Tracked.moved {phase : Phase} {pTimer : Option τ} (hfrom : s.phase ≠ .turn)
    (hto : phase ≠ .turn) : Tracked allocated { s with phase, pTimer } pending free := by
  have hbefore : hand s = [] := if_neg fun h => hfrom h.1
  have hafter : hand { s with phase, pTimer } = [] := if_neg fun h => hto h.1
  refine ⟨hs.holds, hs.timers, ?_, ?_⟩
  · rw [hafter, ← hbefore]
    exact hs.accounted
  · rw [hafter, ← hbefore]
    exact hs.sorted

end

theorem step_tracked [DecidableEq τ] (s : State τ) (e : Event τ)
    (hs : ∃ pending free, Tracked allocated s pending free) (he : Fresh s e) :
    ∃ s', step s e = some s' ∧ ∃ pending free, Tracked allocated s' pending free := by
  obtain ⟨pending, free, hs⟩ := hs
  cases e with
  | insert pTimer => exact ⟨_, rfl, insert_tracked pTimer hs⟩
  | remove pTimer =>
    obtain ⟨s', pending', free', heq, hs'⟩ := remove_tracked pTimer hs
    exact ⟨s', heq, pending', free', hs'⟩
  | wake =>
    refine ⟨_, rfl, pending, free, ?_⟩
    split
    · next hphase => exact hs.moved (Phase.noConfusion <| hphase.symm.trans ·) nofun
    · exact hs
  | look =>
    refine ⟨_, rfl, pending, free, ?_⟩
    split
    · next hphase =>
      refine hs.moved (Phase.noConfusion <| hphase.symm.trans ·) ?_
      split <;> nofun
    · exact hs
  | dequeue =>
    refine ⟨_, rfl, ?_⟩
    split
    · next hphase => exact dequeue_tracked hs hphase (he hphase)
    · exact ⟨pending, free, hs⟩
  | turn =>
    refine ⟨_, rfl, pending, free, ?_⟩
    split
    · exact turn_tracked hs
    · exact hs

theorem start_tracked (τ : Type) (allocated : Bool) :
    ∃ pending free, Tracked allocated (start τ allocated) pending free := by
  obtain ⟨free, hholds⟩ := init_holds τ allocated
  exact ⟨[], free, hholds, nofun, .nil, .nil⟩

/-- The two lists share out the pool, and the pending one ends at `pQTail`. -/
structure Shared (allocated : Bool) (TimerQ : RTMP_TIMER_TASK_QUEUE τ) : Prop where
  pending : Chain TimerQ.pNext TimerQ.pQHead (nodes TimerQ)
  tail : TimerQ.pQTail = (nodes TimerQ).getLast?
  ends : TimerQ.pQHead = none ↔ TimerQ.pQTail = none
  free : Chain TimerQ.pNext TimerQ.pQPollFreeList (freeNodes TimerQ)
  nodup : (nodes TimerQ ++ freeNodes TimerQ).Nodup
  perm : (nodes TimerQ ++ freeNodes TimerQ).Perm (pool allocated)

theorem Holds.shared {TimerQ : RTMP_TIMER_TASK_QUEUE τ} (h : Holds allocated TimerQ pending free) :
    Shared allocated TimerQ := by
  have hfree : freeNodes TimerQ = free :=
    h.freeChain.walk_eq ((Nat.le_add_left _ _).trans h.total_le)
  constructor
  · rw [h.nodes_eq]
    exact h.pendingChain
  · rw [h.nodes_eq]
    exact h.tail
  · exact h.head_none_iff
  · rw [hfree]
    exact h.freeChain
  · rw [h.nodes_eq, hfree]
    exact h.nodup
  · rw [h.nodes_eq, hfree]
    exact h.perm

/-- Every insertion is handled, in hand, removed or pending, once, with its own timer; those
that are handled come in the order of the insertions; and a removal takes the first node of
its timer and no other. -/
theorem run_served (τ : Type) [DecidableEq τ] (allocated : Bool) (es : List (Event τ))
    (hfresh : Run.AllTries step Fresh (start τ allocated) es) :
    ∃ s, Run.tryExec step (start τ allocated) es = some s ∧ Shared allocated s.queue ∧
      (s.handled ++ hand s ++ s.removed ++ (nodes s.queue).map (entry s)).Perm
        s.inserted.zipIdx ∧
      ((s.handled ++ hand s ++ (nodes s.queue).map (entry s)).map Prod.snd).Pairwise (· < ·) ∧
      ∀ pTimer, ∃ TimerQ', RtmpTimerQRemove pTimer s.queue = some TimerQ' ∧
        nodes TimerQ' = (nodes s.queue).eraseP (isOf s.queue pTimer) := by
  obtain ⟨s, hrun, pending, free, hs⟩ :=
    Run.tryExec_inv step_tracked (start_tracked τ allocated) hfresh
  refine ⟨s, hrun, hs.holds.shared, ?_, ?_, fun pTimer => ?_⟩
  · rw [hs.holds.nodes_eq]
    exact hs.accounted
  · rw [hs.holds.nodes_eq]
    exact hs.sorted
  · obtain ⟨TimerQ', free', heq, hholds, -⟩ := hs.holds.remove pTimer
    refine ⟨TimerQ', heq, ?_⟩
    rw [hholds.nodes_eq, hs.holds.nodes_eq]

theorem run_served_two :
    ∃ s, Run.tryExec step (start Bool true)
        [.insert false, .insert true, .wake, .look, .dequeue, .remove true, .turn] = some s ∧
      Shared true s.queue := by
  obtain ⟨s, hrun, hshared, -⟩ := run_served Bool true
    [.insert false, .insert true, .wake, .look, .dequeue, .remove true, .turn] (by decide +kernel)
  exact ⟨s, hrun, hshared⟩

/-- A timer is handled, the next one is removed between the test of `pQHead` and the lock, and
the first one, still in hand, is handled again. -/
theorem handled_twice :
    ¬ ∀ (τ : Type) [DecidableEq τ] (allocated : Bool) (es : List (Event τ)),
      ∃ s, Run.tryExec step (start τ allocated) es = some s ∧
        (s.handled ++ hand s ++ s.removed ++ (nodes s.queue).map (entry s)).Perm
          s.inserted.zipIdx := by
  intro h
  obtain ⟨s, hrun, hperm⟩ := h Bool true
    [.insert false, .insert true, .wake, .look, .dequeue, .turn, .look, .remove true, .dequeue,
      .turn]
  have hlogs : (Run.tryExec step (start Bool true)
      [.insert false, .insert true, .wake, .look, .dequeue, .turn, .look, .remove true, .dequeue,
        .turn]).map (fun s => (s.handled, s.inserted)) =
      some ([(some false, 0), (some false, 0)], [some false, some true]) := by decide +kernel
  rw [hrun] at hlogs
  obtain ⟨hhandled, hinserted⟩ := Prod.mk.inj (Option.some.inj hlogs)
  have hnodup : s.inserted.zipIdx.Nodup := by
    rw [hinserted]
    decide
  have htwice := (hperm.nodup_iff.mpr hnodup)
  rw [hhandled] at htwice
  simp at htwice

end Ralink.Timer
