import Mathlib.Tactic
import Ralink.Lib.Links

/-! Expired timers are put into a queue, from which the task of the timers takes them. The nodes
come from a pool; those that are free are linked like those that are pending. A node is its number
in the pool. -/
namespace Ralink.Timer
open Function Links

def TIMER_QUEUE_SIZE_MAX : Nat := 128

def RTMP_TASK_STAT_INITED : BitVec 32 := 1
def RTMP_TASK_STAT_RUNNING : BitVec 32 := 2

def RTMP_TASK_CAN_DO_INSERT : BitVec 32 := RTMP_TASK_STAT_INITED ||| RTMP_TASK_STAT_RUNNING

/-- `pTimerQPoll` says whether there is a pool. The nodes are two maps, the timer of a node
that was never used is `NULL`. -/
structure RTMP_TIMER_TASK_QUEUE (τ : Type) where
  status : BitVec 32
  pTimerQPoll : Bool
  pQPollFreeList : Option Nat
  pQHead : Option Nat
  pQTail : Option Nat
  pNext : Nat → Option Nat
  pRaTimer : Nat → Option τ

variable {τ : Type}

/-- The loop that links the nodes of a new pool, from `pQNode` on, in front of `pEntry`. -/
def initLoop (pNext : Nat → Option Nat) (pEntry : Option Nat) (pQNode : Nat) :
    Nat → (Nat → Option Nat) × Option Nat
  | 0 => (pNext, pEntry)
  | turns + 1 => initLoop (update pNext pQNode pEntry) (some pQNode) (pQNode + 1) turns

/-- Whether the pool can be allocated is up to the system. -/
def RtmpTimerQInit (τ : Type) (allocated : Bool) : RTMP_TIMER_TASK_QUEUE τ :=
  let TimerQ : RTMP_TIMER_TASK_QUEUE τ :=
    ⟨0, allocated, none, none, none, fun _ => none, fun _ => none⟩
  if TimerQ.pTimerQPoll then
    let (pNext, pEntry) := initLoop TimerQ.pNext none 0 TIMER_QUEUE_SIZE_MAX
    { TimerQ with
      pNext
      pQPollFreeList := pEntry
      pQHead := none
      pQTail := none
      status := RTMP_TASK_STAT_INITED }
  else TimerQ

def RtmpTimerQInsert (pTimer : τ) (TimerQ : RTMP_TIMER_TASK_QUEUE τ) :
    Option Nat × RTMP_TIMER_TASK_QUEUE τ :=
  if TimerQ.status &&& RTMP_TASK_CAN_DO_INSERT ≠ 0 then
    match TimerQ.pQPollFreeList with
    | none => (none, TimerQ)
    | some pQNode =>
      let TimerQ := { TimerQ with pQPollFreeList := TimerQ.pNext pQNode }
      let TimerQ :=
        { TimerQ with
          pRaTimer := update TimerQ.pRaTimer pQNode (some pTimer)
          pNext := update TimerQ.pNext pQNode none }
      let TimerQ :=
        match TimerQ.pQTail with
        | some pQTail => { TimerQ with pNext := update TimerQ.pNext pQTail (some pQNode) }
        | none => TimerQ
      let TimerQ := { TimerQ with pQTail := some pQNode }
      (some pQNode,
        if TimerQ.pQHead = none then { TimerQ with pQHead := some pQNode } else TimerQ)
  else (none, TimerQ)

def freeNode (pNode : Nat) (TimerQ : RTMP_TIMER_TASK_QUEUE τ) : RTMP_TIMER_TASK_QUEUE τ :=
  { TimerQ with
    pNext := update TimerQ.pNext pNode TimerQ.pQPollFreeList
    pQPollFreeList := some pNode }

section

variable [DecidableEq τ]

/-- The search for a timer: the node that is reached and the one before it. `none` when it does
not end in the given number of turns. -/
def findLoop (pTimer : τ) (TimerQ : RTMP_TIMER_TASK_QUEUE τ) :
    Nat → Option Nat → Option Nat → Option (Option Nat × Option Nat)
  | _, pPrev, none => some (none, pPrev)
  | 0, _, some _ => none
  | turns + 1, pPrev, some pNode =>
    if TimerQ.pRaTimer pNode = some pTimer then some (some pNode, pPrev)
    else findLoop pTimer TimerQ turns (some pNode) (TimerQ.pNext pNode)

def unlinkNode (pNode : Nat) (pPrev : Option Nat) (TimerQ : RTMP_TIMER_TASK_QUEUE τ) :
    RTMP_TIMER_TASK_QUEUE τ :=
  let TimerQ :=
    if some pNode = TimerQ.pQHead then { TimerQ with pQHead := TimerQ.pNext pNode } else TimerQ
  let TimerQ := if some pNode = TimerQ.pQTail then { TimerQ with pQTail := pPrev } else TimerQ
  match pPrev with
  | some pPrev => { TimerQ with pNext := update TimerQ.pNext pPrev (TimerQ.pNext pNode) }
  | none => TimerQ

def RtmpTimerQRemove (pTimer : τ) (TimerQ : RTMP_TIMER_TASK_QUEUE τ) :
    Option (RTMP_TIMER_TASK_QUEUE τ) :=
  if RTMP_TASK_STAT_INITED ≤ TimerQ.status then
    match findLoop pTimer TimerQ TIMER_QUEUE_SIZE_MAX none TimerQ.pQHead with
    | none => none
    | some (none, _) => some TimerQ
    | some (some pNode, pPrev) => some (freeNode pNode (unlinkNode pNode pPrev TimerQ))
  else some TimerQ

end

/-- The section of `RtmpTimerQHandle` that holds the lock. The timer that it had before stays
when the queue has become empty. -/
def dequeue (pTimer : Option τ) (TimerQ : RTMP_TIMER_TASK_QUEUE τ) :
    Option τ × RTMP_TIMER_TASK_QUEUE τ :=
  match TimerQ.pQHead with
  | none => (pTimer, TimerQ)
  | some pEntry =>
    let TimerQ' := { TimerQ with pQHead := TimerQ.pNext pEntry }
    let TimerQ' :=
      if some pEntry = TimerQ'.pQTail then { TimerQ' with pQTail := none } else TimerQ'
    (TimerQ.pRaTimer pEntry, freeNode pEntry TimerQ')

def pool (allocated : Bool) : List Nat :=
  if allocated then List.range TIMER_QUEUE_SIZE_MAX else []

structure Holds (allocated : Bool) (TimerQ : RTMP_TIMER_TASK_QUEUE τ)
    (pending free : List Nat) : Prop where
  pendingChain : Chain TimerQ.pNext TimerQ.pQHead pending
  tail : TimerQ.pQTail = pending.getLast?
  freeChain : Chain TimerQ.pNext TimerQ.pQPollFreeList free
  perm : (pending ++ free).Perm (pool allocated)
  status : TimerQ.status = if allocated then RTMP_TASK_STAT_INITED else 0

variable {allocated : Bool} {TimerQ : RTMP_TIMER_TASK_QUEUE τ}
variable {pending free l₁ l₂ : List Nat} {x : Nat}

theorem pool_nodup (allocated : Bool) : (pool allocated).Nodup := by
  unfold pool
  split
  · exact List.nodup_range
  · exact List.nodup_nil

section

variable (h : Holds allocated TimerQ pending free)
include h

theorem Holds.nodup : (pending ++ free).Nodup :=
  h.perm.nodup_iff.mpr (pool_nodup allocated)

theorem Holds.total_le : pending.length + free.length ≤ TIMER_QUEUE_SIZE_MAX := by
  rw [← List.length_append, h.perm.length_eq, pool]
  split
  · rw [List.length_range]
  · exact Nat.zero_le _

theorem Holds.length_le :
    pending.length ≤ TIMER_QUEUE_SIZE_MAX := (Nat.le_add_right _ _).trans h.total_le

theorem Holds.head_none_iff : TimerQ.pQHead = none ↔ TimerQ.pQTail = none := by
  rw [h.pendingChain.head_eq, h.tail]
  cases pending with
  | nil => exact Iff.rfl
  | cons x l => simp

end

theorem initLoop_chain (turns pQNode : Nat) {pNext : Nat → Option Nat} {pEntry : Option Nat}
    {l : List Nat} (h : Chain pNext pEntry l) (hl : ∀ x ∈ l, x < pQNode) :
    Chain (initLoop pNext pEntry pQNode turns).1 (initLoop pNext pEntry pQNode turns).2
      ((List.range' pQNode turns).reverse ++ l) := by
  induction turns generalizing pNext pEntry pQNode l with
  | zero => exact h
  | succ turns ih =>
    have hnotin : pQNode ∉ l := fun hmem => (hl _ hmem).false
    have hchain : Chain (update pNext pQNode pEntry) (some pQNode) (pQNode :: l) := by
      refine ⟨rfl, ?_⟩
      rw [update_self]
      exact Chain.write_other h hnotin
    have hlt : ∀ x ∈ pQNode :: l, x < pQNode + 1 := by
      intro x hx
      rcases List.mem_cons.mp hx with rfl | hx
      · exact Nat.lt_succ_self _
      · exact (hl x hx).trans (Nat.lt_succ_self _)
    rw [List.range'_succ, List.reverse_cons, List.append_assoc]
    exact ih (pQNode + 1) hchain hlt

theorem init_holds (τ : Type) (allocated : Bool) :
    ∃ free, Holds allocated (RtmpTimerQInit τ allocated) [] free := by
  cases allocated with
  | false => exact ⟨[], rfl, rfl, rfl, .nil, rfl⟩
  | true =>
    refine ⟨(List.range TIMER_QUEUE_SIZE_MAX).reverse, rfl, rfl, ?_, ?_, rfl⟩
    · have hnil : Chain (fun _ : Nat => (none : Option Nat)) none [] := rfl
      have h := initLoop_chain TIMER_QUEUE_SIZE_MAX 0 hnil nofun
      rw [List.append_nil, ← List.range_eq_range'] at h
      exact h
    · exact List.reverse_perm _

theorem freeNode_holds (hpending : Chain TimerQ.pNext TimerQ.pQHead pending)
    (htail : TimerQ.pQTail = pending.getLast?)
    (hfree : Chain TimerQ.pNext TimerQ.pQPollFreeList free)
    (hperm : (pending ++ x :: free).Perm (pool allocated))
    (hstatus : TimerQ.status = if allocated then RTMP_TASK_STAT_INITED else 0) :
    Holds allocated (freeNode x TimerQ) pending (x :: free) := by
  have hnodup := hperm.nodup_iff.mpr (pool_nodup allocated)
  obtain ⟨-, hx, hapart⟩ := List.nodup_append.mp hnodup
  refine ⟨hpending.write_other ?_, htail, ⟨rfl, ?_⟩, hperm, hstatus⟩
  · exact fun hmem => hapart x hmem x List.mem_cons_self rfl
  · simp only [freeNode, update_self]
    exact hfree.write_other (List.nodup_cons.mp hx).1

theorem Holds.canInsert (h : Holds allocated TimerQ pending (x :: free)) :
    TimerQ.status &&& RTMP_TASK_CAN_DO_INSERT ≠ 0 := by
  have hpool : allocated = true := by
    by_contra hpool
    have hmem := h.perm.mem_iff.mp (List.mem_append_right pending List.mem_cons_self)
    rw [pool, if_neg hpool] at hmem
    exact List.not_mem_nil hmem
  rw [h.status, if_pos hpool]
  decide

theorem insert_full (pTimer : τ) (h : Holds allocated TimerQ pending []) :
    RtmpTimerQInsert pTimer TimerQ = (none, TimerQ) := by
  have hfree : TimerQ.pQPollFreeList = none := h.freeChain
  unfold RtmpTimerQInsert
  split
  · simp only [hfree]
  · rfl

theorem Holds.insert (pTimer : τ) (h : Holds allocated TimerQ pending (x :: free)) :
    ∃ TimerQ', RtmpTimerQInsert pTimer TimerQ = (some x, TimerQ') ∧
      Holds allocated TimerQ' (pending ++ [x]) free ∧
      TimerQ'.pRaTimer = update TimerQ.pRaTimer x (some pTimer) := by
  obtain ⟨hhead, hrest⟩ := chain_cons.mp h.freeChain
  obtain ⟨-, hxfree, hapart⟩ := List.nodup_append.mp h.nodup
  have hx : x ∉ pending := fun hmem => hapart x hmem x List.mem_cons_self rfl
  have hperm : (pending ++ [x] ++ free).Perm (pool allocated) := by
    rw [List.append_assoc]
    exact h.perm
  have hfree := hrest.write_other (r := none) (List.nodup_cons.mp hxfree).1
  simp only [RtmpTimerQInsert, if_pos h.canInsert, hhead]
  rcases List.eq_nil_or_concat pending with rfl | ⟨init, last, rfl⟩
  · have hQHead : TimerQ.pQHead = none := h.pendingChain
    have htail : TimerQ.pQTail = none := h.tail
    simp only [htail, hQHead, if_true]
    refine ⟨_, rfl, ⟨⟨rfl, ?_⟩, rfl, hfree, hperm, h.status⟩, rfl⟩
    exact update_self x none TimerQ.pNext
  · rw [List.concat_eq_append] at h hx hapart hperm ⊢
    have htail : TimerQ.pQTail = some last := by rw [h.tail, List.getLast?_concat]
    have hQHead : TimerQ.pQHead ≠ none := by
      rw [Ne, h.head_none_iff, htail]
      exact Option.some_ne_none last
    simp only [htail, if_neg hQHead]
    refine ⟨_, rfl, ⟨?_, List.getLast?_concat.symm, ?_, hperm, h.status⟩, rfl⟩
    · exact (h.pendingChain.write_other (r := none) hx).snoc hx (update_self x none TimerQ.pNext)
    · refine hfree.write_other fun hmem => ?_
      exact hapart last (List.mem_append_right _ (List.mem_singleton.mpr rfl)) last
        (List.mem_cons_of_mem x hmem) rfl

theorem Holds.tail_without (h : Holds allocated TimerQ (l₁ ++ x :: l₂) free) :
    (if some x = TimerQ.pQTail then l₁.getLast? else TimerQ.pQTail) = (l₁ ++ l₂).getLast? := by
  rw [h.tail]
  rcases List.eq_nil_or_concat l₂ with rfl | ⟨init, last, rfl⟩
  · rw [List.getLast?_concat, if_pos rfl, List.append_nil]
  · have hne : x ≠ last := by
      have hnodup := h.pendingChain.nodup
      rw [List.concat_eq_append, List.nodup_append] at hnodup
      rintro rfl
      exact (List.nodup_cons.mp hnodup.2.1).1 (List.mem_append_right _ (List.mem_singleton.mpr rfl))
    have hlast : (l₁ ++ x :: init.concat last).getLast? = some last := by
      rw [List.concat_eq_append, ← List.cons_append, ← List.append_assoc, List.getLast?_concat]
    rw [hlast, if_neg fun heq => hne (Option.some.inj heq), List.concat_eq_append,
      ← List.append_assoc, List.getLast?_concat]

theorem dequeue_empty (pTimer : Option τ) (h : Holds allocated TimerQ [] free) :
    dequeue pTimer TimerQ = (pTimer, TimerQ) := by
  have hhead : TimerQ.pQHead = none := h.pendingChain
  simp only [dequeue, hhead]

theorem Holds.dequeue (pTimer : Option τ) (h : Holds allocated TimerQ (x :: pending) free) :
    ∃ TimerQ', Timer.dequeue pTimer TimerQ = (TimerQ.pRaTimer x, TimerQ') ∧
      Holds allocated TimerQ' pending (x :: free) ∧ TimerQ'.pRaTimer = TimerQ.pRaTimer := by
  obtain ⟨hhead, hrest⟩ := chain_cons.mp h.pendingChain
  have hperm : (pending ++ x :: free).Perm (pool allocated) :=
    List.perm_middle.trans h.perm
  have h' : Holds allocated TimerQ ([] ++ x :: pending) free := h
  have htail := h'.tail_without
  refine ⟨(Timer.dequeue pTimer TimerQ).2, ?_, ?_, ?_⟩ <;> simp only [Timer.dequeue, hhead]
  · split
    · next heq =>
      rw [if_pos heq] at htail
      exact freeNode_holds hrest htail h.freeChain hperm h.status
    · next hne =>
      rw [if_neg hne] at htail
      exact freeNode_holds hrest htail h.freeChain hperm h.status
  · split <;> rfl

theorem unlinkNode_pRaTimer (pNode : Nat) (pPrev : Option Nat)
    (TimerQ : RTMP_TIMER_TASK_QUEUE τ) :
    (unlinkNode pNode pPrev TimerQ).pRaTimer = TimerQ.pRaTimer := by
  cases pPrev <;> simp only [unlinkNode] <;> split <;> split <;> rfl

theorem Holds.unlink (h : Holds allocated TimerQ (l₁ ++ x :: l₂) free) :
    Holds allocated (freeNode x (unlinkNode x l₁.getLast? TimerQ)) (l₁ ++ l₂) (x :: free) := by
  have hperm : (l₁ ++ l₂ ++ x :: free).Perm (pool allocated) := by
    refine List.Perm.trans ?_ h.perm
    rw [List.append_assoc, List.append_assoc]
    exact List.Perm.append_left l₁ List.perm_middle
  have htail := h.tail_without
  rcases List.eq_nil_or_concat l₁ with rfl | ⟨init, prev, rfl⟩
  · obtain ⟨hhead, hrest⟩ := chain_cons.mp h.pendingChain
    simp only [unlinkNode, hhead, if_true, List.getLast?_nil] at htail ⊢
    split
    · next heq =>
      rw [if_pos heq] at htail
      exact freeNode_holds hrest htail h.freeChain hperm h.status
    · next hne =>
      rw [if_neg hne] at htail
      exact freeNode_holds hrest htail h.freeChain hperm h.status
  · rw [List.concat_eq_append] at h htail hperm ⊢
    rw [List.getLast?_concat] at htail ⊢
    have hnodup := h.nodup
    have hx : x ∉ init ++ [prev] := fun hmem =>
      (List.nodup_append.mp h.pendingChain.nodup).2.2 x hmem x List.mem_cons_self rfl
    have hhead : some x ≠ TimerQ.pQHead := by
      intro heq
      rw [h.pendingChain.head_eq, List.head?_append_of_ne_nil _ (by simp)] at heq
      exact hx (List.mem_of_head? heq.symm)
    have hlast : prev ∈ init ++ [prev] ++ x :: l₂ :=
      List.mem_append_left _ (List.mem_append_right _ (List.mem_singleton.mpr rfl))
    have hprev : prev ∉ free := fun hmem =>
      (List.nodup_append.mp hnodup).2.2 prev hlast prev hmem rfl
    have hpending := h.pendingChain.unlink
    have hfree := h.freeChain.write_other (r := TimerQ.pNext x) hprev
    simp only [unlinkNode, if_neg hhead]
    split
    · next heq =>
      rw [if_pos heq] at htail
      exact freeNode_holds hpending htail hfree hperm h.status
    · next hne =>
      rw [if_neg hne] at htail
      exact freeNode_holds hpending htail hfree hperm h.status

section Remove

variable [DecidableEq τ] {pTimer : τ} {turns : Nat} {p : Option Nat}

def isOf (TimerQ : RTMP_TIMER_TASK_QUEUE τ) (pTimer : τ) (pNode : Nat) : Bool :=
  TimerQ.pRaTimer pNode = some pTimer

theorem findLoop_none (pPrev : Option Nat) (h : Chain TimerQ.pNext p l₁)
    (hl : ∀ y ∈ l₁, ¬ isOf TimerQ pTimer y = true) (hturns : l₁.length ≤ turns) :
    ∃ pPrev', findLoop pTimer TimerQ turns pPrev p = some (none, pPrev') := by
  induction l₁ generalizing turns pPrev p with
  | nil =>
    obtain rfl := chain_nil.mp h
    cases turns <;> exact ⟨pPrev, rfl⟩
  | cons y l ih =>
    obtain ⟨rfl, hrest⟩ := chain_cons.mp h
    cases turns with
    | zero => exact absurd hturns (Nat.not_succ_le_zero _)
    | succ turns =>
      have hy : ¬ TimerQ.pRaTimer y = some pTimer := fun heq =>
        hl y List.mem_cons_self (decide_eq_true heq)
      rw [findLoop, if_neg hy]
      exact ih (some y) hrest (fun z hz => hl z (List.mem_cons_of_mem y hz))
        (Nat.le_of_succ_le_succ hturns)

theorem findLoop_some {pPrev : Option Nat} (h : Seg TimerQ.pNext p l₁ (some x))
    (hl : ∀ y ∈ l₁, ¬ isOf TimerQ pTimer y = true) (hx : isOf TimerQ pTimer x = true)
    (hturns : l₁.length < turns) :
    findLoop pTimer TimerQ turns pPrev p = some (some x, l₁.getLast?.or pPrev) := by
  induction l₁ generalizing turns pPrev p with
  | nil =>
    obtain rfl := seg_nil.mp h
    cases turns with
    | zero => exact absurd hturns (Nat.not_lt_zero _)
    | succ turns => exact if_pos (of_decide_eq_true hx)
  | cons y l ih =>
    obtain ⟨rfl, hrest⟩ := seg_cons.mp h
    cases turns with
    | zero => exact absurd hturns (Nat.not_lt_zero _)
    | succ turns =>
      have hy : ¬ TimerQ.pRaTimer y = some pTimer := fun heq =>
        hl y List.mem_cons_self (decide_eq_true heq)
      rw [findLoop, if_neg hy, ih hrest (fun z hz => hl z (List.mem_cons_of_mem y hz))
        (Nat.lt_of_succ_lt_succ hturns)]
      cases l with
      | nil => rfl
      | cons z l =>
        rw [List.getLast?_cons_cons, List.getLast?_eq_some_getLast (List.cons_ne_nil z l)]
        rfl

theorem Holds.remove (pTimer : τ) (h : Holds allocated TimerQ pending free) :
    ∃ TimerQ' free', RtmpTimerQRemove pTimer TimerQ = some TimerQ' ∧
      Holds allocated TimerQ' (pending.eraseP (isOf TimerQ pTimer)) free' ∧
      TimerQ'.pRaTimer = TimerQ.pRaTimer := by
  unfold RtmpTimerQRemove
  by_cases hstatus : RTMP_TASK_STAT_INITED ≤ TimerQ.status
  · rw [if_pos hstatus]
    by_cases hfound : ∃ y ∈ pending, isOf TimerQ pTimer y = true
    · obtain ⟨y, hy, hof⟩ := hfound
      obtain ⟨x, l₁, l₂, hl₁, hx, rfl, heq⟩ := List.exists_of_eraseP hy hof
      obtain ⟨r, hseg, hr⟩ := chain_append.mp h.pendingChain
      obtain ⟨rfl, -⟩ := chain_cons.mp hr
      have hlength := h.length_le
      rw [List.length_append, List.length_cons] at hlength
      rw [findLoop_some hseg hl₁ hx (by omega), heq, Option.or_none]
      exact ⟨_, _, rfl, h.unlink, unlinkNode_pRaTimer _ _ _⟩
    · have hnone : ∀ y ∈ pending, ¬ isOf TimerQ pTimer y = true := fun y hy hof =>
        hfound ⟨y, hy, hof⟩
      obtain ⟨pPrev, hloop⟩ := findLoop_none none h.pendingChain hnone h.length_le
      rw [hloop, List.eraseP_of_forall_not hnone]
      exact ⟨_, _, rfl, h, rfl⟩
  · -- without a pool nothing is pending
    have hpool : pool allocated = [] := by
      rw [pool, if_neg]
      intro hpool
      rw [h.status, if_pos hpool] at hstatus
      exact hstatus (BitVec.le_refl _)
    have hnil := h.perm
    rw [hpool, List.perm_nil, List.append_eq_nil_iff] at hnil
    obtain ⟨rfl, rfl⟩ := hnil
    rw [if_neg hstatus]
    exact ⟨_, _, rfl, h, rfl⟩

end Remove

end Ralink.Timer
