import Ralink.Mlme.Handled

/-! Every section that holds the lock is a step: a sender tests whether the queue is full in one and
fills its slot in another, and the handler tests whether it is empty before it takes an element. -/
namespace Ralink.Mlme.Concurrent

inductive Handler where
  | idle
  /-- The queue was not empty. -/
  | ready
  | handling (elem : Nat)

/-- `passed` holds the senders that found the queue not full. The slots whose messages were
accepted and not dequeued, and those of them that were written again, are kept along. -/
structure State (ι : Type) where
  queue : MLME_QUEUE
  passed : ι → Option Sender
  handler : Handler
  live : List Nat
  overwritten : List Nat

inductive Event (ι : Type) where
  | test (caller : ι) (r : Request)
  | insert (caller : ι)
  | testEmpty
  | dequeue
  | free

def start (ι : Type) (b : Build) (Queue : MLME_QUEUE) : State ι where
  queue := MlmeQueueInit b Queue
  passed _ := none
  handler := .idle
  live := []
  overwritten := []

variable {ι : Type} {b : Build}

section

variable [DecidableEq ι]

def testStep (b : Build) (caller : ι) (r : Request) (s : State ι) : State ι :=
  match s.passed caller with
  | some _ => s
  | none =>
    if r.sender.admitted b s.queue then
      { s with passed := Function.update s.passed caller (some r.sender) }
    else s

def insertStep (b : Build) (caller : ι) (s : State ι) : State ι :=
  match s.passed caller with
  | none => s
  | some sender =>
    let s := { s with passed := Function.update s.passed caller none }
    match sender.deliver b s.queue with
    | (false, queue) => { s with queue }
    | (true, queue) =>
      let Tail := s.queue.Tail
      { s with
        queue
        live := s.live ++ [Tail]
        overwritten := if Tail ∈ s.live then Tail :: s.overwritten else s.overwritten }

def dequeueStep (b : Build) (s : State ι) : State ι :=
  match s.handler with
  | .ready =>
    let (elem, queue) := MlmeDequeue b s.queue
    { s with queue, handler := .handling elem, live := s.live.erase elem }
  | _ => s

def step (b : Build) (s : State ι) : Event ι → State ι
  | .test caller r => testStep b caller r s
  | .insert caller => insertStep b caller s
  | .testEmpty =>
    match s.handler with
    | .idle => if MlmeQueueEmpty s.queue then s else { s with handler := .ready }
    | _ => s
  | .dequeue => dequeueStep b s
  | .free =>
    match s.handler with
    | .handling elem => { s with queue := freeElem elem s.queue, handler := .idle }
    | _ => s

end

structure Sound (b : Build) (s : State ι) : Prop where
  num : s.queue.Num ≤ MAX_LEN_OF_MLME_QUEUE b
  tail : s.queue.Tail = (s.queue.Head + s.queue.Num) % MAX_LEN_OF_MLME_QUEUE b
  overwritten : s.overwritten = []

/-- A sender that fills its slot finds one free, the queue has not become full since its
test. -/
def Roomy (b : Build) (s : State ι) : Event ι → Prop
  | .insert caller =>
    ∀ sender ∈ s.passed caller, sender.fill.isSome = true →
      s.queue.Num ≠ MAX_LEN_OF_MLME_QUEUE b
  | _ => True

structure Beside (b : Build) (s : State ι) : Prop where
  head : s.queue.Head < MAX_LEN_OF_MLME_QUEUE b
  ready : s.handler = .ready → s.queue.Num ≠ 0
  live : s.queue.Num ≤ MAX_LEN_OF_MLME_QUEUE b →
    s.live = Ring.contents (MAX_LEN_OF_MLME_QUEUE b) id s.queue.Head s.queue.Num

variable {s : State ι}

theorem Sound.inOrder (hs : Sound b s) (ha : Beside b s) : InOrder b s.queue :=
  ⟨hs.num, ha.head, hs.tail⟩

theorem start_sound (b : Build) (Queue : MLME_QUEUE) : Sound b (start ι b Queue) :=
  ⟨Nat.zero_le _, (Nat.zero_mod _).symm, rfl⟩

theorem start_beside (b : Build) (Queue : MLME_QUEUE) : Beside b (start ι b Queue) :=
  ⟨MAX_LEN_pos b, nofun, fun _ => rfl⟩

theorem test_eq [DecidableEq ι] (b : Build) (caller : ι) (r : Request) (s : State ι) :
    ∃ passed, testStep b caller r s = { s with passed } := by
  unfold testStep
  split
  · exact ⟨_, rfl⟩
  · split
    · exact ⟨_, rfl⟩
    · exact ⟨_, rfl⟩

theorem tail_not_live (hs : Sound b s) (ha : Beside b s)
    (hnum : s.queue.Num < MAX_LEN_OF_MLME_QUEUE b) : s.queue.Tail ∉ s.live := by
  rw [ha.live hnum.le, Ring.contents]
  intro hmem
  obtain ⟨i, hi, heq⟩ := List.mem_map.mp hmem
  have hi := List.mem_range.mp hi
  rw [hs.tail] at heq
  exact hi.ne (Ring.slot_injective (hi.trans hnum) hnum heq)

section

variable [DecidableEq ι] {caller : ι} {sender : Sender}

theorem insert_none (h : s.passed caller = none) : insertStep b caller s = s := by
  simp only [insertStep, h]

theorem insert_gaveUp (h : s.passed caller = some sender) (hfill : sender.fill = none) :
    insertStep b caller s = { s with passed := Function.update s.passed caller none } := by
  simp only [insertStep, h, Sender.deliver, hfill]

theorem insert_fill {fill : MLME_QUEUE_ELEM → MLME_QUEUE_ELEM}
    (h : s.passed caller = some sender) (hfill : sender.fill = some fill) :
    insertStep b caller s =
      { s with
        queue := Mlme.insert b fill s.queue
        passed := Function.update s.passed caller none
        live := s.live ++ [s.queue.Tail]
        overwritten :=
          if s.queue.Tail ∈ s.live then s.queue.Tail :: s.overwritten else s.overwritten } := by
  simp only [insertStep, h, Sender.deliver, hfill]

theorem insert_beside (caller : ι) (ha : Beside b s) (hs : Sound b s) :
    Beside b (insertStep b caller s) := by
  cases hpassed : s.passed caller with
  | none =>
    rw [insert_none hpassed]
    exact ha
  | some sender =>
    cases hfill : sender.fill with
    | none =>
      rw [insert_gaveUp hpassed hfill]
      exact ⟨ha.head, ha.ready, ha.live⟩
    | some fill =>
      rw [insert_fill hpassed hfill]
      refine ⟨ha.head, fun _ => Nat.succ_ne_zero _, fun _ => ?_⟩
      simp only [Mlme.insert]
      rw [ha.live hs.num, Ring.contents_succ, hs.tail]
      rfl

theorem insert_sound (caller : ι) (ha : Beside b s) (hs : Sound b s) :
    Sound b (insertStep b caller s) ↔ Roomy b s (.insert caller) := by
  simp only [Roomy]
  cases hpassed : s.passed caller with
  | none =>
    rw [insert_none hpassed]
    exact iff_of_true hs nofun
  | some sender =>
    cases hfill : sender.fill with
    | none =>
      rw [insert_gaveUp hpassed hfill]
      refine iff_of_true ⟨hs.num, hs.tail, hs.overwritten⟩ fun _ hmem hsome => ?_
      rw [← Option.some.inj hmem, hfill] at hsome
      exact Bool.noConfusion hsome
    | some fill =>
      rw [insert_fill hpassed hfill]
      constructor
      · intro hsound _ _ _ hmax
        have hnum : s.queue.Num + 1 ≤ MAX_LEN_OF_MLME_QUEUE b := hsound.num
        omega
      · intro hroom
        have hnum := lt_of_le_of_ne hs.num (hroom sender rfl (by rw [hfill]; rfl))
        have horder := insert_inOrder fill (hs.inOrder ha) hnum
        refine ⟨horder.num, horder.tail, ?_⟩
        simp only [if_neg (tail_not_live hs ha hnum)]
        exact hs.overwritten

end

theorem dequeue_beside (ha : Beside b s) (hs : Sound b s) :
    Beside b (dequeueStep b s) ∧ Sound b (dequeueStep b s) := by
  unfold dequeueStep
  split
  · next hready =>
    have hnum := ha.ready hready
    have horder := dequeue_inOrder (hs.inOrder ha) hnum
    refine ⟨⟨horder.head, nofun, fun _ => ?_⟩, ⟨horder.num, horder.tail, hs.overwritten⟩⟩
    obtain ⟨n, hn⟩ := Nat.exists_eq_succ_of_ne_zero hnum
    simp only [MlmeDequeue]
    rw [ha.live hs.num, hn, Ring.contents_cons _ ha.head, id_eq, List.erase_cons_head]
    rfl
  · exact ⟨ha, hs⟩

theorem step_beside [DecidableEq ι] (s : State ι) (e : Event ι) (ha : Beside b s) (hs : Sound b s) :
    Beside b (step b s e) := by
  cases e with
  | test caller r =>
    obtain ⟨passed, heq⟩ := test_eq b caller r s
    simp only [step, heq]
    exact ⟨ha.head, ha.ready, ha.live⟩
  | insert caller => exact insert_beside caller ha hs
  | testEmpty =>
    simp only [step]
    split
    · split
      · exact ha
      · next hempty =>
        exact ⟨ha.head, fun _ hzero => hempty (beq_iff_eq.mpr hzero), ha.live⟩
    · exact ha
  | dequeue => exact (dequeue_beside ha hs).1
  | free =>
    simp only [step]
    split
    · exact ⟨ha.head, nofun, ha.live⟩
    · exact ha

theorem step_sound [DecidableEq ι] (s : State ι) (e : Event ι) (ha : Beside b s) (hs : Sound b s) :
    Sound b (step b s e) ↔ Roomy b s e := by
  cases e with
  | test caller r =>
    obtain ⟨passed, heq⟩ := test_eq b caller r s
    simp only [step, heq]
    exact iff_of_true ⟨hs.num, hs.tail, hs.overwritten⟩ trivial
  | insert caller => exact insert_sound caller ha hs
  | testEmpty =>
    refine iff_of_true ?_ trivial
    simp only [step]
    split
    · split
      · exact hs
      · exact ⟨hs.num, hs.tail, hs.overwritten⟩
    · exact hs
  | dequeue => exact iff_of_true (dequeue_beside ha hs).2 trivial
  | free =>
    refine iff_of_true ?_ trivial
    simp only [step]
    split
    · exact ⟨hs.num, hs.tail, hs.overwritten⟩
    · exact hs

/-- The queue stays sound in a run exactly if no sender fills its slot after the queue has
become full since its test. -/
theorem run_sound (ι : Type) [DecidableEq ι] (b : Build) (Queue : MLME_QUEUE)
    (es : List (Event ι)) :
    (∀ n, Sound b (Run.exec (step b) (start ι b Queue) (es.take n))) ↔
      Run.AllSteps (step b) (Roomy b) (start ι b Queue) es := by
  refine (Run.allSteps_iff (G := Sound b) (A := Beside b) (Q := fun _ _ => True)
    (fun s e ha hs _ => step_beside s e ha hs) (fun s e ha hs _ => step_sound s e ha hs)
    (start_beside b Queue) (start_sound b Queue) ?_).symm
  exact Run.AllSteps.of_forall fun _ _ _ => trivial

def whole (caller : Bool) (r : Request) : List (Event Bool) := [.test caller r, .insert caller]

/-- Two senders pass their tests when one slot is left, the second one overwrites the message
at the head. -/
theorem overrun :
    ¬ ∀ (ι : Type) [DecidableEq ι] (b : Build) (Queue : MLME_QUEUE) (es : List (Event ι)),
      Sound b (Run.exec (step b) (start ι b Queue) es) := by
  intro h
  have hsound := h Bool .ap zeroed
    ((List.replicate 19 (whole true (.enqueue running 1 0 1 (some fun _ => 7) 0))).flatten ++
      [.test true (.enqueue running 1 0 1 (some fun _ => 7) 0),
       .test false (.enqueue running 1 0 1 (some fun _ => 7) 0),
       .insert true, .insert false])
  exact absurd hsound.num (by decide +kernel)

end Ralink.Mlme.Concurrent
