import Ralink.Lib.Run
import Ralink.Mlme.Queue

/-! Every call of a sender is one step here, and the handler takes an element in one step and frees
it in another. -/
namespace Ralink.Mlme

variable {b : Build} {Queue : MLME_QUEUE} {Elem : Nat} {SendId : BitVec 8}
  (fill : MLME_QUEUE_ELEM → MLME_QUEUE_ELEM) {s : State}

theorem MAX_LEN_pos (b : Build) : 0 < MAX_LEN_OF_MLME_QUEUE b := by cases b <;> decide

structure InOrder (b : Build) (Queue : MLME_QUEUE) : Prop where
  num : Queue.Num ≤ MAX_LEN_OF_MLME_QUEUE b
  head : Queue.Head < MAX_LEN_OF_MLME_QUEUE b
  tail : Queue.Tail = (Queue.Head + Queue.Num) % MAX_LEN_OF_MLME_QUEUE b

/-- The elements that wait, the next one first. -/
def waiting (b : Build) (Queue : MLME_QUEUE) : List MLME_QUEUE_ELEM :=
  Ring.contents (MAX_LEN_OF_MLME_QUEUE b) Queue.Entry Queue.Head Queue.Num

theorem init_inOrder (b : Build) (Queue : MLME_QUEUE) : InOrder b (MlmeQueueInit b Queue) :=
  ⟨Nat.zero_le _, MAX_LEN_pos b, (Nat.zero_mod _).symm⟩

section

variable (hq : InOrder b Queue)
include hq

theorem num_lt_of_not_full (h : MlmeQueueFull b Queue SendId = false) :
    Queue.Num < MAX_LEN_OF_MLME_QUEUE b := by
  have := hq.num
  have := MAX_LEN_pos b
  unfold MlmeQueueFull at h
  split at h
  · simp only [Bool.or_eq_false_iff, decide_eq_false_iff_not] at h
    omega
  · simp only [beq_eq_false_iff_ne] at h
    omega

theorem insert_inOrder (h : Queue.Num < MAX_LEN_OF_MLME_QUEUE b) :
    InOrder b (insert b fill Queue) := by
  refine ⟨h, hq.head, ?_⟩
  have htail : Queue.Tail < MAX_LEN_OF_MLME_QUEUE b := by
    rw [hq.tail]
    exact Nat.mod_lt _ (MAX_LEN_pos b)
  simp only [insert]
  rw [Ring.next_eq_mod htail, hq.tail, Nat.mod_add_mod, Nat.add_assoc]

theorem waiting_insert (h : Queue.Num < MAX_LEN_OF_MLME_QUEUE b) :
    waiting b (insert b fill Queue) = waiting b Queue ++ [fill (Queue.Entry Queue.Tail)] := by
  simp only [waiting, insert]
  rw [hq.tail]
  exact Ring.contents_push _ _ h

theorem dequeue_inOrder (h : Queue.Num ≠ 0) : InOrder b (MlmeDequeue b Queue).2 := by
  refine ⟨(Nat.sub_le _ _).trans hq.num, Ring.next_lt hq.head, ?_⟩
  simp only [MlmeDequeue]
  rw [Ring.next_eq_mod hq.head, Nat.mod_add_mod, hq.tail]
  congr 1
  omega

theorem waiting_dequeue (h : Queue.Num ≠ 0) :
    waiting b Queue =
      Queue.Entry (MlmeDequeue b Queue).1 :: waiting b (MlmeDequeue b Queue).2 := by
  obtain ⟨n, hn⟩ := Nat.exists_eq_succ_of_ne_zero h
  simp only [waiting, MlmeDequeue, hn]
  exact Ring.contents_cons _ hq.head

end

structure Handled (b : Build) (Queue : MLME_QUEUE) (Elem : Nat) : Prop where
  slot : Elem < MAX_LEN_OF_MLME_QUEUE b
  head : Queue.Head = Ring.next (MAX_LEN_OF_MLME_QUEUE b) Elem
  free : Queue.Num < MAX_LEN_OF_MLME_QUEUE b

theorem dequeue_handled (hq : InOrder b Queue) (h : Queue.Num ≠ 0) :
    Handled b (MlmeDequeue b Queue).2 (MlmeDequeue b Queue).1 := by
  refine ⟨hq.head, rfl, ?_⟩
  have := hq.num
  simp only [MlmeDequeue]
  omega

theorem Handled.tail_ne (hh : Handled b Queue Elem) (hq : InOrder b Queue)
    (h : Queue.Num + 1 ≠ MAX_LEN_OF_MLME_QUEUE b) : Queue.Tail ≠ Elem := by
  intro htail
  rw [hq.tail, hh.head] at htail
  exact h (Ring.slot_before hh.slot hh.free htail)

theorem waiting_free (hh : Handled b Queue Elem) :
    waiting b (freeElem Elem Queue) = waiting b Queue := by
  refine Ring.contents_update _ _ fun i hi heq => ?_
  have hi : i < Queue.Num := hi
  have heq : (Queue.Head + i) % MAX_LEN_OF_MLME_QUEUE b = Elem := heq
  rw [hh.head] at heq
  have := Ring.slot_before hh.slot (hi.trans hh.free) heq
  have := hh.free
  omega

structure Message where
  Machine : BitVec 32
  MsgType : BitVec 32
  MsgLen : Nat
  Msg : Option Bytes

/-- The machine, the type, the length and as many bytes of the message, if there is one. -/
structure Carries (m : Message) (e : MLME_QUEUE_ELEM) : Prop where
  Machine : e.Machine = m.Machine
  MsgType : e.MsgType = m.MsgType
  MsgLen : e.MsgLen = m.MsgLen
  Msg : ∀ msg ∈ m.Msg, ∀ i < m.MsgLen, e.Msg i = msg i

inductive Request where
  | enqueue (pAd : RTMP_ADAPTER) (Machine MsgType : BitVec 32) (MsgLen : Nat)
      (Msg : Option Bytes) (Priv : BitVec 32)
  | recv (pAd : RTMP_ADAPTER) (Wcid TimeStampHigh TimeStampLow : BitVec 32)
      (Rssi0 Rssi1 Rssi2 : BitVec 8) (MsgLen : Nat) (Msg : Option Bytes)
      (Signal OpMode : BitVec 8)
  | wsc (pAd : RTMP_ADAPTER) (eventID senderID Machine MsgType : BitVec 32) (MsgLen : Nat)
      (Msg : Option Bytes)

def Request.sender : Request → Sender
  | .enqueue pAd Machine MsgType MsgLen Msg Priv =>
    MlmeEnqueue pAd Machine MsgType MsgLen Msg Priv
  | .recv pAd Wcid TimeStampHigh TimeStampLow Rssi0 Rssi1 Rssi2 MsgLen Msg Signal OpMode =>
    MlmeEnqueueForRecv pAd Wcid TimeStampHigh TimeStampLow Rssi0 Rssi1 Rssi2 MsgLen Msg Signal
      OpMode
  | .wsc pAd eventID senderID Machine MsgType MsgLen Msg =>
    MlmeEnqueueForWsc pAd eventID senderID Machine MsgType MsgLen Msg

/-- A frame is a message once it has been classified. -/
def Request.message : Request → Option Message
  | .enqueue _ Machine MsgType MsgLen Msg _ => some ⟨Machine, MsgType, MsgLen, Msg⟩
  | .recv pAd _ _ _ _ _ _ MsgLen Msg _ OpMode =>
    (pAd.MsgTypeSubst Msg OpMode).map fun (Machine, MsgType) => ⟨Machine, MsgType, MsgLen, Msg⟩
  | .wsc _ _ _ Machine MsgType MsgLen Msg => some ⟨Machine, MsgType, MsgLen, Msg⟩

theorem moveMsg_of_mem {old msg : Bytes} {Msg : Option Bytes} {MsgLen i : Nat}
    (h : msg ∈ Msg) (hi : i < MsgLen) : moveMsg old Msg MsgLen i = msg i := by
  rw [Option.mem_def.mp h]
  exact if_pos hi

theorem Request.carries (r : Request) {fill : MLME_QUEUE_ELEM → MLME_QUEUE_ELEM}
    (h : r.sender.fill = some fill) :
    ∃ m, r.message = some m ∧ ∀ e, Carries m (fill e) := by
  cases r with
  | enqueue | wsc =>
    obtain rfl := Option.some.inj h
    exact ⟨_, rfl, fun e => ⟨rfl, rfl, rfl, fun msg hmsg i hi => moveMsg_of_mem hmsg hi⟩⟩
  | recv pAd Wcid TimeStampHigh TimeStampLow Rssi0 Rssi1 Rssi2 MsgLen Msg Signal OpMode =>
    obtain ⟨⟨Machine, MsgType⟩, hsubst, rfl⟩ := Option.map_eq_some_iff.mp h
    refine ⟨⟨Machine, MsgType, MsgLen, Msg⟩, ?_, fun e => ?_⟩
    · rw [message, hsubst]
      rfl
    · exact ⟨rfl, rfl, rfl, fun msg hmsg i hi => moveMsg_of_mem hmsg hi⟩

/-- The queue and the element that is handled. What has been accepted and what has been
handed to a machine, as it was then, is kept along. -/
structure State where
  queue : MLME_QUEUE
  elem : Option Nat
  accepted : List Message
  given : List MLME_QUEUE_ELEM

def start (b : Build) (Queue : MLME_QUEUE) : State := ⟨MlmeQueueInit b Queue, none, [], []⟩

inductive Event where
  | call (r : Request)
  | dequeue
  | free

def callStep (b : Build) (r : Request) (s : State) : State :=
  let (ok, queue) := r.sender.call b s.queue
  { s with queue, accepted := if ok then s.accepted ++ r.message.toList else s.accepted }

/-- The turn of the handler: it looks whether the queue is empty first. -/
def dequeueStep (b : Build) (s : State) : State :=
  if s.elem.isSome || MlmeQueueEmpty s.queue then s
  else
    let (elem, queue) := MlmeDequeue b s.queue
    { s with queue, elem := some elem, given := s.given ++ [queue.Entry elem] }

def freeStep (s : State) : State :=
  match s.elem with
  | none => s
  | some elem => { s with queue := freeElem elem s.queue, elem := none }

def step (b : Build) (s : State) : Event → State
  | .call r => callStep b r s
  | .dequeue => dequeueStep b s
  | .free => freeStep s

/-- No sender from inside the driver takes the last slot while an element is handled. -/
def Spared (b : Build) (s : State) : Event → Prop
  | .call r =>
    s.elem.isSome = true → s.queue.Num + 1 = MAX_LEN_OF_MLME_QUEUE b →
      r.sender.checks = true → r.sender.SendId = 0
  | .dequeue => True
  | .free => True

instance (b : Build) (s : State) (e : Event) : Decidable (Spared b s e) := by
  unfold Spared
  cases e <;> infer_instance

structure Kept (b : Build) (s : State) : Prop where
  inOrder : InOrder b s.queue
  handled : ∀ elem ∈ s.elem, Handled b s.queue elem ∧
    s.given.getLast? = some (s.queue.Entry elem)
  messages : List.Forall₂ Carries s.accepted (s.given ++ waiting b s.queue)

theorem start_kept (b : Build) (Queue : MLME_QUEUE) : Kept b (start b Queue) :=
  ⟨init_inOrder b Queue, fun _ h => (Option.not_mem_none _ h).elim, .nil⟩

theorem half_lt (h : MlmeQueueFull b Queue SendId = false) (hid : SendId = 0) :
    Queue.Num + 1 ≠ MAX_LEN_OF_MLME_QUEUE b := by
  simp only [MlmeQueueFull, hid, if_true, Bool.or_eq_false_iff, decide_eq_false_iff_not] at h
  cases b <;> simp only [MAX_LEN_OF_MLME_QUEUE] at h ⊢ <;> omega

theorem Sender.call_cases (b : Build) (s : Sender) (Queue : MLME_QUEUE) :
    s.call b Queue = (false, Queue) ∨
      ∃ fill, s.fill = some fill ∧ s.checks = true ∧ MlmeQueueFull b Queue s.SendId = false ∧
        s.call b Queue = (true, insert b fill Queue) := by
  unfold call
  by_cases hadm : s.admitted b Queue = true
  · rw [if_pos hadm]
    cases hfill : s.fill with
    | none =>
      left
      rw [deliver, hfill]
    | some fill =>
      simp only [admitted, Bool.and_eq_true, Bool.not_eq_true'] at hadm
      refine .inr ⟨fill, rfl, hadm.1, hadm.2, ?_⟩
      rw [deliver, hfill]
  · exact .inl (if_neg hadm)

theorem call_kept {r : Request} (hs : Kept b s) (hr : Spared b s (.call r)) :
    Kept b (callStep b r s) := by
  rcases r.sender.call_cases b s.queue with h | ⟨fill, hfill, hchecks, hfull, h⟩
  · simp only [callStep, h]
    exact hs
  obtain ⟨m, hm, hcarries⟩ := r.carries hfill
  have hnum := num_lt_of_not_full hs.inOrder hfull
  simp only [callStep, h, if_true, hm]
  refine ⟨insert_inOrder fill hs.inOrder hnum, ?_, ?_⟩
  · intro elem helem
    obtain ⟨hh, hgiven⟩ := hs.handled elem helem
    have hlast : s.queue.Num + 1 ≠ MAX_LEN_OF_MLME_QUEUE b := by
      by_cases hid : r.sender.SendId = 0
      · exact half_lt hfull hid
      · exact fun heq => hid (hr (Option.isSome_iff_exists.mpr ⟨elem, helem⟩) heq hchecks)
    refine ⟨⟨hh.slot, hh.head, ?_⟩, ?_⟩
    · exact lt_of_le_of_ne hnum hlast
    · show _ = some (Function.update s.queue.Entry s.queue.Tail _ elem)
      rw [Function.update_of_ne (hh.tail_ne hs.inOrder hlast).symm]
      exact hgiven
  · rw [waiting_insert fill hs.inOrder hnum, ← List.append_assoc]
    exact List.rel_append hs.messages (.cons (hcarries _) .nil)

theorem dequeue_kept (hs : Kept b s) : Kept b (dequeueStep b s) := by
  unfold dequeueStep
  split
  · exact hs
  · next hcond =>
    have hnum : s.queue.Num ≠ 0 := fun hzero => hcond (by simp [MlmeQueueEmpty, hzero])
    refine ⟨dequeue_inOrder hs.inOrder hnum, ?_, ?_⟩
    · intro elem helem
      obtain rfl := Option.some.inj helem
      exact ⟨dequeue_handled hs.inOrder hnum, List.getLast?_concat⟩
    · have hmessages := hs.messages
      rw [waiting_dequeue hs.inOrder hnum] at hmessages
      show List.Forall₂ Carries s.accepted (s.given ++ [_] ++ waiting b _)
      rw [List.append_assoc]
      exact hmessages

theorem free_kept (hs : Kept b s) : Kept b (freeStep s) := by
  unfold freeStep
  cases helem : s.elem with
  | none => exact hs
  | some elem =>
    have hh := (hs.handled elem helem).1
    refine ⟨⟨hs.inOrder.num, hs.inOrder.head, hs.inOrder.tail⟩, ?_, ?_⟩
    · exact fun _ h => (Option.not_mem_none _ h).elim
    · show List.Forall₂ Carries s.accepted (s.given ++ waiting b (freeElem elem s.queue))
      rw [waiting_free hh]
      exact hs.messages

theorem step_kept (s : State) (e : Event) (hs : Kept b s) (he : Spared b s e) :
    Kept b (step b s e) := by
  cases e with
  | call r => exact call_kept hs he
  | dequeue => exact dequeue_kept hs
  | free => exact free_kept hs

def finish (s : State) : List Event :=
  .free :: (List.replicate s.queue.Num [.dequeue, .free]).flatten

theorem turns_num (n : Nat) (helem : s.elem = none) (hnum : s.queue.Num = n) :
    (Run.exec (step b) s (List.replicate n [.dequeue, .free]).flatten).queue.Num = 0 ∧
      (Run.exec (step b) s (List.replicate n [.dequeue, .free]).flatten).accepted =
        s.accepted := by
  induction n generalizing s with
  | zero => exact ⟨hnum, rfl⟩
  | succ n ih =>
    have hstep : dequeueStep b s =
        { s with
          queue := (MlmeDequeue b s.queue).2
          elem := some s.queue.Head
          given := s.given ++ [s.queue.Entry s.queue.Head] } := by
      rw [dequeueStep, if_neg (by simp [helem, MlmeQueueEmpty, hnum])]
      rfl
    rw [List.replicate_succ, List.flatten_cons, Run.exec_append]
    simp only [Run.exec_cons, Run.exec_nil, step, hstep, freeStep]
    refine ih rfl ?_
    simp [freeElem, MlmeDequeue, hnum]

theorem finish_num (b : Build) (s : State) :
    (Run.exec (step b) s (finish s)).queue.Num = 0 ∧
      (Run.exec (step b) s (finish s)).accepted = s.accepted := by
  have hfree : (freeStep s).elem = none ∧ (freeStep s).queue.Num = s.queue.Num ∧
      (freeStep s).accepted = s.accepted := by
    unfold freeStep
    cases helem : s.elem with
    | none => exact ⟨helem, rfl, rfl⟩
    | some elem => exact ⟨rfl, rfl, rfl⟩
  rw [finish, Run.exec_cons]
  obtain ⟨hnum, haccepted⟩ := turns_num (b := b) s.queue.Num hfree.1 hfree.2.1
  exact ⟨hnum, haccepted.trans hfree.2.2⟩

theorem finish_spared (b : Build) (s : State) :
    Run.AllSteps (step b) (Spared b) s (finish s) := by
  refine Run.AllSteps.of_forall fun e he s' => ?_
  rcases List.mem_cons.mp he with rfl | he
  · trivial
  · obtain ⟨turn, hturn, he⟩ := List.mem_flatten.mp he
    rw [List.eq_of_mem_replicate hturn] at he
    rcases List.mem_pair.mp he with rfl | rfl <;> trivial

/-- Every message that was accepted has been given as it was sent, in the order of the
messages, or waits behind those, an element stays as it was given until it is freed, and the
handler gives the rest when it goes on. -/
theorem run_kept (b : Build) (Queue : MLME_QUEUE) (es : List Event)
    (hspared : Run.AllSteps (step b) (Spared b) (start b Queue) es) :
    let s := Run.exec (step b) (start b Queue) es
    let s' := Run.exec (step b) s (finish s)
    List.Forall₂ Carries s.accepted (s.given ++ waiting b s.queue) ∧
      (∀ elem ∈ s.elem, s.given.getLast? = some (s.queue.Entry elem)) ∧
      s'.accepted = s.accepted ∧ List.Forall₂ Carries s.accepted s'.given := by
  intro s s'
  have hs : Kept b s := Run.exec_inv step_kept (start_kept b Queue) hspared
  have hs' : Kept b s' := Run.exec_inv step_kept hs (finish_spared b s)
  obtain ⟨hnum, haccepted⟩ := finish_num b s
  refine ⟨hs.messages, fun elem helem => (hs.handled elem helem).2, haccepted, ?_⟩
  have hmessages := hs'.messages
  have hnone : waiting b s'.queue = [] := by
    rw [waiting, hnum]
    rfl
  rw [hnone, List.append_nil, haccepted] at hmessages
  exact hmessages

def running : RTMP_ADAPTER where
  HALT_IN_PROGRESS := false
  NIC_NOT_EXIST := false
  ATE_ON := false
  Channel := 1
  MsgTypeSubst _ _ := none

def request (Machine : BitVec 32) : Event :=
  .call (.enqueue running Machine 0 1 (some fun _ => 7) 0)

def zeroed : MLME_QUEUE where
  Num := 0
  Head := 0
  Tail := 0
  Entry _ := ⟨fun _ => 0, 0, 0, 0, 0, 0, 0, 0, 0, 0, 0, 0, false, 0, 0⟩

def daemonMessage : Event := .call (.wsc running 1 2 7 3 2 (some fun _ => 9))

def frame : Event := .call (.recv running 5 0 0 0 0 0 3 (some fun _ => 4) 0 0)

/-- Messages come while the first element is handled, and while the second one is they fill all
slots but one; then there is no room for a frame. -/
def busy : List Event :=
  [request 3, request 4, .dequeue, request 5, daemonMessage, .free, .dequeue] ++
    List.replicate 17 (request 6) ++ [frame]

theorem run_kept_busy :
    let s := Run.exec (step .ap) (start .ap zeroed) busy
    let s' := Run.exec (step .ap) s (finish s)
    (s.elem = some 1 ∧ s.queue.Num + 1 = MAX_LEN_OF_MLME_QUEUE .ap) ∧
      List.Forall₂ Carries s.accepted (s.given ++ waiting .ap s.queue) ∧
      (∀ elem ∈ s.elem, s.given.getLast? = some (s.queue.Entry elem)) ∧
      s'.accepted = s.accepted ∧ List.Forall₂ Carries s.accepted s'.given :=
  ⟨by decide +kernel, run_kept .ap zeroed busy (by decide +kernel)⟩

theorem forall₂_msgLen {ms : List Message} {elems : List MLME_QUEUE_ELEM}
    (h : List.Forall₂ Carries ms elems) : elems.map (·.MsgLen) = ms.map (·.MsgLen) := by
  induction h with
  | nil => rfl
  | cons hcarries _ ih => rw [List.map_cons, List.map_cons, hcarries.MsgLen, ih]

/-- Twenty requests come while the first element is handled: the last of them is written into
that element, and is freed with it. -/
theorem overwritten :
    ∃ (b : Build) (Queue : MLME_QUEUE) (es : List Event),
      let s := Run.exec (step b) (start b Queue) es
      let s' := Run.exec (step b) s (finish s)
      ¬ (∀ elem ∈ s.elem, s.given.getLast? = some (s.queue.Entry elem)) ∧
        ¬ List.Forall₂ Carries s.accepted s'.given := by
  refine ⟨.ap, zeroed, request 1 :: .dequeue :: List.replicate 20 (request 2), ?_, ?_⟩
  · intro h
    have hgiven := h 0 (Option.mem_def.mpr (by decide +kernel))
    have hmachine := congrArg (Option.map (·.Machine)) hgiven
    exact absurd hmachine (by decide +kernel)
  · intro h
    exact absurd (forall₂_msgLen h) (by decide +kernel)

end Ralink.Mlme
