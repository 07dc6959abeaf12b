import Mathlib.Algebra.BigOperators.Group.Finset.Basic
import Ralink.BlockAck.Runs

/-! Blocks move between the free list and the session lists, packets up, to a release or into a
list. One path loses a block: a frame that carries EAP and reaches `ba_enqueue_reordering_packet`
while a block is free. -/
namespace Ralink.BlockAck
open Finset Function Relation Run

variable (m : ReorderingMpdu) (l l' : List ReorderingMpdu)

def Out.indicatedPacket : Out → Option Nat
  | .indicated _ _ packet => some packet
  | _ => none

def Out.releasedPacket : Out → Option Nat
  | .released packet => some packet
  | _ => none

def indicatedPackets (out : List Out) : Multiset Nat := out.filterMap Out.indicatedPacket
def releasedPackets (out : List Out) : Multiset Nat := out.filterMap Out.releasedPacket

def blocksOf (l : List ReorderingMpdu) : Multiset Nat := l.map (·.blk)
def packetsOf (l : List ReorderingMpdu) : Multiset Nat := l.map (·.pPacket)

@[simp] theorem blocksOf_nil : blocksOf [] = 0 := rfl
@[simp] theorem packetsOf_nil : packetsOf [] = 0 := rfl
@[simp] theorem blocksOf_cons : blocksOf (m :: l) = m.blk ::ₘ blocksOf l := rfl
@[simp] theorem packetsOf_cons : packetsOf (m :: l) = m.pPacket ::ₘ packetsOf l := rfl
@[simp] theorem blocksOf_append :
    blocksOf (l ++ l') = blocksOf l + blocksOf l' := by simp [blocksOf]
@[simp] theorem packetsOf_append :
    packetsOf (l ++ l') = packetsOf l + packetsOf l' := by simp [packetsOf]
@[simp] theorem card_blocksOf : (blocksOf l).card = l.length := by
  simp [blocksOf]

def donePackets (out : List Out) : Multiset Nat := indicatedPackets out + releasedPackets out

@[simp] theorem donePackets_nil : donePackets [] = 0 := rfl
@[simp] theorem donePackets_append (o o' : List Out) :
    donePackets (o ++ o') = donePackets o + donePackets o' := by
  simp only [donePackets, indicatedPackets, releasedPackets, List.filterMap_append,
    ← Multiset.coe_add]
  exact add_add_add_comm _ _ _ _
@[simp] theorem donePackets_indicated (via : Upcall) (sequence packet : Nat) :
    donePackets [.indicated via sequence packet] = {packet} := rfl
@[simp] theorem donePackets_released (packet : Nat) : donePackets [.released packet] = {packet} := rfl
@[simp] theorem donePackets_lastIndSeq (value : Nat) : donePackets [.lastIndSeq value] = 0 := rfl

theorem donePackets_announced : donePackets (l.map announced) = packetsOf l := by
  induction l with
  | nil => rfl
  | cons m l ih =>
    rw [List.map_cons, ← List.singleton_append, donePackets_append, ih]
    rfl

theorem donePackets_flushed : donePackets (l.flatMap flushed) = packetsOf l := by
  induction l with
  | nil => rfl
  | cons m l ih =>
    rw [List.flatMap_cons, donePackets_append, ih]
    rfl

structure Moves (c c' : ReCtx) (leak recv : Multiset Nat) : Prop where
  blocks : blocksOf c'.freelist.next + blocksOf c'.entry.list.next + leak =
    blocksOf c.freelist.next + blocksOf c.entry.list.next
  packets : donePackets c'.out + packetsOf c'.entry.list.next =
    donePackets c.out + packetsOf c.entry.list.next + recv
  pool : c.freelist.Counted → c'.freelist.Counted

variable {c c' c'' : ReCtx} {leak leak' recv recv' : Multiset Nat} {rx : RxBlk} {now : BitVec 32}

@[refl] theorem Moves.refl (c : ReCtx) : Moves c c 0 0 := ⟨add_zero _, (add_zero _).symm, id⟩

theorem Moves.trans (h : Moves c c' leak recv) (h' : Moves c' c'' leak' recv') :
    Moves c c'' (leak + leak') (recv + recv') := by
  refine ⟨?_, ?_, fun hc => h'.pool (h.pool hc)⟩
  · rw [← h.blocks, ← h'.blocks]
    abel
  · rw [h'.packets, h.packets]
    abel

theorem Moves.then (h : Moves c c' leak recv) (h' : Moves c' c'' 0 0) : Moves c c'' leak recv := by
  simpa using h.trans h'

theorem Moves.after (h : Moves c c' 0 0) (h' : Moves c' c'' leak recv) : Moves c c'' leak recv := by
  simpa using h.trans h'

theorem foldl_baEnqueue (l : List ReorderingMpdu) (free : ReorderingList) :
    blocksOf (l.foldl baEnqueue free).next = blocksOf l + blocksOf free.next ∧
      (free.Counted → (l.foldl baEnqueue free).Counted) := by
  induction l generalizing free with
  | nil => exact ⟨(zero_add _).symm, id⟩
  | cons m l ih =>
    obtain ⟨hb, hc⟩ := ih (baEnqueue free m)
    refine ⟨?_, fun h => hc (h.enqueue m)⟩
    rw [List.foldl_cons, hb]
    simp [baEnqueue]

theorem ReCtx.handUp_moves {pre rest : List ReorderingMpdu} (h : c.entry.list.next = pre ++ rest) :
    Moves c (c.handUp pre rest) 0 0 := by
  obtain ⟨hb, hc⟩ := foldl_baEnqueue pre c.freelist
  refine ⟨?_, ?_, hc⟩
  · simp only [ReCtx.handUp, hb, h, blocksOf_append]
    abel
  · simp only [ReCtx.handUp, h, donePackets_append, donePackets_announced, packetsOf_append]
    abel

theorem setLastIndSeq_moves (c : ReCtx) (v : Nat) : Moves c (c.setLastIndSeq v) 0 0 :=
  ⟨by simp [ReCtx.setLastIndSeq], by simp [ReCtx.setLastIndSeq], id⟩

theorem setLastIndSeqAtTimer_moves (c : ReCtx) : Moves c (c.setLastIndSeqAtTimer now) 0 0 :=
  ⟨add_zero _, (add_zero _).symm, id⟩

theorem indicateLegacyOrAmsdu_moves (c : ReCtx) (rx : RxBlk) :
    Moves c (indicateLegacyOrAmsdu c rx) 0 {rx.pRxPacket} := by
  refine ⟨add_zero _, ?_, id⟩
  simp only [indicateLegacyOrAmsdu, ReCtx.emit, donePackets_append, donePackets_indicated]
  abel

theorem releaseNdisPacket_moves (c : ReCtx) (rx : RxBlk) :
    Moves c (releaseNdisPacket c rx) 0 {rx.pRxPacket} := by
  refine ⟨add_zero _, ?_, id⟩
  simp only [releaseNdisPacket, ReCtx.emit, donePackets_append, donePackets_released]
  abel

section

variable (hc : c.entry.list.Counted)
include hc

theorem drainInOrder_moves (startSeq : Nat) : Moves c (drainInOrder c startSeq) 0 0 := by
  have h := ReCtx.handUp_moves (inOrderSplit_append startSeq c.entry.list.next).symm
  simp only [drainInOrder, baIndicateReorderingMpdusInOrder_eq hc]
  split
  · exact h.then (setLastIndSeq_moves _ _)
  · exact h

theorem leSeq_moves (sequence : Nat) : Moves c (baIndicateReorderingMpdusLeSeq c sequence) 0 0 := by
  rw [baIndicateReorderingMpdusLeSeq_eq hc]
  exact ReCtx.handUp_moves List.takeWhile_append_dropWhile.symm

theorem refresh_moves : Moves c (baRefreshReorderingMpdus c) 0 0 := by
  obtain ⟨hb, hp⟩ := foldl_baEnqueue c.entry.list.next c.freelist
  rw [baRefreshReorderingMpdus_eq hc]
  refine ⟨?_, ?_, hp⟩
  · simp only [hb, blocksOf_nil]
    abel
  · simp only [donePackets_append, donePackets_flushed, donePackets_lastIndSeq, packetsOf_nil,
      add_zero]

theorem flush_moves (osHz : Nat) (now : BitVec 32) :
    Moves c (baFlushReorderingTimeoutMpdus osHz c now) 0 0 := by
  have h := baFlushReorderingTimeoutMpdus_cases osHz hc now
  generalize baFlushReorderingTimeoutMpdus osHz c now = c' at h ⊢
  cases h with
  | kept => exact .refl c
  | all pending => exact (refresh_moves hc).then (setLastIndSeqAtTimer_moves _)
  | one pending =>
    have hle := leSeq_moves hc ((c.entry.lastIndSeq + 1) % 4096)
    refine ((hle.then (setLastIndSeqAtTimer_moves _)).then (setLastIndSeq_moves _ _)).then
      (drainInOrder_moves ?_ _)
    rw [baIndicateReorderingMpdusLeSeq_eq hc]
    rfl

theorem bar_moves (startSeq : BitVec 12) : Moves c (barOnEntry c startSeq) 0 0 := by
  unfold barOnEntry
  split
  · exact (leSeq_moves hc _).then (setLastIndSeq_moves _ _)
  · exact .refl c

end

theorem SessionOp.moves {f : ReCtx → ReCtx} (op : SessionOp c.entry f) (hc : c.entry.list.Counted) :
    Moves c (f c) 0 0 := by
  cases op with
  | refresh => exact refresh_moves hc
  | flush osHz now => exact flush_moves hc osHz now
  | bar startSeq => exact bar_moves hc startSeq
  | start wcid tid baWinSize timeOut empty winSize =>
    exact ⟨by simp [startRecSession, ReCtx.setLastIndSeq],
      by simp [startRecSession, ReCtx.setLastIndSeq], id⟩
  | restart wcid tid baWinSize timeOut winSize =>
    refine (refresh_moves hc).then ⟨?_, ?_, id⟩
    · simp [startRecSession, ReCtx.setLastIndSeq]
    · simp [startRecSession, ReCtx.setLastIndSeq]
  | close =>
    refine (refresh_moves hc).then ⟨?_, ?_, id⟩
    · simp [stopRecSession, closeSession, ReCtx.setLastIndSeq]
    · simp [stopRecSession, closeSession, ReCtx.setLastIndSeq]

def leakedBlock (c : ReCtx) (rx : RxBlk) : Option ReorderingMpdu :=
  if rx.fRxEap then (baDequeue c.freelist).2 else none

def leakedBlocks (c : ReCtx) (rx : RxBlk) (now : BitVec 32) : Multiset Nat :=
  match (enqueueCtx c rx now).bind (leakedBlock · rx) with
  | some m => {m.blk}
  | none => 0

theorem baDequeue_spec {l free : ReorderingList} {blk : Option ReorderingMpdu} (hc : l.Counted)
    (h : baDequeue l = (free, blk)) :
    free.Counted ∧ l.next = blk.toList ++ free.next := by
  cases hl : l.next with
  | nil =>
    rw [baDequeue_nil hc hl] at h
    cases h
    exact ⟨hc, by simp [hl]⟩
  | cons m rest =>
    rw [baDequeue_cons hc hl] at h
    cases h
    refine ⟨?_, rfl⟩
    rw [ReorderingList.Counted, hl, List.length_cons] at hc
    simp only [ReorderingList.Counted]
    omega

theorem enqueue_moves (hc : c.entry.list.Counted) (hp : c.freelist.Counted) (rx : RxBlk) :
    Moves c (baEnqueueReorderingPacket c rx)
      ((leakedBlock c rx).elim 0 fun m => {m.blk}) {rx.pRxPacket} := by
  have h := baEnqueueReorderingPacket_cases c rx
  generalize baEnqueueReorderingPacket c rx = c' at h ⊢
  cases h with
  | stored alloc plain split before after =>
    obtain ⟨hfree, hnext⟩ := baDequeue_spec hp alloc
    have heap : rx.fRxEap = false := (Bool.or_eq_false_iff.mp plain).1
    refine ⟨?_, ?_, fun _ => hfree⟩
    · simp only [hnext, split, leakedBlock, heap]
      simp [filled, fillMpdu]
    · simp only [split]
      simp [filled, fillMpdu, add_comm]
  | duplicate alloc plain scan =>
    obtain ⟨hfree, hnext⟩ := baDequeue_spec hp alloc
    have heap : rx.fRxEap = false := (Bool.or_eq_false_iff.mp plain).1
    refine ⟨?_, ?_, fun _ => hfree.enqueue _⟩
    · simp only [hnext, leakedBlock, heap]
      simp [filled, fillMpdu, baEnqueue]
    · simp [add_comm]
  | passedUp alloc full =>
    next free blk =>
    obtain ⟨hfree, hnext⟩ := baDequeue_spec hp alloc
    have htake : Moves c { c with freelist := free } ((leakedBlock c rx).elim 0 fun m => {m.blk}) 0 := by
      refine ⟨?_, (add_zero _).symm, fun _ => hfree⟩
      simp only [hnext]
      cases blk with
      | none => simp [leakedBlock, alloc]
      | some m =>
        have heap : rx.fRxEap = true := by simpa [fallsBack, alloc] using full
        simp [leakedBlock, heap, alloc, add_comm]
    have hup : Moves { c with freelist := free } (passUpUnordered { c with freelist := free } rx)
        0 {rx.pRxPacket} :=
      ((leSeq_moves (c := { c with freelist := free }) hc rx.sequence.toNat).then
        (setLastIndSeq_moves _ rx.sequence.toNat)).after (indicateLegacyOrAmsdu_moves _ rx)
    simpa using htake.trans hup

theorem reorderAmpdu_moves (hc : c.entry.list.Counted) (hp : c.freelist.Counted) (rx : RxBlk)
    (now : BitVec 32) :
    Moves c (reorderAmpdu c rx now) (leakedBlocks c rx now) {rx.pRxPacket} := by
  have hcount : Moves c
      { c with entry := { c.entry with nDropPacket := c.entry.nDropPacket + 1 } } 0 0 :=
    ⟨add_zero _, (add_zero _).symm, id⟩
  have hdrop : Moves c (dropPacket c rx) 0 {rx.pRxPacket} :=
    hcount.after (releaseNdisPacket_moves _ rx)
  rw [reorderAmpdu_eq]
  unfold leakedBlocks enqueueCtx
  cases receiveCase c.entry rx.sequence.toNat with
  | reset =>
    exact ((setLastIndSeq_moves c _).then (setLastIndSeqAtTimer_moves _)).after
      (indicateLegacyOrAmsdu_moves _ rx)
  | inOrder =>
    have hup : Moves c (indicateLegacyOrAmsdu (c.setLastIndSeq rx.sequence.toNat) rx) 0
        {rx.pRxPacket} := (setLastIndSeq_moves c _).after (indicateLegacyOrAmsdu_moves _ rx)
    have hdrain := drainInOrder_moves
      (c := indicateLegacyOrAmsdu (c.setLastIndSeq rx.sequence.toNat) rx) hc rx.sequence.toNat
    exact (hup.then hdrain).then (setLastIndSeqAtTimer_moves _)
  | duplicate => exact hdrop
  | old => exact hdrop
  | inWindow =>
    have h := enqueue_moves hc hp rx
    cases hl : leakedBlock c rx with
    | none => simpa [hl] using h
    | some m => simpa [hl] using h
  | beyond =>
    rw [receiveBeyondWindow_eq]
    have hbeyond : Moves c (beyondCtx c rx now) 0 0 :=
      ((leSeq_moves hc _).then (setLastIndSeq_moves _ _)).then (setLastIndSeqAtTimer_moves _)
    have hc' : (beyondCtx c rx now).entry.list.Counted := by
      rw [beyondCtx, baIndicateReorderingMpdusLeSeq_eq hc]
      rfl
    have h := (hbeyond.after (enqueue_moves hc' (hbeyond.pool hp) rx)).then
      (drainInOrder_moves (baEnqueueReorderingPacket_counted hc' rx)
        (baEnqueueReorderingPacket (beyondCtx c rx now) rx).entry.lastIndSeq)
    cases hl : leakedBlock (beyondCtx c rx now) rx with
    | none => simpa [hl] using h
    | some m => simpa [hl] using h

section Table
-- The sums over the table are never to be computed by unfolding its length.
attribute [local irreducible] MAX_LEN_OF_BA_REC_TABLE

def Sessions.blocks (s : Sessions) : Multiset Nat :=
  blocksOf s.freelist.next + ∑ i ∈ range MAX_LEN_OF_BA_REC_TABLE, blocksOf (s.entry i).list.next

def Sessions.heldPackets (s : Sessions) : Multiset Nat :=
  ∑ i ∈ range MAX_LEN_OF_BA_REC_TABLE, packetsOf (s.entry i).list.next

theorem sum_moved (g : BaRecEntry → Multiset Nat) (entry : Nat → BaRecEntry) (e : BaRecEntry)
    {idx num : Nat} (hlt : idx < num) {a b : Multiset Nat} (h : a + g e = b + g (entry idx)) :
    a + ∑ i ∈ range num, g (update entry idx e i) = b + ∑ i ∈ range num, g (entry i) := by
  have hmem : idx ∈ range num := mem_range.mpr hlt
  have hrest : ∑ i ∈ (range num).erase idx, g (update entry idx e i) =
      ∑ i ∈ (range num).erase idx, g (entry i) :=
    sum_congr rfl fun i hi => by rw [update_of_ne (ne_of_mem_erase hi)]
  rw [← sum_erase_add _ _ hmem, ← sum_erase_add (range num) (fun i => g (entry i)) hmem, hrest,
    update_self, add_left_comm, h, add_left_comm]

variable {s s' : Sessions} {idx : Nat} {f : ReCtx → ReCtx} {ad : RtmpAdapter} {ev : BaEvent}

theorem Moves.act (h : Moves (s.ctx idx) (f (s.ctx idx)) leak recv)
    (hlt : idx < MAX_LEN_OF_BA_REC_TABLE) :
    (s.act idx f).blocks + leak = s.blocks ∧
      donePackets (s.act idx f).out + (s.act idx f).heldPackets =
        donePackets s.out + s.heldPackets + recv := by
  constructor
  · simp only [Sessions.blocks, Sessions.act]
    rw [add_right_comm]
    refine sum_moved (fun e => blocksOf e.list.next) s.entry (f (s.ctx idx)).entry hlt ?_
    rw [add_right_comm]
    exact h.blocks
  · simp only [Sessions.heldPackets, Sessions.act]
    rw [add_right_comm]
    refine sum_moved (fun e => packetsOf e.list.next) s.entry (f (s.ctx idx)).entry hlt ?_
    rw [add_right_comm]
    exact h.packets

theorem SessionSteps.conserve (h : SessionSteps s s') (ht : Tidy s) (hp : s.freelist.Counted) :
    s'.blocks = s.blocks ∧ donePackets s'.out + s'.heldPackets = donePackets s.out + s.heldPackets ∧
      s'.freelist.Counted := by
  induction h with
  | refl => exact ⟨rfl, rfl, hp⟩
  | tail hsteps hstep ih =>
    next s1 s2 =>
    obtain ⟨hblocks, hpackets, hpool⟩ := ih
    cases hstep with
    | act inTable op =>
      next i f =>
      have hm := op.moves (c := s1.ctx i) (SessionSteps.entries (fun op => op.tidy) hsteps ht i).counted
      obtain ⟨hb, hk⟩ := hm.act inTable
      rw [add_zero] at hb hk
      exact ⟨hb.trans hblocks, hk.trans hpackets, hm.pool hpool⟩

def receivedPackets : List BaEvent → Multiset Nat
  | [] => 0
  | .ampdu rx _ :: evs => rx.pRxPacket ::ₘ receivedPackets evs
  | _ :: evs => receivedPackets evs

def leakedByStep (ad : RtmpAdapter) : BaEvent → Multiset Nat
  | .ampdu rx now =>
    match ampduSession ad rx with
    | some idx => leakedBlocks (settled ad idx rx now) rx now
    | none => 0
  | _ => 0

theorem settle_moves (hc : c.entry.list.Counted) (osHz : Nat) (rx : RxBlk) (now : BitVec 32) :
    Moves c (settleAmpdu osHz c rx now) 0 0 := by
  have hseq : Moves c { c with entry := { c.entry with rcvSeq := rx.sequence.toNat } } 0 0 :=
    ⟨add_zero _, (add_zero _).symm, id⟩
  refine (hseq.then (flush_moves ?_ osHz now)).then (setLastIndSeqAtTimer_moves _)
  exact hc

theorem baStep_conserve (h : AdapterInv ad) (hp : ad.freelist.Counted) (hr : ev.InRange) :
    (baStep ad ev).sessions.blocks + leakedByStep ad ev = ad.sessions.blocks ∧
      donePackets (baStep ad ev).out + (baStep ad ev).sessions.heldPackets =
        donePackets ad.out + ad.sessions.heldPackets + receivedPackets [ev] ∧
      (baStep ad ev).freelist.Counted := by
  by_cases hne : ∀ rx now, ev ≠ .ampdu rx now
  · obtain ⟨hb, hk, hpool⟩ := (baStep_steps h.tables h.tidy hr hne).conserve h.tidy hp
    cases ev with
    | ampdu rx now => exact absurd rfl (hne rx now)
    | _ => exact ⟨(add_zero _).trans hb, hk.trans (add_zero _).symm, hpool⟩
  · push Not at hne
    obtain ⟨rx, now, rfl⟩ := hne
    cases hs : ampduSession ad rx with
    | none =>
      obtain ⟨o, ho, he⟩ := indicateAmpduPacket_none hs now
      have hdone : donePackets [o] = {rx.pRxPacket} := by
        rcases ho with rfl | ⟨via, rfl⟩
        · rfl
        · rfl
      have hpool : (baStep ad (.ampdu rx now)).freelist = ad.freelist :=
        congrArg Sessions.freelist he
      have hout : (baStep ad (.ampdu rx now)).out = ad.out ++ [o] := congrArg Sessions.out he
      refine ⟨?_, ?_, hpool ▸ hp⟩
      · simp only [leakedByStep, hs, baStep, he, add_zero]
        rfl
      · have hheld : (baStep ad (.ampdu rx now)).sessions.heldPackets = ad.sessions.heldPackets :=
          (congrArg Sessions.heldPackets he).trans rfl
        rw [hout, hheld, donePackets_append, hdone, add_right_comm]
        rfl
    | some idx =>
      obtain ⟨hlt, -, he⟩ := indicateAmpduPacket_some h.tables hs now
      have hsettle := settle_moves (c := ad.reCtx idx) (h.tidy idx).counted ad.commonCfg.osHz rx now
      have hm : Moves (ad.sessions.ctx idx)
          (indicateAmpduOnEntry ad.commonCfg.osHz (ad.sessions.ctx idx) rx now)
          (leakedByStep ad (.ampdu rx now)) {rx.pRxPacket} := by
        simp only [leakedByStep, hs]
        have hc : (settled ad idx rx now).entry.list.Counted := by
          refine flush_counted ?_ _ _
          exact (h.tidy idx).counted
        exact hsettle.after (reorderAmpdu_moves hc (hsettle.pool hp) rx now)
      obtain ⟨hb, hk⟩ := Moves.act (f := (indicateAmpduOnEntry ad.commonCfg.osHz · rx now)) hm hlt
      have hfree : (baStep ad (.ampdu rx now)).freelist = _ := congrArg Sessions.freelist he
      rw [← he] at hb hk
      refine ⟨hb, hk, ?_⟩
      rw [hfree]
      exact hm.pool hp

theorem exec_conserve (evs : List BaEvent) (h : AdapterInv ad) (hp : ad.freelist.Counted)
    (hr : ∀ ev ∈ evs, ev.InRange) :
    AdapterInv (exec baStep ad evs) ∧ (exec baStep ad evs).freelist.Counted ∧
      (exec baStep ad evs).sessions.blocks ≤ ad.sessions.blocks ∧
      donePackets (exec baStep ad evs).out + (exec baStep ad evs).sessions.heldPackets =
        donePackets ad.out + ad.sessions.heldPackets + receivedPackets evs := by
  induction evs generalizing ad with
  | nil => exact ⟨h, hp, le_rfl, by rw [exec_nil, receivedPackets, add_zero]⟩
  | cons ev evs ih =>
    have hev := hr ev List.mem_cons_self
    obtain ⟨hb, hk, hp'⟩ := baStep_conserve h hp hev
    obtain ⟨hinv, hpool, hle, hpackets⟩ := ih (baStep_adapterInv h hev) hp' fun ev' hev' =>
      hr ev' (List.mem_cons_of_mem ev hev')
    have hle' : (baStep ad ev).sessions.blocks ≤ ad.sessions.blocks := by
      rw [← hb]
      exact Multiset.le_add_right _ _
    refine ⟨hinv, hpool, hle.trans hle', ?_⟩
    have hrecv : receivedPackets (ev :: evs) = receivedPackets [ev] + receivedPackets evs := by
      cases ev with
      | ampdu rx now => exact (Multiset.singleton_add _ _).symm
      | _ => exact (zero_add _).symm
    rw [exec_cons, hpackets, hk, hrecv, add_assoc (donePackets ad.out + ad.sessions.heldPackets)]

/-- The event is an MPDU with EAP that is to be buffered while a block is free. -/
def LeaksBlock (ad : RtmpAdapter) : BaEvent → Prop
  | .ampdu rx now => rx.fRxEap ∧ ∃ idx ∈ ampduSession ad rx,
      ∃ c ∈ enqueueCtx (settled ad idx rx now) rx now, c.freelist.next ≠ []
  | _ => False

instance (ad : RtmpAdapter) : DecidablePred (LeaksBlock ad)
  | .ampdu _ _ => inferInstanceAs (Decidable (_ ∧ ∃ idx ∈ ampduSession ad _, _))
  | .bar .. | .flushTimeout .. | .idleTimeout .. | .addbaReq .. | .addbaRsp .. | .delba ..
  | .oriSetUp .. | .setupTimeout .. | .oriTearDown .. | .recTearDown .. | .tearDownALL .. =>
    inferInstanceAs (Decidable False)

theorem leakedBlocks_eq_zero (hc : c.entry.list.Counted) (hp : c.freelist.Counted) (rx : RxBlk)
    (now : BitVec 32) : leakedBlocks c rx now = 0 ↔
      ¬ (rx.fRxEap ∧ ∃ c' ∈ enqueueCtx c rx now, c'.freelist.next ≠ []) := by
  have hctx : ∀ c' ∈ enqueueCtx c rx now, c'.freelist.Counted := by
    intro c' hc'
    unfold enqueueCtx at hc'
    split at hc'
    · obtain rfl := Option.some.inj hc'
      exact hp
    · obtain rfl := Option.some.inj hc'
      exact (leSeq_moves hc _).pool hp
    · cases hc'
  unfold leakedBlocks
  cases henq : enqueueCtx c rx now with
  | none => simp
  | some c' =>
    have hcounted := hctx c' henq
    cases heap : rx.fRxEap with
    | false => simp [leakedBlock, heap]
    | true =>
      cases hl : c'.freelist.next with
      | nil => simp [leakedBlock, baDequeue_nil hcounted hl, hl]
      | cons m rest => simp [leakedBlock, heap, baDequeue_cons hcounted hl, hl]

theorem leakedByStep_eq_zero (h : AdapterInv ad) (hp : ad.freelist.Counted) (ev : BaEvent) :
    leakedByStep ad ev = 0 ↔ ¬ LeaksBlock ad ev := by
  cases ev with
  | ampdu rx now =>
    cases hs : ampduSession ad rx with
    | none => simp [leakedByStep, LeaksBlock, hs]
    | some idx =>
      have hsettle := settle_moves (c := ad.reCtx idx) (h.tidy idx).counted ad.commonCfg.osHz rx now
      have hc : (settled ad idx rx now).entry.list.Counted := by
        refine flush_counted ?_ _ _
        exact (h.tidy idx).counted
      simp only [leakedByStep, LeaksBlock, hs, Option.mem_some_iff, exists_eq_left']
      exact leakedBlocks_eq_zero hc (hsettle.pool hp) rx now
  | _ => simp [leakedByStep, LeaksBlock]

/-- What is conserved after the events `evs`: the `num` blocks, each in one list, and the
packets received, each indicated, released or held. -/
structure Conserved (num : Nat) (evs : List BaEvent) (ad : RtmpAdapter) : Prop where
  blockCount : ad.freelist.next.length +
    ∑ i ∈ range MAX_LEN_OF_BA_REC_TABLE, (ad.baTable.baRecEntry i).list.next.length = num
  oneNode : ad.sessions.blocks.Nodup
  counted : ad.freelist.Counted ∧ ∀ i, (ad.baTable.baRecEntry i).list.Counted
  packets : receivedPackets evs =
    indicatedPackets ad.out + releasedPackets ad.out + ad.sessions.heldPackets

theorem Sessions.card_blocks (s : Sessions) : s.blocks.card = s.freelist.next.length +
    ∑ i ∈ range MAX_LEN_OF_BA_REC_TABLE, (s.entry i).list.next.length := by
  rw [Sessions.blocks, Multiset.card_add, Multiset.card_sum, card_blocksOf]
  simp only [card_blocksOf]

theorem baTableInit_blocks (commonCfg : BaConfig) (station : Nat → MacTableEntry) (num : Nat) :
    (baTableInit commonCfg station num).freelist.Counted ∧
      (baTableInit commonCfg station num).sessions.blocks = Multiset.range num ∧
      (baTableInit commonCfg station num).sessions.heldPackets = 0 := by
  obtain ⟨hc, hnext⟩ := baReorderingResourceInit_eq num
  refine ⟨hc, ?_, sum_const_zero⟩
  have hlists : (baTableInit commonCfg station num).sessions.blocks =
      blocksOf (baReorderingResourceInit num).next :=
    (congrArg _ sum_const_zero).trans (add_zero _)
  rw [hlists, hnext, blocksOf, List.map_map]
  simp [Function.comp_def, Multiset.range]

/-- Blocks and packets are conserved in every state of a run exactly if no MPDU with EAP
is to be buffered while a block is free. -/
theorem conserved_iff (commonCfg : BaConfig) (station : Nat → MacTableEntry) (num : Nat)
    (evs : List BaEvent) (inRange : ∀ ev ∈ evs, ev.InRange) :
    AllSteps baStep (fun ad ev => ¬ LeaksBlock ad ev) (baTableInit commonCfg station num) evs ↔
      ∀ n, Conserved num (evs.take n)
        (exec baStep (baTableInit commonCfg station num) (evs.take n)) := by
  obtain ⟨hpool, hblocks, hheld⟩ := baTableInit_blocks commonCfg station num
  have hinit := baTableInit_adapterInv commonCfg station num
  have hrun := allSteps_iff (Q := fun _ ev => ev.InRange)
    (A := fun ad => AdapterInv ad ∧ ad.freelist.Counted)
    (G := fun ad => ad.sessions.blocks.card = num) (P := fun ad ev => ¬ LeaksBlock ad ev)
    (fun _ _ h _ hr => ⟨baStep_adapterInv h.1 hr, (baStep_conserve h.1 h.2 hr).2.2⟩)
    (fun ad ev h hn hr => by
      have hcard := congrArg Multiset.card (baStep_conserve h.1 h.2 hr).1
      rw [Multiset.card_add, hn] at hcard
      rw [← leakedByStep_eq_zero h.1 h.2, ← Multiset.card_eq_zero]
      omega)
    ⟨hinit, hpool⟩ (by rw [hblocks, Multiset.card_range])
    (AllSteps.of_forall fun ev hev _ => inRange ev hev)
  rw [hrun]
  refine forall_congr' fun n => ?_
  obtain ⟨hinv, hcounted, hle, hpackets⟩ := exec_conserve (evs.take n) hinit hpool
    fun ev hev => inRange ev (List.mem_of_mem_take hev)
  rw [Sessions.card_blocks]
  refine ⟨fun hcount => ⟨hcount, ?_, ⟨hcounted, fun i => (hinv.tidy i).counted⟩, ?_⟩,
    fun hcons => hcons.blockCount⟩
  · exact Multiset.nodup_of_le (hle.trans_eq hblocks) (Multiset.nodup_range num)
  · have hout : (baTableInit commonCfg station num).out = [] := rfl
    rw [hheld, hout, donePackets_nil, zero_add, zero_add] at hpackets
    exact hpackets.symm

end Table

theorem conserved_beforeEap :
    Conserved 8 (eapBeforeBuffered.take 3)
      (exec baStep (baTableInit {} (fun w => { aid := w }) 8) (eapBeforeBuffered.take 3)) :=
  (conserved_iff {} (fun w => { aid := w }) 8 (eapBeforeBuffered.take 3) (by decide)).mp
    (by decide) 3

/-- Of 8 blocks, 6 are free and one holds frame 13; the one taken for frame 12 is lost. -/
theorem eapBeforeBuffered_leaksBlock :
    (∀ ev ∈ eapBeforeBuffered, ev.InRange) ∧
      ¬ Conserved 8 eapBeforeBuffered
        (exec baStep (baTableInit {} (fun w => { aid := w }) 8) eapBeforeBuffered) := by
  refine ⟨by decide, fun h => ?_⟩
  have hcount : (exec baStep (baTableInit {} (fun w => { aid := w }) 8)
        eapBeforeBuffered).freelist.next.length +
      ∑ i ∈ range MAX_LEN_OF_BA_REC_TABLE, ((exec baStep (baTableInit {} (fun w => { aid := w }) 8)
        eapBeforeBuffered).baTable.baRecEntry i).list.next.length = 7 := by
    decide +kernel
  rw [h.blockCount] at hcount
  omega

end Ralink.BlockAck
