import Mathlib.Data.List.TakeWhile
import Ralink.BlockAck.ReorderSpec

/-! The representation invariant of a recipient session and what each list operation does to it.
Distances are taken forward from `LastIndSeq` on the circle of 4096 numbers. -/
namespace Ralink.BlockAck
open SeqWindow

def seqs (l : List ReorderingMpdu) : List Nat := l.map (·.sequence)

@[simp] theorem seqs_nil : seqs [] = [] := rfl
@[simp] theorem seqs_cons (m : ReorderingMpdu) (l : List ReorderingMpdu) :
    seqs (m :: l) = m.sequence :: seqs l := rfl
@[simp] theorem seqs_append (l₁ l₂ : List ReorderingMpdu) : seqs (l₁ ++ l₂) = seqs l₁ ++ seqs l₂ :=
  List.map_append
theorem mem_seqs {m : ReorderingMpdu} {l : List ReorderingMpdu} (h : m ∈ l) : m.sequence ∈ seqs l :=
  List.mem_map_of_mem h
theorem seqs_sublist {l₁ l₂ : List ReorderingMpdu} (h : l₁.Sublist l₂) : (seqs l₁).Sublist (seqs l₂) :=
  h.map _

def Ahead (W o : Nat) (l : List ReorderingMpdu) : Prop := o < 4096 ∧ Window 4096 W o (seqs l)

structure WindowInv (e : BaRecEntry) : Prop where
  counted : e.list.Counted
  width : e.baWinSize < 256
  window : (e.lastIndSeq = RESET_RCV_SEQ ∧ e.list.next = []) ∨
    Ahead e.baWinSize e.lastIndSeq e.list.next

variable {W o t : Nat} {l : List ReorderingMpdu} {m : ReorderingMpdu} (startSeq : Nat)

section

variable (h : Ahead W o l)
include h

theorem Ahead.dist (hm : m ∈ l) :
    m.sequence < 4096 ∧ 1 ≤ fwd 4096 o m.sequence ∧ fwd 4096 o m.sequence ≤ W :=
  ⟨h.2.mem_lt _ (mem_seqs hm), h.2.ahead _ (mem_seqs hm), h.2.near _ (mem_seqs hm)⟩

theorem Ahead.sublist {l' : List ReorderingMpdu} (hs : l'.Sublist l) :
    Ahead W o l' := ⟨h.1, h.2.sublist (seqs_sublist hs)⟩

theorem Ahead.sorted : l.Pairwise fun x y => fwd 4096 o x.sequence < fwd 4096 o y.sequence := by
  have hs := h.2.sorted
  rwa [seqs, List.pairwise_map] at hs

theorem Ahead.advance {b : Nat} (hb : b < 4096) (hl : ∀ m ∈ l, fwd 4096 o b < fwd 4096 o m.sequence) :
    Ahead (W - fwd 4096 o b) b l := by
  refine ⟨hb, h.2.advance h.1 hb ?_⟩
  intro x hx
  obtain ⟨m, hm, rfl⟩ := List.mem_map.mp hx
  exact hl m hm

theorem Ahead.mono {W' : Nat} (hw : W ≤ W') : Ahead W' o l := ⟨h.1, h.2.mono hw⟩

theorem Ahead.notAfter_iff (hW : W < 256) (ht : t < 4096) (hk : fwd 4096 o t ≤ 2048) (hm : m ∈ l) :
    notAfter t m = true ↔ fwd 4096 o m.sequence ≤ fwd 4096 o t := by
  obtain ⟨hlt, _, hw⟩ := h.dist hm
  rw [notAfter, Bool.or_eq_true, beq_iff_eq, seqSmaller_iff hlt ht,
    smaller_iff h.1 hlt ht (by omega) (by omega)]
  constructor
  · rintro (he | hs)
    · rw [he]
    · exact hs.le
  · intro hle
    rcases Nat.lt_or_eq_of_le hle with hs | he
    · exact Or.inr hs
    · exact Or.inl (fwd_injective h.1 hlt ht he)

theorem Ahead.dropWhile_beyond (hW : W < 256) (ht : t < 4096) (hk : fwd 4096 o t ≤ 2048)
    (hm : m ∈ l.dropWhile (notAfter t)) : fwd 4096 o t < fwd 4096 o m.sequence := by
  induction l with
  | nil => cases hm
  | cons x rest ih =>
    have hx := h.notAfter_iff hW ht hk (List.mem_cons_self (a := x) (l := rest))
    rw [List.dropWhile_cons] at hm
    split at hm
    · exact ih (h.sublist (List.sublist_cons_self x rest)) hm
    · next hn =>
      have hx' : fwd 4096 o t < fwd 4096 o x.sequence := by
        rw [hx] at hn
        omega
      rcases List.mem_cons.mp hm with rfl | hm
      · exact hx'
      · exact hx'.trans (List.rel_of_pairwise_cons h.sorted hm)

theorem Ahead.takeWhile_upto (hW : W < 256) (ht : t < 4096) (hk : fwd 4096 o t ≤ 2048)
    (hm : m ∈ l.takeWhile (notAfter t)) : fwd 4096 o m.sequence ≤ fwd 4096 o t :=
  (h.notAfter_iff hW ht hk ((List.takeWhile_sublist _).subset hm)).mp (List.mem_takeWhile_imp hm)

theorem Ahead.dropWhile (hW : W < 256) (ht : t < 4096) (hk : fwd 4096 o t ≤ 2048) :
    Ahead (W - fwd 4096 o t) t (l.dropWhile (notAfter t)) :=
  (h.sublist (List.dropWhile_sublist _)).advance ht fun _ hm => h.dropWhile_beyond hW ht hk hm

end

def reached (startSeq : Nat) (pre : List ReorderingMpdu) : Nat :=
  (pre.getLast?.map (·.sequence)).getD startSeq

theorem reached_cons (m : ReorderingMpdu) (pre : List ReorderingMpdu) :
    reached startSeq (m :: pre) = reached m.sequence pre := by
  cases pre with
  | nil => rfl
  | cons x pre => simp [reached, List.getLast?_cons]

theorem inOrderSplit_append (l : List ReorderingMpdu) :
    (inOrderSplit startSeq l).1 ++ (inOrderSplit startSeq l).2 = l := by
  induction l generalizing startSeq with
  | nil => rfl
  | cons m rest ih =>
    simp only [inOrderSplit]
    split
    · simp [ih]
    · rfl

theorem inOrderSplit_stops (l : List ReorderingMpdu) :
    ∀ m ∈ (inOrderSplit startSeq l).2.head?,
      m.sequence ≠ (reached startSeq (inOrderSplit startSeq l).1 + 1) % 4096 := by
  induction l generalizing startSeq with
  | nil => simp [inOrderSplit]
  | cons x rest ih =>
    simp only [inOrderSplit]
    split
    · simpa only [reached_cons] using ih x.sequence
    · next hn => simpa [reached] using hn

theorem Ahead.inOrderSplit (h : Ahead W o l) :
    Ahead W (reached o (inOrderSplit o l).1) (inOrderSplit o l).2 := by
  induction l generalizing o with
  | nil => exact h
  | cons m rest ih =>
    simp only [BlockAck.inOrderSplit]
    split
    · next hm =>
      have hmem : m ∈ m :: rest := List.mem_cons_self
      have h1 : fwd 4096 o m.sequence = 1 := by
        rw [hm]
        exact fwd_succ (by omega) h.1
      have hrest : Ahead W m.sequence rest := by
        refine ((h.sublist (List.sublist_cons_self m rest)).advance (h.dist hmem).1 ?_).mono
          (Nat.sub_le _ _)
        intro x hx
        exact List.rel_of_pairwise_cons h.sorted hx
      simpa only [reached_cons] using ih hrest
    · exact h

theorem inOrderLast_eq (l : List ReorderingMpdu) :
    inOrderLast startSeq l =
      if (inOrderSplit startSeq l).1 = [] then RESET_RCV_SEQ
      else reached startSeq (inOrderSplit startSeq l).1 := by
  unfold inOrderLast reached
  cases hp : (inOrderSplit startSeq l).1 with
  | nil => rfl
  | cons m pre => simp [List.getLast?_cons]

theorem RESET_not_lt {n : Nat} (h : n < 4096) : n ≠ RESET_RCV_SEQ := by
  unfold RESET_RCV_SEQ
  omega

theorem drainInOrder_entry {c : ReCtx} (hc : c.entry.list.Counted)
    (h : Ahead W c.entry.lastIndSeq c.entry.list.next) :
    (drainInOrder c c.entry.lastIndSeq).entry =
      { c.entry with
        lastIndSeq := reached c.entry.lastIndSeq (inOrderSplit c.entry.lastIndSeq c.entry.list.next).1
        list := { next := (inOrderSplit c.entry.lastIndSeq c.entry.list.next).2
                  qlen := (inOrderSplit c.entry.lastIndSeq c.entry.list.next).2.length } } := by
  simp only [drainInOrder, baIndicateReorderingMpdusInOrder_eq hc, inOrderLast_eq]
  by_cases hp : (inOrderSplit c.entry.lastIndSeq c.entry.list.next).1 = []
  · simp [hp, reached, ReCtx.handUp]
  · have hr := RESET_not_lt h.inOrderSplit.1
    simp [hp, hr, ReCtx.handUp, ReCtx.setLastIndSeq]

end Ralink.BlockAck

/-! One lemma an operation: the outcomes, each with its whole effect on the entry, the free list and
the record. Everything about runs of sessions is derived from these. -/
namespace Ralink.BlockAck
open SeqWindow

variable (c : ReCtx) {e : BaRecEntry} (rx : RxBlk) {s w : Nat}

/-- A frame that `ba_enqueue_reordering_packet` cannot buffer. -/
def fallsBack (freelist : ReorderingList) (rx : RxBlk) : Bool :=
  rx.fRxEap || (baDequeue freelist).2.isNone

def filled (blk : ReorderingMpdu) (rx : RxBlk) : ReorderingMpdu := fillMpdu { blk := blk.blk } rx

@[simp] theorem filled_sequence (blk : ReorderingMpdu) (rx : RxBlk) :
    (filled blk rx).sequence = rx.sequence.toNat := rfl

inductive EnqueueCase (c : ReCtx) (rx : RxBlk) : ReCtx → Prop
  | stored {free : ReorderingList} {blk : ReorderingMpdu} {l₁ l₂ : List ReorderingMpdu}
      (alloc : baDequeue c.freelist = (free, some blk)) (plain : fallsBack c.freelist rx = false)
      (split : c.entry.list.next = l₁ ++ l₂)
      (before : ∀ x ∈ l₁, seqSmaller x.sequence rx.sequence.toNat MAXSEQ = true)
      (after : ∀ y ∈ l₂.head?, seqSmaller y.sequence rx.sequence.toNat MAXSEQ = false ∧
        y.sequence ≠ rx.sequence.toNat) :
      EnqueueCase c rx
        { c with
          freelist := free
          entry := { c.entry with
            list := { next := l₁ ++ filled blk rx :: l₂, qlen := c.entry.list.qlen + 1 } } }
  | duplicate {free : ReorderingList} {blk : ReorderingMpdu}
      (alloc : baDequeue c.freelist = (free, some blk)) (plain : fallsBack c.freelist rx = false)
      (scan : insertScan (filled blk rx) c.entry.list.next = none) :
      EnqueueCase c rx
        { c with
          freelist := baEnqueue free (filled blk rx)
          out := c.out ++ [.released rx.pRxPacket] }
  | passedUp {free : ReorderingList} {blk : Option ReorderingMpdu}
      (alloc : baDequeue c.freelist = (free, blk)) (full : fallsBack c.freelist rx = true) :
      EnqueueCase c rx (passUpUnordered { c with freelist := free } rx)

theorem baEnqueueReorderingPacket_cases : EnqueueCase c rx (baEnqueueReorderingPacket c rx) := by
  rcases hd : baDequeue c.freelist with ⟨free, blk⟩
  cases blk with
  | none =>
    have hf : fallsBack c.freelist rx = true := by simp [fallsBack, hd]
    have he : baEnqueueReorderingPacket c rx = passUpUnordered { c with freelist := free } rx := by
      simp only [baEnqueueReorderingPacket, baMpduBlkAlloc, hd, Option.map_none]
    rw [he]
    exact .passedUp hd hf
  | some blk =>
    cases heap : rx.fRxEap with
    | true =>
      have hf : fallsBack c.freelist rx = true := by simp [fallsBack, heap]
      have he : baEnqueueReorderingPacket c rx =
          passUpUnordered { c with freelist := free } rx := by
        simp [baEnqueueReorderingPacket, baMpduBlkAlloc, hd, heap]
      rw [he]
      exact .passedUp hd hf
    | false =>
      have hf : fallsBack c.freelist rx = false := by simp [fallsBack, hd, heap]
      cases hs : insertScan (filled blk rx) c.entry.list.next with
      | none =>
        have he : baEnqueueReorderingPacket c rx =
            { c with
              freelist := baEnqueue free (filled blk rx)
              out := c.out ++ [.released rx.pRxPacket] } := by
          unfold filled at hs
          simp [baEnqueueReorderingPacket, baMpduBlkAlloc, hd, heap,
            baReorderingMpduInsertsorted, hs, baMpduBlkFree, releaseNdisPacket, ReCtx.emit,
            filled]
        rw [he]
        exact .duplicate hd hf hs
      | some next =>
        obtain ⟨l₁, l₂, hl, rfl, hb, ha⟩ := insertScan_some hs
        have he : baEnqueueReorderingPacket c rx =
            { c with
              freelist := free
              entry := { c.entry with
                list := { next := l₁ ++ filled blk rx :: l₂
                          qlen := c.entry.list.qlen + 1 } } } := by
          unfold filled at hs
          simp [baEnqueueReorderingPacket, baMpduBlkAlloc, hd, heap,
            baReorderingMpduInsertsorted, hs, ReCtx.setList, filled]
        rw [he]
        exact .stored hd hf hl hb ha

/-- The six ways `Indicate_AMPDU_Packet` can classify a frame. -/
inductive ReceiveCase where
  | reset
  | inOrder
  | duplicate
  | old
  | inWindow
  | beyond
  deriving DecidableEq

def receiveCase (e : BaRecEntry) (sequence : Nat) : ReceiveCase :=
  if e.lastIndSeq == RESET_RCV_SEQ then .reset
  else if seqStepone sequence e.lastIndSeq MAXSEQ then .inOrder
  else if sequence == e.lastIndSeq then .duplicate
  else if seqSmaller sequence e.lastIndSeq MAXSEQ then .old
  else if seqSmaller sequence ((e.lastIndSeq + e.baWinSize + 1) &&& MAXSEQ) MAXSEQ then .inWindow
  else .beyond

theorem reorderAmpdu_eq (now : BitVec 32) :
    reorderAmpdu c rx now =
      match receiveCase c.entry rx.sequence.toNat with
      | .reset =>
        indicateLegacyOrAmsdu
          ((c.setLastIndSeq rx.sequence.toNat).setLastIndSeqAtTimer now) rx
      | .inOrder => receiveInOrder c rx now
      | .duplicate => dropPacket c rx
      | .old => dropPacket c rx
      | .inWindow => baEnqueueReorderingPacket c rx
      | .beyond => receiveBeyondWindow c rx now := by
  unfold reorderAmpdu receiveCase
  dsimp only
  split_ifs <;> rfl

theorem receiveCase_dist (hL : e.lastIndSeq < 4096) (hW : e.baWinSize < 256) (hs : s < 4096) :
    receiveCase e s =
      if fwd 4096 e.lastIndSeq s = 1 then .inOrder
      else if fwd 4096 e.lastIndSeq s = 0 then .duplicate
      else if 2048 ≤ fwd 4096 e.lastIndSeq s then .old
      else if fwd 4096 e.lastIndSeq s ≤ e.baWinSize then .inWindow
      else .beyond := by
  have h0 : (e.lastIndSeq == RESET_RCV_SEQ) = false := by simpa using RESET_not_lt hL
  have h1 : seqStepone s e.lastIndSeq MAXSEQ = decide (fwd 4096 e.lastIndSeq s = 1) := by
    rw [Bool.eq_iff_iff, seqStepone_iff, decide_eq_true_iff]
    constructor
    · intro h
      rw [h]
      exact fwd_succ (by omega) hL
    · exact eq_succ_of_fwd (by omega) hL hs
  have h2 : (s == e.lastIndSeq) = decide (fwd 4096 e.lastIndSeq s = 0) := by
    rw [Bool.eq_iff_iff, beq_iff_eq, decide_eq_true_iff, fwd_eq_zero hL]
    exact eq_comm
  have h3 : seqSmaller s e.lastIndSeq MAXSEQ = decide (2048 ≤ fwd 4096 e.lastIndSeq s) := by
    rw [Bool.eq_iff_iff, seqSmaller_iff hs hL, decide_eq_true_iff]
    rfl
  unfold receiveCase
  simp only [h0, h1, h2, h3, Bool.false_eq_true, if_false, decide_eq_true_eq, and_MAXSEQ]
  have hE : (e.lastIndSeq + e.baWinSize + 1) % 4096 < 4096 := Nat.mod_lt _ (by omega)
  have hdE : fwd 4096 e.lastIndSeq ((e.lastIndSeq + e.baWinSize + 1) % 4096) = e.baWinSize + 1 := by
    rw [fwd_eq_mod hL hE]
    omega
  by_cases hold : 2048 ≤ fwd 4096 e.lastIndSeq s
  · simp only [hold, if_true]
  · have h4 : seqSmaller s ((e.lastIndSeq + e.baWinSize + 1) % 4096) MAXSEQ =
        decide (fwd 4096 e.lastIndSeq s ≤ e.baWinSize) := by
      rw [Bool.eq_iff_iff, seqSmaller_iff hs hE, smaller_iff hL hs hE (by omega) (by omega), hdE,
        decide_eq_true_iff]
      omega
    simp only [hold, if_false, h4, decide_eq_true_eq]

theorem receiveCase_reset (h : e.lastIndSeq = RESET_RCV_SEQ) : receiveCase e s = .reset := by
  simp [receiveCase, h]

theorem winStartSeq_eq (hs : s < 4096) (hw : w < 256) :
    winStartSeq s w = (4096 + s - w) % 4096 := by
  simp only [winStartSeq, and_MAXSEQ]
  simp only [MAXSEQ]
  split <;> omega

theorem winStartSeq_dist {o : Nat} (ho : o < 4096) (hs : s < 4096) (hw : w < 256)
    (h : w ≤ fwd 4096 o s) :
    winStartSeq s w < 4096 ∧ fwd 4096 o (winStartSeq s w) = fwd 4096 o s - w := by
  have hlt : winStartSeq s w < 4096 := by
    rw [winStartSeq_eq hs hw]
    exact Nat.mod_lt _ (by omega)
  refine ⟨hlt, ?_⟩
  rw [fwd_eq_mod ho hs] at *
  rw [fwd_eq_mod ho hlt, winStartSeq_eq hs hw]
  omega

inductive FlushCase (c : ReCtx) (now : BitVec 32) : ReCtx → Prop
  | kept : FlushCase c now c
  | all (pending : c.entry.list.next ≠ []) :
      FlushCase c now ((baRefreshReorderingMpdus c).setLastIndSeqAtTimer now)
  | one (pending : c.entry.list.next ≠ []) :
      FlushCase c now
        (drainInOrder
          (((baIndicateReorderingMpdusLeSeq c ((c.entry.lastIndSeq + 1) % 4096)).setLastIndSeqAtTimer
            now).setLastIndSeq ((c.entry.lastIndSeq + 1) % 4096))
          ((c.entry.lastIndSeq + 1) % 4096))

theorem baFlushReorderingTimeoutMpdus_cases (osHz : Nat) {c : ReCtx} (hc : c.entry.list.Counted)
    (now : BitVec 32) : FlushCase c now (baFlushReorderingTimeoutMpdus osHz c now) := by
  unfold baFlushReorderingTimeoutMpdus
  split
  · exact .kept
  · next hq =>
    have hne : c.entry.list.next ≠ [] := by
      intro hnil
      rw [ReorderingList.Counted, hnil] at hc
      simp [hc] at hq
    split
    · exact .all hne
    · split
      · rw [and_MAXSEQ]
        exact .one hne
      · exact .kept

end Ralink.BlockAck
