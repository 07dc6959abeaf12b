import Mathlib.Data.Nat.Bitwise
import Ralink.Lib.SeqWindow
import Ralink.BlockAck.Reorder

/-! What the loops of the reordering list do, in terms of the list alone. -/
namespace Ralink.BlockAck
open SeqWindow

variable (a : Nat) {l : ReorderingList} {c : ReCtx} {m : ReorderingMpdu} (turns b : Nat)
  {rest : List ReorderingMpdu}

theorem and_MAXSEQ (n : Nat) : n &&& MAXSEQ = n % 4096 := Nat.and_two_pow_sub_one_eq_mod n 12

theorem seqStepone_iff : seqStepone a b MAXSEQ = true ↔ a = (b + 1) % 4096 := by
  simp only [seqStepone, and_MAXSEQ, beq_iff_eq]

theorem seqSmaller_iff_mod : seqSmaller a b MAXSEQ = true ↔ 2048 ≤ (2 ^ 32 + a - b) % 4096 := by
  have hbit : (MAXSEQ + 1) >>> 1 = 2 ^ 11 := rfl
  simp only [seqSmaller, hbit, bne_iff_ne, ne_eq, Nat.and_comm _ (2 ^ 11), Nat.two_pow_and,
    Nat.testBit_eq_decide_div_mod_eq]
  by_cases h : (2 ^ 32 + a - b) / 2 ^ 11 % 2 = 1
  · simp only [h, decide_true, Bool.toNat_true]
    omega
  · simp only [h, decide_false, Bool.toNat_false]
    omega

theorem seqSmaller_iff {a b : Nat} (ha : a < 4096) (hb : b < 4096) :
    seqSmaller a b MAXSEQ = true ↔ Smaller 4096 a b := by
  rw [seqSmaller_iff_mod, Smaller, fwd_eq_mod hb ha]
  omega

def ReorderingList.Counted (l : ReorderingList) : Prop := l.qlen = l.next.length

theorem ReorderingList.Counted.enqueue (h : l.Counted) (m : ReorderingMpdu) :
    (baEnqueue l m).Counted := by
  simp only [Counted, baEnqueue, List.length_cons, Nat.cast_add, Nat.cast_one] at *
  omega

theorem baDequeue_cons (h : l.Counted) (hl : l.next = m :: rest) :
    baDequeue l = ({ next := rest, qlen := l.qlen - 1 }, some m) := by
  have hq : l.qlen ≠ 0 := by
    rw [ReorderingList.Counted, hl, List.length_cons] at h
    omega
  simp only [baDequeue, if_pos hq, hl]

theorem baDequeue_nil (h : l.Counted) (hl : l.next = []) : baDequeue l = (l, none) := by
  have hq : ¬ l.qlen ≠ 0 := by
    rw [ReorderingList.Counted, hl] at h
    simpa using h
  simp only [baDequeue, if_neg hq]

def announced (m : ReorderingMpdu) : Out :=
  .indicated (if m.bAMSDU then .reorderAmsduAnnounce m.opMode else .announce8023)
    m.sequence m.pPacket

def ReCtx.handUp (c : ReCtx) (pre rest : List ReorderingMpdu) : ReCtx where
  freelist := pre.foldl baEnqueue c.freelist
  entry := { c.entry with list := { next := rest, qlen := rest.length } }
  out := c.out ++ pre.map announced

theorem ReCtx.handUp_nil (h : c.entry.list.Counted) : c.handUp [] c.entry.list.next = c := by
  obtain ⟨freelist, entry, out⟩ := c
  obtain ⟨_, _, _, _, _, _, _, _, _, next, qlen⟩ := entry
  simp only [ReorderingList.Counted] at h
  simp [handUp, h]

theorem ReCtx.handUp_cons (c : ReCtx) (m : ReorderingMpdu) (pre rest mid : List ReorderingMpdu) :
    (c.handUp [m] mid).handUp pre rest = c.handUp (m :: pre) rest := by
  simp [handUp]

theorem passHeadUp_cons (h : c.entry.list.Counted) (hl : c.entry.list.next = m :: rest) :
    ∃ c', passHeadUp c = some (c', m) ∧ baMpduBlkFree c' m = c.handUp [m] rest := by
  refine ⟨_, by simp only [passHeadUp, baDequeue_cons h hl]; rfl, ?_⟩
  have hq : c.entry.list.qlen - 1 = rest.length := by
    rw [h, hl, List.length_cons]
    omega
  simp [baMpduBlkFree, announceReorderingPacket, ReCtx.emit, ReCtx.setList, ReCtx.handUp,
    announced, hq]

theorem passHeadUp_nil (h : c.entry.list.Counted) (hl : c.entry.list.next = []) :
    passHeadUp c = none := by
  simp only [passHeadUp, baDequeue_nil h hl]

def inOrderSplit : Nat → List ReorderingMpdu → List ReorderingMpdu × List ReorderingMpdu
  | _, [] => ([], [])
  | startSeq, m :: rest =>
    if m.sequence = (startSeq + 1) % 4096 then
      let (pre, post) := inOrderSplit m.sequence rest
      (m :: pre, post)
    else ([], m :: rest)

theorem inOrderLoop_eq (c : ReCtx) (startSeq last : Nat) (h : c.entry.list.Counted)
    (ht : c.entry.list.next.length ≤ turns) :
    inOrderLoop turns c startSeq last =
      (c.handUp (inOrderSplit startSeq c.entry.list.next).1
          (inOrderSplit startSeq c.entry.list.next).2,
        ((inOrderSplit startSeq c.entry.list.next).1.getLast?.map (·.sequence)).getD last) := by
  induction turns generalizing c startSeq last with
  | zero =>
    have hl : c.entry.list.next = [] := List.eq_nil_of_length_eq_zero (Nat.le_zero.mp ht)
    have hc := c.handUp_nil h
    rw [hl] at hc
    simp [inOrderLoop, inOrderSplit, hl, hc]
  | succ turns ih =>
    cases hl : c.entry.list.next with
    | nil =>
      have hc := c.handUp_nil h
      rw [hl] at hc
      simp [inOrderLoop, inOrderSplit, baReorderingMpduProbe, hl, hc]
    | cons m rest =>
      obtain ⟨c', hp, hf⟩ := passHeadUp_cons h hl
      by_cases hs : m.sequence = (startSeq + 1) % 4096
      · have hb : (!seqStepone m.sequence startSeq MAXSEQ) = false := by
          rw [(seqStepone_iff _ _).mpr hs]
          rfl
        have hrec := ih (c.handUp [m] rest) m.sequence m.sequence rfl (by
          rw [hl, List.length_cons] at ht
          exact Nat.le_of_succ_le_succ ht)
        have hn : (c.handUp [m] rest).entry.list.next = rest := rfl
        rw [hn] at hrec
        simp only [inOrderLoop, baReorderingMpduProbe, hl, List.head?_cons, hb, hp, hf,
          inOrderSplit, if_pos hs, hrec, ReCtx.handUp_cons]
        simp [List.getLast?_cons]
      · have hb : (!seqStepone m.sequence startSeq MAXSEQ) = true := by
          cases hx : seqStepone m.sequence startSeq MAXSEQ with
          | false => rfl
          | true => exact absurd ((seqStepone_iff _ _).mp hx) hs
        have hc := c.handUp_nil h
        rw [hl] at hc
        simp [inOrderLoop, baReorderingMpduProbe, hl, hb, inOrderSplit, hs, hc]

def inOrderLast (startSeq : Nat) (l : List ReorderingMpdu) : Nat :=
  ((inOrderSplit startSeq l).1.getLast?.map (·.sequence)).getD RESET_RCV_SEQ

theorem baIndicateReorderingMpdusInOrder_eq (h : c.entry.list.Counted) (startSeq : Nat) :
    baIndicateReorderingMpdusInOrder c startSeq =
      (c.handUp (inOrderSplit startSeq c.entry.list.next).1
          (inOrderSplit startSeq c.entry.list.next).2,
        inOrderLast startSeq c.entry.list.next) :=
  inOrderLoop_eq _ c startSeq _ h (Nat.le_refl _)

def notAfter (sequence : Nat) (m : ReorderingMpdu) : Bool :=
  m.sequence == sequence || seqSmaller m.sequence sequence MAXSEQ

theorem leSeqLoop_eq (sequence turns : Nat) (c : ReCtx) (h : c.entry.list.Counted)
    (ht : c.entry.list.next.length ≤ turns) :
    leSeqLoop sequence turns c =
      c.handUp (c.entry.list.next.takeWhile (notAfter sequence))
        (c.entry.list.next.dropWhile (notAfter sequence)) := by
  induction turns generalizing c with
  | zero =>
    have hl : c.entry.list.next = [] := List.eq_nil_of_length_eq_zero (Nat.le_zero.mp ht)
    have hc := c.handUp_nil h
    rw [hl] at hc
    simp [leSeqLoop, hl, hc]
  | succ turns ih =>
    cases hl : c.entry.list.next with
    | nil =>
      have hc := c.handUp_nil h
      rw [hl] at hc
      simp [leSeqLoop, baReorderingMpduProbe, hl, hc]
    | cons m rest =>
      obtain ⟨c', hp, hf⟩ := passHeadUp_cons h hl
      cases hs : notAfter sequence m with
      | true =>
        have hrec := ih (c.handUp [m] rest) rfl (by
          rw [hl, List.length_cons] at ht
          exact Nat.le_of_succ_le_succ ht)
        have hn : (c.handUp [m] rest).entry.list.next = rest := rfl
        rw [hn] at hrec
        have hs' := hs
        unfold notAfter at hs'
        simp only [leSeqLoop, baReorderingMpduProbe, hl, List.head?_cons, hs', if_true, hp, hf,
          hrec, ReCtx.handUp_cons, List.takeWhile_cons, List.dropWhile_cons, hs]
      | false =>
        have hc := c.handUp_nil h
        rw [hl] at hc
        have hs' := hs
        unfold notAfter at hs'
        simp [leSeqLoop, baReorderingMpduProbe, hl, hs', hs, hc]

theorem baIndicateReorderingMpdusLeSeq_eq (h : c.entry.list.Counted) (sequence : Nat) :
    baIndicateReorderingMpdusLeSeq c sequence =
      c.handUp (c.entry.list.next.takeWhile (notAfter sequence))
        (c.entry.list.next.dropWhile (notAfter sequence)) :=
  leSeqLoop_eq sequence _ c h (Nat.le_refl _)

def flushed (m : ReorderingMpdu) : List Out := [announced m, .lastIndSeq m.sequence]

theorem refreshLoop_eq (c : ReCtx) (h : c.entry.list.Counted)
    (ht : c.entry.list.next.length ≤ turns) :
    ∃ last, refreshLoop turns c =
      { freelist := c.entry.list.next.foldl baEnqueue c.freelist
        entry := { c.entry with list := {}, lastIndSeq := last }
        out := c.out ++ c.entry.list.next.flatMap flushed } := by
  induction turns generalizing c with
  | zero =>
    have hl : c.entry.list.next = [] := List.eq_nil_of_length_eq_zero (Nat.le_zero.mp ht)
    refine ⟨c.entry.lastIndSeq, ?_⟩
    have hc := c.handUp_nil h
    rw [hl] at hc
    rw [← hc]
    simp [refreshLoop, ReCtx.handUp]
  | succ turns ih =>
    cases hl : c.entry.list.next with
    | nil =>
      refine ⟨c.entry.lastIndSeq, ?_⟩
      have hc := c.handUp_nil h
      rw [hl] at hc
      simp only [refreshLoop, passHeadUp_nil h hl]
      rw [← hc]
      simp [ReCtx.handUp]
    | cons m rest =>
      obtain ⟨c', hp, hf⟩ := passHeadUp_cons h hl
      have hstep : baMpduBlkFree (c'.setLastIndSeq m.sequence) m =
          (c.handUp [m] rest).setLastIndSeq m.sequence := by
        rw [← hf]
        rfl
      obtain ⟨last, hrec⟩ := ih ((c.handUp [m] rest).setLastIndSeq m.sequence) rfl (by
        rw [hl, List.length_cons] at ht
        exact Nat.le_of_succ_le_succ ht)
      refine ⟨last, ?_⟩
      simp only [refreshLoop, hp, hstep, hrec]
      simp [ReCtx.setLastIndSeq, ReCtx.handUp, flushed]

theorem baRefreshReorderingMpdus_eq (h : c.entry.list.Counted) :
    baRefreshReorderingMpdus c =
      { freelist := c.entry.list.next.foldl baEnqueue c.freelist
        entry := { c.entry with list := {}, lastIndSeq := RESET_RCV_SEQ }
        out := c.out ++ c.entry.list.next.flatMap flushed ++ [.lastIndSeq RESET_RCV_SEQ] } := by
  obtain ⟨last, he⟩ := refreshLoop_eq _ c h (Nat.le_refl _)
  rw [baRefreshReorderingMpdus, he]
  rfl

theorem insertScan_some {l l' : List ReorderingMpdu} (h : insertScan m l = some l') :
    ∃ l₁ l₂, l = l₁ ++ l₂ ∧ l' = l₁ ++ m :: l₂ ∧
      (∀ x ∈ l₁, seqSmaller x.sequence m.sequence MAXSEQ = true) ∧
      ∀ y ∈ l₂.head?, seqSmaller y.sequence m.sequence MAXSEQ = false ∧ y.sequence ≠ m.sequence := by
  induction l generalizing l' with
  | nil =>
    simp only [insertScan, Option.some.injEq] at h
    exact ⟨[], [], rfl, h.symm, by simp, by simp⟩
  | cons x rest ih =>
    simp only [insertScan] at h
    split at h
    · next hx =>
      obtain ⟨r, hr, rfl⟩ := Option.map_eq_some_iff.mp h
      obtain ⟨l₁, l₂, rfl, rfl, hb, ha⟩ := ih hr
      refine ⟨x :: l₁, l₂, rfl, rfl, ?_, ha⟩
      intro y hy
      rcases List.mem_cons.mp hy with rfl | hy
      · exact hx
      · exact hb y hy
    · next hx =>
      split at h
      · cases h
      · next hne =>
        simp only [Option.some.injEq] at h
        refine ⟨[], x :: rest, rfl, h.symm, by simp, ?_⟩
        intro y hy
        obtain rfl := Option.some.inj hy
        exact ⟨Bool.eq_false_iff.mpr hx, by simpa using hne⟩

end Ralink.BlockAck
