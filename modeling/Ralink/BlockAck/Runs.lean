import Ralink.BlockAck.Effects

/-! Whatever requests, responses, timeouts and teardowns come, the counters count the entries in
use, entries and station slots refer to each other one to one, the bitmaps show which sessions are
up, and the allocators hand out free entries only. -/
namespace Ralink.BlockAck
open Function BackRef Run

/-- The two tables, the station arrays, the bitmaps and the counters agree. -/
structure SessionTablesConsistent (ad : RtmpAdapter) : Prop where
  numAsRecipient : ad.baTable.numAsRecipient =
    ((Finset.Ico 1 MAX_LEN_OF_BA_REC_TABLE).filter fun i =>
      (ad.baTable.baRecEntry i).recBaStatus ≠ .none).card
  numAsOriginator : ad.baTable.numAsOriginator =
    ((Finset.Ico 1 MAX_LEN_OF_BA_ORI_TABLE).filter fun i =>
      (ad.baTable.baOriEntry i).oriBaStatus ≠ .none).card
  numDoneOriginator : ad.baTable.numDoneOriginator =
    ((Finset.Ico 1 MAX_LEN_OF_BA_ORI_TABLE).filter fun i =>
      (ad.baTable.baOriEntry i).oriBaStatus = .done).card
  zeroFree : (ad.baTable.baRecEntry 0).recBaStatus = .none ∧
    (ad.baTable.baOriEntry 0).oriBaStatus = .none
  recReferenced : ∀ i, (ad.baTable.baRecEntry i).recBaStatus ≠ .none → ∀ wcid tid,
    (ad.content wcid).baRecWcidArray tid = i ↔
      wcid = (ad.baTable.baRecEntry i).wcid ∧ tid = (ad.baTable.baRecEntry i).tid
  oriReferenced : ∀ i, (ad.baTable.baOriEntry i).oriBaStatus ≠ .none → ∀ wcid tid,
    (ad.content wcid).baOriWcidArray tid = i ↔
      wcid = (ad.baTable.baOriEntry i).wcid ∧ tid = (ad.baTable.baOriEntry i).tid
  rxBAbitmap : ∀ wcid tid, tid < NUM_OF_TID → ((ad.content wcid).rxBAbitmap.getLsbD tid = true ↔
    ∃ i, (ad.baTable.baRecEntry i).recBaStatus = .accept ∧
      (ad.baTable.baRecEntry i).wcid = wcid ∧ (ad.baTable.baRecEntry i).tid = tid)
  txBAbitmap : ∀ wcid tid, tid < NUM_OF_TID → ((ad.content wcid).txBAbitmap.getLsbD tid = true ↔
    ∃ i, (ad.baTable.baOriEntry i).oriBaStatus = .done ∧
      (ad.baTable.baOriEntry i).wcid = wcid ∧ (ad.baTable.baOriEntry i).tid = tid)
  allocRec : ∀ idx, baTableAllocRecEntry ad idx = (ad, none, idx) ∨
    ∃ i, 1 ≤ i ∧ i < MAX_LEN_OF_BA_REC_TABLE ∧ (ad.baTable.baRecEntry i).recBaStatus = .none ∧
      baTableAllocRecEntry ad idx = (claimRec ad i, some i, i)
  allocOri : ∀ idx, baTableAllocOriEntry ad idx = (ad, none, idx) ∨
    ∃ i, 1 ≤ i ∧ i < MAX_LEN_OF_BA_ORI_TABLE ∧ (ad.baTable.baOriEntry i).oriBaStatus = .none ∧
      baTableAllocOriEntry ad idx = (claimOri ad i, some i, i)

theorem count_eq_card {n : Nat} {p : Nat → Bool} {q : Nat → Prop} [DecidablePred q]
    (h : ∀ i, p i = true ↔ q i) : count n p = ((Finset.Ico 1 n).filter q).card := by
  unfold count
  congr 1
  exact Finset.filter_congr fun i _ => h i

theorem TablesInv.consistent {ad : RtmpAdapter} (h : TablesInv ad) : SessionTablesConsistent ad where
  numAsRecipient := h.recip.counted.trans (count_eq_card fun i => bne_iff_ne)
  numAsOriginator := h.orig.counted.trans (count_eq_card fun i => bne_iff_ne)
  numDoneOriginator := h.orig.doneCounted.trans (count_eq_card fun i => beq_iff_eq)
  zeroFree := ⟨h.recip.zero, h.orig.zero⟩
  recReferenced i hi wcid tid := by
    have hslot := h.recip.linked.existsUnique_slot (BaRecEntry.owner_used hi) (wcid, tid)
    rw [Prod.mk.injEq] at hslot
    exact hslot
  oriReferenced i hi wcid tid := by
    have hslot := h.orig.linked.existsUnique_slot (BaOriEntry.owner_used hi) (wcid, tid)
    rw [Prod.mk.injEq] at hslot
    exact hslot
  rxBAbitmap wcid tid ht := by
    have hbit := h.recip.bits wcid tid (ht.trans (by decide))
    refine hbit.trans ⟨fun hs => ?_, ?_⟩
    · obtain ⟨-, hopen, hw, ht⟩ := h.recip.of_slot hs
      exact ⟨_, hopen.accept, hw, ht⟩
    · rintro ⟨i, hst, rfl, rfl⟩
      have hn : (ad.view.recip.entry i).recBaStatus ≠ .none := by
        change (ad.baTable.baRecEntry i).recBaStatus ≠ .none
        rw [hst]
        simp
      have hslot := h.recip.slot_of_used hn
      change ad.view.recip.slot ((ad.view.recip.entry i).wcid, (ad.view.recip.entry i).tid) ≠ 0
      rw [hslot]
      exact h.recip.ne_zero hn
  txBAbitmap wcid tid ht := by
    have hbit := h.orig.bits wcid tid (ht.trans (by decide))
    refine hbit.trans ⟨fun hs => ?_, ?_⟩
    · have h0 : ad.view.orig.slot (wcid, tid) ≠ 0 := by
        intro h0
        rw [h0, h.orig.zero] at hs
        cases hs
      obtain ⟨-, -, hw, ht⟩ := h.orig.of_slot h0
      exact ⟨_, hs, hw, ht⟩
    · rintro ⟨i, hst, rfl, rfl⟩
      have hn : (ad.view.orig.entry i).oriBaStatus ≠ .none := by
        change (ad.baTable.baOriEntry i).oriBaStatus ≠ .none
        rw [hst]
        simp
      have hslot := h.orig.slot_of_used hn
      change (ad.view.orig.entry (ad.view.orig.slot ((ad.view.orig.entry i).wcid,
        (ad.view.orig.entry i).tid))).oriBaStatus = .done
      rw [hslot]
      exact hst
  allocRec idx := baTableAllocRecEntry_cases h.recip idx
  allocOri idx := baTableAllocOriEntry_cases h.orig idx

theorem baTableInit_tablesInv (commonCfg : BaConfig) (station : Nat → MacTableEntry) (num : Nat) :
    TablesInv (baTableInit commonCfg station num) := by
  refine ⟨⟨Linked.empty, fun i hi => absurd rfl hi, fun w t ht => ?_, ?_⟩,
    ⟨Linked.empty, fun i hi => absurd rfl hi, fun w t ht => ?_, ?_, ?_⟩, fun w => rfl⟩
  · simp [RtmpAdapter.view, baTableInit]
  · exact (count_eq_zero fun _ _ _ => rfl).symm
  · simp [RtmpAdapter.view, baTableInit]
  · exact (count_eq_zero fun _ _ _ => rfl).symm
  · exact (count_eq_zero fun _ _ _ => rfl).symm

/-- The session tables are consistent after every run of events. -/
theorem sessionTables_consistent (commonCfg : BaConfig) (station : Nat → MacTableEntry) (num : Nat)
    (evs : List BaEvent) (inRange : ∀ ev ∈ evs, ev.InRange) :
    SessionTablesConsistent (exec baStep (baTableInit commonCfg station num) evs) :=
  (exec_inv (fun _ _ h hr => baStep_tablesInv h hr) (baTableInit_tablesInv commonCfg station num)
    (AllSteps.of_forall fun ev hev _ => inRange ev hev)).consistent

/-- Station 1 opens a session in each direction, on TIDs 0 and 3, and leaves the first. -/
def twoSessions : List BaEvent :=
  [.addbaReq 1 33 { baParm := { tid := 0, bufSize := 64 } } [],
    .oriSetUp 1 3 0 10 false,
    .setupTimeout 1,
    .addbaRsp 1 33 { baParm := { tid := 3, bufSize := 32 } } [true],
    .delba 1 30 { initiator := .originator, tid := 0 } []]

theorem sessionTables_consistent_twoSessions :
    (∀ ev ∈ twoSessions, ev.InRange) ∧
      SessionTablesConsistent (exec baStep (baTableInit {} (fun w => { aid := w }) 8) twoSessions) :=
  ⟨by decide, sessionTables_consistent _ _ 8 twoSessions (by decide)⟩

end Ralink.BlockAck

/-! What every operation on a session keeps whatever happens, and what it keeps of the reorder
window. A received MPDU is the only event with a condition. -/
namespace Ralink.BlockAck
open Function Relation Run

variable {c : ReCtx} {f : ReCtx → ReCtx} {s s' : Sessions} {idx : Nat}

theorem Sessions.act_entry {P : BaRecEntry → Prop} (h : ∀ i, P (s.entry i))
    (hf : P (f (s.ctx idx)).entry) : ∀ i, P ((s.act idx f).entry i) := by
  intro i
  rcases eq_or_ne i idx with rfl | hi
  · simpa [act] using hf
  · simpa [act, hi] using h i

section

variable (hc : c.entry.list.Counted)
include hc

theorem drainInOrder_counted (startSeq : Nat) : (drainInOrder c startSeq).entry.list.Counted := by
  simp only [drainInOrder, baIndicateReorderingMpdusInOrder_eq hc]
  split <;> rfl

theorem passUpUnordered_counted (rx : RxBlk) : (passUpUnordered c rx).entry.list.Counted := by
  rw [passUpUnordered, baIndicateReorderingMpdusLeSeq_eq hc]
  rfl

theorem baEnqueueReorderingPacket_counted (rx : RxBlk) :
    (baEnqueueReorderingPacket c rx).entry.list.Counted := by
  have h := baEnqueueReorderingPacket_cases c rx
  generalize baEnqueueReorderingPacket c rx = c' at h ⊢
  cases h with
  | stored alloc plain split before after =>
    rw [ReorderingList.Counted, split] at hc
    simp only [ReorderingList.Counted, hc, List.length_append, List.length_cons]
    push_cast
    ring
  | duplicate => exact hc
  | passedUp alloc full =>
    next free blk => exact passUpUnordered_counted (c := { c with freelist := free }) hc rx

theorem flush_counted (osHz : Nat) (now : BitVec 32) :
    (baFlushReorderingTimeoutMpdus osHz c now).entry.list.Counted := by
  have h := baFlushReorderingTimeoutMpdus_cases osHz hc now
  generalize baFlushReorderingTimeoutMpdus osHz c now = c' at h ⊢
  cases h with
  | kept => exact hc
  | all pending =>
    rw [baRefreshReorderingMpdus_eq hc]
    rfl
  | one pending =>
    rw [baIndicateReorderingMpdusLeSeq_eq hc]
    refine drainInOrder_counted ?_ _
    rfl

theorem reorderAmpdu_counted (rx : RxBlk) (now : BitVec 32) :
    (reorderAmpdu c rx now).entry.list.Counted := by
  rw [reorderAmpdu_eq]
  split
  · exact hc
  · exact drainInOrder_counted (c := indicateLegacyOrAmsdu (c.setLastIndSeq rx.sequence.toNat) rx) hc _
  · exact hc
  · exact hc
  · exact baEnqueueReorderingPacket_counted hc rx
  · rw [receiveBeyondWindow_eq, beyondCtx, baIndicateReorderingMpdusLeSeq_eq hc]
    refine drainInOrder_counted (baEnqueueReorderingPacket_counted ?_ rx) _
    rfl

theorem indicateAmpduOnEntry_counted (osHz : Nat) (rx : RxBlk) (now : BitVec 32) :
    (indicateAmpduOnEntry osHz c rx now).entry.list.Counted :=
  reorderAmpdu_counted (c := settleAmpdu osHz c rx now)
    (flush_counted (c := { c with entry := { c.entry with rcvSeq := rx.sequence.toNat } }) hc osHz now)
    rx now

end

theorem BaRecEntry.session_eq {e e' : BaRecEntry} (h : e'.session = e.session) :
    e'.wcid = e.wcid ∧ e'.tid = e.tid ∧ e'.baWinSize = e.baWinSize ∧
      e'.recBaStatus = e.recBaStatus := by
  simpa only [BaRecEntry.session, Prod.mk.injEq] using h

theorem SessionOp.tidy (op : SessionOp c.entry f) (h : c.entry.Tidy) : (f c).entry.Tidy := by
  obtain ⟨hc, hwidth, hidle⟩ := h
  cases op with
  | refresh =>
    rw [baRefreshReorderingMpdus_eq hc]
    exact ⟨rfl, hwidth, fun _ => rfl⟩
  | flush osHz now =>
    obtain ⟨-, -, hwin, hst⟩ := BaRecEntry.session_eq (flush_session c now osHz)
    refine ⟨flush_counted hc osHz now, hwin ▸ hwidth, fun hnone => ?_⟩
    have hl := hidle (hst ▸ hnone)
    dsimp only
    have h := baFlushReorderingTimeoutMpdus_cases osHz hc now
    generalize baFlushReorderingTimeoutMpdus osHz c now = c' at h ⊢
    cases h with
    | kept => exact hl
    | all pending => exact absurd hl pending
    | one pending => exact absurd hl pending
  | bar startSeq =>
    dsimp only
    unfold barOnEntry
    split
    · rw [baIndicateReorderingMpdusLeSeq_eq hc]
      refine ⟨rfl, hwidth, fun hst => ?_⟩
      simp [ReCtx.setLastIndSeq, ReCtx.handUp, hidle hst]
    · exact ⟨hc, hwidth, hidle⟩
  | start wcid tid baWinSize timeOut empty winSize =>
    exact ⟨hc, winSize.2, fun hst => by cases hst⟩
  | restart wcid tid baWinSize timeOut winSize =>
    dsimp only
    rw [baRefreshReorderingMpdus_eq hc]
    exact ⟨rfl, winSize.2, fun _ => rfl⟩
  | close =>
    rw [closeSession, baRefreshReorderingMpdus_eq hc]
    exact ⟨rfl, Nat.zero_lt_succ _, fun _ => rfl⟩

theorem SessionOp.window (op : SessionOp c.entry f) (h : WindowInv c.entry) :
    WindowInv (f c).entry ∧ (NothingHeldBack c.entry → NothingHeldBack (f c).entry) := by
  cases op with
  | refresh =>
    rw [baRefreshReorderingMpdus_eq h.counted]
    exact ⟨⟨rfl, h.width, Or.inl ⟨rfl, rfl⟩⟩, fun _ hr => absurd rfl hr⟩
  | flush osHz now => exact flush_inv osHz h now
  | bar startSeq => exact bar_inv h startSeq
  | start wcid tid baWinSize timeOut empty winSize =>
    exact ⟨⟨h.counted, winSize.2, Or.inl ⟨rfl, empty⟩⟩, fun _ hr => absurd rfl hr⟩
  | restart wcid tid baWinSize timeOut winSize =>
    dsimp only
    rw [baRefreshReorderingMpdus_eq h.counted]
    exact ⟨⟨rfl, winSize.2, Or.inl ⟨rfl, rfl⟩⟩, fun _ hr => absurd rfl hr⟩
  | close =>
    rw [closeSession, baRefreshReorderingMpdus_eq h.counted]
    exact ⟨⟨rfl, Nat.zero_lt_succ _, Or.inl ⟨rfl, rfl⟩⟩, fun _ hr => absurd rfl hr⟩

theorem SessionSteps.entries {P : BaRecEntry → Prop}
    (hP : ∀ {c f}, SessionOp c.entry f → P c.entry → P (f c).entry) (h : SessionSteps s s')
    (hs : ∀ i, P (s.entry i)) : ∀ i, P (s'.entry i) := by
  induction h with
  | refl => exact hs
  | tail _ hstep ih =>
    cases hstep with
    | act inTable op => exact Sessions.act_entry ih (hP (c := Sessions.ctx _ _) op (ih _))

structure AdapterInv (ad : RtmpAdapter) : Prop where
  tables : TablesInv ad
  tidy : Tidy ad.sessions

variable {ad : RtmpAdapter} {ev : BaEvent} {rx : RxBlk} {now : BitVec 32}

theorem baStep_adapterInv (h : AdapterInv ad) (hr : ev.InRange) : AdapterInv (baStep ad ev) := by
  refine ⟨baStep_tablesInv h.tables hr, ?_⟩
  by_cases hne : ∀ rx now, ev ≠ .ampdu rx now
  · exact (baStep_steps h.tables h.tidy hr hne).entries (fun op => op.tidy) h.tidy
  · push Not at hne
    obtain ⟨rx, now, rfl⟩ := hne
    cases hs : ampduSession ad rx with
    | none =>
      obtain ⟨o, -, ho⟩ := indicateAmpduPacket_none hs now
      simp only [baStep, ho]
      exact h.tidy
    | some idx =>
      obtain ⟨-, hopen, he⟩ := indicateAmpduPacket_some h.tables hs now
      simp only [baStep, he]
      obtain ⟨-, -, hwin, hst⟩ := BaRecEntry.session_eq
        (indicateAmpduOnEntry_session (ad.reCtx idx) rx now ad.commonCfg.osHz)
      refine Sessions.act_entry h.tidy
        ⟨indicateAmpduOnEntry_counted (h.tidy idx).counted _ rx now, ?_, fun hnone => ?_⟩
      · exact hwin.trans_lt (h.tidy idx).width
      · have hacc : RecBlockAckStatus.accept = .none :=
          hopen.accept.symm.trans (hst.symm.trans hnone)
        cases hacc

theorem baReorderingResourceInit_eq (num : Nat) :
    (baReorderingResourceInit num).Counted ∧
      (baReorderingResourceInit num).next = (List.range num).reverse.map fun i => { blk := i } := by
  unfold baReorderingResourceInit
  induction num with
  | zero => exact ⟨rfl, rfl⟩
  | succ num ih =>
    rw [List.range_succ, List.foldl_append, List.foldl_cons, List.foldl_nil]
    refine ⟨ih.1.enqueue _, ?_⟩
    rw [List.reverse_append]
    exact congrArg _ ih.2

theorem baTableInit_adapterInv (commonCfg : BaConfig) (station : Nat → MacTableEntry) (num : Nat) :
    AdapterInv (baTableInit commonCfg station num) :=
  ⟨baTableInit_tablesInv commonCfg station num, fun _ => ⟨rfl, Nat.zero_lt_succ _, fun _ => rfl⟩⟩

/-- The state in which `Indicate_AMPDU_Packet` decides about a frame of session `idx`. -/
def settled (ad : RtmpAdapter) (idx : Nat) (rx : RxBlk) (now : BitVec 32) : ReCtx :=
  settleAmpdu ad.commonCfg.osHz (ad.reCtx idx) rx now

theorem settled_inv (rx : RxBlk) (now : BitVec 32) (h : WindowInv (ad.baTable.baRecEntry idx)) :
    WindowInv (settled ad idx rx now).entry ∧
      (settled ad idx rx now).entry.baWinSize = (ad.baTable.baRecEntry idx).baWinSize ∧
      (NothingHeldBack (ad.baTable.baRecEntry idx) → NothingHeldBack (settled ad idx rx now).entry) := by
  let c : ReCtx :=
    { ad.reCtx idx with
      entry := { ad.baTable.baRecEntry idx with rcvSeq := rx.sequence.toNat } }
  have hf := flush_inv (c := c) ad.commonCfg.osHz ⟨h.counted, h.width, h.window⟩ now
  obtain ⟨-, -, hwin, -⟩ := BaRecEntry.session_eq (flush_session c now ad.commonCfg.osHz)
  exact ⟨⟨hf.1.counted, hf.1.width, hf.1.window⟩, hwin, hf.2⟩

end Ralink.BlockAck

/-! `LastIndSeq` is advanced without a drain in one place only: a frame inside the window for which
there is no reordering block, or which carries EAP, is passed up by itself. A run holds back a
deliverable frame exactly if this happens to a frame whose successor is buffered. -/
namespace Ralink.BlockAck
open Run

/-- The event is an MPDU that reaches a session and is passed up past its successor. -/
def StrandsStep (ad : RtmpAdapter) : BaEvent → Prop
  | .ampdu rx now => ∃ idx ∈ ampduSession ad rx, StrandsSuccessor (settled ad idx rx now) rx
  | _ => False

instance (ad : RtmpAdapter) : DecidablePred (StrandsStep ad)
  | .ampdu rx _ => inferInstanceAs (Decidable (∃ idx ∈ ampduSession ad rx, _))
  | .bar .. | .flushTimeout .. | .idleTimeout .. | .addbaReq .. | .addbaRsp .. | .delba ..
  | .oriSetUp .. | .setupTimeout .. | .oriTearDown .. | .recTearDown .. | .tearDownALL .. =>
    inferInstanceAs (Decidable False)

/-- No session holds back a frame it could deliver. -/
def NoFrameHeldBack (ad : RtmpAdapter) : Prop := ∀ i, NothingHeldBack (ad.baTable.baRecEntry i)

instance (e : BaRecEntry) : Decidable (NothingHeldBack e) :=
  inferInstanceAs (Decidable (_ → ∀ m ∈ e.list.next.head?, _))

structure WindowsInv (ad : RtmpAdapter) : Prop extends AdapterInv ad where
  windows : ∀ i, WindowInv (ad.baTable.baRecEntry i)

variable {ad : RtmpAdapter} {ev : BaEvent} {idx : Nat} {rx : RxBlk} (now : BitVec 32)

theorem ampdu_window_iff (h : WindowInv (ad.baTable.baRecEntry idx))
    (hopen : (ad.baTable.baRecEntry idx).Open) :
    WindowInv (indicateAmpduOnEntry ad.commonCfg.osHz (ad.reCtx idx) rx now).entry ↔
      ¬ RepeatsBuffered (settled ad idx rx now) rx := by
  obtain ⟨hs, hwidth, -⟩ := settled_inv rx now h
  exact reorder_inv hs (hwidth ▸ hopen.winSize.1)

theorem ampdu_heldBack_iff (h : WindowInv (ad.baTable.baRecEntry idx))
    (hopen : (ad.baTable.baRecEntry idx).Open) (hn : NothingHeldBack (ad.baTable.baRecEntry idx)) :
    WindowInv (indicateAmpduOnEntry ad.commonCfg.osHz (ad.reCtx idx) rx now).entry ∧
      (NothingHeldBack (indicateAmpduOnEntry ad.commonCfg.osHz (ad.reCtx idx) rx now).entry ↔
        ¬ StrandsSuccessor (settled ad idx rx now) rx) := by
  obtain ⟨hs, hwidth, hheld⟩ := settled_inv rx now h
  have h1 := hwidth ▸ hopen.winSize.1
  exact ⟨(reorder_inv hs h1).mpr ((hheld hn).not_repeats hs), reorder_nhb hs h1 (hheld hn)⟩

theorem baStep_heldBack (h : WindowsInv ad) (hn : NoFrameHeldBack ad) (hr : ev.InRange) :
    WindowsInv (baStep ad ev) ∧ (NoFrameHeldBack (baStep ad ev) ↔ ¬ StrandsStep ad ev) := by
  have hbase := baStep_adapterInv h.toAdapterInv hr
  by_cases hne : ∀ rx now, ev ≠ .ampdu rx now
  · have hall : ∀ i, WindowInv ((baStep ad ev).baTable.baRecEntry i) ∧
        NothingHeldBack ((baStep ad ev).baTable.baRecEntry i) :=
      (baStep_steps h.tables h.tidy hr hne).entries
        (P := fun e => WindowInv e ∧ NothingHeldBack e)
        (fun op hp => ⟨(op.window hp.1).1, (op.window hp.1).2 hp.2⟩) fun i => ⟨h.windows i, hn i⟩
    refine ⟨⟨hbase, fun i => (hall i).1⟩, iff_of_true (fun i => (hall i).2) ?_⟩
    cases ev with
    | ampdu rx now => exact absurd rfl (hne rx now)
    | _ => exact id
  · push Not at hne
    obtain ⟨rx, now, rfl⟩ := hne
    cases hs : ampduSession ad rx with
    | none =>
      obtain ⟨o, -, ho⟩ := indicateAmpduPacket_none hs now
      have hentry : (baStep ad (.ampdu rx now)).baTable.baRecEntry = ad.baTable.baRecEntry :=
        congrArg Sessions.entry ho
      refine ⟨⟨hbase, hentry ▸ h.windows⟩, iff_of_true ?_ ?_⟩
      · rw [NoFrameHeldBack, hentry]
        exact hn
      · rintro ⟨idx, hidx, -⟩
        rw [hs] at hidx
        cases hidx
    | some idx =>
      obtain ⟨-, hopen, he⟩ := indicateAmpduPacket_some h.tables hs now
      have hentry : ∀ i, (baStep ad (.ampdu rx now)).baTable.baRecEntry i = _ := fun i =>
        congrFun (congrArg Sessions.entry he) i
      obtain ⟨hw, hiff⟩ := ampdu_heldBack_iff now (h.windows idx) hopen (hn idx)
      have hwin : ∀ i, WindowInv ((baStep ad (.ampdu rx now)).baTable.baRecEntry i) := by
        intro i
        rw [hentry]
        exact Sessions.act_entry (s := ad.sessions) h.windows hw i
      have hstrand : StrandsStep ad (.ampdu rx now) ↔
          StrandsSuccessor (settled ad idx rx now) rx := by
        simp only [StrandsStep, hs, Option.mem_some_iff, exists_eq_left']
      refine ⟨⟨hbase, hwin⟩, ?_⟩
      rw [hstrand, ← hiff]
      refine ⟨fun hall => ?_, fun hidx i => ?_⟩
      · have hi := hall idx
        rw [hentry] at hi
        simp only [Sessions.act, Function.update_self] at hi
        exact hi
      · rw [hentry]
        exact Sessions.act_entry (s := ad.sessions) hn hidx i

theorem baTableInit_windowsInv (commonCfg : BaConfig) (station : Nat → MacTableEntry) (num : Nat) :
    WindowsInv (baTableInit commonCfg station num) ∧
      NoFrameHeldBack (baTableInit commonCfg station num) :=
  ⟨⟨baTableInit_adapterInv commonCfg station num, fun _ =>
    ⟨rfl, Nat.zero_lt_succ _, Or.inr (Ahead.nil (Nat.zero_lt_succ _))⟩⟩, fun _ _ _ hm => by cases hm⟩

/-- A run holds nothing back in any state it reaches exactly if no MPDU in it is passed up
past its buffered successor. -/
theorem noFrameHeldBack_iff (commonCfg : BaConfig) (station : Nat → MacTableEntry) (num : Nat)
    (evs : List BaEvent) (inRange : ∀ ev ∈ evs, ev.InRange) :
    AllSteps baStep (fun ad ev => ¬ StrandsStep ad ev) (baTableInit commonCfg station num) evs ↔
      ∀ n, NoFrameHeldBack (exec baStep (baTableInit commonCfg station num) (evs.take n)) := by
  obtain ⟨hinv, hheld⟩ := baTableInit_windowsInv commonCfg station num
  exact allSteps_iff (Q := fun _ ev => ev.InRange) (A := WindowsInv) (G := NoFrameHeldBack)
    (fun _ _ h hn hr => (baStep_heldBack h hn hr).1)
    (fun _ _ h hn hr => (baStep_heldBack h hn hr).2) hinv hheld
    (AllSteps.of_forall fun ev hev _ => inRange ev hev)

def mpdu (sequence : BitVec 12) (fRxEap : Bool) : RxBlk :=
  { sequence, pRxPacket := sequence.toNat, fRxEap, wirelessCliID := 1, tid := 0 }

/-- Frame 10 opens the sequence, 13 is buffered, then the EAP frame 12 is passed up. -/
def eapBeforeBuffered : List BaEvent :=
  [.addbaReq 1 33 { baParm := { tid := 0, bufSize := 64 } } [],
    .ampdu (mpdu 10 false) 0, .ampdu (mpdu 13 false) 0, .ampdu (mpdu 12 true) 0]

theorem noFrameHeldBack_beforeEap :
    NoFrameHeldBack (exec baStep (baTableInit {} (fun w => { aid := w }) 8)
      ((eapBeforeBuffered.take 3).take 3)) :=
  (noFrameHeldBack_iff _ _ 8 (eapBeforeBuffered.take 3) (by decide)).mp (by decide) 3

/-- After that run frame 13 follows `LastIndSeq` and is still buffered. -/
theorem eapBeforeBuffered_holdsBack :
    (∀ ev ∈ eapBeforeBuffered, ev.InRange) ∧
      ¬ NothingHeldBack ((exec baStep (baTableInit {} (fun w => { aid := w }) 8)
        eapBeforeBuffered).baTable.baRecEntry 1) := by
  decide

end Ralink.BlockAck
