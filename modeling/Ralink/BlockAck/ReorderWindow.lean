import Ralink.BlockAck.Runs

/-! The reordering list of a session is a window ahead of `LastIndSeq`, strictly increasing by
distance. The only event that can break this is an MPDU that is next in order while a frame of its
number is already buffered. -/
namespace Ralink.BlockAck
open Run SeqWindow

/-- How far `sequence` is ahead of `LastIndSeq`. -/
def BaRecEntry.distance (e : BaRecEntry) (m : ReorderingMpdu) : Nat :=
  (MAXSEQ + 1 + m.sequence - e.lastIndSeq) % (MAXSEQ + 1)

/-- `SEQ_SMALLER` on buffered frames. -/
def before (x y : ReorderingMpdu) : Prop := seqSmaller x.sequence y.sequence MAXSEQ = true

/-- The representation of a session's window, and what it makes of the list. -/
structure ReorderWindow (e : BaRecEntry) : Prop where
  window : (e.lastIndSeq = RESET_RCV_SEQ ∧ e.list.next = []) ∨
    (e.lastIndSeq ≤ MAXSEQ ∧ e.list.next.Pairwise (fun x y => e.distance x < e.distance y) ∧
      ∀ m ∈ e.list.next, m.sequence ≤ MAXSEQ ∧ 1 ≤ e.distance m ∧ e.distance m ≤ e.baWinSize)
  counted : e.list.qlen = e.list.next.length
  bounded : e.list.qlen ≤ e.baWinSize
  irrefl : ∀ x ∈ e.list.next, ¬ before x x
  trans : ∀ x ∈ e.list.next, ∀ y ∈ e.list.next, ∀ z ∈ e.list.next,
    before x y → before y z → before x z
  total : ∀ x ∈ e.list.next, ∀ y ∈ e.list.next, before x y ∨ x = y ∨ before y x

/-- The assertions on the way of an MPDU: with `LastIndSeq` reset the list is empty, and
after buffering the list is no longer than the window. -/
def AssertsHold (c : ReCtx) (rx : RxBlk) (now : BitVec 32) : Prop :=
  (c.entry.lastIndSeq = RESET_RCV_SEQ → c.entry.list.qlen = 0 ∧ c.entry.list.next = []) ∧
    ∀ c' ∈ enqueueCtx c rx now,
      0 ≤ (baEnqueueReorderingPacket c' rx).entry.list.qlen ∧
        (baEnqueueReorderingPacket c' rx).entry.list.qlen ≤
          (baEnqueueReorderingPacket c' rx).entry.baWinSize

/-- Every entry keeps its window, and no MPDU can run into a failing assertion. -/
def WindowsSound (ad : RtmpAdapter) : Prop :=
  ∀ i, ReorderWindow (ad.baTable.baRecEntry i) ∧
    ((ad.baTable.baRecEntry i).recBaStatus = .accept →
      ∀ rx now, AssertsHold (settled ad i rx now) rx now)

/-- The event is an MPDU that reaches a session, is next in order there and finds a frame
of its number buffered. -/
def RepeatsStep (ad : RtmpAdapter) : BaEvent → Prop
  | .ampdu rx now => ∃ idx ∈ ampduSession ad rx, RepeatsBuffered (settled ad idx rx now) rx
  | _ => False

instance (ad : RtmpAdapter) : DecidablePred (RepeatsStep ad)
  | .ampdu rx _ => inferInstanceAs (Decidable (∃ idx ∈ ampduSession ad rx, _))
  | .bar .. | .flushTimeout .. | .idleTimeout .. | .addbaReq .. | .addbaRsp .. | .delba ..
  | .oriSetUp .. | .setupTimeout .. | .oriTearDown .. | .recTearDown .. | .tearDownALL .. =>
    inferInstanceAs (Decidable False)

variable {e : BaRecEntry} {c : ReCtx} {rx : RxBlk} {now : BitVec 32} {ad : RtmpAdapter}
  {ev : BaEvent} {W o : Nat} {l : List ReorderingMpdu} {x y : ReorderingMpdu}

theorem distance_eq_fwd {m : ReorderingMpdu} (hl : e.lastIndSeq < 4096) (hm : m.sequence < 4096) :
    e.distance m = fwd 4096 e.lastIndSeq m.sequence := (fwd_eq_mod hl hm).symm

theorem Ahead.before_iff (h : Ahead W o l) (hW : W < 256) (hx : x ∈ l) (hy : y ∈ l) :
    before x y ↔ fwd 4096 o x.sequence < fwd 4096 o y.sequence := by
  obtain ⟨hx1, -, hx3⟩ := h.dist hx
  obtain ⟨hy1, -, hy3⟩ := h.dist hy
  rw [before, seqSmaller_iff hx1 hy1, smaller_iff h.1 hx1 hy1 (by omega) (by omega)]

theorem Ahead.eq_of_dist (h : Ahead W o l) (hx : x ∈ l) (hy : y ∈ l)
    (he : fwd 4096 o x.sequence = fwd 4096 o y.sequence) : x = y := by
  have hn : (l.map fun m => fwd 4096 o m.sequence).Nodup :=
    (List.pairwise_map.mpr h.sorted).imp Nat.ne_of_lt
  exact List.inj_on_of_nodup_map hn hx hy he

theorem Ahead.length_le (h : Ahead W o l) : l.length ≤ W := by
  have hl := h.2.length_le
  rwa [seqs, List.length_map] at hl

theorem WindowInv.qlen_le (h : WindowInv e) : 0 ≤ e.list.qlen ∧ e.list.qlen ≤ e.baWinSize := by
  have hc := h.counted
  rw [ReorderingList.Counted] at hc
  rcases h.window with ⟨-, hl⟩ | ha
  · rw [hc, hl, List.length_nil]
    omega
  · have := ha.length_le
    omega

theorem WindowInv.reorderWindow (h : WindowInv e) : ReorderWindow e := by
  have hone : ∀ x ∈ e.list.next, Ahead e.baWinSize e.lastIndSeq e.list.next := fun x hx =>
    h.ahead_of_ne_nil (List.ne_nil_of_mem hx)
  refine ⟨?_, h.counted, h.qlen_le.2, fun x hx => ?_, fun x hx y hy z hz => ?_, fun x hx y hy => ?_⟩
  · rcases h.window with hr | ha
    · exact Or.inl hr
    · refine Or.inr ⟨Nat.le_of_lt_succ ha.1, ha.sorted.imp_of_mem fun hx hy hxy => ?_, fun m hm => ?_⟩
      · rwa [distance_eq_fwd ha.1 (ha.dist hx).1, distance_eq_fwd ha.1 (ha.dist hy).1]
      · obtain ⟨hlt, h1, hw⟩ := ha.dist hm
        rw [distance_eq_fwd ha.1 hlt]
        exact ⟨Nat.le_of_lt_succ hlt, h1, hw⟩
  · rw [(hone x hx).before_iff h.width hx hx]
    exact lt_irrefl _
  · have ha := hone x hx
    rw [ha.before_iff h.width hx hy, ha.before_iff h.width hy hz, ha.before_iff h.width hx hz]
    exact lt_trans
  · have ha := hone x hx
    rw [ha.before_iff h.width hx hy, ha.before_iff h.width hy hx]
    rcases lt_trichotomy (fwd 4096 e.lastIndSeq x.sequence) (fwd 4096 e.lastIndSeq y.sequence) with
      hlt | heq | hgt
    · exact Or.inl hlt
    · exact Or.inr (Or.inl (ha.eq_of_dist hx hy heq))
    · exact Or.inr (Or.inr hgt)

theorem ReorderWindow.windowInv (h : ReorderWindow e) (hW : e.baWinSize < 256) : WindowInv e := by
  refine ⟨h.counted, hW, ?_⟩
  rcases h.window with hr | ⟨hl, hsorted, hdist⟩
  · exact Or.inl hr
  · have hl' : e.lastIndSeq < 4096 := Nat.lt_succ_of_le hl
    have hfwd : ∀ m ∈ e.list.next, m.sequence < 4096 ∧
        e.distance m = fwd 4096 e.lastIndSeq m.sequence := fun m hm =>
      have hlt : m.sequence < 4096 := Nat.lt_succ_of_le (hdist m hm).1
      ⟨hlt, distance_eq_fwd hl' hlt⟩
    refine Or.inr ⟨hl', ?_, ?_, ?_, ?_⟩
    · intro s hs
      obtain ⟨m, hm, rfl⟩ := List.mem_map.mp hs
      exact (hfwd m hm).1
    · intro s hs
      obtain ⟨m, hm, rfl⟩ := List.mem_map.mp hs
      exact (hfwd m hm).2 ▸ (hdist m hm).2.1
    · intro s hs
      obtain ⟨m, hm, rfl⟩ := List.mem_map.mp hs
      exact (hfwd m hm).2 ▸ (hdist m hm).2.2
    · refine List.pairwise_map.mpr (hsorted.imp_of_mem fun hx hy hxy => ?_)
      rwa [(hfwd _ hx).2, (hfwd _ hy).2] at hxy

theorem assertsHold (h : WindowInv c.entry) (h1 : 1 ≤ c.entry.baWinSize) : AssertsHold c rx now := by
  have hs : rx.sequence.toNat < 4096 := rx.sequence.isLt
  refine ⟨fun hr => ?_, fun c' hc' => ?_⟩
  · rcases h.window with ⟨-, hl⟩ | ha
    · have hq := h.counted
      rw [ReorderingList.Counted, hl] at hq
      exact ⟨hq, hl⟩
    · exact absurd hr (RESET_not_lt ha.1)
  · have hqlen : ∀ {e' : BaRecEntry}, e'.list.Counted → e'.baWinSize = c.entry.baWinSize →
        Ahead c.entry.baWinSize e'.lastIndSeq e'.list.next →
        0 ≤ e'.list.qlen ∧ e'.list.qlen ≤ e'.baWinSize := by
      intro e' hc hw ha
      exact WindowInv.qlen_le ⟨hc, hw ▸ h.width, Or.inr (hw ▸ ha)⟩
    unfold enqueueCtx at hc'
    split at hc'
    · next hcase =>
      obtain rfl := Option.some.inj hc'
      obtain ⟨ha, -, hd, -⟩ := h.case_dist hs (by rw [hcase]; simp)
      obtain ⟨hd2, hdW⟩ := hd hcase
      obtain ⟨hc, hw, ha'⟩ :=
        (baEnqueueReorderingPacket_cases c rx).ahead h.counted h.width ha (by omega) hdW
      exact hqlen hc hw ha'
    · next hcase =>
      obtain rfl := Option.some.inj hc'
      obtain ⟨hc, hw, ha'⟩ := beyond_enqueue_ahead now h h1 hcase
      exact hqlen hc hw ha'
    · cases hc'

theorem windowsSound_iff (h : AdapterInv ad) :
    WindowsSound ad ↔ ∀ i, WindowInv (ad.baTable.baRecEntry i) := by
  refine ⟨fun hs i => (hs i).1.windowInv (h.tidy i).width, fun hw i => ⟨(hw i).reorderWindow, ?_⟩⟩
  intro hacc rx now
  obtain ⟨hs, hwidth, -⟩ := settled_inv rx now (hw i)
  have hn : (ad.view.recip.entry i).recBaStatus ≠ .none := by
    change (ad.baTable.baRecEntry i).recBaStatus ≠ .none
    rw [hacc]
    simp
  exact assertsHold hs (hwidth ▸ (h.tables.recip.open_used i hn).2.winSize.1)

theorem baStep_windows_iff (h : AdapterInv ad) (hw : ∀ i, WindowInv (ad.baTable.baRecEntry i))
    (hr : ev.InRange) :
    (∀ i, WindowInv ((baStep ad ev).baTable.baRecEntry i)) ↔ ¬ RepeatsStep ad ev := by
  by_cases hne : ∀ rx now, ev ≠ .ampdu rx now
  · refine iff_of_true ((baStep_steps h.tables h.tidy hr hne).entries (P := WindowInv)
      (fun op hp => (op.window hp).1) hw) ?_
    cases ev with
    | ampdu rx now => exact absurd rfl (hne rx now)
    | _ => exact id
  · push Not at hne
    obtain ⟨rx, now, rfl⟩ := hne
    cases hs : ampduSession ad rx with
    | none =>
      obtain ⟨o, -, ho⟩ := indicateAmpduPacket_none hs now
      have hentry : (baStep ad (.ampdu rx now)).baTable.baRecEntry = ad.baTable.baRecEntry :=
        congrArg Sessions.entry ho
      rw [hentry]
      refine iff_of_true hw ?_
      rintro ⟨idx, hidx, -⟩
      rw [hs] at hidx
      cases hidx
    | some idx =>
      obtain ⟨-, hopen, he⟩ := indicateAmpduPacket_some h.tables hs now
      have hentry : ∀ i, (baStep ad (.ampdu rx now)).baTable.baRecEntry i = _ := fun i =>
        congrFun (congrArg Sessions.entry he) i
      have hrepeat : RepeatsStep ad (.ampdu rx now) ↔
          RepeatsBuffered (settled ad idx rx now) rx := by
        simp only [RepeatsStep, hs, Option.mem_some_iff, exists_eq_left']
      rw [hrepeat, ← ampdu_window_iff now (hw idx) hopen]
      refine ⟨fun hall => ?_, fun hidx i => ?_⟩
      · have hi := hall idx
        rw [hentry] at hi
        simp only [Sessions.act, Function.update_self] at hi
        exact hi
      · rw [hentry]
        exact Sessions.act_entry (s := ad.sessions) hw hidx i

/-- In every state of a run each session has its reorder window and the assertions hold,
exactly if no MPDU of the run is next in order with a frame of its number buffered. -/
theorem reorderWindow_iff (commonCfg : BaConfig) (station : Nat → MacTableEntry) (num : Nat)
    (evs : List BaEvent) (inRange : ∀ ev ∈ evs, ev.InRange) :
    AllSteps baStep (fun ad ev => ¬ RepeatsStep ad ev) (baTableInit commonCfg station num) evs ↔
      ∀ n, WindowsSound (exec baStep (baTableInit commonCfg station num) (evs.take n)) := by
  have hinit := baTableInit_windowsInv commonCfg station num
  refine allSteps_iff (Q := fun _ ev => ev.InRange) (A := AdapterInv) (G := WindowsSound)
    (fun _ _ h _ hr => baStep_adapterInv h hr) (fun ad ev h hs hr => ?_) hinit.1.toAdapterInv
    ((windowsSound_iff hinit.1.toAdapterInv).mpr hinit.1.windows)
    (AllSteps.of_forall fun ev hev _ => inRange ev hev)
  rw [windowsSound_iff (baStep_adapterInv h hr)]
  exact baStep_windows_iff h ((windowsSound_iff h).mp hs) hr

/-- The run that holds back frame 13, after which 13 is received once more. -/
def bufferedThenReceived : List BaEvent := eapBeforeBuffered ++ [.ampdu (mpdu 13 false) 0]

theorem reorderWindow_beforeRepeat :
    WindowsSound (exec baStep (baTableInit {} (fun w => { aid := w }) 8)
      (eapBeforeBuffered.take 4)) :=
  (reorderWindow_iff _ _ 8 eapBeforeBuffered (by decide)).mp (by decide) 4

/-- After it frame 13 is indicated, `LastIndSeq` is 13, and the list still holds a 13. -/
theorem bufferedThenReceived_breaksWindow :
    (∀ ev ∈ bufferedThenReceived, ev.InRange) ∧
      ¬ ReorderWindow ((exec baStep (baTableInit {} (fun w => { aid := w }) 8)
        bufferedThenReceived).baTable.baRecEntry 1) := by
  refine ⟨by decide, fun h => ?_⟩
  have hdist : ¬ ((exec baStep (baTableInit {} (fun w => { aid := w }) 8)
        bufferedThenReceived).baTable.baRecEntry 1).lastIndSeq = RESET_RCV_SEQ ∧
      ∃ m ∈ ((exec baStep (baTableInit {} (fun w => { aid := w }) 8)
        bufferedThenReceived).baTable.baRecEntry 1).list.next,
        ((exec baStep (baTableInit {} (fun w => { aid := w }) 8)
          bufferedThenReceived).baTable.baRecEntry 1).distance m = 0 := by
    decide
  obtain ⟨hl, m, hm, h0⟩ := hdist
  rcases h.window with ⟨hr, -⟩ | ⟨-, -, hall⟩
  · exact hl hr
  · have := (hall m hm).2.1
    omega

end Ralink.BlockAck
