import Ralink.BlockAck.Runs
import Ralink.BlockAck.Trace

/-! Every operation on a recipient entry keeps the order of its trace, provided no packet is handed
up, and no BlockAckReq points, past a buffered frame of the same number. -/
namespace Ralink.BlockAck
open Run SeqWindow

variable {t : Trace} {W o k v : Nat} {l pre rest : List ReorderingMpdu} {c : ReCtx} {rx : RxBlk}
  {now : BitVec 32} {e : BaRecEntry} (osHz : Nat) {m : ReorderingMpdu}

theorem Ahead.takeWhile_before (h : Ahead W o l) (hW : W < 256) (hv : v < 4096)
    (hk : fwd 4096 o v ≤ 2048) (hn : v ∉ seqs l) (hm : m ∈ l.takeWhile (notAfter v)) :
    fwd 4096 o m.sequence < fwd 4096 o v := by
  have hmem := (List.takeWhile_sublist _).subset hm
  refine lt_of_le_of_ne (h.takeWhile_upto hW hv hk hm) fun he => hn ?_
  rw [← fwd_injective h.1 (h.dist hmem).1 hv he]
  exact mem_seqs hmem

theorem Ahead.inOrderSplit_reached (h : Ahead W o l) (hp : (BlockAck.inOrderSplit o l).1 ≠ []) :
    ∃ m ∈ (BlockAck.inOrderSplit o l).1.getLast?, reached o (BlockAck.inOrderSplit o l).1 = m.sequence ∧
      (∀ x ∈ (BlockAck.inOrderSplit o l).1, fwd 4096 o x.sequence ≤ fwd 4096 o m.sequence) ∧
      ∀ x ∈ (BlockAck.inOrderSplit o l).2, fwd 4096 o m.sequence < fwd 4096 o x.sequence := by
  have hsorted := h.sorted
  rw [← inOrderSplit_append o l] at hsorted
  generalize BlockAck.inOrderSplit o l = split at hp hsorted ⊢
  obtain ⟨pre, m, hpre⟩ := (List.eq_nil_or_concat split.1).resolve_left hp
  rw [List.concat_eq_append] at hpre
  rw [hpre] at hsorted ⊢
  obtain ⟨hleft, -, hcross⟩ := List.pairwise_append.mp hsorted
  refine ⟨m, by simp, by simp [reached], fun x hx => ?_, fun x hx => hcross m (by simp) x hx⟩
  rcases List.mem_append.mp hx with hx | hx
  · exact ((List.pairwise_append.mp hleft).2.2 x hx m List.mem_cons_self).le
  · rw [List.mem_singleton.mp hx]

structure Delivering (k : Nat) (t : Trace) (c : ReCtx) : Prop where
  counted : c.entry.list.Counted
  behind : Behind k (t.observeAll c.out) c.entry.baWinSize c.entry.lastIndSeq c.entry.list.next

theorem observeAll_lastIndSeq (t : Trace) (hv : v < 4096) :
    t.observeAll [.lastIndSeq v] = t.assign v := if_neg (RESET_not_lt hv)

theorem observeAll_advance (t : Trace) (c : ReCtx) (hv : v < 4096) :
    t.observeAll ((c.handUp pre rest).setLastIndSeq v).out =
      ((t.observeAll c.out).observeAll (pre.map announced)).assign v := by
  rw [ReCtx.setLastIndSeq, observeAll_append, observeAll_lastIndSeq _ hv, ReCtx.handUp,
    observeAll_append]

theorem Delivering.advance (h : Delivering k t c) (hl : c.entry.list.next = pre ++ rest)
    (hv : v < 4096) (hk : k < 2048) (hlt : fwd 4096 c.entry.lastIndSeq v ≤ k)
    (hpre : ∀ m ∈ pre, fwd 4096 c.entry.lastIndSeq m.sequence ≤ fwd 4096 c.entry.lastIndSeq v)
    (hrest : ∀ m ∈ rest, fwd 4096 c.entry.lastIndSeq v < fwd 4096 c.entry.lastIndSeq m.sequence) :
    Delivering (k - fwd 4096 c.entry.lastIndSeq v) t ((c.handUp pre rest).setLastIndSeq v) := by
  refine ⟨rfl, ?_⟩
  rw [observeAll_advance t c hv]
  have hb := h.behind
  rw [hl] at hb
  exact (hb.advance hv hk hlt hpre hrest).1

theorem Delivering.drain (h : Delivering 2047 t c) :
    Delivering 2047 t (drainInOrder c c.entry.lastIndSeq) := by
  have ha := h.behind.window
  simp only [drainInOrder, baIndicateReorderingMpdusInOrder_eq h.counted, inOrderLast_eq]
  by_cases hp : (inOrderSplit c.entry.lastIndSeq c.entry.list.next).1 = []
  · have hrest := inOrderSplit_append c.entry.lastIndSeq c.entry.list.next
    rw [hp, List.nil_append] at hrest
    rw [hp, hrest, c.handUp_nil h.counted]
    simpa using h
  · obtain ⟨m, hm, hreached, hpre, hrest⟩ := ha.inOrderSplit_reached hp
    have hmem : m ∈ c.entry.list.next := by
      rw [← inOrderSplit_append c.entry.lastIndSeq c.entry.list.next]
      exact List.mem_append_left _ (List.mem_of_getLast? hm)
    obtain ⟨hv, h1, hW⟩ := ha.dist hmem
    have hwidth := h.behind.width
    have hl := (inOrderSplit_append c.entry.lastIndSeq c.entry.list.next).symm
    have hb := h.behind
    rw [hl] at hb
    obtain ⟨hadv, -, htop⟩ := hb.advance hv (by omega) (by omega) hpre hrest
    rw [if_neg hp, hreached, if_pos (RESET_not_lt hv)]
    refine ⟨rfl, ?_⟩
    rw [observeAll_advance t c hv]
    exact hadv.full (htop m hm rfl)

theorem Delivering.leSeq (h : Delivering 2047 t c) {target : Nat} (ht : target < 4096)
    (hk : fwd 4096 c.entry.lastIndSeq target ≤ 2048) (hv : v < 4096)
    (hlt : fwd 4096 c.entry.lastIndSeq v ≤ 2047)
    (hle : fwd 4096 c.entry.lastIndSeq v ≤ fwd 4096 c.entry.lastIndSeq target)
    (hpre : ∀ m ∈ c.entry.list.next.takeWhile (notAfter target),
      fwd 4096 c.entry.lastIndSeq m.sequence ≤ fwd 4096 c.entry.lastIndSeq v) :
    Delivering (2047 - fwd 4096 c.entry.lastIndSeq v) t
      ((baIndicateReorderingMpdusLeSeq c target).setLastIndSeq v) := by
  rw [baIndicateReorderingMpdusLeSeq_eq h.counted]
  exact h.advance List.takeWhile_append_dropWhile.symm hv (by omega) hlt hpre fun m hm =>
    hle.trans_lt (h.behind.window.dropWhile_beyond h.behind.width ht hk hm)

theorem Delivering.passUp (h : Delivering k t c) (hk : k < 2048)
    (h1 : 1 ≤ fwd 4096 c.entry.lastIndSeq rx.sequence.toNat)
    (hlt : fwd 4096 c.entry.lastIndSeq rx.sequence.toNat ≤ k)
    (hn : rx.sequence.toNat ∉ seqs c.entry.list.next) :
    Delivering 2047 t (passUpUnordered c rx) := by
  have hs : rx.sequence.toNat < 4096 := rx.sequence.isLt
  have ha := h.behind.window
  have hW := h.behind.width
  have hb := h.behind
  rw [← List.takeWhile_append_dropWhile (p := notAfter rx.sequence.toNat)
    (l := c.entry.list.next)] at hb
  obtain ⟨hadv, hstrict, -⟩ := hb.advance hs hk hlt
    (fun m hm => (ha.takeWhile_before hW hs (by omega) hn hm).le)
    fun m hm => ha.dropWhile_beyond hW hs (by omega) hm
  rw [passUpUnordered, baIndicateReorderingMpdusLeSeq_eq h.counted]
  refine ⟨rfl, ?_⟩
  rw [indicateLegacyOrAmsdu, ReCtx.emit, observeAll_append, observeAll_advance t c hs]
  exact hadv.deliver (hstrict (fun m hm => ha.takeWhile_before hW hs (by omega) hn hm) h1)

theorem Behind.store (h : Behind k t W o l) {l₁ l₂ : List ReorderingMpdu} (hl : l = l₁ ++ l₂)
    (ha : Ahead W o (l₁ ++ m :: l₂)) (hd : fwd 4096 o m.sequence ≤ k) :
    Behind 2047 t W o (l₁ ++ m :: l₂) := by
  have hmem : m ∈ l₁ ++ m :: l₂ := by simp
  have h1 := (ha.dist hmem).2.1
  refine Behind.of_ne_nil (k := k)
    ⟨⟨h.inOrder, h.width, ha, h.lastIs, h.number, ?_, ?_⟩, h.below, ?_⟩ (by simp)
  · intro p hp x hx
    have := h.below p hp
    have := (ha.dist hx).2.1
    omega
  · intro hb p hp x hx
    cases l₁ with
    | cons y l₁ => exact h.near hb p hp x (by rw [hl]; exact hx)
    | nil =>
      obtain rfl := Option.some.inj hx
      cases l₂ with
      | nil =>
        have := h.gap hl hb p hp
        omega
      | cons y l₂ =>
        have := h.near hb p hp y (by rw [hl]; rfl)
        have hlt : fwd 4096 o m.sequence < fwd 4096 o y.sequence :=
          List.rel_of_pairwise_cons ha.sorted List.mem_cons_self
        omega
  · intro hnil
    simp at hnil

theorem Delivering.enqueue (h : Delivering k t c) (hk : k < 2048)
    (h1 : 1 ≤ fwd 4096 c.entry.lastIndSeq rx.sequence.toNat)
    (hw : fwd 4096 c.entry.lastIndSeq rx.sequence.toNat ≤ c.entry.baWinSize)
    (hlt : fwd 4096 c.entry.lastIndSeq rx.sequence.toNat ≤ k)
    (hn : fallsBack c.freelist rx = true → rx.sequence.toNat ∉ seqs c.entry.list.next) :
    Delivering 2047 t (baEnqueueReorderingPacket c rx) := by
  have hcase := baEnqueueReorderingPacket_cases c rx
  have hb := h.behind
  obtain ⟨hcounted, hwidth, ha⟩ := hcase.ahead h.counted hb.width hb.window h1 hw
  generalize baEnqueueReorderingPacket c rx = c' at hcase hcounted hwidth ha ⊢
  cases hcase with
  | stored alloc plain split before after => exact ⟨hcounted, hb.store split ha hlt⟩
  | duplicate alloc plain scan =>
    refine ⟨hcounted, ?_⟩
    rw [observeAll_append, observeAll_released]
    refine hb.of_ne_nil fun hnil => ?_
    rw [hnil] at scan
    cases scan
  | passedUp alloc full =>
    next free blk =>
    exact Delivering.passUp (c := { c with freelist := free }) ⟨h.counted, hb⟩ hk h1 hlt (hn full)

structure SessionOrder (t : Trace) (e : BaRecEntry) : Prop where
  counted : e.list.Counted
  winSize : 1 ≤ e.baWinSize ∧ e.baWinSize < 256
  state : (e.lastIndSeq = RESET_RCV_SEQ ∧ e.list.next = [] ∧
      t.InOrder ∧ t.last = none ∧ t.turn = []) ∨
    Behind 2047 t e.baWinSize e.lastIndSeq e.list.next

theorem SessionOrder.windowInv (h : SessionOrder t e) : WindowInv e := by
  refine ⟨h.counted, h.winSize.2, ?_⟩
  rcases h.state with ⟨hr, hl, -⟩ | hb
  · exact Or.inl ⟨hr, hl⟩
  · exact Or.inr hb.window

theorem SessionOrder.inOrder (h : SessionOrder t e) : t.InOrder := by
  rcases h.state with ⟨-, -, ho, -⟩ | hb
  · exact ho
  · exact hb.inOrder

theorem SessionOrder.behind (h : SessionOrder t e) (hr : e.lastIndSeq ≠ RESET_RCV_SEQ) :
    Behind 2047 t e.baWinSize e.lastIndSeq e.list.next := by
  rcases h.state with ⟨hl, -⟩ | hb
  · exact absurd hl hr
  · exact hb

theorem Delivering.sessionOrder (h : Delivering 2047 t c) (h1 : 1 ≤ c.entry.baWinSize) :
    SessionOrder (t.observeAll c.out) c.entry := ⟨h.counted, ⟨h1, h.behind.width⟩, Or.inr h.behind⟩

theorem Trace.InOrder.reset (h : t.InOrder) : t.reset.InOrder := by
  have hturns : ∀ turn ∈ t.reset.turns, turn = [] ∨ turn ∈ t.turns := by
    intro turn hmem
    rcases List.mem_append.mp hmem with hmem | hmem
    · exact Or.inr hmem
    · exact Or.inl (List.mem_singleton.mp hmem)
  refine ⟨fun turn hmem p hp => ?_, h.forward, fun turn hmem => ?_⟩
  · rcases hturns turn hmem with rfl | hmem
    · cases hp
    · exact h.unwrapped turn hmem p hp
  · rcases hturns turn hmem with rfl | hmem
    · exact List.isChain_nil
    · exact h.order turn hmem

theorem Trace.InOrder.start (h : t.InOrder) (hlast : t.last = none) (hturn : t.turn = [])
    (hv : v < 4096) (hW : W < 256) : Behind 2047 (t.assign v) W v [] ∧ (t.assign v).turn = [] := by
  have ht : t.assign v = { t with last := some v, position := v } := by
    simp [Trace.assign, hlast]
  rw [ht]
  have hnone : ∀ p ∈ t.turn.getLast?, False := by simp [hturn]
  exact ⟨⟨⟨⟨h.unwrapped, h.forward, h.order⟩, hW, .nil hv, rfl, Nat.mod_eq_of_lt hv,
    fun p hp => (hnone p hp).elim, fun _ p hp => (hnone p hp).elim⟩,
    fun p hp => (hnone p hp).elim, fun _ _ p hp => (hnone p hp).elim⟩, hturn⟩

theorem Behind.flushed (h : Behind 2047 t W o l) : (t.observeAll (l.flatMap flushed)).InOrder := by
  induction l generalizing t o with
  | nil => exact h.inOrder
  | cons m rest ih =>
    obtain ⟨hlt, h1, hw⟩ := h.window.dist (List.mem_cons_self (a := m) (l := rest))
    have hwidth := h.width
    obtain ⟨hadv, -, htop⟩ := Behind.advance (show Behind 2047 t W o ([m] ++ rest) from h) hlt (by omega) (by omega)
      (by simp) fun x hx => List.rel_of_pairwise_cons h.window.sorted hx
    have hfull := hadv.full (htop m rfl rfl)
    rw [List.flatMap_cons, observeAll_append]
    have htrace : t.observeAll (BlockAck.flushed m) =
        (t.observeAll ([m].map announced)).assign m.sequence := by
      change (t.observeAll [announced m]).observeAll [.lastIndSeq m.sequence] = _
      rw [observeAll_lastIndSeq _ hlt]
      rfl
    rw [htrace]
    exact ih hfull

theorem SessionOrder.flush (h : SessionOrder (t.observeAll c.out) c.entry) (now : BitVec 32) :
    SessionOrder (t.observeAll (baFlushReorderingTimeoutMpdus osHz c now).out)
      (baFlushReorderingTimeoutMpdus osHz c now).entry := by
  have hcase := baFlushReorderingTimeoutMpdus_cases osHz h.counted now
  obtain ⟨-, -, hwin, -⟩ := BaRecEntry.session_eq (flush_session c now osHz)
  generalize baFlushReorderingTimeoutMpdus osHz c now = c' at hcase hwin ⊢
  cases hcase with
  | kept => exact h
  | all pending =>
    have hb := h.behind (RESET_not_lt (h.windowInv.ahead_of_ne_nil pending).1)
    rw [baRefreshReorderingMpdus_eq h.counted]
    have htrace : t.observeAll (c.out ++ c.entry.list.next.flatMap BlockAck.flushed ++
        [.lastIndSeq RESET_RCV_SEQ]) =
          ((t.observeAll c.out).observeAll (c.entry.list.next.flatMap BlockAck.flushed)).reset := by
      rw [observeAll_append, observeAll_append]
      rfl
    refine ⟨rfl, h.winSize, Or.inl ⟨rfl, rfl, ?_⟩⟩
    change (t.observeAll (c.out ++ _ ++ _)).InOrder ∧ (t.observeAll (c.out ++ _ ++ _)).last = _ ∧
      (t.observeAll (c.out ++ _ ++ _)).turn = _
    rw [htrace]
    exact ⟨hb.flushed.reset, rfl, rfl⟩
  | one pending =>
    have ha := h.windowInv.ahead_of_ne_nil pending
    have hW := h.winSize
    have ht : (c.entry.lastIndSeq + 1) % 4096 < 4096 := Nat.mod_lt _ (by omega)
    have h1 : fwd 4096 c.entry.lastIndSeq ((c.entry.lastIndSeq + 1) % 4096) = 1 :=
      fwd_succ (by omega) ha.1
    generalize (c.entry.lastIndSeq + 1) % 4096 = next at ht h1 hwin
    have hmoved : Delivering 2047 t ((baIndicateReorderingMpdusLeSeq c next).setLastIndSeq next) := by
      have hb := h.behind (RESET_not_lt ha.1)
      have hpre : ∀ m ∈ c.entry.list.next.takeWhile (notAfter next),
          fwd 4096 c.entry.lastIndSeq m.sequence = 1 := by
        intro m hm
        have hle := ha.takeWhile_upto hW.2 ht (by omega) hm
        have := (ha.dist ((List.takeWhile_sublist _).subset hm)).2.1
        omega
      have hsplit := List.takeWhile_append_dropWhile (p := notAfter next) (l := c.entry.list.next)
      rw [← hsplit] at hb
      obtain ⟨hadv, -, htop⟩ := hb.advance ht (by omega) (by omega)
        (fun m hm => by rw [hpre m hm, h1])
        fun m hm => ha.dropWhile_beyond hW.2 ht (by omega) hm
      rw [baIndicateReorderingMpdusLeSeq_eq h.counted]
      refine ⟨rfl, ?_⟩
      rw [observeAll_advance t c ht]
      -- either the head went up and stands at `next`, or it is still in the list
      cases hlast : (c.entry.list.next.takeWhile (notAfter next)).getLast? with
      | some m =>
        refine hadv.full (htop m hlast ?_)
        rw [hpre m (List.mem_of_getLast? hlast), h1]
      | none =>
        rw [List.getLast?_eq_none_iff] at hlast
        rw [hlast, List.nil_append] at hsplit
        refine hadv.of_ne_nil ?_
        rw [hsplit]
        exact pending
    have htimed : Delivering 2047 t
        (((baIndicateReorderingMpdusLeSeq c next).setLastIndSeqAtTimer now).setLastIndSeq next) :=
      ⟨hmoved.counted, hmoved.behind⟩
    exact htimed.drain.sessionOrder (hW.1.trans_eq hwin.symm)

theorem SessionOrder.settle (h : SessionOrder (t.observeAll c.out) c.entry) (rx : RxBlk)
    (now : BitVec 32) :
    SessionOrder (t.observeAll (settleAmpdu osHz c rx now).out) (settleAmpdu osHz c rx now).entry := by
  let c' : ReCtx := { c with entry := { c.entry with rcvSeq := rx.sequence.toNat } }
  have hf := SessionOrder.flush (c := c') osHz ⟨h.counted, h.winSize, h.state⟩ now
  exact ⟨hf.counted, hf.winSize, hf.state⟩

def PassesBuffered (c : ReCtx) (rx : RxBlk) : Prop :=
  (receiveCase c.entry rx.sequence.toNat = .inOrder ∨
      receiveCase c.entry rx.sequence.toNat = .inWindow ∧ fallsBack c.freelist rx = true) ∧
    rx.sequence.toNat ∈ seqs c.entry.list.next

theorem Delivering.inOrder (h : Delivering 2047 t c)
    (hcase : fwd 4096 c.entry.lastIndSeq rx.sequence.toNat = 1)
    (hn : rx.sequence.toNat ∉ seqs c.entry.list.next) :
    Delivering 2047 t (indicateLegacyOrAmsdu (c.setLastIndSeq rx.sequence.toNat) rx) := by
  have hs : rx.sequence.toNat < 4096 := rx.sequence.isLt
  have ha := h.behind.window
  obtain ⟨hadv, hstrict, -⟩ := Behind.advance
    (show Behind 2047 _ _ _ ([] ++ c.entry.list.next) from h.behind) hs (by omega) (by omega)
    (by simp) fun m hm => by
      have hdist := ha.dist hm
      rcases Nat.lt_or_eq_of_le hdist.2.1 with hlt | heq
      · omega
      · exact absurd (fwd_injective ha.1 hs hdist.1 (by omega) ▸ mem_seqs hm) hn
  refine ⟨h.counted, ?_⟩
  rw [indicateLegacyOrAmsdu, ReCtx.emit, ReCtx.setLastIndSeq, observeAll_append, observeAll_append,
    observeAll_lastIndSeq _ hs]
  exact hadv.deliver (hstrict (by simp) (by omega))

theorem SessionOrder.first (h : SessionOrder (t.observeAll c.out) c.entry)
    (hr : c.entry.lastIndSeq = RESET_RCV_SEQ) (rx : RxBlk) :
    SessionOrder (t.observeAll (indicateLegacyOrAmsdu
      ((c.setLastIndSeq rx.sequence.toNat).setLastIndSeqAtTimer now) rx).out)
      (indicateLegacyOrAmsdu
        ((c.setLastIndSeq rx.sequence.toNat).setLastIndSeqAtTimer now) rx).entry := by
  have hs : rx.sequence.toNat < 4096 := rx.sequence.isLt
  rcases h.state with ⟨-, hl, ho, hlast, hturn⟩ | hb
  · have hstart := ho.start hlast hturn hs h.winSize.2
    refine ⟨h.counted, h.winSize, Or.inr ?_⟩
    rw [indicateLegacyOrAmsdu, ReCtx.emit, ReCtx.setLastIndSeqAtTimer, ReCtx.setLastIndSeq,
      observeAll_append, observeAll_append, observeAll_lastIndSeq _ hs]
    have hdeliver := hstart.1.deliver (by simp [hstart.2])
    rw [← hl] at hdeliver
    exact hdeliver
  · exact absurd hr (RESET_not_lt hb.window.1)

theorem SessionOrder.drop (h : SessionOrder (t.observeAll c.out) c.entry) (rx : RxBlk) :
    SessionOrder (t.observeAll (dropPacket c rx).out) (dropPacket c rx).entry := by
  rw [dropPacket, releaseNdisPacket, ReCtx.emit, observeAll_append, observeAll_released]
  exact ⟨h.counted, h.winSize, h.state⟩

theorem Delivering.beyond (h : Delivering 2047 t c)
    (hW : c.entry.baWinSize < fwd 4096 c.entry.lastIndSeq rx.sequence.toNat)
    (hlt : fwd 4096 c.entry.lastIndSeq rx.sequence.toNat < 2048) (h1 : 1 ≤ c.entry.baWinSize)
    (now : BitVec 32) : Delivering 2047 t (receiveBeyondWindow c rx now) := by
  have hs : rx.sequence.toNat < 4096 := rx.sequence.isLt
  have ha := h.behind.window
  have hwidth := h.behind.width
  obtain ⟨hv, hd⟩ := winStartSeq_dist ha.1 hs hwidth hW.le
  have hmoved : Delivering (2047 - fwd 4096 c.entry.lastIndSeq
      (winStartSeq rx.sequence.toNat c.entry.baWinSize)) t (beyondCtx c rx now) := by
    have hle := h.leSeq hv (by omega) hv (by omega) le_rfl fun m hm =>
      ha.takeWhile_upto hwidth hv (by omega) hm
    exact ⟨hle.counted, hle.behind⟩
  have hfar : fwd 4096 (beyondCtx c rx now).entry.lastIndSeq rx.sequence.toNat =
      (beyondCtx c rx now).entry.baWinSize := by
    rw [beyondCtx, baIndicateReorderingMpdusLeSeq_eq h.counted]
    change fwd 4096 (winStartSeq rx.sequence.toNat c.entry.baWinSize) rx.sequence.toNat =
      c.entry.baWinSize
    rw [fwd_advance ha.1 hv hs (by omega)]
    omega
  have hwin : (beyondCtx c rx now).entry.baWinSize = c.entry.baWinSize := by
    rw [beyondCtx, baIndicateReorderingMpdusLeSeq_eq h.counted]
    rfl
  have hnot : rx.sequence.toNat ∉ seqs (beyondCtx c rx now).entry.list.next := by
    rw [beyondCtx, baIndicateReorderingMpdusLeSeq_eq h.counted]
    intro hm
    obtain ⟨m, hm, he⟩ := List.mem_map.mp hm
    have := (ha.dist ((List.dropWhile_sublist _).subset hm)).2.2
    rw [he] at this
    omega
  rw [receiveBeyondWindow_eq]
  exact (hmoved.enqueue (by omega) (by omega) hfar.le (by omega) fun _ => hnot).drain

theorem SessionOrder.reorder (h : SessionOrder (t.observeAll c.out) c.entry)
    (hn : ¬ PassesBuffered c rx) :
    SessionOrder (t.observeAll (reorderAmpdu c rx now).out) (reorderAmpdu c rx now).entry := by
  have hs : rx.sequence.toNat < 4096 := rx.sequence.isLt
  have hinv := h.windowInv
  obtain ⟨-, -, hwin, -⟩ := BaRecEntry.session_eq (reorderAmpdu_session c rx now)
  have h1 := hwin ▸ h.winSize.1
  rw [reorderAmpdu_eq] at h1 ⊢
  cases hcase : receiveCase c.entry rx.sequence.toNat with
  | reset =>
    refine h.first ?_ rx
    by_contra hr
    rw [receiveCase_dist (hinv.ahead hr).1 h.winSize.2 hs] at hcase
    split_ifs at hcase
  | inOrder =>
    obtain ⟨ha, hd, -, -⟩ := hinv.case_dist hs (by rw [hcase]; simp)
    have hin := Delivering.inOrder ⟨h.counted, h.behind (RESET_not_lt ha.1)⟩ (hd hcase)
      fun hm => hn ⟨Or.inl hcase, hm⟩
    have hdrain := hin.drain
    rw [hcase] at h1
    exact Delivering.sessionOrder (c := receiveInOrder c rx now) ⟨hdrain.counted, hdrain.behind⟩ h1
  | duplicate => exact h.drop rx
  | old => exact h.drop rx
  | inWindow =>
    obtain ⟨ha, -, hd, -⟩ := hinv.case_dist hs (by rw [hcase]; simp)
    obtain ⟨hd2, hdW⟩ := hd hcase
    have hW := h.winSize
    rw [hcase] at h1
    exact Delivering.sessionOrder (Delivering.enqueue ⟨h.counted, h.behind (RESET_not_lt ha.1)⟩
      (by omega) (by omega) hdW (by omega) fun hf hm => hn ⟨Or.inr ⟨hcase, hf⟩, hm⟩) h1
  | beyond =>
    obtain ⟨ha, -, -, hd⟩ := hinv.case_dist hs (by rw [hcase]; simp)
    obtain ⟨-, hdW, hlt⟩ := hd hcase
    rw [hcase] at h1
    exact Delivering.sessionOrder (Delivering.beyond ⟨h.counted, h.behind (RESET_not_lt ha.1)⟩ hdW hlt
      h.winSize.1 now) h1

/-- A BlockAckReq has moved `LastIndSeq`. -/
def Trace.bar (t : Trace) : Trace := { t with barred := true }

theorem Behind.bar (h : Behind k t W o l) : Behind 2047 t.bar W o l :=
  ⟨⟨⟨h.inOrder.unwrapped, h.inOrder.forward, h.inOrder.order⟩, h.width, h.window, h.lastIs, h.number,
    h.beyond, fun hb => by cases hb⟩, h.below, fun _ hb => by cases hb⟩

theorem SessionOrder.bar (startSeq : BitVec 12) (h : SessionOrder (t.observeAll c.out) c.entry)
    (hs : seqSmaller c.entry.lastIndSeq startSeq.toNat MAXSEQ = true)
    (hn : startSeq.toNat ∉ seqs c.entry.list.next) :
    SessionOrder (t.observeAll (barOnEntry c startSeq).out).bar (barOnEntry c startSeq).entry := by
  have ht : startSeq.toNat < 4096 := startSeq.isLt
  rw [barOnEntry, if_pos hs]
  rcases h.state with ⟨-, hl, ho, hlast, hturn⟩ | hb
  · have hv : (if startSeq.toNat = 0 then MAXSEQ else startSeq.toNat - 1) < 4096 := by
      unfold MAXSEQ
      split <;> omega
    have hstart := ho.start hlast hturn hv h.winSize.2
    rw [baIndicateReorderingMpdusLeSeq_eq h.counted, hl]
    refine ⟨rfl, h.winSize, Or.inr ?_⟩
    rw [observeAll_advance t c hv]
    exact hstart.1.bar
  · have ha := hb.window
    have hL := ha.1
    rw [seqSmaller_iff ha.1 ht, Smaller] at hs
    have hk : 1 ≤ fwd 4096 c.entry.lastIndSeq startSeq.toNat ∧
        fwd 4096 c.entry.lastIndSeq startSeq.toNat ≤ 2048 := by
      unfold fwd at *
      split at hs <;> split <;> omega
    obtain ⟨hv, hd⟩ := barTarget_dist ha.1 ht hk.1
    have hmoved := Delivering.leSeq ⟨h.counted, hb⟩ ht hk.2 hv (by omega) (by omega) fun m hm => by
      have := ha.takeWhile_before h.winSize.2 ht hk.2 hn hm
      omega
    refine ⟨hmoved.counted, ?_, Or.inr hmoved.behind.bar⟩
    rw [baIndicateReorderingMpdusLeSeq_eq h.counted]
    exact h.winSize

/-- The events of one recipient session. An MPDU finds an arbitrary free list: whether
blocks are left is decided by the other sessions. -/
inductive SessionEvent where
  | ampdu (freelist : ReorderingList) (rx : RxBlk) (now : BitVec 32)
  | bar (startSeq : BitVec 12)
  | flushTimeout (now : BitVec 32)

structure Session where
  entry : BaRecEntry
  trace : Trace := {}

def SessionEvent.act (osHz : Nat) (e : BaRecEntry) : SessionEvent → ReCtx
  | .ampdu freelist rx now => indicateAmpduOnEntry osHz ⟨freelist, e, []⟩ rx now
  | .bar startSeq => barOnEntry ⟨{}, e, []⟩ startSeq
  | .flushTimeout now => baFlushReorderingTimeoutMpdus osHz ⟨{}, e, []⟩ now

/-- The trace after an event with the record `out`; a BlockAckReq that did something is
marked. -/
def SessionEvent.observed (t : Trace) : SessionEvent → List Out → Trace
  | .bar _, o :: out => (t.observeAll (o :: out)).bar
  | _, out => t.observeAll out

def Session.step (osHz : Nat) (s : Session) (ev : SessionEvent) : Session where
  entry := (ev.act osHz s.entry).entry
  trace := ev.observed s.trace (ev.act osHz s.entry).out

/-- The event hands a packet up, or moves `LastIndSeq` to just before a number, while a
frame of that number is buffered. -/
def OvertakesBuffered (osHz : Nat) (s : Session) : SessionEvent → Prop
  | .ampdu freelist rx now =>
    PassesBuffered (settleAmpdu osHz ⟨freelist, s.entry, []⟩ rx now) rx
  | .bar startSeq => seqSmaller s.entry.lastIndSeq startSeq.toNat MAXSEQ = true ∧
      startSeq.toNat ∈ seqs s.entry.list.next
  | .flushTimeout _ => False

instance (osHz : Nat) (s : Session) : DecidablePred (OvertakesBuffered osHz s)
  | .ampdu .. => inferInstanceAs (Decidable (_ ∧ _))
  | .bar _ => inferInstanceAs (Decidable (_ ∧ _))
  | .flushTimeout _ => inferInstanceAs (Decidable False)

/-- A session as `BARecSessionAdd` starts it. -/
structure BaRecEntry.Fresh (e : BaRecEntry) : Prop where
  reset : e.lastIndSeq = RESET_RCV_SEQ
  empty : e.list = {}
  winSize : 1 ≤ e.baWinSize ∧ e.baWinSize < 256

theorem BaRecEntry.Fresh.sessionOrder (h : e.Fresh) : SessionOrder {} e := by
  refine ⟨?_, h.winSize, Or.inl ⟨h.reset, ?_, ⟨by simp [Trace.turns], by simp, ?_⟩, rfl, rfl⟩⟩
  · rw [h.empty]
    rfl
  · rw [h.empty]
  · simp [Trace.turns]

theorem Session.step_order {osHz : Nat} {s : Session} {ev : SessionEvent}
    (h : SessionOrder s.trace s.entry) (hn : ¬ OvertakesBuffered osHz s ev) :
    SessionOrder (s.step osHz ev).trace (s.step osHz ev).entry := by
  cases ev with
  | ampdu freelist rx now =>
    have hs := SessionOrder.settle (t := s.trace) (c := ⟨freelist, s.entry, []⟩) osHz h rx now
    exact hs.reorder hn
  | bar startSeq =>
    have hb := SessionOrder.bar (t := s.trace) (c := ⟨{}, s.entry, []⟩) startSeq h
    by_cases hs : seqSmaller s.entry.lastIndSeq startSeq.toNat MAXSEQ = true
    · have hmoved := hb hs fun hm => hn ⟨hs, hm⟩
      have hout : ∃ o out, (barOnEntry ⟨{}, s.entry, []⟩ startSeq).out = o :: out := by
        rw [barOnEntry, if_pos hs]
        exact List.exists_cons_of_ne_nil (List.append_ne_nil_of_right_ne_nil _ (by simp))
      obtain ⟨o, out, hout⟩ := hout
      rw [hout] at hmoved
      simp only [Session.step, SessionEvent.act, SessionEvent.observed, hout]
      exact hmoved
    · have hout : barOnEntry ⟨{}, s.entry, []⟩ startSeq = ⟨{}, s.entry, []⟩ := if_neg hs
      simp only [Session.step, SessionEvent.act, hout]
      exact h
  | flushTimeout now =>
    exact SessionOrder.flush (t := s.trace) (c := ⟨{}, s.entry, []⟩) osHz h now

theorem Trace.InOrder.same_number (h : t.InOrder) : ∀ turn ∈ t.turns,
    turn.Pairwise fun x y => x.sequence = y.sequence → x.position + 4096 ≤ y.position := by
  intro turn hturn
  have hpos : turn.Pairwise fun x y => x.position < y.position := by
    have : Trans (fun x y : Delivered => x.position < y.position)
        (fun x y : Delivered => x.position < y.position)
        fun x y : Delivered => x.position < y.position := ⟨Nat.lt_trans⟩
    exact ((h.order turn hturn).imp fun _ _ hf => hf.1).pairwise
  refine hpos.imp_of_mem fun {x y} hx hy hlt he => ?_
  have hxs := (h.unwrapped turn hturn x hx).1
  have hys := (h.unwrapped turn hturn y hy).1
  omega

/-- A run of a fresh session in which nothing overtakes a buffered frame of its number
delivers in order. -/
theorem session_delivers_inOrder (osHz : Nat) (e : BaRecEntry) (fresh : e.Fresh)
    (evs : List SessionEvent)
    (noOvertaking : AllSteps (Session.step osHz) (fun s ev => ¬ OvertakesBuffered osHz s ev) ⟨e, {}⟩
      evs) :
    (exec (Session.step osHz) ⟨e, {}⟩ evs).trace.InOrder ∧
      ∀ turn ∈ (exec (Session.step osHz) ⟨e, {}⟩ evs).trace.turns,
        turn.Pairwise fun x y => x.sequence = y.sequence → x.position + 4096 ≤ y.position := by
  have h := exec_inv (I := fun s : Session => SessionOrder s.trace s.entry)
    (fun _ _ h hn => Session.step_order h hn) fresh.sessionOrder noOvertaking
  exact ⟨h.inOrder, h.inOrder.same_number⟩

def freshEntry : BaRecEntry :=
  { baWinSize := 64, lastIndSeq := RESET_RCV_SEQ, recBaStatus := .accept }

def arrival (sequence : BitVec 12) : SessionEvent :=
  .ampdu { next := [{ blk := 0 }], qlen := 1 } { sequence, pRxPacket := sequence.toNat } 0

/-- Frame 2 waits for frame 1, a BlockAckReq gives frame 5 out, and frame 8 waits until the place of
frame 6 has timed out and frame 7 has come. -/
def reorderedArrivals : List SessionEvent :=
  [arrival 0, arrival 2, arrival 1, arrival 5, .bar 6, arrival 8, .flushTimeout 100000, arrival 7]

theorem reorderedArrivals_inOrder :
    (exec (Session.step 100) ⟨freshEntry, {}⟩ reorderedArrivals).trace.InOrder ∧
      ∀ turn ∈ (exec (Session.step 100) ⟨freshEntry, {}⟩ reorderedArrivals).trace.turns,
        turn.Pairwise fun x y => x.sequence = y.sequence → x.position + 4096 ≤ y.position :=
  session_delivers_inOrder 100 freshEntry ⟨rfl, rfl, by decide⟩ reorderedArrivals (by decide)

example : (exec (Session.step 100) ⟨freshEntry, {}⟩ reorderedArrivals).trace.turns.map
    (fun turn => turn.map (·.sequence)) = [[0, 1, 2, 5, 7, 8]] := by
  decide

/-- Frame 0, then two BlockAckReqs that move the window far ahead, then frame 4000. -/
def barsAcrossHalf : List SessionEvent := [arrival 0, .bar 2048, .bar 4000, arrival 4000]

/-- No two consecutive packets of a turn are more than half a circle apart: this fails. -/
theorem barsAcrossHalf_jumps :
    freshEntry.Fresh ∧ ¬ ∀ turn ∈ (exec (Session.step 100) ⟨freshEntry, {}⟩ barsAcrossHalf).trace.turns,
      turn.IsChain fun x y =>
        1 ≤ fwd 4096 x.sequence y.sequence ∧ fwd 4096 x.sequence y.sequence ≤ 2048 :=
  ⟨⟨rfl, rfl, by decide⟩, by decide⟩

end Ralink.BlockAck
