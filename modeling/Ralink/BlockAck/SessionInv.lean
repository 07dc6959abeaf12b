import Ralink.BlockAck.Window

/-! `WindowInv` and `NothingHeldBack` for timeout flushes, BlockAckReqs and received MPDUs, with the
exact condition under which a received MPDU keeps each of them. -/
namespace Ralink.BlockAck
open SeqWindow

/-- The head of the list does not continue `LastIndSeq`. -/
def NothingHeldBack (e : BaRecEntry) : Prop :=
  e.lastIndSeq ≠ RESET_RCV_SEQ →
    ∀ m ∈ e.list.next.head?, m.sequence ≠ (e.lastIndSeq + 1) &&& MAXSEQ

variable {W o t v : Nat} {l : List ReorderingMpdu} {c : ReCtx} {rx : RxBlk} {now : BitVec 32}
  {e : BaRecEntry} {c' : ReCtx}

theorem WindowInv.ahead (h : WindowInv e) (hr : e.lastIndSeq ≠ RESET_RCV_SEQ) :
    Ahead e.baWinSize e.lastIndSeq e.list.next := by
  rcases h.window with ⟨hl, _⟩ | h
  · exact absurd hl hr
  · exact h

theorem WindowInv.ahead_of_ne_nil (h : WindowInv e) (hn : e.list.next ≠ []) :
    Ahead e.baWinSize e.lastIndSeq e.list.next := by
  rcases h.window with ⟨_, hl⟩ | h
  · exact absurd hl hn
  · exact h

theorem Ahead.nil (hv : v < 4096) : Ahead W v [] := ⟨hv, Window.nil⟩

theorem Ahead.dropWhile_to (h : Ahead W o l) (hW : W < 256) (ht : t < 4096)
    (hk : fwd 4096 o t ≤ 2048) (hv : v < 4096) (hle : fwd 4096 o v ≤ fwd 4096 o t) :
    Ahead (W - fwd 4096 o v) v (l.dropWhile (notAfter t)) :=
  (h.sublist (List.dropWhile_sublist _)).advance hv fun _ hm =>
    hle.trans_lt (h.dropWhile_beyond hW ht hk hm)

theorem Ahead.next_mem_iff (h : Ahead W o l) :
    (o + 1) % 4096 ∈ seqs l ↔ ∃ m ∈ l.head?, m.sequence = (o + 1) % 4096 := by
  constructor
  · intro hm
    obtain ⟨m, hm, he⟩ := List.mem_map.mp hm
    cases l with
    | nil => cases hm
    | cons x rest =>
      refine ⟨x, rfl, ?_⟩
      rcases List.mem_cons.mp hm with rfl | hm
      · exact he
      · have h1 : fwd 4096 o m.sequence = 1 := by
          rw [he]
          exact fwd_succ (by omega) h.1
        have hlt : fwd 4096 o x.sequence < fwd 4096 o m.sequence :=
          List.rel_of_pairwise_cons h.sorted hm
        have := (h.dist (List.mem_cons_self (a := x) (l := rest))).2.1
        omega
  · rintro ⟨m, hm, he⟩
    rw [← he]
    exact mem_seqs (List.mem_of_mem_head? hm)

theorem NothingHeldBack.not_mem (h : NothingHeldBack e)
    (ha : Ahead e.baWinSize e.lastIndSeq e.list.next) :
    (e.lastIndSeq + 1) % 4096 ∉ seqs e.list.next := by
  rw [ha.next_mem_iff]
  rintro ⟨m, hm, he⟩
  exact h (RESET_not_lt ha.1) m hm (by rw [and_MAXSEQ, he])

theorem NothingHeldBack.of_not_mem (h : (e.lastIndSeq + 1) % 4096 ∉ seqs e.list.next) :
    NothingHeldBack e := by
  intro _ m hm he
  rw [and_MAXSEQ] at he
  exact h (he ▸ mem_seqs (List.mem_of_mem_head? hm))

theorem drainInOrder_inv (hc : c.entry.list.Counted) (hW : c.entry.baWinSize < 256)
    (h : Ahead c.entry.baWinSize c.entry.lastIndSeq c.entry.list.next) :
    WindowInv (drainInOrder c c.entry.lastIndSeq).entry ∧
      NothingHeldBack (drainInOrder c c.entry.lastIndSeq).entry := by
  rw [drainInOrder_entry hc h]
  refine ⟨⟨rfl, hW, Or.inr h.inOrderSplit⟩, ?_⟩
  intro _ m hm
  rw [and_MAXSEQ]
  exact inOrderSplit_stops _ _ m hm

theorem flush_inv (osHz : Nat) (h : WindowInv c.entry) (now : BitVec 32) :
    WindowInv (baFlushReorderingTimeoutMpdus osHz c now).entry ∧
      (NothingHeldBack c.entry →
        NothingHeldBack (baFlushReorderingTimeoutMpdus osHz c now).entry) := by
  have hcase := baFlushReorderingTimeoutMpdus_cases osHz h.counted now
  generalize baFlushReorderingTimeoutMpdus osHz c now = c' at hcase ⊢
  cases hcase with
  | kept => exact ⟨h, id⟩
  | all pending =>
    rw [baRefreshReorderingMpdus_eq h.counted]
    exact ⟨⟨rfl, h.width, Or.inl ⟨rfl, rfl⟩⟩, fun _ hr => absurd rfl hr⟩
  | one pending =>
    have ha := h.ahead_of_ne_nil pending
    have ht : (c.entry.lastIndSeq + 1) % 4096 < 4096 := Nat.mod_lt _ (by omega)
    have h1 : fwd 4096 c.entry.lastIndSeq ((c.entry.lastIndSeq + 1) % 4096) = 1 :=
      fwd_succ (by omega) ha.1
    rw [baIndicateReorderingMpdusLeSeq_eq h.counted]
    have hd := drainInOrder_inv
      (c := ((c.handUp (c.entry.list.next.takeWhile (notAfter ((c.entry.lastIndSeq + 1) % 4096)))
        (c.entry.list.next.dropWhile (notAfter ((c.entry.lastIndSeq + 1) % 4096)))).setLastIndSeqAtTimer
          now).setLastIndSeq ((c.entry.lastIndSeq + 1) % 4096))
      rfl h.width ((ha.dropWhile h.width ht (by omega)).mono (Nat.sub_le _ _))
    exact ⟨hd.1, fun _ => hd.2⟩

theorem barTarget_dist (ho : o < 4096) (ht : t < 4096) (h1 : 1 ≤ fwd 4096 o t) :
    (if t = 0 then MAXSEQ else t - 1) < 4096 ∧
      fwd 4096 o (if t = 0 then MAXSEQ else t - 1) = fwd 4096 o t - 1 := by
  unfold MAXSEQ
  unfold fwd at *
  split at h1 <;> split <;> split <;> omega

theorem bar_inv (h : WindowInv c.entry) (startSeq : BitVec 12) :
    WindowInv (barOnEntry c startSeq).entry ∧
      (NothingHeldBack c.entry → NothingHeldBack (barOnEntry c startSeq).entry) := by
  unfold barOnEntry
  split
  · next hs =>
    have ht : startSeq.toNat < 4096 := startSeq.isLt
    rw [baIndicateReorderingMpdusLeSeq_eq h.counted]
    rcases h.window with ⟨_, hl⟩ | ha
    · have hv : (if startSeq.toNat = 0 then MAXSEQ else startSeq.toNat - 1) < 4096 := by
        unfold MAXSEQ
        split <;> omega
      have hn : ((c.handUp (c.entry.list.next.takeWhile (notAfter startSeq.toNat))
          (c.entry.list.next.dropWhile (notAfter startSeq.toNat))).setLastIndSeq
            (if startSeq.toNat = 0 then MAXSEQ else startSeq.toNat - 1)).entry.list.next = [] := by
        simp [ReCtx.setLastIndSeq, ReCtx.handUp, hl]
      refine ⟨⟨rfl, h.width, Or.inr ?_⟩, fun _ _ m hm => ?_⟩
      · rw [hn]
        exact .nil hv
      · rw [hn] at hm
        cases hm
    · have hL := ha.1
      rw [seqSmaller_iff hL ht, Smaller] at hs
      have hk : 1 ≤ fwd 4096 c.entry.lastIndSeq startSeq.toNat ∧
          fwd 4096 c.entry.lastIndSeq startSeq.toNat ≤ 2048 := by
        unfold fwd at *
        split at hs <;> split <;> omega
      obtain ⟨hv, hd⟩ := barTarget_dist ha.1 ht hk.1
      have hrest := ha.dropWhile_to h.width ht hk.2 hv (by omega)
      refine ⟨⟨rfl, h.width, Or.inr (hrest.mono (Nat.sub_le _ _))⟩, fun _ => ?_⟩
      refine NothingHeldBack.of_not_mem ?_
      intro hm
      obtain ⟨m, hm, he⟩ := List.mem_map.mp hm
      -- what stays lies beyond StartSeq, which is itself one past the new LastIndSeq
      have hb := ha.dropWhile_beyond h.width ht hk.2 hm
      have hlt := (ha.dist ((List.dropWhile_sublist _).subset hm)).1
      have h1 := fwd_succ (M := 4096) (by omega) hv
      have he' : m.sequence =
          ((if startSeq.toNat = 0 then MAXSEQ else startSeq.toNat - 1) + 1) % 4096 := he
      rw [← he', fwd_advance ha.1 hv hlt (by omega)] at h1
      omega
  · exact ⟨h, id⟩

theorem EnqueueCase.ahead (h : EnqueueCase c rx c') (hc : c.entry.list.Counted) (hW : W < 256)
    (ha : Ahead W c.entry.lastIndSeq c.entry.list.next)
    (h1 : 1 ≤ fwd 4096 c.entry.lastIndSeq rx.sequence.toNat)
    (h2 : fwd 4096 c.entry.lastIndSeq rx.sequence.toNat ≤ W) :
    c'.entry.list.Counted ∧ c'.entry.baWinSize = c.entry.baWinSize ∧
      Ahead W c'.entry.lastIndSeq c'.entry.list.next := by
  have hs : rx.sequence.toNat < 4096 := rx.sequence.isLt
  cases h with
  | stored alloc plain split before after =>
    next free blk l₁ l₂ =>
    rw [split] at ha
    refine ⟨?_, rfl, ha.1, ?_⟩
    · have hq : c.entry.list.qlen = (l₁ ++ l₂).length := by rw [← split]; exact hc
      simp only [ReorderingList.Counted, hq, List.length_append, List.length_cons]
      push_cast
      ring
    · have hwin : Window 4096 W c.entry.lastIndSeq (seqs l₁ ++ seqs l₂) := by
        rw [← seqs_append]
        exact ha.2
      simp only [seqs_append, seqs_cons, filled_sequence]
      refine hwin.insert hs h1 h2 ?_ ?_
      · intro y hy
        obtain ⟨m, hm, rfl⟩ := List.mem_map.mp hy
        have hd := ha.dist (List.mem_append_left l₂ hm)
        have hb := before m hm
        rwa [seqSmaller_iff hd.1 hs, smaller_iff ha.1 hd.1 hs (by omega) (by omega)] at hb
      · intro y hy
        obtain ⟨m, hm, rfl⟩ := List.mem_map.mp hy
        cases l₂ with
        | nil => cases hm
        | cons x rest =>
          have hx := ha.dist (List.mem_append_right l₁ (List.mem_cons_self (a := x) (l := rest)))
          obtain ⟨hn, hne⟩ := after x rfl
          have hxs : fwd 4096 c.entry.lastIndSeq rx.sequence.toNat <
              fwd 4096 c.entry.lastIndSeq x.sequence := by
            have hle : ¬ fwd 4096 c.entry.lastIndSeq x.sequence <
                fwd 4096 c.entry.lastIndSeq rx.sequence.toNat := by
              rw [← smaller_iff ha.1 hx.1 hs (by omega) (by omega), ← seqSmaller_iff hx.1 hs, hn]
              simp
            refine lt_of_le_of_ne (not_lt.mp hle) fun he => hne ?_
            exact (fwd_injective ha.1 hs hx.1 he).symm
          rcases List.mem_cons.mp hm with rfl | hm
          · exact hxs
          · have hsorted := (ha.sublist (List.sublist_append_right l₁ (x :: rest))).sorted
            exact hxs.trans (List.rel_of_pairwise_cons hsorted hm)
  | duplicate alloc plain scan => exact ⟨hc, rfl, ha⟩
  | passedUp alloc full =>
    next free blk =>
    have hc' : ({ c with freelist := free } : ReCtx).entry.list.Counted := hc
    rw [passUpUnordered, baIndicateReorderingMpdusLeSeq_eq hc']
    exact ⟨rfl, rfl, (ha.dropWhile hW hs (by omega)).mono (Nat.sub_le _ _)⟩

/-- Which arrivals leave the next frame in order buffered behind them: a frame in the
window that is passed up past its buffered successor. -/
def StrandsSuccessor (c : ReCtx) (rx : RxBlk) : Prop :=
  receiveCase c.entry rx.sequence.toNat = .inWindow ∧ fallsBack c.freelist rx = true ∧
    (rx.sequence.toNat + 1) % 4096 ∈ seqs c.entry.list.next

/-- Which arrivals take the in-order branch although a frame of their number is buffered. -/
def RepeatsBuffered (c : ReCtx) (rx : RxBlk) : Prop :=
  receiveCase c.entry rx.sequence.toNat = .inOrder ∧ rx.sequence.toNat ∈ seqs c.entry.list.next

instance : Decidable (StrandsSuccessor c rx) := inferInstanceAs (Decidable (_ ∧ _))
instance : Decidable (RepeatsBuffered c rx) := inferInstanceAs (Decidable (_ ∧ _))

theorem NothingHeldBack.not_repeats (h : WindowInv c.entry) (hn : NothingHeldBack c.entry) :
    ¬ RepeatsBuffered c rx := by
  rintro ⟨hcase, hm⟩
  have hr : c.entry.lastIndSeq ≠ RESET_RCV_SEQ := by
    intro hr
    rw [receiveCase_reset hr] at hcase
    cases hcase
  have ha := h.ahead hr
  rw [receiveCase_dist ha.1 h.width rx.sequence.isLt] at hcase
  have h1 : fwd 4096 c.entry.lastIndSeq rx.sequence.toNat = 1 := by
    by_contra hd
    rw [if_neg hd] at hcase
    split_ifs at hcase
  rw [eq_succ_of_fwd (by omega) ha.1 rx.sequence.isLt h1] at hm
  exact hn.not_mem ha hm

theorem drainInOrder_idle {startSeq : Nat} (hc : c.entry.list.Counted)
    (h : ∀ m ∈ c.entry.list.next.head?, m.sequence ≠ (startSeq + 1) % 4096) :
    drainInOrder c startSeq = c := by
  have hsplit : inOrderSplit startSeq c.entry.list.next = ([], c.entry.list.next) := by
    cases hl : c.entry.list.next with
    | nil => rfl
    | cons m rest => exact if_neg (h m (by rw [hl]; rfl))
  simp only [drainInOrder, baIndicateReorderingMpdusInOrder_eq hc, inOrderLast_eq, hsplit, if_true,
    ne_eq, not_true_eq_false, if_false, ReCtx.handUp_nil hc]

theorem not_strandsSuccessor (h : receiveCase c.entry rx.sequence.toNat ≠ .inWindow) :
    ¬ StrandsSuccessor c rx := fun hx => h hx.1

theorem not_repeatsBuffered (h : receiveCase c.entry rx.sequence.toNat ≠ .inOrder) :
    ¬ RepeatsBuffered c rx := fun hx => h hx.1

theorem nothingHeldBack_iff (ha : Ahead W e.lastIndSeq e.list.next) :
    NothingHeldBack e ↔ (e.lastIndSeq + 1) % 4096 ∉ seqs e.list.next := by
  refine ⟨fun h hm => ?_, .of_not_mem⟩
  obtain ⟨m, hm, he⟩ := ha.next_mem_iff.mp hm
  exact h (RESET_not_lt ha.1) m hm (by rw [and_MAXSEQ, he])

theorem WindowInv.case_dist {s : Nat} (h : WindowInv e) (hs : s < 4096)
    (hcase : receiveCase e s ≠ .reset) :
    Ahead e.baWinSize e.lastIndSeq e.list.next ∧
      (receiveCase e s = .inOrder → fwd 4096 e.lastIndSeq s = 1) ∧
      (receiveCase e s = .inWindow →
        2 ≤ fwd 4096 e.lastIndSeq s ∧ fwd 4096 e.lastIndSeq s ≤ e.baWinSize) ∧
      (receiveCase e s = .beyond →
        2 ≤ fwd 4096 e.lastIndSeq s ∧ e.baWinSize < fwd 4096 e.lastIndSeq s ∧
          fwd 4096 e.lastIndSeq s < 2048) := by
  have ha := h.ahead fun hr => hcase (receiveCase_reset hr)
  rw [receiveCase_dist ha.1 h.width hs]
  refine ⟨ha, fun hi => ?_, fun hi => ?_, fun hi => ?_⟩
  all_goals split_ifs at hi; omega

theorem inWindow_nhb (h : EnqueueCase c rx c') (hi : WindowInv c.entry)
    (hn : NothingHeldBack c.entry) (hcase : receiveCase c.entry rx.sequence.toNat = .inWindow) :
    NothingHeldBack c'.entry ↔ ¬ StrandsSuccessor c rx := by
  have hs : rx.sequence.toNat < 4096 := rx.sequence.isLt
  obtain ⟨ha, -, hd, -⟩ := hi.case_dist hs (by rw [hcase]; simp)
  obtain ⟨hd2, hdW⟩ := hd hcase
  have hnot := hn.not_mem ha
  obtain ⟨-, -, ha'⟩ := h.ahead hi.counted hi.width ha (by omega) hdW
  rw [nothingHeldBack_iff ha']
  cases h with
  | stored alloc plain split before after =>
    next free blk l₁ l₂ =>
    have hfree : ¬ StrandsSuccessor c rx := fun hx =>
      Bool.false_ne_true (plain.symm.trans hx.2.1)
    refine iff_of_true ?_ hfree
    have hne : (c.entry.lastIndSeq + 1) % 4096 ≠ rx.sequence.toNat := by
      intro he
      have h1 := fwd_succ (M := 4096) (by omega) ha.1
      rw [he] at h1
      omega
    rw [split, seqs_append, List.mem_append, not_or] at hnot
    simpa [hne] using hnot
  | duplicate alloc plain scan =>
    have hfree : ¬ StrandsSuccessor c rx := fun hx =>
      Bool.false_ne_true (plain.symm.trans hx.2.1)
    exact iff_of_true hnot hfree
  | passedUp alloc full =>
    next free blk =>
    have hc' : ({ c with freelist := free } : ReCtx).entry.list.Counted := hi.counted
    have hiff : StrandsSuccessor c rx ↔
        (rx.sequence.toNat + 1) % 4096 ∈ seqs c.entry.list.next :=
      ⟨fun hx => hx.2.2, fun hx => ⟨hcase, full, hx⟩⟩
    rw [hiff, not_iff_not, passUpUnordered, baIndicateReorderingMpdusLeSeq_eq hc']
    refine ⟨fun hm => (seqs_sublist (List.dropWhile_sublist _)).subset hm, fun hm => ?_⟩
    -- the successor lies past the frame, so handing up to the frame keeps it
    obtain ⟨m, hm, he⟩ := List.mem_map.mp hm
    have hsplit := List.takeWhile_append_dropWhile (p := notAfter rx.sequence.toNat)
      (l := c.entry.list.next)
    rw [← hsplit] at hm
    rcases List.mem_append.mp hm with hm | hm
    · have hW := hi.width
      have hle := ha.takeWhile_upto hW hs (by omega) hm
      have hlt := (ha.dist ((List.takeWhile_sublist _).subset hm)).1
      have h1 := fwd_succ (M := 4096) (by omega) hs
      have hz := (fwd_eq_zero (M := 4096) (b := m.sequence) hs)
      rw [← he] at h1
      rcases Nat.lt_or_eq_of_le hle with hlt' | heq
      · rw [fwd_passed ha.1 hs hlt'] at h1
        have := fwd_lt ha.1 hs
        omega
      · rw [fwd_injective ha.1 hlt hs heq, fwd_self] at h1
        omega
    · change (rx.sequence.toNat + 1) % 4096 ∈ seqs (List.dropWhile _ c.entry.list.next)
      rw [← he]
      exact mem_seqs hm

theorem receiveInOrder_inv (h : WindowInv c.entry)
    (hcase : receiveCase c.entry rx.sequence.toNat = .inOrder) :
    (WindowInv (receiveInOrder c rx now).entry ↔ ¬ RepeatsBuffered c rx) ∧
      NothingHeldBack (receiveInOrder c rx now).entry := by
  have hs : rx.sequence.toNat < 4096 := rx.sequence.isLt
  obtain ⟨ha, hd, -, -⟩ := h.case_dist hs (by rw [hcase]; simp)
  have hd1 := hd hcase
  have hnext := eq_succ_of_fwd (by omega) ha.1 hs hd1
  let c₁ := indicateLegacyOrAmsdu (c.setLastIndSeq rx.sequence.toNat) rx
  have hc₁ : c₁.entry.list.Counted := h.counted
  have hentry : (receiveInOrder c rx now).entry =
      { (drainInOrder c₁ c₁.entry.lastIndSeq).entry with lastIndSeqAtTimer := now } := rfl
  by_cases hm : rx.sequence.toNat ∈ seqs c.entry.list.next
  · have hrep : RepeatsBuffered c rx := ⟨hcase, hm⟩
    rw [hnext, ha.next_mem_iff, ← hnext] at hm
    obtain ⟨m, hm, he⟩ := hm
    obtain ⟨rest, hl⟩ : ∃ rest, c.entry.list.next = m :: rest := by
      cases hl : c.entry.list.next with
      | nil => simp [hl] at hm
      | cons x rest => exact ⟨rest, by simpa [hl] using hm⟩
    have hne : m.sequence ≠ (rx.sequence.toNat + 1) % 4096 := by
      intro hx
      have h1 := fwd_succ (M := 4096) (by omega) hs
      rw [← hx, he, fwd_self] at h1
      omega
    have hdrain : drainInOrder c₁ c₁.entry.lastIndSeq = c₁ :=
      drainInOrder_idle hc₁ fun x hx => by
        have hx' : x ∈ c.entry.list.next.head? := hx
        rw [hl, List.head?_cons, Option.mem_some_iff] at hx'
        rw [← hx']
        exact hne
    rw [hentry, hdrain]
    refine ⟨iff_of_false (fun hw => ?_) (not_not.mpr hrep), fun _ x hx => ?_⟩
    · have ha' := hw.ahead (RESET_not_lt hs)
      have := (ha'.dist (m := m) (by simp [c₁, indicateLegacyOrAmsdu, ReCtx.emit,
        ReCtx.setLastIndSeq, hl])).2.1
      have hz : fwd 4096 rx.sequence.toNat m.sequence = 0 := by rw [he, fwd_self]
      exact absurd this (by change ¬ 1 ≤ fwd 4096 rx.sequence.toNat m.sequence; omega)
    · have hx' : x ∈ c.entry.list.next.head? := hx
      rw [hl, List.head?_cons, Option.mem_some_iff] at hx'
      rw [and_MAXSEQ, ← hx']
      exact hne
  · have hrep : ¬ RepeatsBuffered c rx := fun hx => hm hx.2
    have ha₁ : Ahead c₁.entry.baWinSize c₁.entry.lastIndSeq c₁.entry.list.next := by
      refine (ha.advance hs fun m hmem => ?_).mono (Nat.sub_le _ _)
      have hdm := ha.dist hmem
      rcases Nat.lt_or_eq_of_le hdm.2.1 with hlt | heq
      · omega
      · exact absurd (fwd_injective ha.1 hs hdm.1 (by omega) ▸ mem_seqs hmem) hm
    have hdr := drainInOrder_inv hc₁ h.width ha₁
    rw [hentry]
    exact ⟨iff_of_true ⟨hdr.1.counted, hdr.1.width, hdr.1.window⟩ hrep, hdr.2⟩

/-- The state in which the beyond-window branch buffers its frame. -/
def beyondCtx (c : ReCtx) (rx : RxBlk) (now : BitVec 32) : ReCtx :=
  ((baIndicateReorderingMpdusLeSeq c (winStartSeq rx.sequence.toNat c.entry.baWinSize)).setLastIndSeq
    (winStartSeq rx.sequence.toNat c.entry.baWinSize)).setLastIndSeqAtTimer now

theorem receiveBeyondWindow_eq (c : ReCtx) (rx : RxBlk) (now : BitVec 32) :
    receiveBeyondWindow c rx now =
      drainInOrder (baEnqueueReorderingPacket (beyondCtx c rx now) rx)
        (baEnqueueReorderingPacket (beyondCtx c rx now) rx).entry.lastIndSeq := rfl

/-- The state in which `ba_enqueue_reordering_packet` is called, if it is. -/
def enqueueCtx (c : ReCtx) (rx : RxBlk) (now : BitVec 32) : Option ReCtx :=
  match receiveCase c.entry rx.sequence.toNat with
  | .inWindow => some c
  | .beyond => some (beyondCtx c rx now)
  | _ => none

theorem beyondCtx_ahead (now : BitVec 32) (h : WindowInv c.entry)
    (hcase : receiveCase c.entry rx.sequence.toNat = .beyond) :
    (beyondCtx c rx now).entry.list.Counted ∧
      (beyondCtx c rx now).entry.baWinSize = c.entry.baWinSize ∧
      Ahead c.entry.baWinSize (beyondCtx c rx now).entry.lastIndSeq
        (beyondCtx c rx now).entry.list.next ∧
      fwd 4096 (beyondCtx c rx now).entry.lastIndSeq rx.sequence.toNat = c.entry.baWinSize := by
  have hs : rx.sequence.toNat < 4096 := rx.sequence.isLt
  obtain ⟨ha, -, -, hd⟩ := h.case_dist hs (by rw [hcase]; simp)
  obtain ⟨hd2, hdW, hd3⟩ := hd hcase
  obtain ⟨hlt, hdist⟩ := winStartSeq_dist ha.1 hs h.width hdW.le
  rw [beyondCtx, baIndicateReorderingMpdusLeSeq_eq h.counted]
  refine ⟨rfl, rfl, (ha.dropWhile h.width hlt (by omega)).mono (Nat.sub_le _ _), ?_⟩
  change fwd 4096 (winStartSeq rx.sequence.toNat c.entry.baWinSize) rx.sequence.toNat = _
  rw [fwd_advance ha.1 hlt hs (by omega)]
  omega

theorem beyond_enqueue_ahead (now : BitVec 32) (h : WindowInv c.entry) (h1 : 1 ≤ c.entry.baWinSize)
    (hcase : receiveCase c.entry rx.sequence.toNat = .beyond) :
    (baEnqueueReorderingPacket (beyondCtx c rx now) rx).entry.list.Counted ∧
      (baEnqueueReorderingPacket (beyondCtx c rx now) rx).entry.baWinSize = c.entry.baWinSize ∧
      Ahead c.entry.baWinSize (baEnqueueReorderingPacket (beyondCtx c rx now) rx).entry.lastIndSeq
        (baEnqueueReorderingPacket (beyondCtx c rx now) rx).entry.list.next := by
  obtain ⟨hc, hwidth, ha, hfar⟩ := beyondCtx_ahead now h hcase
  have hq := (baEnqueueReorderingPacket_cases (beyondCtx c rx now) rx).ahead hc h.width ha
    (hfar ▸ h1) hfar.le
  exact ⟨hq.1, hq.2.1.trans hwidth, hq.2.2⟩

theorem receiveBeyondWindow_inv (h : WindowInv c.entry) (h1 : 1 ≤ c.entry.baWinSize)
    (hcase : receiveCase c.entry rx.sequence.toNat = .beyond) :
    WindowInv (receiveBeyondWindow c rx now).entry ∧
      NothingHeldBack (receiveBeyondWindow c rx now).entry := by
  obtain ⟨hc, hwidth, ha⟩ := beyond_enqueue_ahead now h h1 hcase
  rw [receiveBeyondWindow_eq]
  refine drainInOrder_inv hc ?_ ?_
  · rw [hwidth]
    exact h.width
  · rw [hwidth]
    exact ha

theorem reorder_inv (h : WindowInv c.entry) (h1 : 1 ≤ c.entry.baWinSize) :
    WindowInv (reorderAmpdu c rx now).entry ↔ ¬ RepeatsBuffered c rx := by
  have hs : rx.sequence.toNat < 4096 := rx.sequence.isLt
  rw [reorderAmpdu_eq]
  cases hcase : receiveCase c.entry rx.sequence.toNat with
  | inOrder => exact (receiveInOrder_inv h hcase).1
  | reset =>
    have hr : c.entry.lastIndSeq = RESET_RCV_SEQ := by
      by_contra hr
      have ha := h.ahead hr
      rw [receiveCase_dist ha.1 h.width hs] at hcase
      split_ifs at hcase
    have hl : c.entry.list.next = [] := by
      rcases h.window with ⟨_, hl⟩ | ha
      · exact hl
      · exact absurd hr (RESET_not_lt ha.1)
    refine iff_of_true ⟨h.counted, h.width, Or.inr ⟨hs, ?_⟩⟩ (not_repeatsBuffered (by simp [hcase]))
    change SeqWindow.Window 4096 _ _ (seqs c.entry.list.next)
    rw [hl]
    exact Window.nil
  | duplicate =>
    exact iff_of_true ⟨h.counted, h.width, h.window⟩ (not_repeatsBuffered (by simp [hcase]))
  | old => exact iff_of_true ⟨h.counted, h.width, h.window⟩ (not_repeatsBuffered (by simp [hcase]))
  | inWindow =>
    obtain ⟨ha, -, hd, -⟩ := h.case_dist hs (by rw [hcase]; simp)
    obtain ⟨hd2, hdW⟩ := hd hcase
    obtain ⟨hc', hw', ha'⟩ :=
      (baEnqueueReorderingPacket_cases c rx).ahead h.counted h.width ha (by omega) hdW
    refine iff_of_true ⟨hc', ?_, Or.inr ?_⟩ (not_repeatsBuffered (by simp [hcase]))
    · dsimp only
      rw [hw']
      exact h.width
    · dsimp only
      rw [hw']
      exact ha'
  | beyond =>
    exact iff_of_true (receiveBeyondWindow_inv h h1 hcase).1 (not_repeatsBuffered (by simp [hcase]))

theorem reorder_nhb (h : WindowInv c.entry) (h1 : 1 ≤ c.entry.baWinSize)
    (hn : NothingHeldBack c.entry) :
    NothingHeldBack (reorderAmpdu c rx now).entry ↔ ¬ StrandsSuccessor c rx := by
  rw [reorderAmpdu_eq]
  cases hcase : receiveCase c.entry rx.sequence.toNat with
  | inOrder =>
    exact iff_of_true (receiveInOrder_inv h hcase).2 (not_strandsSuccessor (by simp [hcase]))
  | reset =>
    refine iff_of_true (fun _ m hm => ?_) (not_strandsSuccessor (by simp [hcase]))
    have hr : c.entry.lastIndSeq = RESET_RCV_SEQ := by
      by_contra hr
      have ha := h.ahead hr
      rw [receiveCase_dist ha.1 h.width rx.sequence.isLt] at hcase
      split_ifs at hcase
    rcases h.window with ⟨_, hl⟩ | ha
    · have hm' : m ∈ c.entry.list.next.head? := hm
      rw [hl] at hm'
      cases hm'
    · exact absurd hr (RESET_not_lt ha.1)
  | duplicate => exact iff_of_true hn (not_strandsSuccessor (by simp [hcase]))
  | old => exact iff_of_true hn (not_strandsSuccessor (by simp [hcase]))
  | inWindow => exact inWindow_nhb (baEnqueueReorderingPacket_cases c rx) h hn hcase
  | beyond =>
    exact iff_of_true (receiveBeyondWindow_inv h h1 hcase).2 (not_strandsSuccessor (by simp [hcase]))

end Ralink.BlockAck
