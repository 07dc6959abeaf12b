import Ralink.BlockAck.TableView

/-! What ties the slots, the entries, the counters and the bitmaps together, and the changes that
keep it: entering a session, changing it in place, leaving it. -/
namespace Ralink.BlockAck
open Function BackRef

def BaRecEntry.owner (e : BaRecEntry) : Option (Nat × Nat) :=
  if e.recBaStatus = .none then none else some (e.wcid, e.tid)

def BaOriEntry.owner (e : BaOriEntry) : Option (Nat × Nat) :=
  if e.oriBaStatus = .none then none else some (e.wcid, e.tid)

theorem BaRecEntry.owner_eq_none {e : BaRecEntry} : e.owner = none ↔ e.recBaStatus = .none := by
  unfold owner
  split <;> simp [*]

theorem BaOriEntry.owner_eq_none {e : BaOriEntry} : e.owner = none ↔ e.oriBaStatus = .none := by
  unfold owner
  split <;> simp [*]

theorem BaRecEntry.owner_used {e : BaRecEntry} (h : e.recBaStatus ≠ .none) :
    e.owner = some (e.wcid, e.tid) := if_neg h

theorem BaOriEntry.owner_used {e : BaOriEntry} (h : e.oriBaStatus ≠ .none) :
    e.owner = some (e.wcid, e.tid) := if_neg h

structure BaRecEntry.Open (e : BaRecEntry) : Prop where
  accept : e.recBaStatus = .accept
  wcid_lt : e.wcid < MAX_LEN_OF_MAC_TABLE
  tid_lt : e.tid < NUM_OF_TID
  winSize : 1 ≤ e.baWinSize ∧ e.baWinSize < 256

structure BaOriEntry.Open (e : BaOriEntry) : Prop where
  status : e.oriBaStatus = .waitRes ∨ e.oriBaStatus = .done
  wcid_lt : e.wcid < MAX_LEN_OF_MAC_TABLE
  tid_lt : e.tid < NUM_OF_TID

structure RecTableInv (v : RecView) : Prop where
  linked : Linked v.slot fun i => (v.entry i).owner
  open_used : ∀ i, (v.entry i).recBaStatus ≠ .none → i < MAX_LEN_OF_BA_REC_TABLE ∧ (v.entry i).Open
  bits : ∀ w t, t < 16 → ((v.bits w).getLsbD t = true ↔ v.slot (w, t) ≠ 0)
  counted : v.num = count MAX_LEN_OF_BA_REC_TABLE fun i => (v.entry i).recBaStatus != .none

structure OriTableInv (v : OriView) : Prop where
  linked : Linked v.slot fun i => (v.entry i).owner
  open_used : ∀ i, (v.entry i).oriBaStatus ≠ .none → i < MAX_LEN_OF_BA_ORI_TABLE ∧ (v.entry i).Open
  bits : ∀ w t, t < 16 →
    ((v.bits w).getLsbD t = true ↔ (v.entry (v.slot (w, t))).oriBaStatus = .done)
  counted : v.num = count MAX_LEN_OF_BA_ORI_TABLE fun i => (v.entry i).oriBaStatus != .none
  doneCounted : v.done = count MAX_LEN_OF_BA_ORI_TABLE fun i => (v.entry i).oriBaStatus == .done

theorem getLsbD_or_tidBit (b : BitVec 16) {t t' : Nat} (ht : t < 16) :
    (b ||| tidBit t).getLsbD t' = (b.getLsbD t' || decide (t' = t)) := by
  rw [BitVec.getLsbD_or, tidBit, ← BitVec.twoPow_eq, BitVec.getLsbD_twoPow]
  congr 1
  simp only [Bool.and_eq_decide, decide_eq_decide]
  simp only [ht, decide_true, true_and, decide_eq_true_eq]
  exact eq_comm

theorem getLsbD_and_not_tidBit (b : BitVec 16) {t t' : Nat} (ht : t < 16) (ht' : t' < 16) :
    (b &&& ~~~tidBit t).getLsbD t' = (b.getLsbD t' && decide (t' ≠ t)) := by
  rw [BitVec.getLsbD_and, BitVec.getLsbD_not, tidBit, ← BitVec.twoPow_eq, BitVec.getLsbD_twoPow]
  congr 1
  simp only [ht, ht', decide_true, Bool.true_and, decide_not, Bool.not_inj_iff, decide_eq_decide]
  exact eq_comm

variable {i w t n : Nat}

theorem owner_update {α : Type*} (f : Nat → α) (g : α → Option (Nat × Nat)) (i : Nat) (a : α) :
    (fun j => g (update f i a j)) = update (fun j => g (f j)) i (g a) :=
  funext fun j => apply_update (fun _ => g) f i a j

section Recipient
variable {v : RecView} {e : BaRecEntry}

section

variable (h : RecTableInv v)
include h

theorem RecTableInv.zero : (v.entry 0).recBaStatus = .none :=
  BaRecEntry.owner_eq_none.mp h.linked.zero

theorem RecTableInv.of_slot (hs : v.slot (w, t) ≠ 0) :
    v.slot (w, t) < MAX_LEN_OF_BA_REC_TABLE ∧ (v.entry (v.slot (w, t))).Open ∧
      (v.entry (v.slot (w, t))).wcid = w ∧ (v.entry (v.slot (w, t))).tid = t := by
  have ho := h.linked.owner_of_slot hs
  have hn : (v.entry (v.slot (w, t))).recBaStatus ≠ .none := fun hn => by
    rw [BaRecEntry.owner_eq_none.mpr hn] at ho
    cases ho
  rw [BaRecEntry.owner_used hn, Option.some.injEq, Prod.mk.injEq] at ho
  exact ⟨(h.open_used _ hn).1, (h.open_used _ hn).2, ho⟩

theorem RecTableInv.slot_of_used (hn : (v.entry i).recBaStatus ≠ .none) :
    v.slot ((v.entry i).wcid, (v.entry i).tid) = i :=
  h.linked.slot_of_owner (BaRecEntry.owner_used hn)

theorem RecTableInv.ne_zero (hn : (v.entry i).recBaStatus ≠ .none) : i ≠ 0 := by
  rintro rfl
  exact hn h.zero

theorem RecTableInv.modify (hst : e.recBaStatus = (v.entry i).recBaStatus)
    (hw : e.wcid = (v.entry i).wcid) (ht : e.tid = (v.entry i).tid)
    (hwin : e.recBaStatus ≠ .none → 1 ≤ e.baWinSize ∧ e.baWinSize < 256) :
    RecTableInv { v with entry := update v.entry i e } := by
  have howner : (fun j => (update v.entry i e j).owner) = fun j => (v.entry j).owner := by
    rw [owner_update v.entry BaRecEntry.owner i e, BaRecEntry.owner, hst, hw, ht,
      ← BaRecEntry.owner]
    exact update_eq_self i _
  have hstatus : ∀ j, (update v.entry i e j).recBaStatus = (v.entry j).recBaStatus := fun j => by
    rcases eq_or_ne j i with rfl | hj
    · rw [update_self, hst]
    · rw [update_of_ne hj]
  refine ⟨?_, fun j hj => ?_, h.bits, ?_⟩
  · dsimp only
    rw [howner]
    exact h.linked
  · have hj' := hj
    rw [hstatus] at hj'
    obtain ⟨hlt, hopen⟩ := h.open_used j hj'
    refine ⟨hlt, ?_⟩
    rcases eq_or_ne j i with rfl | hji
    · simp only [update_self] at hj ⊢
      exact ⟨hst.trans hopen.accept, hw ▸ hopen.wcid_lt, ht ▸ hopen.tid_lt, hwin hj⟩
    · simpa only [update_of_ne hji] using hopen
  · simp only [hstatus]
    exact h.counted

theorem RecTableInv.start (hi : 1 ≤ i) (hlt : i < MAX_LEN_OF_BA_REC_TABLE)
    (hfree : (v.entry i).recBaStatus = .none) (hopen : e.Open) (hs : v.slot (e.wcid, e.tid) = 0) :
    RecTableInv
      { slot := update v.slot (e.wcid, e.tid) i
        entry := update v.entry i e
        num := v.num + 1
        bits := update v.bits e.wcid (v.bits e.wcid ||| tidBit e.tid) } := by
  have hn : e.recBaStatus ≠ .none := by rw [hopen.accept]; simp
  have htid : e.tid < 16 := hopen.tid_lt.trans (by decide)
  refine ⟨?_, fun j hj => ?_, fun w t ht => ?_, ?_⟩
  · dsimp only
    rw [owner_update v.entry BaRecEntry.owner i e, BaRecEntry.owner_used hn]
    exact h.linked.link (by omega) hs (BaRecEntry.owner_eq_none.mpr hfree)
  · rcases eq_or_ne j i with rfl | hji
    · simpa only [update_self] using ⟨hlt, hopen⟩
    · simp only [update_of_ne hji] at hj ⊢
      exact h.open_used j hj
  · dsimp only
    rcases eq_or_ne w e.wcid with rfl | hw
    · rw [update_self, getLsbD_or_tidBit _ htid, Bool.or_eq_true, decide_eq_true_eq, h.bits _ _ ht]
      rcases eq_or_ne t e.tid with rfl | hte
      · simp only [or_true, update_self, true_iff]
        omega
      · rw [update_of_ne (by simp [hte])]
        simp [hte]
    · rw [update_of_ne hw, update_of_ne (by simp [hw]), h.bits _ _ ht]
  · dsimp only
    rw [h.counted]
    refine (count_set hi hlt (by simp [hfree]) (by simp [hn]) fun j hj => ?_).symm
    rw [update_of_ne hj]

theorem RecTableInv.stop (hn : (v.entry i).recBaStatus ≠ .none) (hfree : e.recBaStatus = .none) :
    RecTableInv
      { slot := update v.slot ((v.entry i).wcid, (v.entry i).tid) 0
        entry := update v.entry i e
        num := v.num - 1
        bits := update v.bits (v.entry i).wcid
          (v.bits (v.entry i).wcid &&& ~~~tidBit (v.entry i).tid) } := by
  obtain ⟨hlt, hopen⟩ := h.open_used i hn
  have htid : (v.entry i).tid < 16 := hopen.tid_lt.trans (by decide)
  have hi := h.ne_zero hn
  refine ⟨?_, fun j hj => ?_, fun w t ht => ?_, ?_⟩
  · dsimp only
    rw [owner_update v.entry BaRecEntry.owner i e, BaRecEntry.owner_eq_none.mpr hfree]
    exact h.linked.unlink (BaRecEntry.owner_used hn)
  · rcases eq_or_ne j i with rfl | hji
    · simp [hfree] at hj
    · simp only [update_of_ne hji] at hj ⊢
      exact h.open_used j hj
  · dsimp only
    rcases eq_or_ne w (v.entry i).wcid with rfl | hw
    · rw [update_self, getLsbD_and_not_tidBit _ htid ht, Bool.and_eq_true, decide_eq_true_eq,
        h.bits _ _ ht]
      rcases eq_or_ne t (v.entry i).tid with rfl | hte
      · simp
      · rw [update_of_ne (by simp [hte])]
        simp [hte]
    · rw [update_of_ne hw, update_of_ne (by simp [hw]), h.bits _ _ ht]
  · dsimp only
    rw [h.counted]
    refine (count_clear (Nat.one_le_iff_ne_zero.mpr hi) hlt (by simp [hn]) (by simp [hfree])
      fun j hj => ?_).symm
    rw [update_of_ne hj]

end

end Recipient

section Originator
variable {v : OriView} {e : BaOriEntry}

section

variable (h : OriTableInv v)
include h

theorem OriTableInv.zero : (v.entry 0).oriBaStatus = .none :=
  BaOriEntry.owner_eq_none.mp h.linked.zero

theorem OriTableInv.ne_zero (hn : (v.entry i).oriBaStatus ≠ .none) : i ≠ 0 := by
  rintro rfl
  exact hn h.zero

theorem OriTableInv.of_slot (hs : v.slot (w, t) ≠ 0) :
    v.slot (w, t) < MAX_LEN_OF_BA_ORI_TABLE ∧ (v.entry (v.slot (w, t))).Open ∧
      (v.entry (v.slot (w, t))).wcid = w ∧ (v.entry (v.slot (w, t))).tid = t := by
  have ho := h.linked.owner_of_slot hs
  have hn : (v.entry (v.slot (w, t))).oriBaStatus ≠ .none := fun hn => by
    rw [BaOriEntry.owner_eq_none.mpr hn] at ho
    cases ho
  rw [BaOriEntry.owner_used hn, Option.some.injEq, Prod.mk.injEq] at ho
  exact ⟨(h.open_used _ hn).1, (h.open_used _ hn).2, ho⟩

theorem OriTableInv.slot_of_used (hn : (v.entry i).oriBaStatus ≠ .none) :
    v.slot ((v.entry i).wcid, (v.entry i).tid) = i :=
  h.linked.slot_of_owner (BaOriEntry.owner_used hn)

theorem OriTableInv.modify (hst : e.oriBaStatus = (v.entry i).oriBaStatus)
    (hw : e.wcid = (v.entry i).wcid) (ht : e.tid = (v.entry i).tid) :
    OriTableInv { v with entry := update v.entry i e } := by
  have howner : (fun j => (update v.entry i e j).owner) = fun j => (v.entry j).owner := by
    rw [owner_update v.entry BaOriEntry.owner i e, BaOriEntry.owner, hst, hw, ht,
      ← BaOriEntry.owner]
    exact update_eq_self i _
  have hstatus : ∀ j, (update v.entry i e j).oriBaStatus = (v.entry j).oriBaStatus := fun j => by
    rcases eq_or_ne j i with rfl | hj
    · rw [update_self, hst]
    · rw [update_of_ne hj]
  refine ⟨?_, fun j hj => ?_, ?_, ?_, ?_⟩
  · dsimp only
    rw [howner]
    exact h.linked
  · have hj' := hj
    rw [hstatus] at hj'
    obtain ⟨hlt, hopen⟩ := h.open_used j hj'
    refine ⟨hlt, ?_⟩
    rcases eq_or_ne j i with rfl | hji
    · simp only [update_self]
      exact ⟨by rw [hst]; exact hopen.status, hw ▸ hopen.wcid_lt, ht ▸ hopen.tid_lt⟩
    · simpa only [update_of_ne hji] using hopen
  · simp only [hstatus]
    exact h.bits
  · simp only [hstatus]
    exact h.counted
  · simp only [hstatus]
    exact h.doneCounted

theorem OriTableInv.start (hi : 1 ≤ i) (hlt : i < MAX_LEN_OF_BA_ORI_TABLE)
    (hfree : (v.entry i).oriBaStatus = .none) (hopen : e.Open) (hwait : e.oriBaStatus = .waitRes)
    (hs : v.slot (e.wcid, e.tid) = 0) :
    OriTableInv
      { v with
        slot := update v.slot (e.wcid, e.tid) i
        entry := update v.entry i e
        num := v.num + 1 } := by
  have hn : e.oriBaStatus ≠ .none := by rw [hwait]; simp
  refine ⟨?_, fun j hj => ?_, fun w t ht => ?_, ?_, ?_⟩
  · dsimp only
    rw [owner_update v.entry BaOriEntry.owner i e, BaOriEntry.owner_used hn]
    exact h.linked.link (by omega) hs (BaOriEntry.owner_eq_none.mpr hfree)
  · rcases eq_or_ne j i with rfl | hji
    · simpa only [update_self] using ⟨hlt, hopen⟩
    · simp only [update_of_ne hji] at hj ⊢
      exact h.open_used j hj
  · dsimp only
    rw [h.bits _ _ ht]
    rcases eq_or_ne (w, t) (e.wcid, e.tid) with hwt | hwt
    · rw [hwt, hs, update_self, update_self, h.zero, hwait]
      simp
    · rw [update_of_ne hwt]
      rcases eq_or_ne (v.slot (w, t)) i with hsi | hsi
      · rw [hsi, update_self, hfree, hwait]
        simp
      · rw [update_of_ne hsi]
  · dsimp only
    rw [h.counted]
    refine (count_set hi hlt (by simp [hfree]) (by simp [hn]) fun j hj => ?_).symm
    rw [update_of_ne hj]
  · dsimp only
    rw [h.doneCounted]
    refine count_congr fun j _ _ => ?_
    rcases eq_or_ne j i with rfl | hj
    · rw [update_self, hfree, hwait]
      rfl
    · rw [update_of_ne hj]

theorem OriTableInv.confirm (hwait : (v.entry i).oriBaStatus = .waitRes)
    (hdone : e.oriBaStatus = .done) (hw : e.wcid = (v.entry i).wcid) (ht : e.tid = (v.entry i).tid) :
    OriTableInv
      { v with
        entry := update v.entry i e
        done := v.done + 1
        bits := update v.bits e.wcid (v.bits e.wcid ||| tidBit e.tid) } := by
  have hn : (v.entry i).oriBaStatus ≠ .none := by rw [hwait]; simp
  obtain ⟨hlt, hopen⟩ := h.open_used i hn
  have hi := h.ne_zero hn
  have htid : e.tid < 16 := by rw [ht]; exact hopen.tid_lt.trans (by decide)
  have howner : (fun j => (update v.entry i e j).owner) = fun j => (v.entry j).owner := by
    rw [owner_update v.entry BaOriEntry.owner i e, BaOriEntry.owner_used (by rw [hdone]; simp), hw, ht,
      ← BaOriEntry.owner_used hn]
    exact update_eq_self i _
  have hslot : ∀ k, v.slot k = i ↔ k = (e.wcid, e.tid) := by
    rw [hw, ht]
    exact h.linked.existsUnique_slot (BaOriEntry.owner_used hn)
  refine ⟨?_, fun j hj => ?_, fun w t htt => ?_, ?_, ?_⟩
  · dsimp only
    rw [howner]
    exact h.linked
  · rcases eq_or_ne j i with rfl | hji
    · simp only [update_self]
      exact ⟨hlt, Or.inr hdone, hw ▸ hopen.wcid_lt, ht ▸ hopen.tid_lt⟩
    · simp only [update_of_ne hji] at hj ⊢
      exact h.open_used j hj
  · dsimp only
    rcases eq_or_ne (w, t) (e.wcid, e.tid) with hwt | hwt
    · rw [(hslot (w, t)).mpr hwt, update_self, hdone]
      obtain ⟨rfl, rfl⟩ := Prod.mk.inj hwt
      rw [update_self, getLsbD_or_tidBit _ htid]
      simp
    · have hsi : v.slot (w, t) ≠ i := fun hc => hwt ((hslot (w, t)).mp hc)
      rw [update_of_ne hsi, ← h.bits _ _ htt]
      rcases eq_or_ne w e.wcid with rfl | hww
      · have htt' : t ≠ e.tid := fun hc => hwt (by rw [hc])
        rw [update_self, getLsbD_or_tidBit _ htid]
        simp [htt']
      · rw [update_of_ne hww]
  · dsimp only
    rw [h.counted]
    refine count_congr fun j _ _ => ?_
    rcases eq_or_ne j i with rfl | hj
    · rw [update_self, hwait, hdone]
      rfl
    · rw [update_of_ne hj]
  · dsimp only
    rw [h.doneCounted]
    refine (count_set (Nat.one_le_iff_ne_zero.mpr hi) hlt (by simp [hwait]) (by simp [hdone])
      fun j hj => ?_).symm
    rw [update_of_ne hj]

theorem OriTableInv.stop_waiting (hwait : (v.entry i).oriBaStatus = .waitRes)
    (hfree : e.oriBaStatus = .none) :
    OriTableInv
      { v with
        slot := update v.slot ((v.entry i).wcid, (v.entry i).tid) 0
        entry := update v.entry i e
        num := v.num - 1 } := by
  have hn : (v.entry i).oriBaStatus ≠ .none := by rw [hwait]; simp
  obtain ⟨hlt, hopen⟩ := h.open_used i hn
  have hi := h.ne_zero hn
  have hslot := h.linked.existsUnique_slot (BaOriEntry.owner_used hn)
  refine ⟨?_, fun j hj => ?_, fun w t ht => ?_, ?_, ?_⟩
  · dsimp only
    rw [owner_update v.entry BaOriEntry.owner i e, BaOriEntry.owner_eq_none.mpr hfree]
    exact h.linked.unlink (BaOriEntry.owner_used hn)
  · rcases eq_or_ne j i with rfl | hji
    · simp [hfree] at hj
    · simp only [update_of_ne hji] at hj ⊢
      exact h.open_used j hj
  · dsimp only
    rw [h.bits _ _ ht]
    rcases eq_or_ne (w, t) ((v.entry i).wcid, (v.entry i).tid) with hwt | hwt
    · rw [(hslot (w, t)).mpr hwt, hwt, update_self, update_of_ne (Ne.symm hi), h.zero, hwait]
      simp
    · have hsi : v.slot (w, t) ≠ i := fun hc => hwt ((hslot (w, t)).mp hc)
      rw [update_of_ne hwt, update_of_ne hsi]
  · dsimp only
    rw [h.counted]
    refine (count_clear (Nat.one_le_iff_ne_zero.mpr hi) hlt (by simp [hn]) (by simp [hfree])
      fun j hj => ?_).symm
    rw [update_of_ne hj]
  · dsimp only
    rw [h.doneCounted]
    refine count_congr fun j _ _ => ?_
    rcases eq_or_ne j i with rfl | hj
    · rw [update_self, hwait, hfree]
      rfl
    · rw [update_of_ne hj]

theorem OriTableInv.stop_done (hdone : (v.entry i).oriBaStatus = .done)
    (hfree : e.oriBaStatus = .none) :
    OriTableInv
      { slot := update v.slot ((v.entry i).wcid, (v.entry i).tid) 0
        entry := update v.entry i e
        num := v.num - 1
        done := v.done - 1
        bits := update v.bits (v.entry i).wcid
          (v.bits (v.entry i).wcid &&& ~~~tidBit (v.entry i).tid) } := by
  have hn : (v.entry i).oriBaStatus ≠ .none := by rw [hdone]; simp
  obtain ⟨hlt, hopen⟩ := h.open_used i hn
  have hi := h.ne_zero hn
  have htid : (v.entry i).tid < 16 := hopen.tid_lt.trans (by decide)
  have hslot := h.linked.existsUnique_slot (BaOriEntry.owner_used hn)
  refine ⟨?_, fun j hj => ?_, fun w t ht => ?_, ?_, ?_⟩
  · dsimp only
    rw [owner_update v.entry BaOriEntry.owner i e, BaOriEntry.owner_eq_none.mpr hfree]
    exact h.linked.unlink (BaOriEntry.owner_used hn)
  · rcases eq_or_ne j i with rfl | hji
    · simp [hfree] at hj
    · simp only [update_of_ne hji] at hj ⊢
      exact h.open_used j hj
  · dsimp only
    rcases eq_or_ne (w, t) ((v.entry i).wcid, (v.entry i).tid) with hwt | hwt
    · rw [hwt, update_self, update_of_ne (Ne.symm hi), h.zero]
      obtain ⟨rfl, rfl⟩ := Prod.mk.inj hwt
      rw [update_self, getLsbD_and_not_tidBit _ htid ht]
      simp
    · have hsi : v.slot (w, t) ≠ i := fun hc => hwt ((hslot (w, t)).mp hc)
      rw [update_of_ne hwt, update_of_ne hsi, ← h.bits _ _ ht]
      rcases eq_or_ne w (v.entry i).wcid with rfl | hww
      · have htt' : t ≠ (v.entry i).tid := fun hc => hwt (by rw [hc])
        rw [update_self, getLsbD_and_not_tidBit _ htid ht]
        simp [htt']
      · rw [update_of_ne hww]
  · dsimp only
    rw [h.counted]
    refine (count_clear (Nat.one_le_iff_ne_zero.mpr hi) hlt (by simp [hn]) (by simp [hfree])
      fun j hj => ?_).symm
    rw [update_of_ne hj]
  · dsimp only
    rw [h.doneCounted]
    refine (count_clear (Nat.one_le_iff_ne_zero.mpr hi) hlt (by simp [hdone]) (by simp [hfree])
      fun j hj => ?_).symm
    rw [update_of_ne hj]

end

end Originator

end Ralink.BlockAck
