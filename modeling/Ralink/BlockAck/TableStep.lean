import Ralink.Lib.Run
import Ralink.BlockAck.TableInv
import Ralink.BlockAck.Window

/-! What each operation does to the view of the tables, and from it that the table invariants hold
after any run of events. -/
namespace Ralink.BlockAck
open Function BackRef

def BaRecEntry.session (e : BaRecEntry) : Nat × Nat × Nat × RecBlockAckStatus :=
  (e.wcid, e.tid, e.baWinSize, e.recBaStatus)

section Session
variable (c : ReCtx) (rx : RxBlk) (now : BitVec 32) (sequence osHz turns startSeq : Nat)

theorem passHeadUp_session {c c' : ReCtx} {m : ReorderingMpdu} (h : passHeadUp c = some (c', m)) :
    c'.entry.session = c.entry.session := by
  unfold passHeadUp at h
  split at h
  · cases h
  · cases h
    rfl

theorem inOrderLoop_session (last : Nat) :
    (inOrderLoop turns c startSeq last).1.entry.session = c.entry.session := by
  induction turns generalizing c startSeq last with
  | zero => rfl
  | succ turns ih =>
    rw [inOrderLoop]
    split
    · rfl
    · split
      · rfl
      · split
        · rfl
        · next hp =>
          have hs := passHeadUp_session hp
          exact (ih _ _ _).trans hs

theorem leSeqLoop_session : (leSeqLoop sequence turns c).entry.session = c.entry.session := by
  induction turns generalizing c with
  | zero => rfl
  | succ turns ih =>
    rw [leSeqLoop]
    split
    · rfl
    · split
      · split
        · rfl
        · next hp =>
          have hs := passHeadUp_session hp
          exact (ih _).trans hs
      · rfl

theorem refreshLoop_session : (refreshLoop turns c).entry.session = c.entry.session := by
  induction turns generalizing c with
  | zero => rfl
  | succ turns ih =>
    rw [refreshLoop]
    split
    · rfl
    · next hp =>
      have hs := passHeadUp_session hp
      exact (ih _).trans hs

theorem drainInOrder_session : (drainInOrder c startSeq).entry.session = c.entry.session := by
  have h := inOrderLoop_session c c.entry.list.next.length startSeq RESET_RCV_SEQ
  unfold drainInOrder baIndicateReorderingMpdusInOrder
  dsimp only
  split
  · exact h
  · exact h

theorem baIndicateReorderingMpdusLeSeq_session :
    (baIndicateReorderingMpdusLeSeq c sequence).entry.session = c.entry.session :=
  leSeqLoop_session c sequence _

theorem baRefreshReorderingMpdus_session :
    (baRefreshReorderingMpdus c).entry.session = c.entry.session :=
  refreshLoop_session c _

theorem flush_session :
    (baFlushReorderingTimeoutMpdus osHz c now).entry.session = c.entry.session := by
  unfold baFlushReorderingTimeoutMpdus
  split
  · rfl
  · split
    · exact baRefreshReorderingMpdus_session c
    · split
      · exact (drainInOrder_session _ _).trans (baIndicateReorderingMpdusLeSeq_session c _)
      · rfl

theorem passUpUnordered_session : (passUpUnordered c rx).entry.session = c.entry.session :=
  baIndicateReorderingMpdusLeSeq_session c _

theorem baEnqueueReorderingPacket_session :
    (baEnqueueReorderingPacket c rx).entry.session = c.entry.session := by
  have h := baEnqueueReorderingPacket_cases c rx
  generalize baEnqueueReorderingPacket c rx = c' at h ⊢
  cases h with
  | stored => rfl
  | duplicate => rfl
  | passedUp => exact passUpUnordered_session _ rx

theorem reorderAmpdu_session : (reorderAmpdu c rx now).entry.session = c.entry.session := by
  rw [reorderAmpdu_eq]
  split
  · rfl
  · exact drainInOrder_session _ _
  · rfl
  · rfl
  · exact baEnqueueReorderingPacket_session c rx
  · exact ((drainInOrder_session _ _).trans (baEnqueueReorderingPacket_session _ rx)).trans
      (baIndicateReorderingMpdusLeSeq_session c _)

theorem indicateAmpduOnEntry_session :
    (indicateAmpduOnEntry osHz c rx now).entry.session = c.entry.session :=
  (reorderAmpdu_session _ rx now).trans (flush_session _ now osHz)

theorem barOnEntry_session (startSeq : BitVec 12) :
    (barOnEntry c startSeq).entry.session = c.entry.session := by
  unfold barOnEntry
  split
  · exact baIndicateReorderingMpdusLeSeq_session c _
  · rfl

end Session

theorem firstFree_some {n i : Nat} {free : Nat → Bool} (h : firstFree n free = some i) :
    1 ≤ i ∧ i < n ∧ free i = true := by
  have hm := List.mem_range'_1.mp (List.mem_of_find?_eq_some h)
  exact ⟨hm.1, by omega, List.find?_some h⟩

theorem firstFree_none {n : Nat} {free : Nat → Bool} (h : firstFree n free = none) :
    ∀ i, 1 ≤ i → i < n → free i = false := by
  intro i h1 hn
  have := List.find?_eq_none.mp h i (List.mem_range'_1.mpr (by omega))
  simpa using this

structure TablesInv (ad : RtmpAdapter) : Prop where
  recip : RecTableInv ad.view.recip
  orig : OriTableInv ad.view.orig
  aid : ∀ w, ad.view.aid w = w

theorem TablesInv.of_view {ad ad' : RtmpAdapter} (h : TablesInv ad) (hv : ad'.view = ad.view) :
    TablesInv ad' := ⟨hv ▸ h.recip, hv ▸ h.orig, hv ▸ h.aid⟩

theorem TablesInv.allocMem {ad : RtmpAdapter} (h : TablesInv ad) : TablesInv ad.allocMem.1 :=
  h.of_view ad.view_allocMem

theorem TablesInv.send {ad : RtmpAdapter} (h : TablesInv ad) (f : MgmtFrame) :
    TablesInv (ad.send f) := h.of_view (ad.view_send f)

/-- An adapter with a claimed recipient entry, and one with a claimed originator entry. -/
def claimRec (ad : RtmpAdapter) (i : Nat) : RtmpAdapter :=
  (ad.setRec i { ad.baTable.baRecEntry i with recBaStatus := .used }).setNumAsRecipient
    (ad.baTable.numAsRecipient + 1)

def claimOri (ad : RtmpAdapter) (i : Nat) : RtmpAdapter :=
  (ad.setOri i { ad.baTable.baOriEntry i with oriBaStatus := .used }).setNumAsOriginator
    (ad.baTable.numAsOriginator + 1)

variable {ad : RtmpAdapter} {wcid tid idx p : Nat} {ev : BaEvent} {f : FrameAddbaReq}

theorem baTableAllocRecEntry_cases (h : RecTableInv ad.view.recip) (idx : Nat) :
    baTableAllocRecEntry ad idx = (ad, none, idx) ∨
      ∃ i, 1 ≤ i ∧ i < MAX_LEN_OF_BA_REC_TABLE ∧
        (ad.view.recip.entry i).recBaStatus = .none ∧
        baTableAllocRecEntry ad idx = (claimRec ad i, some i, i) := by
  unfold baTableAllocRecEntry
  split
  · exact Or.inl rfl
  · next hn =>
    split
    · next i hi =>
      obtain ⟨h1, hlt, hf⟩ := firstFree_some hi
      exact Or.inr ⟨i, h1, hlt, by simpa using hf, rfl⟩
    · next hnone =>
      -- the counter is short of the table size, so some entry is free
      have hc : ad.baTable.numAsRecipient = _ := h.counted
      rw [hc, not_le] at hn
      obtain ⟨i, h1, hlt, hf⟩ := exists_of_count_lt hn
      have hfree : (ad.view.recip.entry i).recBaStatus = .none := by simpa using hf
      exact absurd hfree (by simpa using firstFree_none hnone i h1 hlt)

theorem baTableAllocOriEntry_cases (h : OriTableInv ad.view.orig) (idx : Nat) :
    baTableAllocOriEntry ad idx = (ad, none, idx) ∨
      ∃ i, 1 ≤ i ∧ i < MAX_LEN_OF_BA_ORI_TABLE ∧
        (ad.view.orig.entry i).oriBaStatus = .none ∧
        baTableAllocOriEntry ad idx = (claimOri ad i, some i, i) := by
  unfold baTableAllocOriEntry
  split
  · exact Or.inl rfl
  · next hn =>
    split
    · next i hi =>
      obtain ⟨h1, hlt, hf⟩ := firstFree_some hi
      exact Or.inr ⟨i, h1, hlt, by simpa using hf, rfl⟩
    · next hnone =>
      have hc : ad.baTable.numAsOriginator = _ := h.counted
      rw [hc, not_le] at hn
      obtain ⟨i, h1, hlt, hf⟩ := exists_of_count_lt hn
      have hfree : (ad.view.orig.entry i).oriBaStatus = .none := by simpa using hf
      exact absurd hfree (by simpa using firstFree_none hnone i h1 hlt)

theorem TablesInv.onEntry (h : TablesInv ad) (i : Nat) {f : ReCtx → ReCtx}
    (hf : ∀ c, (f c).entry.session = c.entry.session) : TablesInv (ad.onEntry i f) := by
  have hs := hf (ad.reCtx i)
  simp only [BaRecEntry.session, Prod.mk.injEq] at hs
  obtain ⟨hw, ht, hwin, hst⟩ := hs
  refine ⟨h.recip.modify hst hw ht fun hn => ?_, h.orig, h.aid⟩
  rw [hst] at hn
  rw [hwin]
  exact (h.recip.open_used i hn).2.winSize

@[simp] theorem startRecSession_wcid (wcid tid baWinSize timeOut : Nat) (c : ReCtx) :
    (startRecSession wcid tid baWinSize timeOut c).entry.wcid = wcid := rfl
@[simp] theorem startRecSession_tid (wcid tid baWinSize timeOut : Nat) (c : ReCtx) :
    (startRecSession wcid tid baWinSize timeOut c).entry.tid = tid := rfl

theorem recBAWinSize_bounds (cfg : BaConfig) (bufSize : BitVec 10) :
    1 ≤ recBAWinSize cfg bufSize ∧ recBAWinSize cfg bufSize < 256 := by
  have := cfg.rxBAWinLimit.isLt
  unfold recBAWinSize
  dsimp only
  split <;> omega

theorem or_tidBit_eq_self {b : BitVec 16} {t : Nat} (ht : t < 16) (hb : b.getLsbD t = true) :
    b ||| tidBit t = b := by
  refine BitVec.eq_of_getLsbD_eq fun i _ => ?_
  rw [getLsbD_or_tidBit b ht]
  rcases eq_or_ne i t with rfl | hi
  · simp [hb]
  · simp [hi]

theorem baRecSessionAdd_inv (h : TablesInv ad) (hw : wcid < MAX_LEN_OF_MAC_TABLE)
    (ht : f.baParm.tid.toNat < NUM_OF_TID) : TablesInv (baRecSessionAdd ad wcid f).1 := by
  have haid : ad.view.aid wcid % 256 = wcid := by
    rw [h.aid]
    exact Nat.mod_eq_of_lt (hw.trans (by decide))
  have hwin := recBAWinSize_bounds ad.commonCfg f.baParm.bufSize
  have ht16 : f.baParm.tid.toNat < 16 := f.baParm.tid.isLt
  by_cases hidx : ad.view.recip.slot (wcid, f.baParm.tid.toNat) = 0
  · rcases baTableAllocRecEntry_cases h.recip 0 with ha | ⟨i, h1, hlt, hfree, ha⟩
    · refine h.of_view ?_
      simp [baRecSessionAdd, hidx, ha]
    · let e := (startRecSession wcid f.baParm.tid.toNat
        (recBAWinSize ad.commonCfg f.baParm.bufSize) f.timeOutValue.toNat
          ((claimRec ad i).reCtx i)).entry
      have hstart := h.recip.start (e := e) h1 hlt hfree ⟨rfl, hw, ht, hwin⟩ hidx
      have hv : (baRecSessionAdd ad wcid f).1.view =
          { ad.view with
            recip :=
              { slot := update ad.view.recip.slot (e.wcid, e.tid) i
                entry := update ad.view.recip.entry i e
                num := ad.view.recip.num + 1
                bits := update ad.view.recip.bits e.wcid
                  (ad.view.recip.bits e.wcid ||| tidBit e.tid) } } := by
        simp [baRecSessionAdd, hidx, ha, claimRec, haid, e]
      exact ⟨hv ▸ hstart, hv ▸ h.orig, hv ▸ h.aid⟩
  · -- a session exists: its pending frames go up and it starts over
    obtain ⟨-, hopen, hwc, htc⟩ := h.recip.of_slot hidx
    let i := ad.view.recip.slot (wcid, f.baParm.tid.toNat)
    let e := (startRecSession wcid f.baParm.tid.toNat
      (recBAWinSize ad.commonCfg f.baParm.bufSize) f.timeOutValue.toNat
        ((ad.onEntry i baRefreshReorderingMpdus).reCtx i)).entry
    have hrestart := h.recip.modify (i := i) (e := e) hopen.accept.symm hwc.symm htc.symm
      fun _ => hwin
    have hbit := or_tidBit_eq_self ht16 ((h.recip.bits wcid _ ht16).mpr hidx)
    have hv : (baRecSessionAdd ad wcid f).1.view =
        { ad.view with recip := { ad.view.recip with entry := update ad.view.recip.entry i e } } := by
      simp [baRecSessionAdd, hidx, haid, hbit, e, i]
    exact ⟨hv ▸ hrestart, hv ▸ h.orig, hv ▸ h.aid⟩

theorem view_baTableFreeRecEntry (h : idx ≠ 0) (hlt : idx < MAX_LEN_OF_BA_REC_TABLE)
    (hn : (ad.view.recip.entry idx).recBaStatus ≠ .none) :
    (baTableFreeRecEntry ad idx).view =
      { ad.view with
        recip := { ad.view.recip with
          slot := update ad.view.recip.slot
            ((ad.view.recip.entry idx).wcid, (ad.view.recip.entry idx).tid) 0
          entry := update ad.view.recip.entry idx
            { ad.view.recip.entry idx with recBaStatus := .none }
          num := ad.view.recip.num - 1 } } := by
  simp [baTableFreeRecEntry, h, not_le.mpr hlt, hn]

theorem view_mlmeDELBAAction (ad : RtmpAdapter) (wcid tid : Nat) (initiator : Initiator) :
    (mlmeDELBAAction ad wcid tid initiator).view = ad.view := by
  unfold mlmeDELBAAction
  split
  · dsimp only
    split
    · simp
    · split <;> simp
  · rfl

section

variable (h : TablesInv ad)
include h

theorem closeRec_inv (hslot : ad.view.recip.slot (wcid, tid) = idx) (hidx : idx ≠ 0) :
    TablesInv (baTableFreeRecEntry
      (((ad.onEntry idx fun c => stopRecSession (baRefreshReorderingMpdus c)).setRXBAbitmap wcid
        (ad.view.recip.bits wcid &&& ~~~tidBit tid)).setRecSlot wcid tid 0) idx) := by
  obtain ⟨hlt, hopen, hwc, htc⟩ := h.recip.of_slot (w := wcid) (t := tid) (hslot ▸ hidx)
  rw [hslot] at hlt hopen hwc htc
  let e := (stopRecSession (baRefreshReorderingMpdus (ad.reCtx idx))).entry
  have hs : e.wcid = wcid ∧ e.tid = tid ∧ e.recBaStatus = .accept := by
    have hs := baRefreshReorderingMpdus_session (ad.reCtx idx)
    simp only [BaRecEntry.session, Prod.mk.injEq] at hs
    exact ⟨hs.1.trans hwc, hs.2.1.trans htc, hs.2.2.2.trans hopen.accept⟩
  have hstop := h.recip.stop (i := idx) (e := { e with recBaStatus := .none })
    (by simp [hopen.accept]) rfl
  rw [hwc, htc] at hstop
  refine ⟨?_, ?_, ?_⟩
  all_goals rw [view_baTableFreeRecEntry hidx hlt (by simpa [e] using hs.2.2 ▸ by simp)]
  · simpa [e, hs.1, hs.2.1] using hstop
  · simpa using h.orig
  · simpa using h.aid

theorem baRecSessionTearDown_inv (bPassive : Bool) :
    TablesInv (baRecSessionTearDown ad wcid tid bPassive) := by
  unfold baRecSessionTearDown
  split
  · exact h
  · dsimp only
    split
    · exact h
    · next hidx =>
      obtain ⟨-, hopen, hwc, htc⟩ := h.recip.of_slot (w := wcid) (t := tid) hidx
      have hlive : tid = (ad.baTable.baRecEntry ((ad.content wcid).baRecWcidArray tid)).tid ∧
          (ad.baTable.baRecEntry ((ad.content wcid).baRecWcidArray tid)).recBaStatus = .accept :=
        ⟨htc.symm, hopen.accept⟩
      rw [if_pos hlive, ← hlive.1]
      cases bPassive with
      | true => exact closeRec_inv h rfl hidx
      | false =>
        simp only [Bool.false_eq_true, if_false]
        split
        · exact h.allocMem
        · have hv := view_mlmeDELBAAction ad.allocMem.1 wcid tid .recipient
          rw [RtmpAdapter.view_allocMem] at hv
          exact closeRec_inv (h.of_view hv) (by rw [hv]; rfl) hidx

theorem baTableFreeOriEntry_inv (hslot : ad.view.orig.slot (wcid, tid) = idx) :
    TablesInv (baTableFreeOriEntry ad idx) := by
  rcases eq_or_ne idx 0 with rfl | hidx
  · exact h.of_view (by simp [baTableFreeOriEntry])
  · obtain ⟨hlt, hopen, hwc, htc⟩ := h.orig.of_slot (w := wcid) (t := tid) (hslot ▸ hidx)
    rw [hslot] at hlt hopen hwc htc
    rcases hopen.status with hst | hst
    · have hstop := h.orig.stop_waiting (i := idx)
        (e := { ad.view.orig.entry idx with oriBaStatus := .none, token := 0 }) hst rfl
      refine ⟨?_, ?_, ?_⟩
      · simpa [baTableFreeOriEntry, hidx, not_le.mpr hlt, hst] using h.recip
      · simpa [baTableFreeOriEntry, hidx, not_le.mpr hlt, hst] using hstop
      · simpa [baTableFreeOriEntry, hidx, not_le.mpr hlt, hst] using h.aid
    · have hstop := h.orig.stop_done (i := idx)
        (e := { ad.view.orig.entry idx with oriBaStatus := .none, token := 0 }) hst rfl
      refine ⟨?_, ?_, ?_⟩
      · simpa [baTableFreeOriEntry, hidx, not_le.mpr hlt, hst] using h.recip
      · simpa [baTableFreeOriEntry, hidx, not_le.mpr hlt, hst] using hstop
      · simpa [baTableFreeOriEntry, hidx, not_le.mpr hlt, hst] using h.aid

theorem TablesInv.modifyOri {i : Nat} {e : BaOriEntry}
    (hst : e.oriBaStatus = (ad.view.orig.entry i).oriBaStatus)
    (hw : e.wcid = (ad.view.orig.entry i).wcid) (ht : e.tid = (ad.view.orig.entry i).tid) :
    TablesInv (ad.setOri i e) := ⟨h.recip, h.orig.modify hst hw ht, h.aid⟩

theorem cancelOriTimer_inv (i : Nat) : TablesInv (cancelOriTimer ad i) :=
  h.modifyOri rfl rfl rfl

theorem baOriSessionTearDown_inv (bPassive bForceSend : Bool) :
    TablesInv (baOriSessionTearDown ad wcid tid bPassive bForceSend) := by
  have hdelba : ∀ ad', ad'.view = ad.view → ∀ t, TablesInv (mlmeDELBAAction ad' wcid t .originator) :=
    fun ad' hv t => h.of_view ((view_mlmeDELBAAction ad' wcid t _).trans hv)
  unfold baOriSessionTearDown
  split
  · exact h
  · dsimp only
    split
    · split
      · split
        · exact hdelba _ ad.view_allocMem _
        · exact h.allocMem
      · exact h
    · split
      · split
        · have hv := (view_mlmeDELBAAction ad.allocMem.1 wcid
            (ad.baTable.baOriEntry ((ad.content wcid).baOriWcidArray tid)).tid .originator).trans
              ad.view_allocMem
          have hslot := congrArg (fun v : TableView => v.orig.slot (wcid, tid)) hv
          exact baTableFreeOriEntry_inv (cancelOriTimer_inv (h.of_view hv) _) hslot
        · exact h.allocMem
      · have hslot : (cancelOriTimer ad ((ad.content wcid).baOriWcidArray tid)).view.orig.slot
            (wcid, tid) = (ad.content wcid).baOriWcidArray tid := rfl
        exact baTableFreeOriEntry_inv (cancelOriTimer_inv h _) hslot

theorem baOriSessionSetupTimeout_inv (p : Nat) : TablesInv (baOriSessionSetupTimeout ad p) := by
  unfold baOriSessionSetupTimeout
  dsimp only
  split
  · exact (h.send _).modifyOri rfl rfl rfl
  · exact baTableFreeOriEntry_inv h rfl

theorem baOriSessionAdd_inv (f : FrameAddbaRsp) : TablesInv (baOriSessionAdd ad wcid f) := by
  unfold baOriSessionAdd
  dsimp only
  split
  · next hcond =>
    obtain ⟨hidx, htid, hwait⟩ := hcond
    obtain ⟨-, hopen, hwc, htc⟩ := h.orig.of_slot (w := wcid) hidx
    have hconfirm : ∀ e : BaOriEntry, e.oriBaStatus = .done → e.wcid = wcid →
        e.tid = f.baParm.tid.toNat → TablesInv
          (((ad.setOri ((ad.content wcid).baOriWcidArray f.baParm.tid.toNat) e).setNumDoneOriginator
            (ad.baTable.numDoneOriginator + 1)).setTXBAbitmap wcid
              ((ad.content wcid).txBAbitmap ||| tidBit f.baParm.tid.toNat)) := by
      intro e hdone hew het
      have hc := h.orig.confirm (e := e) hwait hdone (hew.trans hwc.symm) (het.trans htc.symm)
      rw [hew, het] at hc
      refine ⟨?_, ?_, ?_⟩
      · simpa using h.recip
      · simpa using hc
      · simpa using h.aid
    split
    · refine (TablesInv.allocMem (hconfirm _ rfl ?_ ?_)).send _
      · exact hwc
      · exact htc
    · refine TablesInv.allocMem (hconfirm _ rfl ?_ ?_)
      · exact hwc
      · exact htc
  · exact h

theorem baOriSessionSetUp_inv (hw : wcid < MAX_LEN_OF_MAC_TABLE) (timeOut delayTime : Nat)
    (isForced : Bool) : TablesInv (baOriSessionSetUp ad wcid tid timeOut delayTime isForced) := by
  have haid : ad.view.aid wcid % 256 = wcid := by
    rw [h.aid]
    exact Nat.mod_eq_of_lt (hw.trans (by decide))
  unfold baOriSessionSetUp
  split
  · exact h
  · next htid =>
    split
    · exact h
    · split
      · exact h
      · dsimp only
        by_cases hidx : (ad.content wcid).baOriWcidArray tid = 0
        · rw [if_pos hidx, hidx]
          rcases baTableAllocOriEntry_cases h.orig 0 with ha | ⟨i, h1, hlt, hfree, ha⟩
          · rw [ha]
            exact h
          · rw [ha]
            have hused : ((claimOri ad i).baTable.baOriEntry i).oriBaStatus = .used := by
              simp [claimOri]
            simp only [hused]
            have hstart : ∀ e : BaOriEntry, e.oriBaStatus = .waitRes → e.wcid = wcid →
                e.tid = tid → TablesInv (((claimOri ad i).setOriSlot wcid tid i).setOri i e) := by
              intro e hwait hew het
              have hs := h.orig.start (i := i) (e := e) h1 hlt hfree
                ⟨Or.inl hwait, hew ▸ hw, het ▸ not_le.mp htid⟩ hwait (by rw [hew, het]; exact hidx)
              rw [hew, het] at hs
              refine ⟨?_, ?_, ?_⟩
              · simpa [claimOri] using h.recip
              · simpa [claimOri] using hs
              · simpa [claimOri] using h.aid
            exact hstart _ rfl (by simpa [claimOri] using haid) rfl
        · rw [if_neg hidx]
          obtain ⟨-, hopen, -, -⟩ := h.orig.of_slot (w := wcid) (t := tid) hidx
          -- an entry in a slot waits or is done, so nothing is set up again
          rcases hopen.status with hst | hst
          · have hst' : (ad.baTable.baOriEntry
              ((ad.content wcid).baOriWcidArray tid)).oriBaStatus = .waitRes := hst
            simp only [hst']
            exact h
          · have hst' : (ad.baTable.baOriEntry
              ((ad.content wcid).baOriWcidArray tid)).oriBaStatus = .done := hst
            simp only [hst']
            exact h

theorem TablesInv.setBADeclineBitmap (w : Nat) (b : BitVec 16) :
    TablesInv (ad.setBADeclineBitmap w b) := h.of_view (ad.view_setBADeclineBitmap w b)

theorem baSessionTearDownALL_inv (wcid : Nat) : TablesInv (baSessionTearDownALL ad wcid) := by
  unfold baSessionTearDownALL
  generalize List.range NUM_OF_TID = tids
  induction tids generalizing ad with
  | nil => exact h
  | cons tid tids ih =>
    exact ih (baRecSessionTearDown_inv (baOriSessionTearDown_inv h false false) false)

end

def reaches (ad : RtmpAdapter) (wcid msgLen : Nat) (f : FrameAddbaReq) : Bool :=
  peerAddBAReqActionSanity msgLen f && (!ad.commonCfg.bBADecline && (ad.content wcid).isHtSta)

theorem peerAddBAReqAction_inv (h : TablesInv ad) (msgLen : Nat)
    (ht : reaches ad wcid msgLen f = true → f.baParm.tid.toNat < NUM_OF_TID) :
    TablesInv (peerAddBAReqAction ad wcid msgLen f) := by
  have hsend : ∀ ad' : RtmpAdapter, TablesInv ad' → ∀ g, TablesInv
      (if ad'.allocMem.2 = true then ad'.allocMem.1.send g else ad'.allocMem.1) := by
    intro ad' h' g
    split
    · exact h'.allocMem.send g
    · exact h'.allocMem
  unfold peerAddBAReqAction
  split
  · exact h
  · next hw =>
    dsimp only
    split
    · next hsane =>
      split
      · next hyes =>
        have htid := ht (Bool.and_eq_true_iff.mpr ⟨hsane, hyes⟩)
        exact hsend _ (baRecSessionAdd_inv h (not_le.mp hw) htid) _
      · exact hsend _ h _
    · exact hsend _ h _

theorem peerAddBARspAction_inv (h : TablesInv ad) (msgLen : Nat) (f : FrameAddbaRsp) :
    TablesInv (peerAddBARspAction ad wcid msgLen f) := by
  unfold peerAddBARspAction
  split
  · exact h
  · split
    · have h' : TablesInv (if f.statusCode = 0 then baOriSessionAdd ad wcid f
          else baOriSessionTearDown ad wcid f.baParm.tid.toNat true false) := by
        split
        · exact baOriSessionAdd_inv h f
        · exact baOriSessionTearDown_inv h true false
      dsimp only
      split
      · exact h'.setBADeclineBitmap _ _
      · exact h'
    · exact h

theorem peerDelBAAction_inv (h : TablesInv ad) (msgLen : Nat) (f : FrameDelbaReq) :
    TablesInv (peerDelBAAction ad wcid msgLen f) := by
  unfold peerDelBAAction
  split
  · split
    · exact baRecSessionTearDown_inv h true
    · exact baOriSessionTearDown_inv h true false
  · exact h

def BaEvent.Keeps (ad : RtmpAdapter) : BaEvent → Prop
  | .addbaReq wcid msgLen f _ => reaches ad wcid msgLen f = true → f.baParm.tid.toNat < NUM_OF_TID
  | .oriSetUp wcid _ _ _ _ => wcid < MAX_LEN_OF_MAC_TABLE
  | _ => True

theorem BaEvent.Keeps.of_inRange (h : ev.InRange) (ad : RtmpAdapter) : ev.Keeps ad := by
  cases ev with
  | addbaReq wcid msgLen f mem => exact fun _ => h
  | oriSetUp wcid tid timeOut delayTime isForced => exact h.1
  | _ => trivial

theorem baStep_keeps (h : TablesInv ad) (hk : ev.Keeps ad) : TablesInv (baStep ad ev) := by
  have hmem : ∀ mem, TablesInv (withMem ad mem) := fun mem => h.of_view (view_withMem ad mem)
  cases ev with
  | ampdu rx now =>
    simp only [baStep, indicateAmpduPacket]
    split
    · exact h.of_view (view_passBy ad _)
    · split
      · split
        · exact h.of_view (view_passBy ad _)
        · exact h.onEntry _ fun c => indicateAmpduOnEntry_session c rx now _
      · exact h.of_view (view_passBy ad _)
  | bar wcid msgLen f =>
    simp only [baStep, cntlEnqueueForRecv]
    split
    · exact h
    · split
      · exact h
      · split
        · exact h
        · split
          · have hbar : TablesInv (ad.onEntry ((ad.content wcid).baRecWcidArray f.tid.toNat)
                (barOnEntry · f.startSeq)) := h.onEntry _ fun c => barOnEntry_session c f.startSeq
            exact hbar
          · exact h
  | flushTimeout idx now => exact h.onEntry idx fun c => flush_session c now _
  | idleTimeout idx now =>
    simp only [baStep, baRecSessionIdleTimeout]
    split
    · exact h.onEntry idx fun c => baRefreshReorderingMpdus_session c
    · exact h
  | addbaReq wcid msgLen f mem => exact peerAddBAReqAction_inv (hmem mem) msgLen hk
  | addbaRsp wcid msgLen f mem => exact peerAddBARspAction_inv (hmem mem) msgLen f
  | delba wcid msgLen f mem => exact peerDelBAAction_inv (hmem mem) msgLen f
  | oriSetUp wcid tid timeOut delayTime isForced =>
    exact baOriSessionSetUp_inv h hk timeOut delayTime isForced
  | setupTimeout idx => exact baOriSessionSetupTimeout_inv h idx
  | oriTearDown wcid tid bPassive bForceSend mem =>
    exact baOriSessionTearDown_inv (hmem mem) bPassive bForceSend
  | recTearDown wcid tid bPassive mem => exact baRecSessionTearDown_inv (hmem mem) bPassive
  | tearDownALL wcid mem => exact baSessionTearDownALL_inv (hmem mem) wcid

theorem baStep_tablesInv (h : TablesInv ad) (hr : ev.InRange) :
    TablesInv (baStep ad ev) := baStep_keeps h (.of_inRange hr ad)

/-- The maintenance flushes the sessions of the stations one after the other. -/
theorem baReOrderingBufferMaintain_tablesInv (h : TablesInv ad) (inUse : Nat → Bool)
    (now : BitVec 32) : TablesInv (baReOrderingBufferMaintain ad inUse now) := by
  refine List.foldlRecOn _ _ h fun ad h wcid _ => ?_
  split
  · exact h
  · exact List.foldlRecOn _ _ h fun ad h tid _ => h.onEntry _ fun c => flush_session c now _

end Ralink.BlockAck
