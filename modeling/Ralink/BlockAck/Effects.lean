import Ralink.BlockAck.TableStep
import Ralink.BlockAck.SessionInv

/-! The free list, the recipient entries and the record of packets are one state on which every
event acts through a few operations on single entries. -/
namespace Ralink.BlockAck
open Function Relation

/-- What the reordering code works on, for all sessions together. -/
structure Sessions where
  freelist : ReorderingList
  entry : Nat → BaRecEntry
  out : List Out

def Sessions.ctx (s : Sessions) (idx : Nat) : ReCtx := ⟨s.freelist, s.entry idx, s.out⟩

def Sessions.act (s : Sessions) (idx : Nat) (f : ReCtx → ReCtx) : Sessions where
  freelist := (f (s.ctx idx)).freelist
  entry := update s.entry idx (f (s.ctx idx)).entry
  out := (f (s.ctx idx)).out

def RtmpAdapter.sessions (ad : RtmpAdapter) : Sessions := ⟨ad.freelist, ad.baTable.baRecEntry, ad.out⟩

@[simp] theorem sessions_onEntry (ad : RtmpAdapter) (idx : Nat) (f : ReCtx → ReCtx) :
    (ad.onEntry idx f).sessions = ad.sessions.act idx f := rfl

theorem Sessions.act_act (s : Sessions) (idx : Nat) (f g : ReCtx → ReCtx) :
    (s.act idx f).act idx g = s.act idx (fun c => g (f c)) := by
  simp [act, ctx]

def closeSession (c : ReCtx) : ReCtx :=
  let c := stopRecSession (baRefreshReorderingMpdus c)
  { c with entry := { c.entry with recBaStatus := .none } }

inductive SessionOp (e : BaRecEntry) : (ReCtx → ReCtx) → Prop
  | refresh : SessionOp e baRefreshReorderingMpdus
  | flush (osHz : Nat) (now : BitVec 32) : SessionOp e (baFlushReorderingTimeoutMpdus osHz · now)
  | bar (startSeq : BitVec 12) : SessionOp e (barOnEntry · startSeq)
  | start (wcid tid baWinSize timeOut : Nat) (empty : e.list.next = [])
      (winSize : 1 ≤ baWinSize ∧ baWinSize < 256) :
      SessionOp e (startRecSession wcid tid baWinSize timeOut)
  | restart (wcid tid baWinSize timeOut : Nat) (winSize : 1 ≤ baWinSize ∧ baWinSize < 256) :
      SessionOp e fun c => startRecSession wcid tid baWinSize timeOut (baRefreshReorderingMpdus c)
  | close : SessionOp e closeSession

inductive SessionStep (s : Sessions) : Sessions → Prop
  | act {idx : Nat} {f : ReCtx → ReCtx} (inTable : idx < MAX_LEN_OF_BA_REC_TABLE)
      (op : SessionOp (s.entry idx) f) : SessionStep s (s.act idx f)

abbrev SessionSteps : Sessions → Sessions → Prop := ReflTransGen SessionStep

theorem SessionSteps.of_act {s s' : Sessions} {idx : Nat} {f : ReCtx → ReCtx}
    (hlt : idx < MAX_LEN_OF_BA_REC_TABLE) (op : SessionOp (s.entry idx) f) (h : s' = s.act idx f) :
    SessionSteps s s' := h ▸ .single (.act hlt op)

structure BaRecEntry.Tidy (e : BaRecEntry) : Prop where
  counted : e.list.Counted
  width : e.baWinSize < 256
  idle : e.recBaStatus = .none → e.list.next = []

def Tidy (s : Sessions) : Prop := ∀ i, (s.entry i).Tidy

section Unchanged
variable (ad : RtmpAdapter) (wcid idx tid : Nat)

@[simp] theorem sessions_withMem (mem : List Bool) : (withMem ad mem).sessions = ad.sessions := rfl
@[simp] theorem sessions_allocMem : ad.allocMem.1.sessions = ad.sessions := rfl
@[simp] theorem sessions_send (f : MgmtFrame) : (ad.send f).sessions = ad.sessions := rfl
@[simp] theorem sessions_setContent (w : Nat) (e : MacTableEntry) :
    (ad.setContent w e).sessions = ad.sessions := rfl
@[simp] theorem sessions_setOri (i : Nat) (e : BaOriEntry) : (ad.setOri i e).sessions = ad.sessions :=
  rfl

theorem sessions_mlmeDELBAAction (initiator : Initiator) :
    (mlmeDELBAAction ad wcid tid initiator).sessions = ad.sessions := by
  unfold mlmeDELBAAction
  split
  · dsimp only
    split
    · rfl
    · split <;> rfl
  · rfl

theorem sessions_baTableFreeOriEntry : (baTableFreeOriEntry ad idx).sessions = ad.sessions := by
  unfold baTableFreeOriEntry
  split
  · rfl
  · dsimp only
    split
    · split <;> rfl
    · rfl

theorem sessions_baOriSessionTearDown (bPassive bForceSend : Bool) :
    (baOriSessionTearDown ad wcid tid bPassive bForceSend).sessions = ad.sessions := by
  unfold baOriSessionTearDown
  split
  · rfl
  · dsimp only
    split
    · split
      · split
        · exact sessions_mlmeDELBAAction _ _ _ _
        · rfl
      · rfl
    · split
      · split
        · rw [sessions_baTableFreeOriEntry]
          exact sessions_mlmeDELBAAction _ _ _ _
        · rfl
      · rw [sessions_baTableFreeOriEntry]
        rfl

theorem sessions_baOriSessionAdd (f : FrameAddbaRsp) :
    (baOriSessionAdd ad wcid f).sessions = ad.sessions := by
  unfold baOriSessionAdd
  dsimp only
  split
  · split <;> rfl
  · rfl

theorem sessions_baTableAllocOriEntry : (baTableAllocOriEntry ad idx).1.sessions = ad.sessions := by
  unfold baTableAllocOriEntry
  split
  · rfl
  · split <;> rfl

theorem sessions_baOriSessionSetUp (timeOut delayTime : Nat) (isForced : Bool) :
    (baOriSessionSetUp ad wcid tid timeOut delayTime isForced).sessions = ad.sessions := by
  unfold baOriSessionSetUp
  split
  · rfl
  · split
    · rfl
    · split
      · rfl
      · dsimp only
        have hp : (if (ad.content wcid).baOriWcidArray tid = 0 then
            baTableAllocOriEntry ad ((ad.content wcid).baOriWcidArray tid)
          else (ad, some ((ad.content wcid).baOriWcidArray tid),
            (ad.content wcid).baOriWcidArray tid)).1.sessions = ad.sessions := by
          split
          · exact sessions_baTableAllocOriEntry ad _
          · rfl
        generalize (if (ad.content wcid).baOriWcidArray tid = 0 then
            baTableAllocOriEntry ad ((ad.content wcid).baOriWcidArray tid)
          else (ad, some ((ad.content wcid).baOriWcidArray tid),
            (ad.content wcid).baOriWcidArray tid)) = r at hp ⊢
        obtain ⟨ad', pBAEntry, idx⟩ := r
        cases pBAEntry with
        | none => exact hp
        | some p =>
          dsimp only at hp ⊢
          split <;> exact hp

end Unchanged

variable {ad : RtmpAdapter} {wcid tid : Nat} {rx : RxBlk} {idx : Nat}

theorem sessions_claimRec_start (ad : RtmpAdapter) (i wcid tid baWinSize timeOut : Nat) :
    ((claimRec ad i).onEntry i (startRecSession wcid tid baWinSize timeOut)).sessions =
      ad.sessions.act i (startRecSession wcid tid baWinSize timeOut) := by
  have hclaim : (claimRec ad i).sessions = ad.sessions.act i fun c =>
      { c with entry := { c.entry with recBaStatus := .used } } := rfl
  rw [sessions_onEntry, hclaim, Sessions.act_act]
  rfl

theorem baRecSessionAdd_steps (h : TablesInv ad) (ht : Tidy ad.sessions) (f : FrameAddbaReq) :
    SessionSteps ad.sessions (baRecSessionAdd ad wcid f).1.sessions := by
  have hwin := recBAWinSize_bounds ad.commonCfg f.baParm.bufSize
  unfold baRecSessionAdd
  dsimp only
  by_cases hidx : (ad.content wcid).baRecWcidArray f.baParm.tid.toNat = 0
  · rw [if_pos hidx]
    rcases baTableAllocRecEntry_cases h.recip
      ((ad.content wcid).baRecWcidArray f.baParm.tid.toNat) with ha | ⟨i, h1, hlt, hfree, ha⟩
    · rw [ha]
    · rw [ha]
      exact .of_act hlt (.start _ _ _ _ ((ht i).idle hfree) hwin)
        (sessions_claimRec_start ad i _ _ _ _)
  · rw [if_neg hidx]
    obtain ⟨hlt, -⟩ := h.recip.of_slot (w := wcid) (t := f.baParm.tid.toNat) hidx
    exact .of_act hlt (.restart ((ad.content wcid).aid % 256) f.baParm.tid.toNat
      (recBAWinSize ad.commonCfg f.baParm.bufSize) f.timeOutValue.toNat hwin)
        (Sessions.act_act ad.sessions _ _ _)

theorem sessions_baTableFreeRecEntry (hidx : idx ≠ 0) (hlt : idx < MAX_LEN_OF_BA_REC_TABLE)
    (hn : (ad.baTable.baRecEntry idx).recBaStatus ≠ .none) :
    (baTableFreeRecEntry ad idx).sessions = ad.sessions.act idx fun c =>
      { c with entry := { c.entry with recBaStatus := .none } } := by
  rw [baTableFreeRecEntry, if_neg (by simp [hidx, hlt]), if_pos hn]
  rfl

theorem closeRec_steps (h : TablesInv ad) {idx : Nat} (hslot : ad.view.recip.slot (wcid, tid) = idx)
    (hidx : idx ≠ 0) (b : BitVec 16) :
    SessionSteps ad.sessions (baTableFreeRecEntry
      (((ad.onEntry idx fun c => stopRecSession (baRefreshReorderingMpdus c)).setRXBAbitmap wcid
        b).setRecSlot wcid tid 0) idx).sessions := by
  obtain ⟨hlt, hopen, -, -⟩ := h.recip.of_slot (w := wcid) (t := tid) (hslot ▸ hidx)
  rw [hslot] at hlt hopen
  have hn : (stopRecSession (baRefreshReorderingMpdus (ad.reCtx idx))).entry.recBaStatus ≠ .none := by
    have hs := baRefreshReorderingMpdus_session (ad.reCtx idx)
    simp only [BaRecEntry.session, Prod.mk.injEq] at hs
    have hst : (stopRecSession (baRefreshReorderingMpdus (ad.reCtx idx))).entry.recBaStatus = _ :=
      hs.2.2.2.trans hopen.accept
    simp [hst]
  refine .of_act hlt .close ?_
  rw [sessions_baTableFreeRecEntry hidx hlt (by simpa using hn)]
  exact Sessions.act_act ad.sessions idx
    (fun c => stopRecSession (baRefreshReorderingMpdus c))
    (fun c => { c with entry := { c.entry with recBaStatus := .none } })

theorem baRecSessionTearDown_steps (h : TablesInv ad) (bPassive : Bool) :
    SessionSteps ad.sessions (baRecSessionTearDown ad wcid tid bPassive).sessions := by
  unfold baRecSessionTearDown
  split
  · exact .refl
  · dsimp only
    split
    · exact .refl
    · next hidx =>
      obtain ⟨-, hopen, hwc, htc⟩ := h.recip.of_slot (w := wcid) (t := tid) hidx
      have hlive : tid = (ad.baTable.baRecEntry ((ad.content wcid).baRecWcidArray tid)).tid ∧
          (ad.baTable.baRecEntry ((ad.content wcid).baRecWcidArray tid)).recBaStatus = .accept :=
        ⟨htc.symm, hopen.accept⟩
      rw [if_pos hlive, ← hlive.1]
      cases bPassive with
      | true => exact closeRec_steps h rfl hidx _
      | false =>
        simp only [Bool.false_eq_true, if_false]
        split
        · exact .refl
        · have hv := view_mlmeDELBAAction ad.allocMem.1 wcid tid .recipient
          rw [RtmpAdapter.view_allocMem] at hv
          have hs := sessions_mlmeDELBAAction ad.allocMem.1 wcid tid .recipient
          have hsteps := @closeRec_steps _ wcid tid (h.of_view hv) _ (by rw [hv]; rfl) hidx
          rw [hs] at hsteps
          exact hsteps _

theorem peerAddBAReqAction_steps (h : TablesInv ad) (ht : Tidy ad.sessions) (msgLen : Nat)
    (f : FrameAddbaReq) :
    SessionSteps ad.sessions (peerAddBAReqAction ad wcid msgLen f).sessions := by
  have hsend : ∀ ad' : RtmpAdapter, SessionSteps ad.sessions ad'.sessions → ∀ g,
      SessionSteps ad.sessions
        (if ad'.allocMem.2 = true then ad'.allocMem.1.send g else ad'.allocMem.1).sessions := by
    intro ad' h' g
    split
    · exact h'
    · exact h'
  unfold peerAddBAReqAction
  split
  · exact .refl
  · dsimp only
    split
    · split
      · exact hsend _ (baRecSessionAdd_steps h ht f) _
      · exact hsend _ .refl _
    · exact hsend _ .refl _

theorem sessions_peerAddBARspAction (ad : RtmpAdapter) (wcid msgLen : Nat) (f : FrameAddbaRsp) :
    (peerAddBARspAction ad wcid msgLen f).sessions = ad.sessions := by
  have h' : (if f.statusCode = 0 then baOriSessionAdd ad wcid f
      else baOriSessionTearDown ad wcid f.baParm.tid.toNat true false).sessions = ad.sessions := by
    split
    · exact sessions_baOriSessionAdd ad wcid f
    · exact sessions_baOriSessionTearDown ad wcid _ _ _
  unfold peerAddBARspAction
  split
  · rfl
  · split
    · dsimp only
      split
      · exact h'
      · exact h'
    · rfl

theorem baSessionTearDownALL_steps (h : TablesInv ad) (wcid : Nat) :
    SessionSteps ad.sessions (baSessionTearDownALL ad wcid).sessions := by
  unfold baSessionTearDownALL
  generalize List.range NUM_OF_TID = tids
  induction tids generalizing ad with
  | nil => exact .refl
  | cons tid tids ih =>
    have hori : TablesInv (baOriSessionTearDown ad wcid tid false false) :=
      baOriSessionTearDown_inv h false false
    have hsteps : SessionSteps (baOriSessionTearDown ad wcid tid false false).sessions
        (baRecSessionTearDown _ wcid tid false).sessions := baRecSessionTearDown_steps hori false
    rw [sessions_baOriSessionTearDown] at hsteps
    exact hsteps.trans (ih (baRecSessionTearDown_inv hori false))

/-- The session an MPDU reaches, if it reaches one. -/
def ampduSession (ad : RtmpAdapter) (rx : RxBlk) : Option Nat :=
  if !rx.fRxAmsdu ∧ rx.dataSize > MAX_RX_PKT_LEN then none
  else if rx.wirelessCliID < MAX_LEN_OF_MAC_TABLE then
    let idx := (ad.content rx.wirelessCliID).baRecWcidArray rx.tid
    if idx = 0 then none else some idx
  else none

theorem baStep_steps (h : TablesInv ad) (ht : Tidy ad.sessions) {ev : BaEvent} (hr : ev.InRange)
    (hne : ∀ rx now, ev ≠ .ampdu rx now) : SessionSteps ad.sessions (baStep ad ev).sessions := by
  have hmem : ∀ mem, TablesInv (withMem ad mem) := fun mem => h.of_view (view_withMem ad mem)
  cases ev with
  | ampdu rx now => exact absurd rfl (hne rx now)
  | bar wcid msgLen f =>
    simp only [baStep, cntlEnqueueForRecv]
    split
    · exact .refl
    · split
      · exact .refl
      · split
        · exact .refl
        · split
          · refine SessionSteps.of_act ?_ (.bar f.startSeq) rfl
            by_cases hidx : (ad.content wcid).baRecWcidArray f.tid.toNat = 0
            · rw [hidx]
              decide
            · exact (h.recip.of_slot (w := wcid) hidx).1
          · exact .refl
  | flushTimeout idx now => exact .of_act hr (.flush _ now) rfl
  | idleTimeout idx now =>
    simp only [baStep, baRecSessionIdleTimeout]
    split
    · exact .of_act hr .refresh rfl
    · exact .refl
  | addbaReq wcid msgLen f mem => exact peerAddBAReqAction_steps (hmem mem) ht msgLen f
  | addbaRsp wcid msgLen f mem =>
    simp only [baStep, sessions_peerAddBARspAction]
    exact .refl
  | delba wcid msgLen f mem =>
    simp only [baStep, peerDelBAAction]
    split
    · split
      · exact baRecSessionTearDown_steps (hmem mem) true
      · rw [sessions_baOriSessionTearDown]
        exact .refl
    · exact .refl
  | oriSetUp wcid tid timeOut delayTime isForced =>
    simp only [baStep, sessions_baOriSessionSetUp]
    exact .refl
  | setupTimeout idx =>
    simp only [baStep, baOriSessionSetupTimeout]
    split
    · exact .refl
    · rw [sessions_baTableFreeOriEntry]
  | oriTearDown wcid tid bPassive bForceSend mem =>
    simp only [baStep, sessions_baOriSessionTearDown]
    exact .refl
  | recTearDown wcid tid bPassive mem => exact baRecSessionTearDown_steps (hmem mem) bPassive
  | tearDownALL wcid mem => exact baSessionTearDownALL_steps (hmem mem) wcid

theorem indicateAmpduPacket_none (h : ampduSession ad rx = none) (now : BitVec 32) :
    ∃ o, (o = .released rx.pRxPacket ∨ ∃ via, o = .indicated via rx.sequence.toNat rx.pRxPacket) ∧
      (indicateAmpduPacket ad rx now).sessions = { ad.sessions with out := ad.out ++ [o] } := by
  unfold ampduSession at h
  unfold indicateAmpduPacket
  split
  · exact ⟨_, Or.inl rfl, rfl⟩
  · next hsize =>
    rw [if_neg hsize] at h
    split
    · next hw =>
      rw [if_pos hw] at h
      dsimp only at h ⊢
      split
      · exact ⟨_, Or.inr ⟨_, rfl⟩, rfl⟩
      · next hidx =>
        rw [if_neg hidx] at h
        cases h
    · exact ⟨_, Or.inl rfl, rfl⟩

theorem indicateAmpduPacket_some (h : TablesInv ad) (hs : ampduSession ad rx = some idx)
    (now : BitVec 32) :
    idx < MAX_LEN_OF_BA_REC_TABLE ∧ (ad.baTable.baRecEntry idx).Open ∧
      (indicateAmpduPacket ad rx now).sessions =
        ad.sessions.act idx (indicateAmpduOnEntry ad.commonCfg.osHz · rx now) := by
  unfold ampduSession at hs
  split at hs
  · cases hs
  · next hsize =>
    split at hs
    · next hw =>
      dsimp only at hs
      split at hs
      · cases hs
      · next hidx =>
        obtain rfl := Option.some.inj hs
        obtain ⟨hlt, hopen, -⟩ := h.recip.of_slot (w := rx.wirelessCliID) hidx
        refine ⟨hlt, hopen, ?_⟩
        rw [indicateAmpduPacket, if_neg hsize, if_pos hw]
        dsimp only
        rw [if_neg hidx]
        rfl
    · cases hs

end Ralink.BlockAck
