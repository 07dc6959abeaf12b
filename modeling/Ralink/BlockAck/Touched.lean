import Ralink.BlockAck.Runs
import Ralink.Lib.Sized

/-! A station has slots, bits and sequence numbers for `NUM_OF_TID` TIDs, and a frame gives its TID
in four bits. The functions behind the three frames once more, with the stations and TIDs they use.
-/
namespace Ralink.BlockAck
open Function Run

def le16 (Msg : List UInt8) (i : Nat) : Option (BitVec 16) := do
  let lo ← Msg[i]?
  let hi ← Msg[i + 1]?
  return hi.toBitVec ++ lo.toBitVec

def BaParm.ofBits (word : BitVec 16) : BaParm where
  amsduSupported := word.getLsbD 0
  baPolicy := (word.extractLsb' 1 1).toNat
  tid := word.extractLsb' 2 4
  bufSize := word.extractLsb' 6 10

/-- The fields behind the header, the category and the action; the last of them is not used. -/
def FrameAddbaReq.ofBytes (Msg : List UInt8) : Option FrameAddbaReq := do
  let token ← Msg[26]?
  let baParm ← le16 Msg 27
  let timeOutValue ← le16 Msg 29
  let _baStartSeq ← le16 Msg 31
  return ⟨token.toNat, BaParm.ofBits baParm, timeOutValue⟩

def FrameAddbaRsp.ofBytes (Msg : List UInt8) : Option FrameAddbaRsp := do
  let token ← Msg[26]?
  let statusCode ← le16 Msg 27
  let baParm ← le16 Msg 29
  let timeOutValue ← le16 Msg 31
  return ⟨token.toNat, statusCode, BaParm.ofBits baParm, timeOutValue⟩

def FrameDelbaReq.ofBytes (Msg : List UInt8) : Option FrameDelbaReq := do
  let delbaParm ← le16 Msg 26
  let _reasonCode ← le16 Msg 28
  return ⟨if delbaParm.getLsbD 11 then .originator else .recipient, delbaParm.extractLsb' 12 4⟩

theorem isSome_le16 {Msg : List UInt8} {i : Nat} : (le16 Msg i).isSome ↔ i + 1 < Msg.length := by
  unfold le16
  by_cases hi : i + 1 < Msg.length
  · rw [List.getElem?_eq_getElem hi, List.getElem?_eq_getElem (Nat.lt_of_succ_lt hi)]
    exact iff_of_true rfl hi
  · rw [List.getElem?_eq_none (Nat.le_of_not_lt hi)]
    refine iff_of_false ?_ hi
    cases Msg[i]? <;> exact Bool.noConfusion

/-- A state, and the stations and TIDs whose slots, bits and numbers have been used, in order. -/
abbrev Touching : Type := RtmpAdapter × List (Nat × Nat)

namespace Touching

def baTableFreeRecEntry (ad : RtmpAdapter) (idx : Nat) : Touching :=
  if idx = 0 ∨ idx ≥ MAX_LEN_OF_BA_REC_TABLE then (ad, [])
  else
    let e := ad.baTable.baRecEntry idx
    if e.recBaStatus ≠ .none then
      let ad := ad.setRecSlot e.wcid e.tid 0
      let ad := ad.setNumAsRecipient (ad.baTable.numAsRecipient - 1)
      (ad.setRec idx { e with recBaStatus := .none }, [(e.wcid, e.tid)])
    else (ad, [])

def baTableFreeOriEntry (ad : RtmpAdapter) (idx : Nat) : Touching :=
  if idx = 0 ∨ idx ≥ MAX_LEN_OF_BA_ORI_TABLE then (ad, [])
  else
    let e := ad.baTable.baOriEntry idx
    if e.oriBaStatus ≠ .none then
      let ad := ad.setOriSlot e.wcid e.tid 0
      let (ad, erased) :=
        if e.oriBaStatus = .done then
          ((ad.setNumDoneOriginator (ad.baTable.numDoneOriginator - 1)).setTXBAbitmap e.wcid
            ((ad.content e.wcid).txBAbitmap &&& ~~~tidBit e.tid), [(e.wcid, e.tid)])
        else (ad, [])
      let ad := ad.setNumAsOriginator (ad.baTable.numAsOriginator - 1)
      (ad.setOri idx { e with oriBaStatus := .none, token := 0 }, (e.wcid, e.tid) :: erased)
    else (ad, [])

def mlmeDELBAAction (ad : RtmpAdapter) (wcid tid : Nat) (initiator : Initiator) : Touching :=
  if 0 < wcid ∧ wcid < MAX_LEN_OF_MAC_TABLE then
    let (ad, ok) := ad.allocMem
    if !ok then (ad, [])
    else
      let (ad, ok) := ad.allocMem
      if !ok then (ad, [])
      else ((ad.send (.bar wcid tid ((ad.content wcid).txSeq tid))).send
        (.delba wcid tid initiator 39), [(wcid, tid)])
  else (ad, [])

def baRecSessionTearDown (ad : RtmpAdapter) (wcid tid : Nat) (bPassive : Bool) : Touching :=
  if wcid ≥ MAX_LEN_OF_MAC_TABLE then (ad, [])
  else
    let idx := (ad.content wcid).baRecWcidArray tid
    if idx = 0 then (ad, [(wcid, tid)])
    else
      let e := ad.baTable.baRecEntry idx
      if tid = e.tid ∧ e.recBaStatus = .accept then
        let (ad, ok) := if bPassive then (ad, true) else ad.allocMem
        if !ok then (ad, [(wcid, tid)])
        else
          let (ad, sent) := if bPassive then (ad, []) else mlmeDELBAAction ad wcid tid .recipient
          let ad := ad.onEntry idx fun c => stopRecSession (baRefreshReorderingMpdus c)
          let ad := ad.setRXBAbitmap wcid ((ad.content wcid).rxBAbitmap &&& ~~~tidBit e.tid)
          let (ad, freed) := baTableFreeRecEntry (ad.setRecSlot wcid tid 0) idx
          (ad, (wcid, tid) :: sent ++ [(wcid, e.tid), (wcid, tid)] ++ freed)
      else
        let (ad, freed) := baTableFreeRecEntry ad idx
        (ad, (wcid, tid) :: freed)

def baOriSessionTearDown (ad : RtmpAdapter) (wcid tid : Nat) (bPassive bForceSend : Bool) :
    Touching :=
  if wcid ≥ MAX_LEN_OF_MAC_TABLE then (ad, [])
  else
    let idx := (ad.content wcid).baOriWcidArray tid
    if idx = 0 ∨ idx ≥ MAX_LEN_OF_BA_ORI_TABLE then
      if bForceSend then
        let (ad, ok) := ad.allocMem
        if ok then
          let (ad, sent) := mlmeDELBAAction ad wcid tid .originator
          (ad, (wcid, tid) :: sent)
        else (ad, [(wcid, tid)])
      else (ad, [(wcid, tid)])
    else
      let e := ad.baTable.baOriEntry idx
      if bPassive = false ∧ tid = e.tid ∧ e.oriBaStatus = .done then
        let (ad, ok) := ad.allocMem
        if ok then
          let (ad, sent) := mlmeDELBAAction ad wcid e.tid .originator
          let (ad, freed) := baTableFreeOriEntry (cancelOriTimer ad idx) idx
          (ad, (wcid, tid) :: sent ++ freed)
        else (ad, [(wcid, tid)])
      else
        let (ad, freed) := baTableFreeOriEntry (cancelOriTimer ad idx) idx
        (ad, (wcid, tid) :: freed)

/-- The slot, and for a session that waits its answer the sequence number and the bit. -/
def baOriSessionAdd (ad : RtmpAdapter) (wcid : Nat) (pFrame : FrameAddbaRsp) : Touching :=
  let tid := pFrame.baParm.tid.toNat
  let idx := (ad.content wcid).baOriWcidArray tid
  let e := ad.baTable.baOriEntry idx
  if idx ≠ 0 ∧ e.tid = tid ∧ e.oriBaStatus = .waitRes then
    let maxPeerBufSize := pFrame.baParm.bufSize.toNat % 256 - 1
    let sequence := (ad.content wcid).txSeq tid
    let winSize := baMaxWinSizeReasign ad (ad.content wcid) (min e.baWinSize maxPeerBufSize)
    let ad := ad.setOri idx { e with
      baWinSize := winSize
      timeOutValue := pFrame.timeOutValue.toNat
      oriBaStatus := .done
      sequence := sequence
      timer := none }
    let ad := ad.setNumDoneOriginator (ad.baTable.numDoneOriginator + 1)
    let ad := ad.setTXBAbitmap wcid ((ad.content wcid).txBAbitmap ||| tidBit tid)
    let (ad, ok) := ad.allocMem
    (if ok then ad.send (.bar e.wcid e.tid sequence) else ad,
      [(wcid, tid), (wcid, tid), (wcid, tid)])
  else (ad, [(wcid, tid)])

/-- The slot, and when there is an entry the two bits and the slot again. -/
def baRecSessionAdd (ad : RtmpAdapter) (wcid : Nat) (pFrame : FrameAddbaReq) : Touching × Bool :=
  let tid := pFrame.baParm.tid.toNat
  let baWinSize := recBAWinSize ad.commonCfg pFrame.baParm.bufSize
  let idx := (ad.content wcid).baRecWcidArray tid
  let (ad, pBAEntry, idx) :=
    if idx = 0 then baTableAllocRecEntry ad idx
    else (ad.onEntry idx baRefreshReorderingMpdus, some idx, idx)
  match pBAEntry with
  | none => ((ad, [(wcid, tid)]), false)
  | some p =>
    let ad := ad.onEntry p (startRecSession ((ad.content wcid).aid % 256) tid baWinSize
      pFrame.timeOutValue.toNat)
    let ad := ad.setRXBAbitmap wcid ((ad.content wcid).rxBAbitmap ||| tidBit tid)
    let ad := ad.setRecSlot wcid tid idx
    ((ad.setBADeclineBitmap wcid ((ad.content wcid).baDeclineBitmap &&& ~~~tidBit tid),
      [(wcid, tid), (wcid, tid), (wcid, tid), (wcid, tid)]), true)

def peerAddBAReqAction (ad : RtmpAdapter) (wcid msgLen : Nat) (f : FrameAddbaReq) : Touching :=
  if wcid ≥ MAX_LEN_OF_MAC_TABLE then (ad, [])
  else
    let ((ad, touched), status) :=
      if peerAddBAReqActionSanity msgLen f then
        if !ad.commonCfg.bBADecline && (ad.content wcid).isHtSta then
          let (r, ok) := baRecSessionAdd ad wcid f
          (r, if ok then 0 else 38)
        else ((ad, []), 37)
      else ((ad, []), 1)
    let (ad, ok) := ad.allocMem
    if ok then
      (ad.send (.addbaRsp wcid f.token status f.baParm.tid.toNat
        (recBAWinSize ad.commonCfg f.baParm.bufSize)), touched)
    else (ad, touched)

def peerAddBARspAction (ad : RtmpAdapter) (wcid msgLen : Nat) (f : FrameAddbaRsp) : Touching :=
  if wcid ≥ MAX_LEN_OF_MAC_TABLE then (ad, [])
  else if peerAddBARspActionSanity msgLen f then
    let (ad, touched) :=
      if f.statusCode = 0 then baOriSessionAdd ad wcid f
      else baOriSessionTearDown ad wcid f.baParm.tid.toNat true false
    if f.statusCode = 37 then
      (ad.setBADeclineBitmap wcid ((ad.content wcid).baDeclineBitmap ||| tidBit f.baParm.tid.toNat),
        touched ++ [(wcid, f.baParm.tid.toNat)])
    else (ad, touched)
  else (ad, [])

def peerDelBAAction (ad : RtmpAdapter) (wcid msgLen : Nat) (f : FrameDelbaReq) : Touching :=
  if peerDelBAActionSanity wcid msgLen then
    match f.initiator with
    | .originator => baRecSessionTearDown ad wcid f.tid.toNat true
    | .recipient => baOriSessionTearDown ad wcid f.tid.toNat true false
  else (ad, [])

section States

variable (ad : RtmpAdapter) (wcid tid idx msgLen : Nat) (bPassive bForceSend : Bool)

@[simp] theorem baTableFreeRecEntry_fst :
    (baTableFreeRecEntry ad idx).1 = BlockAck.baTableFreeRecEntry ad idx := by
  unfold baTableFreeRecEntry BlockAck.baTableFreeRecEntry
  dsimp only
  split_ifs <;> rfl

@[simp] theorem baTableFreeOriEntry_fst :
    (baTableFreeOriEntry ad idx).1 = BlockAck.baTableFreeOriEntry ad idx := by
  unfold baTableFreeOriEntry BlockAck.baTableFreeOriEntry
  dsimp only
  split_ifs <;> rfl

@[simp] theorem mlmeDELBAAction_fst (initiator : Initiator) :
    (mlmeDELBAAction ad wcid tid initiator).1 = BlockAck.mlmeDELBAAction ad wcid tid initiator := by
  unfold mlmeDELBAAction BlockAck.mlmeDELBAAction
  dsimp only [RtmpAdapter.allocMem]
  split_ifs <;> rfl

@[simp] theorem baRecSessionTearDown_fst :
    (baRecSessionTearDown ad wcid tid bPassive).1 =
      BlockAck.baRecSessionTearDown ad wcid tid bPassive := by
  unfold baRecSessionTearDown BlockAck.baRecSessionTearDown
  dsimp only [RtmpAdapter.allocMem]
  split_ifs <;> simp

@[simp] theorem baOriSessionTearDown_fst :
    (baOriSessionTearDown ad wcid tid bPassive bForceSend).1 =
      BlockAck.baOriSessionTearDown ad wcid tid bPassive bForceSend := by
  unfold baOriSessionTearDown BlockAck.baOriSessionTearDown
  dsimp only [RtmpAdapter.allocMem]
  split_ifs <;> simp

@[simp] theorem baOriSessionAdd_fst (f : FrameAddbaRsp) :
    (baOriSessionAdd ad wcid f).1 = BlockAck.baOriSessionAdd ad wcid f := by
  unfold baOriSessionAdd BlockAck.baOriSessionAdd
  dsimp only
  split_ifs <;> rfl

theorem baRecSessionAdd_fst (f : FrameAddbaReq) :
    ((baRecSessionAdd ad wcid f).1.1, (baRecSessionAdd ad wcid f).2) =
      BlockAck.baRecSessionAdd ad wcid f := by
  unfold baRecSessionAdd BlockAck.baRecSessionAdd
  dsimp only
  generalize (if (ad.content wcid).baRecWcidArray f.baParm.tid.toNat = 0 then _ else _) = r
  obtain ⟨ad, _ | p, idx⟩ := r <;> rfl

/-- The handlers leave the states that the ones of the model do. -/
theorem peerAddBAReqAction_fst (f : FrameAddbaReq) :
    (peerAddBAReqAction ad wcid msgLen f).1 = BlockAck.peerAddBAReqAction ad wcid msgLen f := by
  unfold peerAddBAReqAction BlockAck.peerAddBAReqAction
  rw [← baRecSessionAdd_fst]
  dsimp only [RtmpAdapter.allocMem]
  split_ifs <;> rfl

theorem peerAddBARspAction_fst (f : FrameAddbaRsp) :
    (peerAddBARspAction ad wcid msgLen f).1 = BlockAck.peerAddBARspAction ad wcid msgLen f := by
  unfold peerAddBARspAction BlockAck.peerAddBARspAction
  dsimp only
  split_ifs <;> simp

theorem peerDelBAAction_fst (f : FrameDelbaReq) :
    (peerDelBAAction ad wcid msgLen f).1 = BlockAck.peerDelBAAction ad wcid msgLen f := by
  unfold peerDelBAAction BlockAck.peerDelBAAction
  cases f.initiator <;> split <;> simp

end States

variable {ad : RtmpAdapter} {wcid tid idx msgLen : Nat} {a : Nat × Nat}

theorem mem_baTableFreeRecEntry (h : a ∈ (baTableFreeRecEntry ad idx).2) :
    a = ((ad.baTable.baRecEntry idx).wcid, (ad.baTable.baRecEntry idx).tid) := by
  unfold baTableFreeRecEntry at h
  split at h
  · cases h
  · dsimp only at h
    split at h
    · exact List.mem_singleton.mp h
    · cases h

theorem mem_baTableFreeOriEntry (h : a ∈ (baTableFreeOriEntry ad idx).2) :
    a = ((ad.baTable.baOriEntry idx).wcid, (ad.baTable.baOriEntry idx).tid) := by
  unfold baTableFreeOriEntry at h
  split at h
  · cases h
  · dsimp only at h
    split at h
    · split at h
      · simpa using h
      · simpa using h
    · cases h

theorem mem_baRecSessionTearDown (h : TablesInv ad) (hw : wcid < MAX_LEN_OF_MAC_TABLE) :
    a ∈ (baRecSessionTearDown ad wcid tid true).2 ↔ a = (wcid, tid) := by
  unfold baRecSessionTearDown
  rw [if_neg (Nat.not_le.mpr hw)]
  dsimp only
  split
  · exact List.mem_singleton
  · next hidx =>
    obtain ⟨-, hopen, hwc, htc⟩ := h.recip.of_slot (w := wcid) (t := tid) hidx
    have hlive : tid = (ad.baTable.baRecEntry ((ad.content wcid).baRecWcidArray tid)).tid ∧
        (ad.baTable.baRecEntry ((ad.content wcid).baRecWcidArray tid)).recBaStatus = .accept :=
      ⟨htc.symm, hopen.accept⟩
    have hstop : (stopRecSession (baRefreshReorderingMpdus
        (ad.reCtx ((ad.content wcid).baRecWcidArray tid)))).entry.wcid = wcid ∧
        (stopRecSession (baRefreshReorderingMpdus
          (ad.reCtx ((ad.content wcid).baRecWcidArray tid)))).entry.tid = tid := by
      have hsession := baRefreshReorderingMpdus_session
        (ad.reCtx ((ad.content wcid).baRecWcidArray tid))
      simp only [BaRecEntry.session, Prod.mk.injEq] at hsession
      exact ⟨hsession.1.trans hwc, hsession.2.1.trans htc⟩
    rw [if_pos hlive, ← hlive.1]
    refine ⟨fun ha => ?_, fun ha => ha ▸ List.mem_append_left _ (List.mem_append_left _
      List.mem_cons_self)⟩
    rcases List.mem_append.mp ha with ha | ha
    · simpa using ha
    · refine (mem_baTableFreeRecEntry ha).trans (Prod.ext ?_ ?_)
      · simpa using hstop.1
      · simpa using hstop.2

theorem mem_baOriSessionTearDown (h : TablesInv ad) (hw : wcid < MAX_LEN_OF_MAC_TABLE) :
    a ∈ (baOriSessionTearDown ad wcid tid true false).2 ↔ a = (wcid, tid) := by
  unfold baOriSessionTearDown
  rw [if_neg (Nat.not_le.mpr hw)]
  dsimp only
  split
  · exact List.mem_singleton
  · next hidx =>
    obtain ⟨-, hopen, hwc, htc⟩ := h.orig.of_slot (w := wcid) (t := tid) fun h0 => hidx (.inl h0)
    rw [if_neg (fun hpassive => Bool.noConfusion hpassive.1)]
    refine List.mem_cons.trans ⟨fun ha => ?_, Or.inl⟩
    rcases ha with ha | ha
    · exact ha
    · refine (mem_baTableFreeOriEntry ha).trans (Prod.ext ?_ ?_)
      · simpa [cancelOriTimer, RtmpAdapter.setOri] using hwc
      · simpa [cancelOriTimer, RtmpAdapter.setOri] using htc

theorem mem_baOriSessionAdd (f : FrameAddbaRsp) :
    a ∈ (baOriSessionAdd ad wcid f).2 ↔ a = (wcid, f.baParm.tid.toNat) := by
  unfold baOriSessionAdd
  dsimp only
  split <;> simp

theorem mem_baRecSessionAdd (f : FrameAddbaReq) :
    a ∈ (baRecSessionAdd ad wcid f).1.2 ↔ a = (wcid, f.baParm.tid.toNat) := by
  unfold baRecSessionAdd
  dsimp only
  split <;> simp

theorem mem_peerAddBAReqAction (hw : wcid < MAX_LEN_OF_MAC_TABLE) (f : FrameAddbaReq) :
    a ∈ (peerAddBAReqAction ad wcid msgLen f).2 ↔
      reaches ad wcid msgLen f = true ∧ a = (wcid, f.baParm.tid.toNat) := by
  unfold peerAddBAReqAction reaches
  rw [if_neg (Nat.not_le.mpr hw)]
  dsimp only
  split
  · next hsane =>
    split
    · next hyes =>
      rw [apply_ite Prod.snd, ite_self, mem_baRecSessionAdd, hsane, hyes]
      simp
    · next hno =>
      rw [apply_ite Prod.snd, ite_self, Bool.and_eq_true]
      exact iff_of_false List.not_mem_nil fun h => hno h.1.2
  · next hsane =>
    rw [apply_ite Prod.snd, ite_self, Bool.and_eq_true]
    exact iff_of_false List.not_mem_nil fun h => hsane h.1.1

theorem mem_peerAddBARspAction (h : TablesInv ad) (hw : wcid < MAX_LEN_OF_MAC_TABLE)
    (f : FrameAddbaRsp) :
    a ∈ (peerAddBARspAction ad wcid msgLen f).2 ↔
      peerAddBARspActionSanity msgLen f = true ∧ a = (wcid, f.baParm.tid.toNat) := by
  have htouched : a ∈ (if f.statusCode = 0 then baOriSessionAdd ad wcid f
      else baOriSessionTearDown ad wcid f.baParm.tid.toNat true false).2 ↔
      a = (wcid, f.baParm.tid.toNat) := by
    split
    · exact mem_baOriSessionAdd f
    · exact mem_baOriSessionTearDown h hw
  unfold peerAddBARspAction
  rw [if_neg (Nat.not_le.mpr hw)]
  split
  · next hsane =>
    rw [and_iff_right hsane]
    dsimp only
    split
    · rw [List.mem_append, htouched, List.mem_singleton, or_self]
    · exact htouched
  · next hsane => exact iff_of_false List.not_mem_nil fun h => hsane h.1

theorem mem_peerDelBAAction (h : TablesInv ad) (hw : wcid < MAX_LEN_OF_MAC_TABLE)
    (f : FrameDelbaReq) :
    a ∈ (peerDelBAAction ad wcid msgLen f).2 ↔
      peerDelBAActionSanity wcid msgLen = true ∧ a = (wcid, f.tid.toNat) := by
  unfold peerDelBAAction
  split
  · next hsane =>
    rw [and_iff_right hsane]
    cases f.initiator with
    | originator => exact mem_baRecSessionTearDown h hw
    | recipient => exact mem_baOriSessionTearDown h hw
  · next hsane => exact iff_of_false List.not_mem_nil fun h => hsane h.1

end Touching

def addbaReqSanity (Msg : List UInt8) : Option Bool :=
  if Msg.length < sizeofFrameAddbaReq then some false
  else do
    let f ← FrameAddbaReq.ofBytes Msg
    return peerAddBAReqActionSanity Msg.length f

def addbaRspSanity (Msg : List UInt8) : Option Bool :=
  if Msg.length < sizeofFrameAddbaRsp then some false
  else do
    let f ← FrameAddbaRsp.ofBytes Msg
    return peerAddBARspActionSanity Msg.length f

def delbaSanity (wcid : Nat) (Msg : List UInt8) : Option Bool :=
  if Msg.length ≠ sizeofFrameDelbaReq then some false
  else if wcid ≥ MAX_LEN_OF_MAC_TABLE then some false
  else do
    let _ ← FrameDelbaReq.ofBytes Msg
    return true

/-- The check ends inside of the frame, and when it accepts the frame then the handler has its
fields there, and only touches slots that the station has. -/
def Confined {F : Type} (sanity : Option Bool) (frame : Option F)
    (touched : F → List (Nat × Nat)) (wcid : Nat) : Prop :=
  ∃ ok, sanity = some ok ∧ (ok = true →
    ∃ f, frame = some f ∧ ∀ a ∈ touched f, a.1 = wcid ∧ a.2 < NUM_OF_TID)

def AddbaReqConfined (ad : RtmpAdapter) (wcid : Nat) (Msg : List UInt8) : Prop :=
  Confined (addbaReqSanity Msg) (FrameAddbaReq.ofBytes Msg)
    (fun f => (Touching.peerAddBAReqAction ad wcid Msg.length f).2) wcid

def AddbaRspConfined (ad : RtmpAdapter) (wcid : Nat) (Msg : List UInt8) : Prop :=
  Confined (addbaRspSanity Msg) (FrameAddbaRsp.ofBytes Msg)
    (fun f => (Touching.peerAddBARspAction ad wcid Msg.length f).2) wcid

def DelbaConfined (ad : RtmpAdapter) (wcid : Nat) (Msg : List UInt8) : Prop :=
  Confined (delbaSanity wcid Msg) (FrameDelbaReq.ofBytes Msg)
    (fun f => (Touching.peerDelBAAction ad wcid Msg.length f).2) wcid

/-- A frame that is let to the tables has a TID that they have. -/
def ReqFits (ad : RtmpAdapter) (wcid msgLen : Nat) (f : FrameAddbaReq) : Prop :=
  reaches ad wcid msgLen f = true → f.baParm.tid.toNat < NUM_OF_TID

def RspFits (msgLen : Nat) (f : FrameAddbaRsp) : Prop :=
  peerAddBARspActionSanity msgLen f = true → f.baParm.tid.toNat < NUM_OF_TID

def DelbaFits (wcid msgLen : Nat) (f : FrameDelbaReq) : Prop :=
  peerDelBAActionSanity wcid msgLen = true → f.tid.toNat < NUM_OF_TID

section Frames

variable {Msg : List UInt8}

theorem isSome_addbaReq : (FrameAddbaReq.ofBytes Msg).isSome ↔ sizeofFrameAddbaReq ≤ Msg.length := by
  have hiff : (FrameAddbaReq.ofBytes Msg).isSome ↔
      26 < Msg.length ∧ 28 < Msg.length ∧ 30 < Msg.length ∧ 32 < Msg.length :=
    Sized.isSome_bind_iff (by simp) fun _ _ => Sized.isSome_bind_iff isSome_le16 fun _ _ =>
      Sized.isSome_bind_iff isSome_le16 fun _ _ => Sized.isSome_bind_left isSome_le16 fun _ _ => rfl
  rw [hiff, sizeofFrameAddbaReq]
  omega

theorem isSome_addbaRsp : (FrameAddbaRsp.ofBytes Msg).isSome ↔ sizeofFrameAddbaRsp ≤ Msg.length := by
  have hiff : (FrameAddbaRsp.ofBytes Msg).isSome ↔
      26 < Msg.length ∧ 28 < Msg.length ∧ 30 < Msg.length ∧ 32 < Msg.length :=
    Sized.isSome_bind_iff (by simp) fun _ _ => Sized.isSome_bind_iff isSome_le16 fun _ _ =>
      Sized.isSome_bind_iff isSome_le16 fun _ _ => Sized.isSome_bind_left isSome_le16 fun _ _ => rfl
  rw [hiff, sizeofFrameAddbaRsp]
  omega

theorem isSome_delba : (FrameDelbaReq.ofBytes Msg).isSome ↔ sizeofFrameDelbaReq ≤ Msg.length := by
  have hiff : (FrameDelbaReq.ofBytes Msg).isSome ↔ 27 < Msg.length ∧ 29 < Msg.length :=
    Sized.isSome_bind_iff isSome_le16 fun _ _ => Sized.isSome_bind_left isSome_le16 fun _ _ => rfl
  rw [hiff, sizeofFrameDelbaReq]
  omega

theorem confined_iff_fits {F : Type} {sanity : Option Bool} {frame : Option F} {sane : F → Bool}
    {touched : F → List (Nat × Nat)} {wcid : Nat} {reach : F → Prop} {tid : F → Nat}
    (hsanity : sanity = some (frame.elim false sane))
    (htouched : ∀ f a, a ∈ touched f ↔ reach f ∧ a = (wcid, tid f))
    (hreach : ∀ f, reach f → sane f = true) :
    Confined sanity frame touched wcid ↔ ∀ f, frame = some f → reach f → tid f < NUM_OF_TID := by
  cases frame with
  | none => exact iff_of_true ⟨false, hsanity, fun h => Bool.noConfusion h⟩ fun _ h => nomatch h
  | some f =>
    constructor
    · rintro ⟨ok, hok, hall⟩ f' hf' hf
      obtain rfl := Option.some.inj hf'
      have htrue : ok = true := (Option.some.inj (hok.symm.trans hsanity)).trans (hreach f hf)
      obtain ⟨f'', hf'', hmem⟩ := hall htrue
      obtain rfl := Option.some.inj hf''
      exact (hmem _ ((htouched f _).mpr ⟨hf, rfl⟩)).2
    · intro h
      refine ⟨_, hsanity, fun _ => ⟨f, rfl, fun a ha => ?_⟩⟩
      obtain ⟨hf, rfl⟩ := (htouched f a).mp ha
      exact ⟨rfl, h f rfl hf⟩

theorem addbaReqSanity_eq :
    addbaReqSanity Msg =
      some ((FrameAddbaReq.ofBytes Msg).elim false (peerAddBAReqActionSanity Msg.length)) := by
  have hframe := @isSome_addbaReq Msg
  unfold addbaReqSanity
  split
  · next hlen =>
    rw [Option.not_isSome_iff_eq_none.mp fun h => absurd (hframe.mp h) (Nat.not_le.mpr hlen)]
    rfl
  · next hlen =>
    obtain ⟨f, hf⟩ := Option.isSome_iff_exists.mp (hframe.mpr (Nat.le_of_not_lt hlen))
    rw [hf]
    rfl

theorem addbaRspSanity_eq :
    addbaRspSanity Msg =
      some ((FrameAddbaRsp.ofBytes Msg).elim false (peerAddBARspActionSanity Msg.length)) := by
  have hframe := @isSome_addbaRsp Msg
  unfold addbaRspSanity
  split
  · next hlen =>
    rw [Option.not_isSome_iff_eq_none.mp fun h => absurd (hframe.mp h) (Nat.not_le.mpr hlen)]
    rfl
  · next hlen =>
    obtain ⟨f, hf⟩ := Option.isSome_iff_exists.mp (hframe.mpr (Nat.le_of_not_lt hlen))
    rw [hf]
    rfl

theorem delbaSanity_eq {wcid : Nat} (hw : wcid < MAX_LEN_OF_MAC_TABLE) :
    delbaSanity wcid Msg =
      some ((FrameDelbaReq.ofBytes Msg).elim false fun _ => peerDelBAActionSanity wcid Msg.length) := by
  have hframe := @isSome_delba Msg
  unfold delbaSanity peerDelBAActionSanity
  rw [if_neg (Nat.not_le.mpr hw)]
  split
  · next hlen =>
    rw [beq_eq_false_iff_ne.mpr hlen]
    cases FrameDelbaReq.ofBytes Msg <;> rfl
  · next hlen =>
    have hlen := of_not_not hlen
    obtain ⟨f, hf⟩ := Option.isSome_iff_exists.mp (hframe.mpr (Nat.le_of_eq hlen.symm))
    rw [hf, beq_iff_eq.mpr hlen, decide_eq_false (Nat.not_le.mpr hw)]
    rfl

end Frames

variable {ad : RtmpAdapter} {ev : BaEvent}

/-- A frame that is let to the tables has a TID that they have, and a session is set up with a
station of the table. -/
def BaEvent.Fits (ad : RtmpAdapter) : BaEvent → Prop
  | .addbaReq wcid msgLen f _ => ReqFits ad wcid msgLen f
  | .addbaRsp _ msgLen f _ => RspFits msgLen f
  | .delba wcid msgLen f _ => DelbaFits wcid msgLen f
  | .oriSetUp wcid _ _ _ _ => wcid < MAX_LEN_OF_MAC_TABLE
  | _ => True

theorem BaEvent.Fits.keeps (h : ev.Fits ad) : ev.Keeps ad := by
  cases ev with
  | addbaReq wcid msgLen f mem => exact h
  | oriSetUp wcid tid timeOut delayTime isForced => exact h
  | _ => trivial

theorem BaEvent.Fits.of_inRange (h : ev.InRange) (ad : RtmpAdapter) : ev.Fits ad := by
  cases ev with
  | addbaReq wcid msgLen f mem => exact fun _ => h
  | addbaRsp wcid msgLen f mem => exact fun _ => h
  | delba wcid msgLen f mem => exact fun _ => h
  | oriSetUp wcid tid timeOut delayTime isForced => exact h.1
  | _ => trivial

theorem TablesInv.confined_iff (h : TablesInv ad) (wcid : Fin MAX_LEN_OF_MAC_TABLE)
    (Msg : List UInt8) :
    (AddbaReqConfined ad wcid Msg ↔
      ∀ f, FrameAddbaReq.ofBytes Msg = some f → ReqFits ad wcid Msg.length f) ∧
    (AddbaRspConfined ad wcid Msg ↔
      ∀ f, FrameAddbaRsp.ofBytes Msg = some f → RspFits Msg.length f) ∧
    (DelbaConfined ad wcid Msg ↔
      ∀ f, FrameDelbaReq.ofBytes Msg = some f → DelbaFits wcid Msg.length f) := by
  refine ⟨?_, ?_, ?_⟩
  · refine confined_iff_fits addbaReqSanity_eq
      (fun f a => Touching.mem_peerAddBAReqAction wcid.isLt f) fun f hf => ?_
    exact (Bool.and_eq_true_iff.mp hf).1
  · exact confined_iff_fits addbaRspSanity_eq
      (fun f a => Touching.mem_peerAddBARspAction h wcid.isLt f) fun f hf => hf
  · exact confined_iff_fits (delbaSanity_eq wcid.isLt)
      (fun f a => Touching.mem_peerDelBAAction h wcid.isLt f) fun f hf => hf

/-- After steps that fit, a frame is handled inside of the tables exactly if it fits as well. -/
theorem frames_confined_iff (commonCfg : BaConfig) (station : Nat → MacTableEntry) (num : Nat)
    (evs : List BaEvent)
    (hfits : AllSteps baStep (fun ad ev => ev.Fits ad) (baTableInit commonCfg station num) evs)
    (wcid : Fin MAX_LEN_OF_MAC_TABLE) (Msg : List UInt8) :
    (AddbaReqConfined (exec baStep (baTableInit commonCfg station num) evs) wcid Msg ↔
      ∀ f, FrameAddbaReq.ofBytes Msg = some f →
        ReqFits (exec baStep (baTableInit commonCfg station num) evs) wcid Msg.length f) ∧
    (AddbaRspConfined (exec baStep (baTableInit commonCfg station num) evs) wcid Msg ↔
      ∀ f, FrameAddbaRsp.ofBytes Msg = some f → RspFits Msg.length f) ∧
    (DelbaConfined (exec baStep (baTableInit commonCfg station num) evs) wcid Msg ↔
      ∀ f, FrameDelbaReq.ofBytes Msg = some f → DelbaFits wcid Msg.length f) :=
  (exec_inv (fun _ _ h hp => baStep_keeps h (BaEvent.Fits.keeps hp)) (baTableInit_tablesInv commonCfg station num)
    hfits).confined_iff wcid Msg

theorem one_lt_table : 1 < MAX_LEN_OF_MAC_TABLE := by decide

/-- A request for TID 8, and the end of a session of it that the peer has set up. -/
def requestTid8 : List UInt8 := List.replicate 27 0 ++ [0x22, 0x10, 0, 0, 0, 0]
def delbaTid8 : List UInt8 := List.replicate 26 0 ++ [0x00, 0x88, 0, 0]

theorem frames_confined_twoSessions :
    (AddbaReqConfined (exec baStep (baTableInit {} (fun w => { aid := w }) 8) twoSessions) 1
        requestTid8 ↔
      ∀ f, FrameAddbaReq.ofBytes requestTid8 = some f →
        ReqFits (exec baStep (baTableInit {} (fun w => { aid := w }) 8) twoSessions) 1
          requestTid8.length f) :=
  (frames_confined_iff {} (fun w => { aid := w }) 8 twoSessions
    (AllSteps.of_forall fun ev hev ad => BaEvent.Fits.of_inRange
      ((by decide : ∀ ev ∈ twoSessions, ev.InRange) ev hev) ad) ⟨1, one_lt_table⟩ requestTid8).1

theorem tid8_not_confined :
    ¬ ∀ (commonCfg : BaConfig) (station : Nat → MacTableEntry) (num : Nat)
      (wcid : Fin MAX_LEN_OF_MAC_TABLE) (Msg : List UInt8),
      AddbaReqConfined (baTableInit commonCfg station num) wcid Msg ∧
        DelbaConfined (baTableInit commonCfg station num) wcid Msg := by
  intro h
  have hconfined := (h {} (fun w => { aid := w }) 8 ⟨1, one_lt_table⟩ delbaTid8).2
  rw [((baTableInit_tablesInv {} (fun w => { aid := w }) 8).confined_iff ⟨1, one_lt_table⟩
    delbaTid8).2.2] at hconfined
  exact absurd (hconfined ⟨.originator, 8⟩ (by decide) (by decide)) (by decide)

end Ralink.BlockAck
