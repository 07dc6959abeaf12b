import Ralink.BlockAck.Reorder

/-! `BATable`, the arrays and bitmaps of `MacTab` that refer to it, and the operations that set
sessions up and tear them down, in the access-point build. The outcomes of allocations come from
`mem`. Frames are given by the fields the driver fills or reads. -/
namespace Ralink.BlockAck
open Function

def MAX_LEN_OF_BA_REC_TABLE : Nat := NUM_OF_TID * MAX_LEN_OF_MAC_TABLE / 2
def MAX_LEN_OF_BA_ORI_TABLE : Nat := NUM_OF_TID * MAX_LEN_OF_MAC_TABLE / 2
def ORI_SESSION_MAX_RETRY : Nat := 8
def ORI_BA_SESSION_TIMEOUT : Nat := 2000
def FIXED_TXMODE_HT : Nat := 0
def IMMED_BA : Nat := 1
def MGMT_DMA_BUFFER_SIZE : Nat := 1600
def RALINK_2883_VERSION : Nat := 0x28830300
def RALINK_2880E_VERSION : Nat := 0x28720200
def RALINK_3070_VERSION : Nat := 0x30700200

/-- `ORI_BLOCKACK_STATUS`, in the order of its values. -/
inductive OriBlockAckStatus where
  | none
  | used
  | waitRes
  | done
  deriving DecidableEq

/-- `BA_ORI_ENTRY`; `timer` is the time its set-up timer was last set to. -/
structure BaOriEntry where
  wcid : Nat := 0
  tid : Nat := 0
  baWinSize : Nat := 0
  token : Nat := 0
  sequence : Nat := 0
  timeOutValue : Nat := 0
  oriBaStatus : OriBlockAckStatus := .none
  timer : Option Nat := none
  deriving DecidableEq

/-- The block-ack side of `MAC_TABLE_ENTRY`. -/
structure MacTableEntry where
  aid : Nat
  isHtSta : Bool := true
  staFixedTxMode : Nat := FIXED_TXMODE_HT
  encrypted : Bool := false
  maxRAmpduFactor : Nat := 3
  txSeq : Nat → Nat := fun _ => 0
  rxBAbitmap : BitVec 16 := 0
  txBAbitmap : BitVec 16 := 0
  baDeclineBitmap : BitVec 16 := 0
  baRecWcidArray : Nat → Nat := fun _ => 0
  baOriWcidArray : Nat → Nat := fun _ => 0

structure BaTable where
  numAsRecipient : Nat := 0
  numAsOriginator : Nat := 0
  numDoneOriginator : Nat := 0
  baOriEntry : Nat → BaOriEntry := fun _ => {}
  baRecEntry : Nat → BaRecEntry := fun _ => {}

inductive Initiator where
  | recipient
  | originator
  deriving DecidableEq

structure BaParm where
  tid : BitVec 4
  bufSize : BitVec 10
  baPolicy : Nat := IMMED_BA
  amsduSupported : Bool := false
  deriving DecidableEq

structure FrameAddbaReq where
  token : Nat := 1
  baParm : BaParm
  timeOutValue : BitVec 16 := 0
  deriving DecidableEq

structure FrameAddbaRsp where
  token : Nat := 1
  statusCode : BitVec 16 := 0
  baParm : BaParm
  timeOutValue : BitVec 16 := 0
  deriving DecidableEq

structure FrameDelbaReq where
  initiator : Initiator
  tid : BitVec 4
  deriving DecidableEq

structure FrameBaReq where
  tid : BitVec 4
  startSeq : BitVec 12
  deriving DecidableEq

/-- What the driver hands to the management queue or to its own state machine. -/
inductive MgmtFrame where
  | mlmeAddbaReq (wcid tid baBufSize timeOutValue token : Nat)
  | addbaRsp (wcid token statusCode tid bufSize : Nat)
  | delba (wcid tid : Nat) (initiator : Initiator) (reasonCode : Nat)
  | bar (wcid tid startSeq : Nat)
  deriving DecidableEq

/-- The settings of `RTMP_ADAPTER` that the block-ack code reads. -/
structure BaConfig where
  osHz : Nat := 1000
  macVersion : Nat := RALINK_3070_VERSION
  rxBAWinLimit : BitVec 8 := 64
  autoBA : Bool := true
  bBADecline : Bool := false

structure RtmpAdapter where
  commonCfg : BaConfig
  haltInProgress : Bool := false
  content : Nat → MacTableEntry
  baTable : BaTable := {}
  freelist : ReorderingList
  mem : List Bool := []
  out : List Out := []
  sent : List MgmtFrame := []

namespace RtmpAdapter

def setContent (ad : RtmpAdapter) (wcid : Nat) (e : MacTableEntry) : RtmpAdapter :=
  { ad with content := update ad.content wcid e }

def setRec (ad : RtmpAdapter) (idx : Nat) (e : BaRecEntry) : RtmpAdapter :=
  { ad with baTable := { ad.baTable with baRecEntry := update ad.baTable.baRecEntry idx e } }

def setOri (ad : RtmpAdapter) (idx : Nat) (e : BaOriEntry) : RtmpAdapter :=
  { ad with baTable := { ad.baTable with baOriEntry := update ad.baTable.baOriEntry idx e } }

def setRecSlot (ad : RtmpAdapter) (wcid tid idx : Nat) : RtmpAdapter :=
  ad.setContent wcid { ad.content wcid with
    baRecWcidArray := update (ad.content wcid).baRecWcidArray tid idx }

def setOriSlot (ad : RtmpAdapter) (wcid tid idx : Nat) : RtmpAdapter :=
  ad.setContent wcid { ad.content wcid with
    baOriWcidArray := update (ad.content wcid).baOriWcidArray tid idx }

def setRXBAbitmap (ad : RtmpAdapter) (wcid : Nat) (bits : BitVec 16) : RtmpAdapter :=
  ad.setContent wcid { ad.content wcid with rxBAbitmap := bits }

def setTXBAbitmap (ad : RtmpAdapter) (wcid : Nat) (bits : BitVec 16) : RtmpAdapter :=
  ad.setContent wcid { ad.content wcid with txBAbitmap := bits }

def setBADeclineBitmap (ad : RtmpAdapter) (wcid : Nat) (bits : BitVec 16) : RtmpAdapter :=
  ad.setContent wcid { ad.content wcid with baDeclineBitmap := bits }

def setNumAsRecipient (ad : RtmpAdapter) (n : Nat) : RtmpAdapter :=
  { ad with baTable := { ad.baTable with numAsRecipient := n } }

def setNumAsOriginator (ad : RtmpAdapter) (n : Nat) : RtmpAdapter :=
  { ad with baTable := { ad.baTable with numAsOriginator := n } }

def setNumDoneOriginator (ad : RtmpAdapter) (n : Nat) : RtmpAdapter :=
  { ad with baTable := { ad.baTable with numDoneOriginator := n } }

def send (ad : RtmpAdapter) (f : MgmtFrame) : RtmpAdapter := { ad with sent := ad.sent ++ [f] }

/-- One memory allocation: the next outcome, success once none is given. -/
def allocMem (ad : RtmpAdapter) : RtmpAdapter × Bool :=
  ({ ad with mem := ad.mem.tail }, ad.mem.head?.getD true)

/-- What the reordering code sees of entry `idx`. -/
def reCtx (ad : RtmpAdapter) (idx : Nat) : ReCtx :=
  { freelist := ad.freelist, entry := ad.baTable.baRecEntry idx, out := ad.out }

def putCtx (ad : RtmpAdapter) (idx : Nat) (c : ReCtx) : RtmpAdapter :=
  { ad.setRec idx c.entry with freelist := c.freelist, out := c.out }

/-- Run reordering code on entry `idx`. -/
def onEntry (ad : RtmpAdapter) (idx : Nat) (f : ReCtx → ReCtx) : RtmpAdapter :=
  ad.putCtx idx (f (ad.reCtx idx))

end RtmpAdapter

/-- The search for a free entry; index 0 means "no session". -/
def firstFree (n : Nat) (free : Nat → Bool) : Option Nat := (List.range' 1 (n - 1)).find? free

/-- Returns `pBAEntry` and `*Idx`. When the search finds nothing `pBAEntry` is left at
the last entry and `*Idx` unwritten. -/
def baTableAllocRecEntry (ad : RtmpAdapter) (idx : Nat) : RtmpAdapter × Option Nat × Nat :=
  if ad.baTable.numAsRecipient ≥ MAX_LEN_OF_BA_REC_TABLE - 1 then (ad, none, idx)
  else
    match firstFree MAX_LEN_OF_BA_REC_TABLE fun i =>
        (ad.baTable.baRecEntry i).recBaStatus == .none with
    | some i =>
      let ad := ad.setRec i { ad.baTable.baRecEntry i with recBaStatus := .used }
      (ad.setNumAsRecipient (ad.baTable.numAsRecipient + 1), some i, i)
    | none => (ad, some (MAX_LEN_OF_BA_REC_TABLE - 1), idx)

def baTableAllocOriEntry (ad : RtmpAdapter) (idx : Nat) : RtmpAdapter × Option Nat × Nat :=
  if ad.baTable.numAsOriginator ≥ MAX_LEN_OF_BA_ORI_TABLE - 1 then (ad, none, idx)
  else
    match firstFree MAX_LEN_OF_BA_ORI_TABLE fun i =>
        (ad.baTable.baOriEntry i).oriBaStatus == .none with
    | some i =>
      let ad := ad.setOri i { ad.baTable.baOriEntry i with oriBaStatus := .used }
      (ad.setNumAsOriginator (ad.baTable.numAsOriginator + 1), some i, i)
    | none => (ad, some (MAX_LEN_OF_BA_ORI_TABLE - 1), idx)

def tidBit (tid : Nat) : BitVec 16 := 1#16 <<< tid

def baTableFreeOriEntry (ad : RtmpAdapter) (idx : Nat) : RtmpAdapter :=
  if idx = 0 ∨ idx ≥ MAX_LEN_OF_BA_ORI_TABLE then ad
  else
    let e := ad.baTable.baOriEntry idx
    if e.oriBaStatus ≠ .none then
      let ad := ad.setOriSlot e.wcid e.tid 0
      let ad :=
        if e.oriBaStatus = .done then
          (ad.setNumDoneOriginator (ad.baTable.numDoneOriginator - 1)).setTXBAbitmap e.wcid
            ((ad.content e.wcid).txBAbitmap &&& ~~~tidBit e.tid)
        else ad
      let ad := ad.setNumAsOriginator (ad.baTable.numAsOriginator - 1)
      ad.setOri idx { e with oriBaStatus := .none, token := 0 }
    else ad

def baTableFreeRecEntry (ad : RtmpAdapter) (idx : Nat) : RtmpAdapter :=
  if idx = 0 ∨ idx ≥ MAX_LEN_OF_BA_REC_TABLE then ad
  else
    let e := ad.baTable.baRecEntry idx
    if e.recBaStatus ≠ .none then
      let ad := ad.setRecSlot e.wcid e.tid 0
      let ad := ad.setNumAsRecipient (ad.baTable.numAsRecipient - 1)
      ad.setRec idx { e with recBaStatus := .none }
    else ad

/-- `BAOriSessionSetUp` for the station `pEntry = &MacTab.Content[wcid]`. -/
def baOriSessionSetUp (ad : RtmpAdapter) (wcid tid timeOut delayTime : Nat) (isForced : Bool) :
    RtmpAdapter :=
  if tid ≥ NUM_OF_TID then ad
  else if !ad.commonCfg.autoBA && !isForced then ad
  else if (ad.content wcid).staFixedTxMode ≠ FIXED_TXMODE_HT then ad
  else
    let declined := ((ad.content wcid).baDeclineBitmap &&& tidBit tid) ≠ 0
    let delayTime := if declined ∧ !isForced then 3000 else delayTime
    let idx := (ad.content wcid).baOriWcidArray tid
    let (ad, pBAEntry, idx) :=
      if idx = 0 then baTableAllocOriEntry ad idx else (ad, some idx, idx)
    match pBAEntry with
    | none => ad
    | some p =>
      match (ad.baTable.baOriEntry p).oriBaStatus with
      | .waitRes | .done => ad
      | .none | .used =>
        let ad := ad.setOriSlot wcid tid idx
        ad.setOri p { ad.baTable.baOriEntry p with
          oriBaStatus := .waitRes
          wcid := (ad.content wcid).aid % 256
          baWinSize := ad.commonCfg.rxBAWinLimit.toNat
          sequence := (ad.content wcid).txSeq tid
          token := 1
          tid := tid
          timeOutValue := timeOut
          timer := some delayTime }

def baMaxWinSizeReasign (ad : RtmpAdapter) (peer : MacTableEntry) (winSize : Nat) : Nat :=
  let maxPeerRxSize := ((1 <<< (peer.maxRAmpduFactor + 3)) * 10 / 16 - 1) % 256
  let maxSize :=
    if ad.commonCfg.macVersion ≥ RALINK_2883_VERSION then
      if ad.commonCfg.macVersion ≥ RALINK_3070_VERSION then
        if peer.encrypted then 7 else 13
      else 31
    else if ad.commonCfg.macVersion ≥ RALINK_2880E_VERSION then
      if peer.encrypted then 7 else 13
    else 7
  let maxSize := min maxPeerRxSize maxSize
  if winSize > maxSize then maxSize else winSize

def baOriSessionAdd (ad : RtmpAdapter) (wcid : Nat) (pFrame : FrameAddbaRsp) : RtmpAdapter :=
  let tid := pFrame.baParm.tid.toNat
  let idx := (ad.content wcid).baOriWcidArray tid
  let e := ad.baTable.baOriEntry idx
  if idx ≠ 0 ∧ e.tid = tid ∧ e.oriBaStatus = .waitRes then
    let maxPeerBufSize := pFrame.baParm.bufSize.toNat % 256 - 1
    let sequence := (ad.content wcid).txSeq tid
    let winSize := baMaxWinSizeReasign ad (ad.content wcid) (min e.baWinSize maxPeerBufSize)
    let ad := ad.setOri idx { e with
      baWinSize := winSize
      timeOutValue := pFrame.timeOutValue.toNat
      oriBaStatus := .done
      sequence := sequence
      timer := none }
    let ad := ad.setNumDoneOriginator (ad.baTable.numDoneOriginator + 1)
    let ad := ad.setTXBAbitmap wcid ((ad.content wcid).txBAbitmap ||| tidBit tid)
    let (ad, ok) := ad.allocMem
    if ok then ad.send (.bar e.wcid e.tid sequence) else ad
  else ad

def recBAWinSize (cfg : BaConfig) (bufSize : BitVec 10) : Nat :=
  let baWinSize := min (bufSize.toNat % 256) cfg.rxBAWinLimit.toNat
  if baWinSize = 0 then 64 else baWinSize

/-- The parameters `BARecSessionAdd` fills in. -/
def startRecSession (wcid tid baWinSize timeOutValue : Nat) (c : ReCtx) : ReCtx :=
  ({ c with
    entry := { c.entry with
      baWinSize := baWinSize
      wcid := wcid
      tid := tid
      timeOutValue := timeOutValue
      recBaStatus := .accept } } : ReCtx).setLastIndSeq RESET_RCV_SEQ

def baRecSessionAdd (ad : RtmpAdapter) (wcid : Nat) (pFrame : FrameAddbaReq) :
    RtmpAdapter × Bool :=
  let tid := pFrame.baParm.tid.toNat
  let baWinSize := recBAWinSize ad.commonCfg pFrame.baParm.bufSize
  let idx := (ad.content wcid).baRecWcidArray tid
  let (ad, pBAEntry, idx) :=
    if idx = 0 then baTableAllocRecEntry ad idx
    else (ad.onEntry idx baRefreshReorderingMpdus, some idx, idx)
  match pBAEntry with
  | none => (ad, false)
  | some p =>
    let ad := ad.onEntry p (startRecSession ((ad.content wcid).aid % 256) tid baWinSize
      pFrame.timeOutValue.toNat)
    let ad := ad.setRXBAbitmap wcid ((ad.content wcid).rxBAbitmap ||| tidBit tid)
    let ad := ad.setRecSlot wcid tid idx
    (ad.setBADeclineBitmap wcid ((ad.content wcid).baDeclineBitmap &&& ~~~tidBit tid), true)

/-- `MlmeDELBAAction` for a request the driver builds itself: a BAR, then the DELBA. -/
def mlmeDELBAAction (ad : RtmpAdapter) (wcid tid : Nat) (initiator : Initiator) : RtmpAdapter :=
  if 0 < wcid ∧ wcid < MAX_LEN_OF_MAC_TABLE then
    let (ad, ok) := ad.allocMem
    if !ok then ad
    else
      let (ad, ok) := ad.allocMem
      if !ok then ad
      else (ad.send (.bar wcid tid ((ad.content wcid).txSeq tid))).send (.delba wcid tid initiator 39)
  else ad

def cancelOriTimer (ad : RtmpAdapter) (idx : Nat) : RtmpAdapter :=
  ad.setOri idx { ad.baTable.baOriEntry idx with timer := none }

def baOriSessionTearDown (ad : RtmpAdapter) (wcid tid : Nat) (bPassive bForceSend : Bool) :
    RtmpAdapter :=
  if wcid ≥ MAX_LEN_OF_MAC_TABLE then ad
  else
    let idx := (ad.content wcid).baOriWcidArray tid
    if idx = 0 ∨ idx ≥ MAX_LEN_OF_BA_ORI_TABLE then
      if bForceSend then
        let (ad, ok) := ad.allocMem
        if ok then mlmeDELBAAction ad wcid tid .originator else ad
      else ad
    else
      let e := ad.baTable.baOriEntry idx
      if bPassive = false ∧ tid = e.tid ∧ e.oriBaStatus = .done then
        let (ad, ok) := ad.allocMem
        if ok then
          baTableFreeOriEntry (cancelOriTimer (mlmeDELBAAction ad wcid e.tid .originator) idx) idx
        else ad
      else baTableFreeOriEntry (cancelOriTimer ad idx) idx

/-- `LastIndSeq` and `BAWinSize` as `BARecSessionTearDown` leaves them. -/
def stopRecSession (c : ReCtx) : ReCtx :=
  ({ c with entry := { c.entry with baWinSize := 0 } } : ReCtx).setLastIndSeq RESET_RCV_SEQ

def baRecSessionTearDown (ad : RtmpAdapter) (wcid tid : Nat) (bPassive : Bool) : RtmpAdapter :=
  if wcid ≥ MAX_LEN_OF_MAC_TABLE then ad
  else
    let idx := (ad.content wcid).baRecWcidArray tid
    if idx = 0 then ad
    else
      let e := ad.baTable.baRecEntry idx
      if tid = e.tid ∧ e.recBaStatus = .accept then
        let (ad, ok) := if bPassive then (ad, true) else ad.allocMem
        if !ok then ad
        else
          let ad := if bPassive then ad else mlmeDELBAAction ad wcid tid .recipient
          let ad := ad.onEntry idx fun c => stopRecSession (baRefreshReorderingMpdus c)
          let ad := ad.setRXBAbitmap wcid ((ad.content wcid).rxBAbitmap &&& ~~~tidBit e.tid)
          baTableFreeRecEntry (ad.setRecSlot wcid tid 0) idx
      else baTableFreeRecEntry ad idx

def baSessionTearDownALL (ad : RtmpAdapter) (wcid : Nat) : RtmpAdapter :=
  (List.range NUM_OF_TID).foldl (fun ad tid =>
    baRecSessionTearDown (baOriSessionTearDown ad wcid tid false false) wcid tid false) ad

/-- The set-up timer of originator entry `p` fires. -/
def baOriSessionSetupTimeout (ad : RtmpAdapter) (p : Nat) : RtmpAdapter :=
  let e := ad.baTable.baOriEntry p
  let pEntry := ad.content e.wcid
  if e.oriBaStatus = .waitRes ∧ e.token < ORI_SESSION_MAX_RETRY then
    (ad.send (.mlmeAddbaReq (pEntry.aid % 256) e.tid ad.commonCfg.rxBAWinLimit.toNat 0 e.token)).setOri
      p { e with token := e.token + 1, timer := some ORI_BA_SESSION_TIMEOUT }
  else baTableFreeOriEntry ad (pEntry.baOriWcidArray e.tid)

/-- `BARecSessionIdleTimeout`; the idle time is `REC_BA_SESSION_IDLE_TIMEOUT` ticks. -/
def baRecSessionIdleTimeout (ad : RtmpAdapter) (p : Nat) (now : BitVec 32) : RtmpAdapter :=
  let e := ad.baTable.baRecEntry p
  if e.recBaStatus = .accept ∧ rtmpTimeAfter now (e.lastIndSeqAtTimer + 1000) then
    ad.onEntry p baRefreshReorderingMpdus
  else ad

/-- `sizeof` of the management frames, header included, and of `FRAME_BA_REQ`. -/
def sizeofFrameAddbaReq : Nat := 33
def sizeofFrameAddbaRsp : Nat := 33
def sizeofFrameDelbaReq : Nat := 30
def sizeofFrameBaReq : Nat := 20

def peerAddBAReqActionSanity (msgLen : Nat) (f : FrameAddbaReq) : Bool :=
  !decide (msgLen < sizeofFrameAddbaReq) && f.baParm.baPolicy == IMMED_BA

def peerAddBARspActionSanity (msgLen : Nat) (f : FrameAddbaRsp) : Bool :=
  !decide (msgLen < sizeofFrameAddbaRsp) && f.baParm.baPolicy == IMMED_BA

def peerDelBAActionSanity (wcid msgLen : Nat) : Bool :=
  msgLen == sizeofFrameDelbaReq && !decide (wcid ≥ MAX_LEN_OF_MAC_TABLE)

def peerAddBAReqAction (ad : RtmpAdapter) (wcid msgLen : Nat) (f : FrameAddbaReq) : RtmpAdapter :=
  if wcid ≥ MAX_LEN_OF_MAC_TABLE then ad
  else
    let (ad, status) :=
      if peerAddBAReqActionSanity msgLen f then
        if !ad.commonCfg.bBADecline && (ad.content wcid).isHtSta then
          let (ad, ok) := baRecSessionAdd ad wcid f
          (ad, if ok then 0 else 38)
        else (ad, 37)
      else (ad, 1)
    let (ad, ok) := ad.allocMem
    if ok then
      ad.send (.addbaRsp wcid f.token status f.baParm.tid.toNat
        (recBAWinSize ad.commonCfg f.baParm.bufSize))
    else ad

def peerAddBARspAction (ad : RtmpAdapter) (wcid msgLen : Nat) (f : FrameAddbaRsp) : RtmpAdapter :=
  if wcid ≥ MAX_LEN_OF_MAC_TABLE then ad
  else if peerAddBARspActionSanity msgLen f then
    let ad :=
      if f.statusCode = 0 then baOriSessionAdd ad wcid f
      else baOriSessionTearDown ad wcid f.baParm.tid.toNat true false
    if f.statusCode = 37 then
      ad.setBADeclineBitmap wcid ((ad.content wcid).baDeclineBitmap ||| tidBit f.baParm.tid.toNat)
    else ad
  else ad

def peerDelBAAction (ad : RtmpAdapter) (wcid msgLen : Nat) (f : FrameDelbaReq) : RtmpAdapter :=
  if peerDelBAActionSanity wcid msgLen then
    match f.initiator with
    | .originator => baRecSessionTearDown ad wcid f.tid.toNat true
    | .recipient => baOriSessionTearDown ad wcid f.tid.toNat true false
  else ad

/-- `CntlEnqueueForRecv`. Index 0 of the table stands for stations without a session. -/
def cntlEnqueueForRecv (ad : RtmpAdapter) (wcid msgLen : Nat) (pMsg : FrameBaReq) :
    RtmpAdapter × Bool :=
  let tid := pMsg.tid.toNat
  if ad.haltInProgress then (ad, false)
  else if msgLen > MGMT_DMA_BUFFER_SIZE then (ad, false)
  else if msgLen ≠ sizeofFrameBaReq then (ad, false)
  else if wcid < MAX_LEN_OF_MAC_TABLE ∧ tid < 8 then
    (ad.onEntry ((ad.content wcid).baRecWcidArray tid) (barOnEntry · pMsg.startSeq), true)
  else (ad, false)

/-- Hand a frame up or release it without touching any session. -/
def passBy (ad : RtmpAdapter) (f : ReCtx → ReCtx) : RtmpAdapter :=
  { ad with out := (f (ad.reCtx 0)).out }

def indicateAmpduPacket (ad : RtmpAdapter) (rx : RxBlk) (now : BitVec 32) : RtmpAdapter :=
  if !rx.fRxAmsdu ∧ rx.dataSize > MAX_RX_PKT_LEN then passBy ad (releaseNdisPacket · rx)
  else if rx.wirelessCliID < MAX_LEN_OF_MAC_TABLE then
    let idx := (ad.content rx.wirelessCliID).baRecWcidArray rx.tid
    if idx = 0 then passBy ad (indicateLegacyOrAmsdu · rx)
    else ad.onEntry idx (indicateAmpduOnEntry ad.commonCfg.osHz · rx now)
  else passBy ad (releaseNdisPacket · rx)

def baReOrderingBufferMaintain (ad : RtmpAdapter) (inUse : Nat → Bool) (now : BitVec 32) :
    RtmpAdapter :=
  (List.range' 1 (MAX_LEN_OF_MAC_TABLE - 1)).foldl (fun ad wcid =>
    if !inUse wcid then ad
    else
      (List.range NUM_OF_TID).foldl (fun ad tid =>
        ad.onEntry ((ad.content wcid).baRecWcidArray tid)
          (baFlushReorderingTimeoutMpdus ad.commonCfg.osHz · now)) ad) ad

/-- What can happen to the block-ack tables. `mem` gives the outcomes of the memory
allocations made while the event is handled. -/
inductive BaEvent where
  | ampdu (rx : RxBlk) (now : BitVec 32)
  | bar (wcid msgLen : Nat) (f : FrameBaReq)
  | flushTimeout (idx : Nat) (now : BitVec 32)
  | idleTimeout (idx : Nat) (now : BitVec 32)
  | addbaReq (wcid msgLen : Nat) (f : FrameAddbaReq) (mem : List Bool)
  | addbaRsp (wcid msgLen : Nat) (f : FrameAddbaRsp) (mem : List Bool)
  | delba (wcid msgLen : Nat) (f : FrameDelbaReq) (mem : List Bool)
  | oriSetUp (wcid tid timeOut delayTime : Nat) (isForced : Bool)
  | setupTimeout (idx : Nat)
  | oriTearDown (wcid tid : Nat) (bPassive bForceSend : Bool) (mem : List Bool)
  | recTearDown (wcid tid : Nat) (bPassive : Bool) (mem : List Bool)
  | tearDownALL (wcid : Nat) (mem : List Bool)

def withMem (ad : RtmpAdapter) (mem : List Bool) : RtmpAdapter := { ad with mem }

def baStep (ad : RtmpAdapter) : BaEvent → RtmpAdapter
  | .ampdu rx now => indicateAmpduPacket ad rx now
  | .bar wcid msgLen f => (cntlEnqueueForRecv ad wcid msgLen f).1
  | .flushTimeout idx now =>
    ad.onEntry idx (baFlushReorderingTimeoutMpdus ad.commonCfg.osHz · now)
  | .idleTimeout idx now => baRecSessionIdleTimeout ad idx now
  | .addbaReq wcid msgLen f mem => peerAddBAReqAction (withMem ad mem) wcid msgLen f
  | .addbaRsp wcid msgLen f mem => peerAddBARspAction (withMem ad mem) wcid msgLen f
  | .delba wcid msgLen f mem => peerDelBAAction (withMem ad mem) wcid msgLen f
  | .oriSetUp wcid tid timeOut delayTime isForced =>
    baOriSessionSetUp ad wcid tid timeOut delayTime isForced
  | .setupTimeout idx => baOriSessionSetupTimeout ad idx
  | .oriTearDown wcid tid bPassive bForceSend mem =>
    baOriSessionTearDown (withMem ad mem) wcid tid bPassive bForceSend
  | .recTearDown wcid tid bPassive mem => baRecSessionTearDown (withMem ad mem) wcid tid bPassive
  | .tearDownALL wcid mem => baSessionTearDownALL (withMem ad mem) wcid

/-- The stations and TIDs of an event lie inside the arrays they index. -/
def BaEvent.InRange : BaEvent → Prop
  | .ampdu rx _ => rx.tid < NUM_OF_TID
  | .bar _ _ _ => True
  | .flushTimeout idx _ | .idleTimeout idx _ => idx < MAX_LEN_OF_BA_REC_TABLE
  | .addbaReq _ _ f _ => f.baParm.tid.toNat < NUM_OF_TID
  | .addbaRsp _ _ f _ => f.baParm.tid.toNat < NUM_OF_TID
  | .delba _ _ f _ => f.tid.toNat < NUM_OF_TID
  | .oriSetUp wcid tid _ _ _ => wcid < MAX_LEN_OF_MAC_TABLE ∧ tid < NUM_OF_TID
  | .setupTimeout idx => idx < MAX_LEN_OF_BA_ORI_TABLE
  | .oriTearDown _ tid _ _ _ | .recTearDown _ tid _ _ => tid < NUM_OF_TID
  | .tearDownALL _ _ => True

instance : DecidablePred BaEvent.InRange
  | .ampdu _ _ => inferInstanceAs (Decidable (_ < _))
  | .bar _ _ _ => inferInstanceAs (Decidable True)
  | .flushTimeout _ _ => inferInstanceAs (Decidable (_ < _))
  | .idleTimeout _ _ => inferInstanceAs (Decidable (_ < _))
  | .addbaReq _ _ _ _ => inferInstanceAs (Decidable (_ < _))
  | .addbaRsp _ _ _ _ => inferInstanceAs (Decidable (_ < _))
  | .delba _ _ _ _ => inferInstanceAs (Decidable (_ < _))
  | .oriSetUp _ _ _ _ _ => inferInstanceAs (Decidable (_ ∧ _))
  | .setupTimeout _ => inferInstanceAs (Decidable (_ < _))
  | .oriTearDown _ _ _ _ _ => inferInstanceAs (Decidable (_ < _))
  | .recTearDown _ _ _ _ => inferInstanceAs (Decidable (_ < _))
  | .tearDownALL _ _ => inferInstanceAs (Decidable True)

/-- The adapter after `BATableInit` and `ba_reordering_resource_init`, with the given
settings and stations, no one of which has a session. -/
def baTableInit (commonCfg : BaConfig) (station : Nat → MacTableEntry) (num : Nat) : RtmpAdapter where
  commonCfg := commonCfg
  content wcid := { station wcid with
    aid := wcid
    rxBAbitmap := 0
    txBAbitmap := 0
    baRecWcidArray := fun _ => 0
    baOriWcidArray := fun _ => 0 }
  freelist := baReorderingResourceInit num

end Ralink.BlockAck
