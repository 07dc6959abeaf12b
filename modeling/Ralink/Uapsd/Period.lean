import Ralink.Station.Table

/-! Frames for a station that saves power wait in queues. A trigger frame starts a service period:
they go to the software queues, but the last one, which ends the period, is withheld until all the
others are reported as sent. -/
namespace Ralink.Uapsd
open Function
open Station (MAX_LEN_OF_MAC_TABLE)

def WMM_NUM_OF_AC : Nat := 4

abbrev QID_AC := Fin WMM_NUM_OF_AC

def QID_AC_BE : QID_AC := ⟨0, by decide⟩
def QID_AC_BK : QID_AC := ⟨1, by decide⟩
def QID_AC_VI : QID_AC := ⟨2, by decide⟩
def QID_AC_VO : QID_AC := ⟨3, by decide⟩

def MAX_PACKETS_IN_UAPSD_QUEUE : Nat := 16

/-- A packet with what its control block says of it. -/
structure NDIS_PACKET where
  id : Nat
  MGMT_PKT : Bool
  UAPSD_Flag : Bool
  UAPSD_QUE_ID : Nat
  MOREDATA : Bool
  EOSP : Bool
  deriving DecidableEq, Inhabited

inductive PsMode where
  | PWR_ACTIVE
  | PWR_SAVE
  | PWR_MMPS
  deriving DecidableEq, Inhabited

inductive MODE where
  | MODE_CCK
  | MODE_OFDM
  | MODE_HTMIX
  | MODE_HTGREENFIELD
  deriving DecidableEq

/-- Of the queue for PS-Poll frames it is kept how long it is. -/
structure MAC_TABLE_ENTRY where
  Aid : Nat
  PsMode : PsMode
  PsQueueNumber : Nat
  MaxSPLength : Nat
  bAPSDCapablePerAC : QID_AC → Bool
  bAPSDDeliverEnabledPerAC : QID_AC → Bool
  bAPSDAllAC : Bool
  UAPSDQueue : QID_AC → List NDIS_PACKET
  UAPSDQIdleCount : Nat
  pUAPSDEOSPFrame : Option NDIS_PACKET
  UAPSDTxNum : Nat
  bAPSDFlagEOSPOK : Bool
  bAPSDFlagSPStart : Bool
  UAPSDTimeStampLast : Nat
  bAPSDFlagSpRoughUse : Bool
  bAPSDFlagLegacySent : Bool
  deriving Inhabited

/-- The station, the software queues with all that has been put into them, what has been given
back to the system, and the bit for the station in the beacon. -/
structure RTMP_ADAPTER where
  entry : MAC_TABLE_ENTRY
  TxSwQueue : QID_AC → List NDIS_PACKET
  released : List NDIS_PACKET
  QosNull : List Nat
  TIM : Bool
  bAPSDFlagSPSuspend : Bool
  deriving Inhabited

structure Config where
  MsduLifeTime : Nat
  UAPSD_EPT_SP_INT : Nat

def InsertTailQueueAc (TxSwQueue : QID_AC → List NDIS_PACKET) (QueId : QID_AC)
    (pPacket : NDIS_PACKET) : QID_AC → List NDIS_PACKET :=
  update TxSwQueue QueId (TxSwQueue QueId ++ [pPacket])

variable (cfg : Config) (pAd : RTMP_ADAPTER)

/-- The queue that the control block of the withheld frame names. -/
def eospQueId (pPkt : NDIS_PACKET) : QID_AC :=
  if h : pPkt.UAPSD_QUE_ID < WMM_NUM_OF_AC then ⟨pPkt.UAPSD_QUE_ID, h⟩ else QID_AC_BE

def sendEosp : RTMP_ADAPTER :=
  match pAd.entry.pUAPSDEOSPFrame with
  | some pPkt =>
    { pAd with
      TxSwQueue := InsertTailQueueAc pAd.TxSwQueue (eospQueId pPkt) pPkt
      entry.pUAPSDEOSPFrame := none }
  | none => pAd

def releaseEosp : RTMP_ADAPTER :=
  match pAd.entry.pUAPSDEOSPFrame with
  | some pPkt =>
    { pAd with released := pAd.released ++ [pPkt], entry.pUAPSDEOSPFrame := none }
  | none => pAd

/-- A frame of the period is reported as sent while some are not. Behind the last of them the
withheld frame is sent. -/
def countSent : RTMP_ADAPTER :=
  let pAd := if pAd.entry.UAPSDTxNum = 1 then sendEosp pAd else pAd
  { pAd with entry.UAPSDTxNum := pAd.entry.UAPSDTxNum - 1 }

/-- The frame that ends the period is reported as sent. When frames of the station may have been
received meanwhile, the period is closed behind them. -/
def endPeriod (RxDone : Bool) : RTMP_ADAPTER :=
  if RxDone then { pAd with entry.bAPSDFlagEOSPOK := true }
  else
    { pAd with
      entry.bAPSDFlagSPStart := false
      entry.bAPSDFlagEOSPOK := false
      entry.bAPSDFlagLegacySent := false }

def UAPSD_PacketEnqueue (pPacket : NDIS_PACKET) (IdAc : QID_AC) : RTMP_ADAPTER :=
  let pQueUapsd := pAd.entry.UAPSDQueue IdAc
  if pQueUapsd.length ≥ MAX_PACKETS_IN_UAPSD_QUEUE then
    { pAd with released := pAd.released ++ [pPacket] }
  else
    { pAd with
      entry.UAPSDQueue := update pAd.entry.UAPSDQueue IdAc (pQueUapsd ++ [pPacket]) }

def UAPSD_SP_Close : RTMP_ADAPTER :=
  if pAd.entry.PsMode = .PWR_SAVE ∧ pAd.entry.bAPSDFlagSPStart then
    { releaseEosp pAd with
      entry :=
        { (releaseEosp pAd).entry with
          UAPSDTxNum := 0
          bAPSDFlagSPStart := false
          bAPSDFlagEOSPOK := false
          bAPSDFlagLegacySent := false } }
  else pAd

/-- All that waits for an access category goes to its software queue. -/
def deliverAc (IdAc : QID_AC) : RTMP_ADAPTER :=
  { pAd with
    TxSwQueue := (pAd.entry.UAPSDQueue IdAc).foldl (fun q p => InsertTailQueueAc q IdAc p)
      pAd.TxSwQueue
    entry.UAPSDQueue := update pAd.entry.UAPSDQueue IdAc [] }

/-- The period goes on, but nothing is withheld any more. -/
def UAPSD_AllPacketDeliver : RTMP_ADAPTER :=
  let pAd :=
    if pAd.entry.pUAPSDEOSPFrame ≠ none then
      { sendEosp pAd with entry := { (sendEosp pAd).entry with UAPSDTxNum := 0 } }
    else pAd
  [QID_AC_VO, QID_AC_VI, QID_AC_BK, QID_AC_BE].foldl deliverAc pAd

def APCleanupPsQueue (IdAc : QID_AC) : RTMP_ADAPTER :=
  { pAd with
    released := pAd.released ++ pAd.entry.UAPSDQueue IdAc
    entry.UAPSDQueue := update pAd.entry.UAPSDQueue IdAc [] }

def uapsdTimeout : RTMP_ADAPTER :=
  let pAd := releaseEosp
    ([QID_AC_BE, QID_AC_BK, QID_AC_VI, QID_AC_VO].foldl APCleanupPsQueue pAd)
  { pAd with
    entry :=
      { pAd.entry with
        UAPSDTxNum := 0
        bAPSDFlagEOSPOK := false
        bAPSDFlagSPStart := false
        bAPSDFlagLegacySent := false
        UAPSDQIdleCount := 0 }
    TIM := if pAd.entry.PsQueueNumber = 0 then false else pAd.TIM }

def UAPSD_QueueMaintenance (gUAPSD_FlgNotQueueMaintain : Bool) : RTMP_ADAPTER :=
  if gUAPSD_FlgNotQueueMaintain ∨ pAd.entry.PsMode ≠ .PWR_SAVE then pAd
  else
    let FlgUapsdPkt : Bool := ∃ IdAc, pAd.entry.UAPSDQueue IdAc ≠ []
    let FlgEospPkt : Bool := pAd.entry.pUAPSDEOSPFrame ≠ none
    if FlgUapsdPkt ∨ FlgEospPkt then
      let UAPSDQIdleCount := (pAd.entry.UAPSDQIdleCount + 1) % 2 ^ 16
      let pAd := { pAd with entry.UAPSDQIdleCount := UAPSDQIdleCount }
      if UAPSDQIdleCount > cfg.MsduLifeTime then uapsdTimeout pAd else pAd
    else { pAd with entry.UAPSDQIdleCount := 0 }

inductive FrameKind where
  | qosNull
  | action
  | other
  deriving DecidableEq

/-- What the header at `pDstMac` says: the kind of the frame, and whether it is to the station. -/
structure HEADER_802_11 where
  kind : FrameKind
  toEntry : Bool

/-- The frames whose sending is told from the descriptors of the hardware. -/
def UAPSD_QoSNullTxMgmtTxDoneHandle (pPacket : Option NDIS_PACKET)
    (pDstMac : Option HEADER_802_11) (RxDone : Bool) : RTMP_ADAPTER :=
  match pPacket, pDstMac with
  | some p, some pHeader =>
    if p.UAPSD_Flag = false then pAd
    else
      let SP : Bool := pHeader.toEntry ∧ pAd.entry.bAPSDFlagSpRoughUse ∧
        pAd.entry.bAPSDFlagSPStart
      match pHeader.kind with
      | .qosNull =>
        if SP then
          endPeriod
            { releaseEosp pAd with
              entry := { (releaseEosp pAd).entry with UAPSDTxNum := 0 } } RxDone
        else pAd
      | .action =>
        if SP then
          if pAd.entry.UAPSDTxNum > 0 then countSent pAd else endPeriod pAd RxDone
        else pAd
      | .other => pAd
  | _, _ => pAd

def UAPSD_SP_PacketCheck (pPacket : Option NDIS_PACKET) (pDstMac : Option HEADER_802_11)
    (RxDone : Bool) : RTMP_ADAPTER :=
  match pPacket, pDstMac with
  | some p, some pHeader =>
    if p.UAPSD_Flag = false then pAd
    else if pHeader.kind = .qosNull ∨ pHeader.kind = .action then
      UAPSD_QoSNullTxMgmtTxDoneHandle pAd pPacket pDstMac RxDone
    else if pHeader.toEntry ∧ pAd.entry.bAPSDFlagSpRoughUse then
      if pAd.entry.UAPSDTxNum > 0 then countSent pAd
      else if pAd.entry.bAPSDFlagSPStart then endPeriod pAd RxDone
      else pAd
    else pAd
  | _, _ => pAd

/-- Frames whose sending is told from the statistics of the hardware. A period that is suspended
is closed later. -/
def UAPSD_SP_AUE_Handle (TimeNow : Nat) : RTMP_ADAPTER :=
  match pAd.entry.PsMode with
  | .PWR_ACTIVE =>
    { pAd with entry.bAPSDFlagSPStart := false, entry.bAPSDFlagEOSPOK := false }
  | .PWR_MMPS => pAd
  | .PWR_SAVE =>
    if pAd.entry.bAPSDFlagSpRoughUse then pAd
    else
      let bAPSDFlagLegacySent := pAd.entry.bAPSDFlagSPStart && pAd.entry.bAPSDFlagLegacySent
      let pAd :=
        { pAd with
          entry.bAPSDFlagLegacySent := bAPSDFlagLegacySent
          entry.UAPSDTimeStampLast := TimeNow }
      if pAd.entry.UAPSDTxNum > 0 then countSent pAd
      else if pAd.bAPSDFlagSPSuspend then { pAd with entry.bAPSDFlagEOSPOK := true }
      else if pAd.entry.bAPSDFlagSPStart then
        { pAd with entry.bAPSDFlagSPStart := false, entry.bAPSDFlagEOSPOK := false }
      else pAd

def UAPSD_SP_CloseInRVDone (bAPSDCapable fAnyStationInPsm : Bool) : RTMP_ADAPTER :=
  if bAPSDCapable = false ∨ fAnyStationInPsm = false then pAd
  else if pAd.entry.bAPSDFlagSPStart ∧ pAd.entry.bAPSDFlagEOSPOK then
    { pAd with
      entry.bAPSDFlagSPStart := false
      entry.bAPSDFlagEOSPOK := false
      entry.bAPSDFlagLegacySent := false }
  else pAd

/-- What has been taken for a period: the last packet with its queue, which is not sent yet, and
how many there are. -/
structure Taken where
  TxSwQueue : QID_AC → List NDIS_PACKET
  last : Option (QID_AC × NDIS_PACKET)
  TxPktNum : Nat
  FlgMgmtFrame : Bool

def Taken.sendLast (t : Taken) : QID_AC → List NDIS_PACKET :=
  match t.last with
  | some (QueId, p) => InsertTailQueueAc t.TxSwQueue QueId p
  | none => t.TxSwQueue

def Taken.take (t : Taken) (QueId : QID_AC) (p : NDIS_PACKET) : Taken where
  TxSwQueue := t.sendLast
  last := some (QueId, { p with MOREDATA := true, UAPSD_Flag := true, UAPSD_QUE_ID := QueId })
  TxPktNum := t.TxPktNum + 1
  FlgMgmtFrame := t.FlgMgmtFrame || p.MGMT_PKT

/-- Packets are taken from the queue of an access category until the period is full. -/
def takeAc (SpMaxLen : Nat) (QueId : QID_AC) : List NDIS_PACKET → Taken → List NDIS_PACKET × Taken
  | [], t => ([], t)
  | p :: ps, t =>
    if SpMaxLen ≠ 0 ∧ t.TxPktNum ≥ SpMaxLen then (p :: ps, t)
    else takeAc SpMaxLen QueId ps (t.take QueId p)

/-- The first value says that no packet has been left for want of room. -/
def takeAcs (SpMaxLen : Nat) (bAPSDDeliverEnabledPerAC : QID_AC → Bool) :
    List QID_AC → (QID_AC → List NDIS_PACKET) → Taken →
      Bool × (QID_AC → List NDIS_PACKET) × Taken
  | [], UAPSDQueue, t => (true, UAPSDQueue, t)
  | AcQueId :: acs, UAPSDQueue, t =>
    if bAPSDDeliverEnabledPerAC AcQueId = false then
      takeAcs SpMaxLen bAPSDDeliverEnabledPerAC acs UAPSDQueue t
    else
      let taken := takeAc SpMaxLen AcQueId (UAPSDQueue AcQueId) t
      let UAPSDQueue := update UAPSDQueue AcQueId taken.1
      if taken.1 ≠ [] then (false, UAPSDQueue, taken.2)
      else takeAcs SpMaxLen bAPSDDeliverEnabledPerAC acs UAPSDQueue taken.2

def AcPriority : List QID_AC := [QID_AC_VO, QID_AC_VI, QID_AC_BE, QID_AC_BK]

def SpLenMap (MaxSPLength : Nat) : Nat := [0, 2, 4, 6].getD MaxSPLength 0

def MapUserPriorityToAccessCategory (UP : Nat) : QID_AC :=
  [QID_AC_BE, QID_AC_BK, QID_AC_BK, QID_AC_BE, QID_AC_VI, QID_AC_VI, QID_AC_VO, QID_AC_VO].getD UP
    QID_AC_BE

/-- No new period is started while one is underway, unless nothing has been heard of it for too
long. -/
def closeStale (TimeNow : Nat) : Option RTMP_ADAPTER :=
  if pAd.entry.bAPSDFlagSPStart then
    if (TimeNow + 2 ^ 32 - pAd.entry.UAPSDTimeStampLast) % 2 ^ 32 ≥ cfg.UAPSD_EPT_SP_INT then
      some (UAPSD_SP_Close pAd)
    else none
  else some pAd

/-- The lowest rates are not in the statistics. -/
def prepare (TimeNow : Nat) (Mode : MODE) (MCS : Nat) : RTMP_ADAPTER :=
  let e := pAd.entry
  { pAd with
    entry :=
      { e with
        MaxSPLength := if e.MaxSPLength ≥ 4 then 0 else e.MaxSPLength
        UAPSDTimeStampLast := TimeNow
        bAPSDFlagSpRoughUse := (Mode = .MODE_CCK ∨ Mode = .MODE_OFDM) ∧ MCS = 0 ∧ e.bAPSDAllAC } }

def startPeriod (UpOfFrame : Nat) : RTMP_ADAPTER :=
  let e := pAd.entry
  let (FlgQueEmpty, UAPSDQueue, t) :=
    takeAcs (SpLenMap e.MaxSPLength) e.bAPSDDeliverEnabledPerAC AcPriority e.UAPSDQueue
      ⟨pAd.TxSwQueue, none, 0, false⟩
  let rough := e.bAPSDFlagSpRoughUse || t.FlgMgmtFrame
  -- a packet that was sent to the station before is counted as one of the period
  let legacy := if rough = false ∧ e.bAPSDFlagLegacySent then 1 else 0
  let entry :=
    { e with
      UAPSDQueue
      bAPSDFlagSpRoughUse := rough
      bAPSDFlagSPStart := true
      bAPSDFlagEOSPOK := false
      UAPSDQIdleCount := 0 }
  let TIM :=
    if e.bAPSDAllAC ∧ FlgQueEmpty ∧ 0 < e.Aid ∧ e.Aid < MAX_LEN_OF_MAC_TABLE then false
    else pAd.TIM
  match t.last with
  | none =>
    { pAd with
      entry := { entry with pUAPSDEOSPFrame := none, UAPSDTxNum := legacy }
      TxSwQueue := t.TxSwQueue
      QosNull := pAd.QosNull ++ [UpOfFrame]
      TIM }
  | some (QueId, pQuedPkt) =>
    let pQuedPkt :=
      { pQuedPkt with MOREDATA := pQuedPkt.MOREDATA && !FlgQueEmpty, EOSP := true }
    if t.TxPktNum ≤ 1 then
      { pAd with
        entry := { entry with pUAPSDEOSPFrame := none, UAPSDTxNum := legacy }
        TxSwQueue := InsertTailQueueAc t.TxSwQueue QueId pQuedPkt
        TIM }
    else
      { pAd with
        entry :=
          { entry with
            pUAPSDEOSPFrame := some pQuedPkt
            UAPSDTxNum := (t.TxPktNum - 1 + legacy) % 2 ^ 16 }
        TxSwQueue := t.TxSwQueue
        TIM }

def triggers (UpOfFrame : Nat) : Bool :=
  pAd.entry.bAPSDCapablePerAC
    (MapUserPriorityToAccessCategory (if UpOfFrame ≥ 8 then 1 else UpOfFrame))

def UAPSD_TriggerFrameHandle (TimeNow TimeStart : Nat) (Mode : MODE) (MCS UpOfFrame : Nat) :
    RTMP_ADAPTER :=
  match closeStale cfg pAd TimeNow with
  | none => pAd
  | some pAd =>
    let pAd := prepare pAd TimeStart Mode MCS
    if triggers pAd UpOfFrame then
      startPeriod pAd (if UpOfFrame ≥ 8 then 1 else UpOfFrame)
    else pAd

inductive Event where
  | enqueue (pPacket : NDIS_PACKET) (IdAc : QID_AC)
  | trigger (TimeNow TimeStart : Nat) (Mode : MODE) (MCS UpOfFrame : Nat)
  | packetCheck (pPacket : Option NDIS_PACKET) (pDstMac : Option HEADER_802_11) (RxDone : Bool)
  | qosNullMgmtDone (pPacket : Option NDIS_PACKET) (pDstMac : Option HEADER_802_11)
    (RxDone : Bool)
  | aue (TimeNow : Nat)
  | closeInRVDone (bAPSDCapable fAnyStationInPsm : Bool)
  | close
  | deliver
  | maintenance (gUAPSD_FlgNotQueueMaintain : Bool)
  | suspend (bAPSDFlagSPSuspend : Bool)

def step (pAd : RTMP_ADAPTER) : Event → RTMP_ADAPTER
  | .enqueue pPacket IdAc => UAPSD_PacketEnqueue pAd pPacket IdAc
  | .trigger TimeNow TimeStart Mode MCS UpOfFrame =>
    UAPSD_TriggerFrameHandle cfg pAd TimeNow TimeStart Mode MCS UpOfFrame
  | .packetCheck pPacket pDstMac RxDone => UAPSD_SP_PacketCheck pAd pPacket pDstMac RxDone
  | .qosNullMgmtDone pPacket pDstMac RxDone =>
    UAPSD_QoSNullTxMgmtTxDoneHandle pAd pPacket pDstMac RxDone
  | .aue TimeNow => UAPSD_SP_AUE_Handle pAd TimeNow
  | .closeInRVDone bAPSDCapable fAnyStationInPsm =>
    UAPSD_SP_CloseInRVDone pAd bAPSDCapable fAnyStationInPsm
  | .close => UAPSD_SP_Close pAd
  | .deliver => UAPSD_AllPacketDeliver pAd
  | .maintenance gUAPSD_FlgNotQueueMaintain =>
    UAPSD_QueueMaintenance cfg pAd gUAPSD_FlgNotQueueMaintain
  | .suspend bAPSDFlagSPSuspend => { pAd with bAPSDFlagSPSuspend }

end Ralink.Uapsd
