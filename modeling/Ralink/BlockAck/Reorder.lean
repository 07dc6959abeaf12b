import Mathlib.Tactic

/-! The reordering list of one session, the pool of free blocks, and the loops that hand buffered
frames up. `ReCtx` is what these functions reach through `pAd` and `pBAEntry`, with a record of what
was done with packets and with `LastIndSeq`. -/
namespace Ralink.BlockAck

def MAXSEQ : Nat := 0xFFF
def RESET_RCV_SEQ : Nat := 0xFFFF

def seqStepone (seq1 seq2 limit : Nat) : Bool := seq1 == ((seq2 + 1) &&& limit)

/-- `SEQ_SMALLER`. The difference is a 32-bit `int`. -/
def seqSmaller (seq1 seq2 limit : Nat) : Bool :=
  ((2 ^ 32 + seq1 - seq2) &&& ((limit + 1) >>> 1)) != 0

/-- `struct reordering_mpdu`; `blk` is the address of the block inside the pool. -/
structure ReorderingMpdu where
  blk : Nat
  pPacket : Nat := 0
  sequence : Nat := 0
  bAMSDU : Bool := false
  opMode : Nat := 0
  deriving DecidableEq

/-- `struct reordering_list`: the chain behind `next`, and the count kept beside it. -/
structure ReorderingList where
  next : List ReorderingMpdu := []
  qlen : Int := 0
  deriving DecidableEq

inductive RecBlockAckStatus where
  | none
  | used
  | handleRes
  | accept
  deriving DecidableEq

structure BaRecEntry where
  wcid : Nat := 0
  tid : Nat := 0
  baWinSize : Nat := 0
  lastIndSeq : Nat := 0
  timeOutValue : Nat := 0
  lastIndSeqAtTimer : BitVec 32 := 0
  nDropPacket : Nat := 0
  rcvSeq : Nat := 0
  recBaStatus : RecBlockAckStatus := .none
  list : ReorderingList := {}
  deriving DecidableEq

/-- The function through which a packet leaves for the upper layer. -/
inductive Upcall where
  | indicateLegacy
  | indicateAmsdu
  | indicateEapol
  | announce8023
  | reorderAmsduAnnounce (opMode : Nat)
  deriving DecidableEq

/-- What an operation does that can be seen outside the entry: a packet is handed up,
a packet is released, `LastIndSeq` is assigned. -/
inductive Out where
  | indicated (via : Upcall) (sequence packet : Nat)
  | released (packet : Nat)
  | lastIndSeq (value : Nat)
  deriving DecidableEq

structure ReCtx where
  freelist : ReorderingList
  entry : BaRecEntry
  out : List Out := []
  deriving DecidableEq

def ReCtx.emit (c : ReCtx) (o : Out) : ReCtx := { c with out := c.out ++ [o] }

def ReCtx.setList (c : ReCtx) (l : ReorderingList) : ReCtx :=
  { c with entry := { c.entry with list := l } }

def ReCtx.setLastIndSeq (c : ReCtx) (v : Nat) : ReCtx :=
  { c with entry := { c.entry with lastIndSeq := v }, out := c.out ++ [.lastIndSeq v] }

def ReCtx.setLastIndSeqAtTimer (c : ReCtx) (now : BitVec 32) : ReCtx :=
  { c with entry := { c.entry with lastIndSeqAtTimer := now } }

def announceReorderingPacket (c : ReCtx) (mpdu : ReorderingMpdu) : ReCtx :=
  c.emit (.indicated (if mpdu.bAMSDU then .reorderAmsduAnnounce mpdu.opMode else .announce8023)
    mpdu.sequence mpdu.pPacket)

/-- The scan of `ba_reordering_mpdu_insertsorted`; `none` gives up a duplicate. -/
def insertScan (mpdu : ReorderingMpdu) : List ReorderingMpdu → Option (List ReorderingMpdu)
  | [] => some [mpdu]
  | scan :: rest =>
    if seqSmaller scan.sequence mpdu.sequence MAXSEQ then
      (insertScan mpdu rest).map (scan :: ·)
    else if scan.sequence == mpdu.sequence then none
    else some (mpdu :: scan :: rest)

def baReorderingMpduInsertsorted (list : ReorderingList) (mpdu : ReorderingMpdu) :
    ReorderingList × Bool :=
  match insertScan mpdu list.next with
  | none => (list, false)
  | some next => ({ next, qlen := list.qlen + 1 }, true)

def baEnqueue (list : ReorderingList) (mpduBlk : ReorderingMpdu) : ReorderingList :=
  { next := mpduBlk :: list.next, qlen := list.qlen + 1 }

def baDequeue (list : ReorderingList) : ReorderingList × Option ReorderingMpdu :=
  if list.qlen ≠ 0 then
    match list.next with
    | [] => ({ list with qlen := list.qlen - 1 }, none)
    | mpduBlk :: rest => ({ next := rest, qlen := list.qlen - 1 }, some mpduBlk)
  else (list, none)

def baReorderingMpduProbe (list : ReorderingList) : Option ReorderingMpdu := list.next.head?

/-- The free list of `ba_reordering_resource_init`: `num` blocks, the last one in front. -/
def baReorderingResourceInit (num : Nat) : ReorderingList :=
  (List.range num).foldl (fun freelist i => baEnqueue freelist { blk := i }) {}

/-- `ba_mpdu_blk_alloc`: the block is zeroed, only its address stays. -/
def baMpduBlkAlloc (c : ReCtx) : ReCtx × Option ReorderingMpdu :=
  let (freelist, mpduBlk) := baDequeue c.freelist
  ({ c with freelist }, mpduBlk.map fun m => { blk := m.blk })

def baMpduBlkFree (c : ReCtx) (mpduBlk : ReorderingMpdu) : ReCtx :=
  { c with freelist := baEnqueue c.freelist mpduBlk }

/-- Dequeue the head, pass it up, give the block back; `none` when there is none. -/
def passHeadUp (c : ReCtx) : Option (ReCtx × ReorderingMpdu) :=
  match baDequeue c.entry.list with
  | (_, none) => none
  | (list, some mpduBlk) =>
    some (announceReorderingPacket (c.setList list) mpduBlk, mpduBlk)

/-- The loop of `ba_indicate_reordering_mpdus_in_order`. Every turn takes one frame off
the list, so its length bounds the turns. -/
def inOrderLoop : Nat → ReCtx → Nat → Nat → ReCtx × Nat
  | 0, c, _, lastIndSeq => (c, lastIndSeq)
  | turns + 1, c, startSeq, lastIndSeq =>
    match baReorderingMpduProbe c.entry.list with
    | none => (c, lastIndSeq)
    | some mpduBlk =>
      if !seqStepone mpduBlk.sequence startSeq MAXSEQ then (c, lastIndSeq)
      else
        match passHeadUp c with
        | none => (c, lastIndSeq)
        | some (c', mpduBlk) =>
          inOrderLoop turns (baMpduBlkFree c' mpduBlk) mpduBlk.sequence mpduBlk.sequence

def baIndicateReorderingMpdusInOrder (c : ReCtx) (startSeq : Nat) : ReCtx × Nat :=
  inOrderLoop c.entry.list.next.length c startSeq RESET_RCV_SEQ

/-- Hand up what follows `startSeq` in order and record how far that went, as the
callers of `ba_indicate_reordering_mpdus_in_order` do. -/
def drainInOrder (c : ReCtx) (startSeq : Nat) : ReCtx :=
  let (c, lastIndSeq) := baIndicateReorderingMpdusInOrder c startSeq
  if lastIndSeq ≠ RESET_RCV_SEQ then c.setLastIndSeq lastIndSeq else c

def leSeqLoop (sequence : Nat) : Nat → ReCtx → ReCtx
  | 0, c => c
  | turns + 1, c =>
    match baReorderingMpduProbe c.entry.list with
    | none => c
    | some mpduBlk =>
      if mpduBlk.sequence == sequence || seqSmaller mpduBlk.sequence sequence MAXSEQ then
        match passHeadUp c with
        | none => c
        | some (c', mpduBlk) => leSeqLoop sequence turns (baMpduBlkFree c' mpduBlk)
      else c

def baIndicateReorderingMpdusLeSeq (c : ReCtx) (sequence : Nat) : ReCtx :=
  leSeqLoop sequence c.entry.list.next.length c

def refreshLoop : Nat → ReCtx → ReCtx
  | 0, c => c
  | turns + 1, c =>
    match passHeadUp c with
    | none => c
    | some (c', mpduBlk) =>
      refreshLoop turns (baMpduBlkFree (c'.setLastIndSeq mpduBlk.sequence) mpduBlk)

def baRefreshReorderingMpdus (c : ReCtx) : ReCtx :=
  (refreshLoop c.entry.list.next.length c).setLastIndSeq RESET_RCV_SEQ

/-- `REORDERING_PACKET_TIMEOUT` and its maximum, in ticks of `OS_HZ` a second. -/
def reorderingPacketTimeout (osHz : Nat) : Nat := 100 * osHz / 1000
def maxReorderingPacketTimeout (osHz : Nat) : Nat := 3000 * osHz / 1000

/-- `RTMP_TIME_AFTER`: the difference of two tick counts taken as a signed number. -/
def rtmpTimeAfter (a b : BitVec 32) : Bool := (b - a).msb

def baFlushReorderingTimeoutMpdus (osHz : Nat) (c : ReCtx) (now : BitVec 32) : ReCtx :=
  if c.entry.list.qlen ≤ 0 then c
  else if rtmpTimeAfter now
      (c.entry.lastIndSeqAtTimer + BitVec.ofNat 32 (maxReorderingPacketTimeout osHz / 6)) &&
      decide (c.entry.list.qlen > 1) then
    (baRefreshReorderingMpdus c).setLastIndSeqAtTimer now
  else if rtmpTimeAfter now
      (c.entry.lastIndSeqAtTimer + BitVec.ofNat 32 (reorderingPacketTimeout osHz)) &&
      decide (c.entry.list.qlen > 0) then
    -- force LastIndSeq to shift to LastIndSeq+1
    let sequence := (c.entry.lastIndSeq + 1) &&& MAXSEQ
    let c := baIndicateReorderingMpdusLeSeq c sequence
    drainInOrder ((c.setLastIndSeqAtTimer now).setLastIndSeq sequence) sequence
  else c

end Ralink.BlockAck

/-! The part of `Indicate_AMPDU_Packet` and `CntlEnqueueForRecv` that runs once `pBAEntry` is known.
-/
namespace Ralink.BlockAck

def MAX_RX_PKT_LEN : Nat := 1520
def MAX_LEN_OF_MAC_TABLE : Nat := 32
def NUM_OF_TID : Nat := 8

/-- The parts of `RX_BLK` and its `RXWI` that the reordering code reads. -/
structure RxBlk where
  sequence : BitVec 12
  pRxPacket : Nat
  fRxAmsdu : Bool := false
  fRxEap : Bool := false
  dataSize : Nat := 0
  opMode : Nat := 0
  wirelessCliID : Nat := 0
  tid : Nat := 0
  deriving DecidableEq

def indicateLegacyOrAmsdu (c : ReCtx) (rx : RxBlk) : ReCtx :=
  c.emit (.indicated
    (if rx.fRxAmsdu then .indicateAmsdu else if rx.fRxEap then .indicateEapol else .indicateLegacy)
    rx.sequence.toNat rx.pRxPacket)

def releaseNdisPacket (c : ReCtx) (rx : RxBlk) : ReCtx := c.emit (.released rx.pRxPacket)

/-- The reordering block as `ba_enqueue_reordering_packet` fills it. -/
def fillMpdu (mpduBlk : ReorderingMpdu) (rx : RxBlk) : ReorderingMpdu :=
  { mpduBlk with
    sequence := rx.sequence.toNat
    opMode := rx.opMode
    bAMSDU := rx.fRxAmsdu
    pPacket := rx.pRxPacket }

/-- The branch for a frame without a block: everything up to it goes up, and so does it. -/
def passUpUnordered (c : ReCtx) (rx : RxBlk) : ReCtx :=
  let c := baIndicateReorderingMpdusLeSeq c rx.sequence.toNat
  indicateLegacyOrAmsdu (c.setLastIndSeq rx.sequence.toNat) rx

def baEnqueueReorderingPacket (c : ReCtx) (rx : RxBlk) : ReCtx :=
  match baMpduBlkAlloc c with
  | (c, some mpduBlk) =>
    if !rx.fRxEap then
      let mpduBlk := fillMpdu mpduBlk rx
      match baReorderingMpduInsertsorted c.entry.list mpduBlk with
      | (list, true) => c.setList list
      | (_, false) => baMpduBlkFree (releaseNdisPacket c rx) mpduBlk
    else passUpUnordered c rx
  | (c, none) => passUpUnordered c rx

/-- `WinStartSeq` of the beyond-window branch, computed in a signed `LONG`. -/
def winStartSeq (sequence baWinSize : Nat) : Nat :=
  let tmpSeq : Int := (sequence : Int) - baWinSize - 1
  let tmpSeq := if tmpSeq < 0 then (MAXSEQ + 1 : Int) + tmpSeq else tmpSeq
  (tmpSeq + 1).toNat &&& MAXSEQ

def dropPacket (c : ReCtx) (rx : RxBlk) : ReCtx :=
  releaseNdisPacket
    { c with entry := { c.entry with nDropPacket := c.entry.nDropPacket + 1 } } rx

/-- Case V: the frame lies beyond the window, which moves up to end at it. -/
def receiveBeyondWindow (c : ReCtx) (rx : RxBlk) (now : BitVec 32) : ReCtx :=
  let winStart := winStartSeq rx.sequence.toNat c.entry.baWinSize
  let c := baIndicateReorderingMpdusLeSeq c winStart
  let c := (c.setLastIndSeq winStart).setLastIndSeqAtTimer now
  let c := baEnqueueReorderingPacket c rx
  drainInOrder c c.entry.lastIndSeq

def receiveInOrder (c : ReCtx) (rx : RxBlk) (now : BitVec 32) : ReCtx :=
  let c := indicateLegacyOrAmsdu (c.setLastIndSeq rx.sequence.toNat) rx
  (drainInOrder c c.entry.lastIndSeq).setLastIndSeqAtTimer now

/-- The decision of `Indicate_AMPDU_Packet`, after its timeout check. -/
def reorderAmpdu (c : ReCtx) (rx : RxBlk) (now : BitVec 32) : ReCtx :=
  let sequence := rx.sequence.toNat
  let last := c.entry.lastIndSeq
  if last == RESET_RCV_SEQ then
    indicateLegacyOrAmsdu ((c.setLastIndSeq sequence).setLastIndSeqAtTimer now) rx
  else if seqStepone sequence last MAXSEQ then receiveInOrder c rx now
  else if sequence == last then dropPacket c rx
  else if seqSmaller sequence last MAXSEQ then dropPacket c rx
  else if seqSmaller sequence ((last + c.entry.baWinSize + 1) &&& MAXSEQ) MAXSEQ then
    baEnqueueReorderingPacket c rx
  else receiveBeyondWindow c rx now

/-- `Indicate_AMPDU_Packet` between finding the entry and deciding about the frame. -/
def settleAmpdu (osHz : Nat) (c : ReCtx) (rx : RxBlk) (now : BitVec 32) : ReCtx :=
  let c := { c with entry := { c.entry with rcvSeq := rx.sequence.toNat } }
  (baFlushReorderingTimeoutMpdus osHz c now).setLastIndSeqAtTimer now

def indicateAmpduOnEntry (osHz : Nat) (c : ReCtx) (rx : RxBlk) (now : BitVec 32) : ReCtx :=
  reorderAmpdu (settleAmpdu osHz c rx now) rx now

/-- The tail of `CntlEnqueueForRecv`: a BlockAckReq moves the window up to `startSeq`. -/
def barOnEntry (c : ReCtx) (startSeq : BitVec 12) : ReCtx :=
  if seqSmaller c.entry.lastIndSeq startSeq.toNat MAXSEQ then
    (baIndicateReorderingMpdusLeSeq c startSeq.toNat).setLastIndSeq
      (if startSeq.toNat = 0 then MAXSEQ else startSeq.toNat - 1)
  else c

end Ralink.BlockAck
