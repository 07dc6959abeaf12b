import Ralink.Lib.Ring

/-! Received frames, requests of other parts of the driver and messages of the WPS daemon are put
into one ring of elements, from which the handler takes them. An element stays where it is while it
is handled. -/
namespace Ralink.Mlme

/-- Drivers for access points alone have a shorter queue. -/
inductive Build where
  | ap
  | sta
  deriving DecidableEq

def MAX_LEN_OF_MLME_QUEUE : Build → Nat
  | .ap => 20
  | .sta => 40

def MGMT_DMA_BUFFER_SIZE : Nat := 1600
def RESERVED_WCID : BitVec 8 := 0xff

abbrev Bytes := Nat → BitVec 8

structure MLME_QUEUE_ELEM where
  Msg : Bytes
  Machine : BitVec 32
  MsgType : BitVec 32
  MsgLen : Nat
  TimeStampLow : BitVec 32
  TimeStampHigh : BitVec 32
  Rssi0 : BitVec 8
  Rssi1 : BitVec 8
  Rssi2 : BitVec 8
  Signal : BitVec 8
  Channel : BitVec 8
  Wcid : BitVec 8
  Occupied : Bool
  OpMode : BitVec 8
  Priv : BitVec 32

structure MLME_QUEUE where
  Num : Nat
  Head : Nat
  Tail : Nat
  Entry : Nat → MLME_QUEUE_ELEM

/-- What the senders read of the adapter, and how it classifies a frame: the machine and
the type of its message. -/
structure RTMP_ADAPTER where
  HALT_IN_PROGRESS : Bool
  NIC_NOT_EXIST : Bool
  ATE_ON : Bool
  Channel : BitVec 8
  MsgTypeSubst : Option Bytes → BitVec 8 → Option (BitVec 32 × BitVec 32)

/-- The elements keep what was in their memory beside the three fields. -/
def MlmeQueueInit (b : Build) (Queue : MLME_QUEUE) : MLME_QUEUE where
  Num := 0
  Head := 0
  Tail := 0
  Entry i :=
    if i < MAX_LEN_OF_MLME_QUEUE b then
      { Queue.Entry i with Occupied := false, MsgLen := 0, Msg := fun _ => 0 }
    else Queue.Entry i

def MlmeQueueEmpty (Queue : MLME_QUEUE) : Bool := Queue.Num == 0

def MlmeQueueFull (b : Build) (Queue : MLME_QUEUE) (SendId : BitVec 8) : Bool :=
  if SendId = 0 then
    MAX_LEN_OF_MLME_QUEUE b / 2 ≤ Queue.Num || (Queue.Entry Queue.Tail).Occupied
  else Queue.Num == MAX_LEN_OF_MLME_QUEUE b

/-- `NdisMoveMemory` into the element, unless there is no message. -/
def moveMsg (old : Bytes) (Msg : Option Bytes) (MsgLen : Nat) : Bytes :=
  match Msg with
  | none => old
  | some msg => fun i => if i < MsgLen then msg i else old i

/-- The section of a sender that holds the lock: the slot at the tail is filled. -/
def insert (b : Build) (fill : MLME_QUEUE_ELEM → MLME_QUEUE_ELEM) (Queue : MLME_QUEUE) :
    MLME_QUEUE where
  Num := Queue.Num + 1
  Head := Queue.Head
  Tail := Ring.next (MAX_LEN_OF_MLME_QUEUE b) Queue.Tail
  Entry := Function.update Queue.Entry Queue.Tail (fill (Queue.Entry Queue.Tail))

/-- A sender: what it checks first, whom it says it is when it asks whether the queue is
full, and how it fills its slot, if it does not give up. -/
structure Sender where
  checks : Bool
  SendId : BitVec 8
  fill : Option (MLME_QUEUE_ELEM → MLME_QUEUE_ELEM)

/-- Up to and with the test whether the queue is full. -/
def Sender.admitted (b : Build) (s : Sender) (Queue : MLME_QUEUE) : Bool :=
  s.checks && !MlmeQueueFull b Queue s.SendId

def Sender.deliver (b : Build) (s : Sender) (Queue : MLME_QUEUE) : Bool × MLME_QUEUE :=
  match s.fill with
  | none => (false, Queue)
  | some fill => (true, insert b fill Queue)

def Sender.call (b : Build) (s : Sender) (Queue : MLME_QUEUE) : Bool × MLME_QUEUE :=
  if s.admitted b Queue then s.deliver b Queue else (false, Queue)

def MlmeEnqueue (pAd : RTMP_ADAPTER) (Machine MsgType : BitVec 32) (MsgLen : Nat)
    (Msg : Option Bytes) (Priv : BitVec 32) : Sender where
  checks := !(pAd.HALT_IN_PROGRESS || pAd.NIC_NOT_EXIST) && !(MGMT_DMA_BUFFER_SIZE < MsgLen)
  SendId := 1
  fill := some fun Entry =>
    { Entry with
      Wcid := RESERVED_WCID
      Occupied := true
      Machine := Machine
      MsgType := MsgType
      MsgLen := MsgLen
      Priv := Priv
      Msg := moveMsg Entry.Msg Msg MsgLen }

/-- Only here the machine and the type are found from the frame, between the test and the
insertion. -/
def MlmeEnqueueForRecv (pAd : RTMP_ADAPTER) (Wcid TimeStampHigh TimeStampLow : BitVec 32)
    (Rssi0 Rssi1 Rssi2 : BitVec 8) (MsgLen : Nat) (Msg : Option Bytes)
    (Signal OpMode : BitVec 8) : Sender where
  checks :=
    !pAd.ATE_ON && !(pAd.HALT_IN_PROGRESS || pAd.NIC_NOT_EXIST) &&
      !(MGMT_DMA_BUFFER_SIZE < MsgLen)
  SendId := 0
  fill := (pAd.MsgTypeSubst Msg OpMode).map fun (Machine, MsgType) Entry =>
    { Msg := moveMsg Entry.Msg Msg MsgLen
      Machine := Machine
      MsgType := MsgType
      MsgLen := MsgLen
      TimeStampLow := TimeStampLow
      TimeStampHigh := TimeStampHigh
      Rssi0 := Rssi0
      Rssi1 := Rssi1
      Rssi2 := Rssi2
      Signal := Signal
      Channel := pAd.Channel
      Wcid := Wcid.setWidth 8
      Occupied := true
      OpMode := OpMode
      Priv := 0 }

def MlmeEnqueueForWsc (pAd : RTMP_ADAPTER) (eventID senderID Machine MsgType : BitVec 32)
    (MsgLen : Nat) (Msg : Option Bytes) : Sender where
  checks := !pAd.HALT_IN_PROGRESS && !(MGMT_DMA_BUFFER_SIZE < MsgLen)
  SendId := 1
  fill := some fun Entry =>
    { Entry with
      Occupied := true
      Machine := Machine
      MsgType := MsgType
      MsgLen := MsgLen
      TimeStampLow := eventID
      TimeStampHigh := senderID
      Msg := moveMsg Entry.Msg Msg MsgLen }

def MlmeDequeue (b : Build) (Queue : MLME_QUEUE) : Nat × MLME_QUEUE :=
  (Queue.Head,
    { Queue with
      Num := Queue.Num - 1
      Head := Ring.next (MAX_LEN_OF_MLME_QUEUE b) Queue.Head })

/-- What the handler does with an element when its machine is done. -/
def freeElem (Elem : Nat) (Queue : MLME_QUEUE) : MLME_QUEUE :=
  { Queue with
    Entry := Function.update Queue.Entry Elem
      { Queue.Entry Elem with Occupied := false, MsgLen := 0 } }

end Ralink.Mlme
