import Mathlib.Tactic
import Ralink.Lib.Links

/-! Entries of three tables, for IP addresses, PPPoE hosts and PPPoE sessions, in hash chains
through one memory. Where a loop does not end or a `NULL` or freed pointer is followed, there is
`none`. -/
namespace Ralink.Mat
open Function

abbrev Mac := Vector UInt8 6

/-- The octets of an IP address, in network order. -/
abbrev Ip := Vector UInt8 4

abbrev Ptr := BitVec 32

def MAT_MAX_HASH_ENTRY_SUPPORT : Nat := 64

def BROADCAST_ADDR : Mac := Vector.replicate 6 255

structure IPMacMappingEntry where
  ipAddr : Ip
  macAddr : Mac
  deriving DecidableEq

structure UidMacMappingEntry where
  isServer : Bool
  uIDAddByUs : Bool
  uIDStr : List UInt8
  macAddr : Mac
  deriving DecidableEq

structure SesMacMappingEntry where
  sessionID : BitVec 16
  outMacAddr : Mac
  inMacAddr : Mac
  deriving DecidableEq

inductive Data where
  | ip (e : IPMacMappingEntry)
  | uid (e : UidMacMappingEntry)
  | ses (e : SesMacMappingEntry)
  deriving DecidableEq

structure Node where
  data : Data
  lastTime : BitVec 32
  pNext : Option Ptr
  deriving DecidableEq

inductive Table where
  | ip
  | uid
  | ses
  deriving DecidableEq

instance : Fintype Table where
  elems := {.ip, .uid, .ses}
  complete t := by cases t <;> decide

abbrev Slot := Table × Fin MAT_MAX_HASH_ENTRY_SUPPORT

def hashIndex (hash : Nat) : Fin MAT_MAX_HASH_ENTRY_SUPPORT :=
  ⟨hash % MAT_MAX_HASH_ENTRY_SUPPORT, Nat.mod_lt hash (by decide)⟩

def xorBytes (bytes : List UInt8) : Nat := (bytes.foldl (· ^^^ ·) 0).toNat

def Data.home : Data → Slot
  | .ip e => (.ip, hashIndex (xorBytes e.ipAddr.toList))
  | .uid e => (.uid, hashIndex (xorBytes e.uIDStr))
  | .ses e => (.ses, hashIndex e.sessionID.toNat)

/-- `MAT_STRUCT` with its tables; `bcast` is the entry of the IP table behind the chains. -/
structure MatStruct where
  valid : Table → Bool
  hash : Slot → Option Ptr
  bcast : Option Ptr
  curMcastAddr : Mac
  mem : Ptr → Option Node
  nodeCount : BitVec 32

def RTMP_TIME_AFTER (a b : BitVec 32) : Bool := (b - a).msb

section Functions

variable (m : MatStruct)

def MatStruct.write (p : Ptr) (e : Node) : MatStruct := { m with mem := update m.mem p (some e) }

def MatStruct.setHash (i : Slot) (p : Option Ptr) : MatStruct :=
  { m with hash := update m.hash i p }

def MATDBEntryFree (p : Ptr) : MatStruct := { m with mem := update m.mem p none }

/-- The memory that the kernel has for an entry is at `addr`; it has none when that is `NULL`
or in use. -/
def MATDBEntryAlloc (addr : Ptr) : Option Ptr :=
  if addr = 0 ∨ (m.mem addr).isSome then none else some addr

def MatStruct.drop (p : Ptr) : MatStruct :=
  { MATDBEntryFree m p with nodeCount := m.nodeCount - 1 }

/-- What an update searches for in which chain, how it changes the entry that it finds, and
the entry that it stores when it finds none. -/
structure Change where
  slot : Slot
  ageout : BitVec 32
  same : Data → Bool
  touch : Data → Data
  fresh : Data

def maxTurns : Nat := 2 ^ 32 + 1

/-- The loop of an update, which ages entries out on its way. The clock gives `now n` when it
is read for the `n`th time. -/
def updateLoop (c : Change) (now : Nat → BitVec 32) :
    Nat → Nat → MatStruct → Option Ptr → Option Ptr → Option (MatStruct × Option Ptr × Nat)
  | 0, _, _, _, _ => none
  | _ + 1, n, m, _, none => some (m, none, n)
  | turns + 1, n, m, pPrev, some pEntry => do
    let e ← m.mem pEntry
    if c.same e.data then
      some (m.write pEntry { e with data := c.touch e.data, lastTime := now n }, some pEntry, n)
    else if RTMP_TIME_AFTER (now n) (e.lastTime + c.ageout) then
      if m.hash c.slot = some pEntry then
        let m := (m.setHash c.slot e.pNext).drop pEntry
        match e.pNext with
        | none => updateLoop c now turns (n + 1) m none none
        | some prev => do
          -- the walk goes on behind the new head
          let head ← m.mem prev
          updateLoop c now turns (n + 1) m (some prev) head.pNext
      else do
        let prev ← pPrev
        let before ← m.mem prev
        let m := (m.write prev { before with pNext := e.pNext }).drop pEntry
        let before ← m.mem prev
        updateLoop c now turns (n + 1) m (some prev) before.pNext
    else updateLoop c now turns (n + 1) m (some pEntry) e.pNext

/-- An update gives the entry that it has found or stored. -/
def tableUpdate (c : Change) (now : Nat → BitVec 32) (addr : Ptr) :
    Option (MatStruct × Option Ptr) :=
  if m.valid c.slot.1 then do
    let (m, found, n) ← updateLoop c now maxTurns 0 m (m.hash c.slot) (m.hash c.slot)
    match found with
    | some p => some (m, some p)
    | none =>
      match MATDBEntryAlloc m addr with
      | none => some (m, none)
      | some p =>
        some ({ (m.write p ⟨c.fresh, now n, m.hash c.slot⟩).setHash c.slot (some p) with
          nodeCount := m.nodeCount + 1 }, some p)
  else some (m, none)

def lookUpLoop (same : Data → Bool) : Nat → Option Ptr → Option (Option Ptr)
  | 0, _ => none
  | _ + 1, none => some none
  | turns + 1, some p => do
    let e ← m.mem p
    if same e.data then some (some p) else lookUpLoop same turns e.pNext

/-- The tables as they are made: no entries, but for the one that has the broadcast address. -/
def MATEngineInit (addr : Ptr) : Option MatStruct :=
  let zero : MatStruct := ⟨fun _ => false, fun _ => none, none, .replicate 6 0, fun _ => none, 0⟩
  match MATDBEntryAlloc zero addr with
  | none => none
  | some p =>
    some { zero.write p ⟨.ip ⟨.replicate 4 0, BROADCAST_ADDR⟩, 0, none⟩ with
      bcast := some p, valid := fun _ => true }

/-- A lookup refreshes the entry that it finds. -/
def tableLookUp (i : Slot) (same : Data → Bool) (now : BitVec 32) :
    Option (MatStruct × Option Data) := do
  match ← lookUpLoop m same maxTurns (m.hash i) with
  | none => some (m, none)
  | some p =>
    let e ← m.mem p
    some (m.write p { e with lastTime := now }, some e.data)

variable (HZ : BitVec 32)

def MAT_TB_ENTRY_AGEOUT_TIME : BitVec 32 := 5 * 60 * HZ

def ipChange (pMacAddr : Mac) (ipAddr : Ip) : Change where
  slot := (Data.ip ⟨ipAddr, pMacAddr⟩).home
  ageout := MAT_TB_ENTRY_AGEOUT_TIME HZ
  same
    | .ip e => e.ipAddr = ipAddr
    | _ => false
  touch
    | .ip e => .ip { e with macAddr := pMacAddr }
    | d => d
  fresh := .ip ⟨ipAddr, pMacAddr⟩

def IPMacTableUpdate (pMacAddr : Mac) (ipAddr : Ip) (now : Nat → BitVec 32) (addr : Ptr) :
    Option (MatStruct × Bool) :=
  (tableUpdate m (ipChange HZ pMacAddr ipAddr) now addr).map fun r => (r.1, r.2.isSome)

def IS_MULTICAST_IP (ipAddr : Ip) : Bool := ipAddr[0] &&& 0xf0 = 0xe0

/-- The case `ETH_P_IP`. -/
def ConvertMulticastIP2MAC (ipAddr : Ip) : Mac :=
  #v[0x01, 0x00, 0x5e, ipAddr[1] &&& 0x7f, ipAddr[2], ipAddr[3]]

def Data.isIp (ipAddr : Ip) : Data → Bool
  | .ip e => e.ipAddr = ipAddr
  | _ => false

def Data.mac : Data → Mac
  | .ip e => e.macAddr
  | .uid e => e.macAddr
  | .ses e => e.inMacAddr

/-- The address, or none for `NULL`. -/
def IPMacTableLookUp (ipAddr : Ip) (now : BitVec 32) : Option (MatStruct × Option Mac) :=
  if m.valid .ip then
    if IS_MULTICAST_IP ipAddr then
      let mac := ConvertMulticastIP2MAC ipAddr
      some ({ m with curMcastAddr := mac }, some mac)
    else do
      let (m, found) ← tableLookUp m (.ip, hashIndex (xorBytes ipAddr.toList))
        (Data.isIp ipAddr) now
      match found with
      | some d => some (m, some d.mac)
      | none => do
        let e ← m.mem (← m.bcast)
        some (m, some e.data.mac)
  else some (m, none)

def PPPOE_DIS_UID_LEN : Nat := 6

/-- The bytes that identify a host; the callers cut longer ones off. -/
abbrev Uid := { uid : List UInt8 // uid.length ≤ PPPOE_DIS_UID_LEN }

def Uid.ofTag (tag : List UInt8) : Uid := ⟨tag.take PPPOE_DIS_UID_LEN, List.length_take_le _ _⟩

def Uid.ofMac (mac : Mac) : Uid := ⟨mac.toList, Nat.le_of_eq mac.length_toList⟩

/-- What identifies a host, and whether the engine has made it up: the tag, or a MAC address
when there is no tag or an empty one. -/
def uidOf (pInMac pOutMac : Mac) (pTagInfo : Option (List UInt8)) (isServer : Bool) : Uid × Bool :=
  match pTagInfo with
  | some (b :: tag) => (Uid.ofTag (b :: tag), false)
  | _ => (Uid.ofMac (if isServer then pOutMac else pInMac), true)

/-- The string as `uIDStr` holds it. -/
def padUid (uid : Uid) : List UInt8 :=
  uid.1 ++ List.replicate (PPPOE_DIS_UID_LEN - uid.1.length) 0

def uidChange (uid : Uid) (addByUs isServer : Bool) (pInMac : Mac) : Change where
  slot := (.uid, hashIndex (xorBytes uid.1))
  ageout := MAT_TB_ENTRY_AGEOUT_TIME HZ
  same
    | .uid e => e.uIDStr.take uid.1.length = uid.1 ∧ e.macAddr = pInMac
    | _ => false
  touch
    | .uid e => .uid { e with isServer := isServer, uIDAddByUs := addByUs }
    | d => d
  fresh := .uid ⟨isServer, addByUs, padUid uid, pInMac⟩

def UidMacTableUpdate (pInMac pOutMac : Mac) (pTagInfo : Option (List UInt8)) (isServer : Bool)
    (now : Nat → BitVec 32) (addr : Ptr) : Option (MatStruct × Option Ptr) :=
  let (uid, addByUs) := uidOf pInMac pOutMac pTagInfo isServer
  tableUpdate m (uidChange HZ uid addByUs isServer pInMac) now addr

def Data.isUid (tag : Uid) : Data → Bool
  | .uid e => e.uIDStr.take tag.1.length = tag.1
  | _ => false

def UidMacTableLookUp (tag : Uid) (now : BitVec 32) : Option (MatStruct × Option Data) :=
  if m.valid .uid then
    tableLookUp m (.uid, hashIndex (xorBytes tag.1)) (Data.isUid tag) now
  else some (m, none)

def PPPoE_SES_ENTRY_AGEOUT_TIME : BitVec 32 := 3000

def sesChange (inMacAddr : Mac) (sesID : BitVec 16) (outMacAddr : Mac) : Change where
  slot := (.ses, hashIndex sesID.toNat)
  ageout := PPPoE_SES_ENTRY_AGEOUT_TIME
  same
    | .ses e => e.sessionID = sesID ∧ e.inMacAddr = inMacAddr ∧ e.outMacAddr = outMacAddr
    | _ => false
  touch d := d
  fresh := .ses ⟨sesID, outMacAddr, inMacAddr⟩

def SesMacTableUpdate (inMacAddr : Mac) (sesID : BitVec 16) (outMacAddr : Mac)
    (now : Nat → BitVec 32) (addr : Ptr) : Option (MatStruct × Bool) :=
  (tableUpdate m (sesChange inMacAddr sesID outMacAddr) now addr).map fun r => (r.1, r.2.isSome)

def Data.isSes (outMac : Mac) (sesID : BitVec 16) : Data → Bool
  | .ses e => e.sessionID = sesID ∧ e.outMacAddr = outMac
  | _ => false

def getInMacByOutMacFromSesMacTb (outMac : Mac) (sesID : BitVec 16) (now : BitVec 32) :
    Option (MatStruct × Option Mac) :=
  if m.valid .ses then
    (tableLookUp m (.ses, hashIndex sesID.toNat) (Data.isSes outMac sesID) now).map
      fun r => (r.1, r.2.map Data.mac)
  else some (m, none)

end Functions

end Ralink.Mat
