import Ralink.Lib.Buckets
import Ralink.Lib.Slots

/-! Measurement and TPC requests of `spectrum.c` wait for their reports under a dialog token, in an
array with hash chains through it. The functions of the two tables are copies of each other; `none`
is a loop that does not end, or a `NULL` pointer that is followed. -/
namespace Ralink.Spectrum
open Function

structure REQ_ENTRY where
  lastTime : BitVec 32
  Valid : Bool
  DialogToken : UInt8
  deriving DecidableEq

def zeroed : REQ_ENTRY := ⟨0, false, 0⟩

/-- The table, with the link of an entry in a map of its own. -/
structure REQ_TAB (N : Nat) where
  Size : UInt8
  Hash : Fin N → Option (Fin N)
  Content : Fin N → REQ_ENTRY
  pNext : Fin N → Option (Fin N)

def RTMP_TIME_AFTER (a b : BitVec 32) : Bool := (b - a).msb

section Tables

variable {N : Nat} [NeZero N]

def DIALOGTOKEN_HASH_INDEX (DialogToken : UInt8) : Fin N := Fin.ofNat N (DialogToken.toNat &&& (N - 1))

/-- `alloc` says whether there is memory for the table; the driver does not start without. -/
def ReqTabInit (alloc : Bool) : Option (REQ_TAB N) :=
  if alloc then some ⟨0, fun _ => none, fun _ => zeroed, fun _ => none⟩ else none

def lookUp (pTab : REQ_TAB N) (DialogToken : UInt8) : Option (Option (Fin N)) :=
  Buckets.seek pTab.pNext (fun i => (pTab.Content i).DialogToken = DialogToken) (N + 1)
    (pTab.Hash (DIALOGTOKEN_HASH_INDEX DialogToken))

def ReqLookUp (pTab : Option (REQ_TAB N)) (DialogToken : UInt8) : Option (Option (Fin N)) :=
  match pTab with
  | none => some none
  | some pTab => lookUp pTab DialogToken

/-- The loop follows the head of the chain without looking whether there is one. -/
def unlink (pTab : REQ_TAB N) (HashIdx pEntry : Fin N) :
    Option ((Fin N → Option (Fin N)) × (Fin N → Option (Fin N))) := do
  let _ ← pTab.Hash HashIdx
  Buckets.remove pTab.pNext pTab.Hash N HashIdx pEntry

/-- An entry is taken out of the chain of its token and zeroed. -/
def dropEntry (pEntry : Fin N) (pTab : REQ_TAB N) : Option (REQ_TAB N) := do
  let (Hash, pNext) ← unlink pTab (DIALOGTOKEN_HASH_INDEX (pTab.Content pEntry).DialogToken) pEntry
  some
    { Hash
      pNext := update pNext pEntry none
      Content := update pTab.Content pEntry zeroed
      Size := pTab.Size - 1 }

def aged (AGE_OUT Now : BitVec 32) (pEntry : REQ_ENTRY) : Bool :=
  pEntry.Valid && RTMP_TIME_AFTER Now (pEntry.lastTime + AGE_OUT)

/-- The entry at which the loop over them breaks. -/
def vacancy (AGE_OUT Now : BitVec 32) (pTab : REQ_TAB N) : Option (Fin N) :=
  (List.finRange N).find? fun i => aged AGE_OUT Now (pTab.Content i) || !(pTab.Content i).Valid

/-- An entry is filled and put behind the last one with its hash. -/
def addEntry (DialogToken : UInt8) (Now : BitVec 32) (pEntry : Fin N) (pTab : REQ_TAB N) :
    Option (REQ_TAB N) := do
  let (Hash, pNext) ← Buckets.pushBack pTab.pNext pTab.Hash N (DIALOGTOKEN_HASH_INDEX DialogToken) pEntry
  some
    { Hash, pNext
      Content := update pTab.Content pEntry ⟨Now, true, DialogToken⟩
      Size := pTab.Size + 1 }

/-- One reading of the clock stands for those of a call. -/
def insertEntry (AGE_OUT : BitVec 32) (pTab : REQ_TAB N) (DialogToken : UInt8) (Now : BitVec 32) :
    Option (Option (Fin N) × REQ_TAB N) := do
  match ← lookUp pTab DialogToken with
  | some pEntry => some (some pEntry, pTab)
  | none =>
    match vacancy AGE_OUT Now pTab with
    | none => some (none, pTab)
    | some pEntry => do
      let pTab ← if aged AGE_OUT Now (pTab.Content pEntry) then dropEntry pEntry pTab else some pTab
      let pTab ← addEntry DialogToken Now pEntry pTab
      some (some pEntry, pTab)

def ReqInsert (AGE_OUT : BitVec 32) (pTab : Option (REQ_TAB N)) (DialogToken : UInt8)
    (Now : BitVec 32) : Option (Option (Fin N) × Option (REQ_TAB N)) :=
  match pTab with
  | none => some (none, none)
  | some pTab => (insertEntry AGE_OUT pTab DialogToken Now).map fun r => (r.1, some r.2)

def deleteEntry (pTab : REQ_TAB N) (DialogToken : UInt8) : Option (REQ_TAB N) :=
  if pTab.Size = 0 then some pTab
  else do
    match ← lookUp pTab DialogToken with
    | some pEntry => dropEntry pEntry pTab
    | none => some pTab

def ReqDelete (pTab : Option (REQ_TAB N)) (DialogToken : UInt8) : Option (Option (REQ_TAB N)) :=
  match pTab with
  | none => some none
  | some pTab => (deleteEntry pTab DialogToken).map some

end Tables

def MAX_MEASURE_REQ_TAB_SIZE : Nat := 32
def MQ_REQ_AGE_OUT : BitVec 32 := 500

abbrev MEASURE_REQ_TAB := REQ_TAB MAX_MEASURE_REQ_TAB_SIZE

instance : NeZero MAX_MEASURE_REQ_TAB_SIZE := ⟨nofun⟩

def MeasureReqTabInit : Bool → Option MEASURE_REQ_TAB := ReqTabInit

def MeasureReqLookUp : Option MEASURE_REQ_TAB → UInt8 → Option (Option (Fin MAX_MEASURE_REQ_TAB_SIZE)) :=
  ReqLookUp

def MeasureReqInsert : Option MEASURE_REQ_TAB → UInt8 → BitVec 32 →
    Option (Option (Fin MAX_MEASURE_REQ_TAB_SIZE) × Option MEASURE_REQ_TAB) :=
  ReqInsert MQ_REQ_AGE_OUT

def MeasureReqDelete : Option MEASURE_REQ_TAB → UInt8 → Option (Option MEASURE_REQ_TAB) := ReqDelete

def MAX_TPC_REQ_TAB_SIZE : Nat := 32
def TPC_REQ_AGE_OUT : BitVec 32 := 500

abbrev TPC_REQ_TAB := REQ_TAB MAX_TPC_REQ_TAB_SIZE

instance : NeZero MAX_TPC_REQ_TAB_SIZE := ⟨nofun⟩

def TpcReqTabInit : Bool → Option TPC_REQ_TAB := ReqTabInit

def TpcReqLookUp : Option TPC_REQ_TAB → UInt8 → Option (Option (Fin MAX_TPC_REQ_TAB_SIZE)) := ReqLookUp

def TpcReqInsert : Option TPC_REQ_TAB → UInt8 → BitVec 32 →
    Option (Option (Fin MAX_TPC_REQ_TAB_SIZE) × Option TPC_REQ_TAB) :=
  ReqInsert TPC_REQ_AGE_OUT

def TpcReqDelete : Option TPC_REQ_TAB → UInt8 → Option (Option TPC_REQ_TAB) := ReqDelete

end Ralink.Spectrum
