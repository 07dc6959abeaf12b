import Ralink.Lib.Buckets
import Ralink.Lib.Slots

/-! Clients, WDS links and AP clients have an entry in one table. An entry is reached by its index,
which is also its association identifier, and from the hash of its address; the entries and the
clients of each BSS are counted beside. -/
namespace Ralink.Station
open Function

def MAX_LEN_OF_MAC_TABLE : Nat := 32
def HASH_TABLE_SIZE : Nat := 256
def HW_BEACON_MAX_NUM : Nat := 16
def MAIN_MBSSID : Nat := 0
def MIN_NET_DEVICE_FOR_WDS : Nat := 0x10
def MAX_WDS_ENTRY : Nat := 4
def MIN_NET_DEVICE_FOR_APCLI : Nat := 0x20
def MAX_APCLI_NUM : Nat := 1

instance : NeZero MAX_LEN_OF_MAC_TABLE := ⟨nofun⟩

abbrev Mac := Vector (BitVec 8) 6
abbrev Wcid := Fin MAX_LEN_OF_MAC_TABLE
abbrev HashIdx := BitVec 8

def MAC_ADDR_HASH (Addr : Mac) : BitVec 8 := Addr.toList.foldl (· ^^^ ·) 0

def MAC_ADDR_HASH_INDEX (Addr : Mac) : HashIdx :=
  MAC_ADDR_HASH Addr &&& BitVec.ofNat 8 (HASH_TABLE_SIZE - 1)

inductive EntryType where
  | NONE
  | CLIENT
  | WDS
  | APCLI
  deriving DecidableEq

inductive Sst where
  | SST_NOT_AUTH
  | SST_AUTH
  | SST_ASSOC
  deriving DecidableEq

structure MAC_TABLE_ENTRY where
  EntryType : EntryType
  Addr : Mac
  apidx : Nat
  Aid : Nat
  Sst : Sst

def zeroed : MAC_TABLE_ENTRY := ⟨.NONE, Vector.replicate 6 0, 0, 0, .SST_NOT_AUTH⟩

/-- The table, with the link of an entry in a map of its own, and the counters of the clients. -/
structure RTMP_ADAPTER where
  Hash : HashIdx → Option Wcid
  Content : Wcid → MAC_TABLE_ENTRY
  pNext : Wcid → Option Wcid
  Size : Nat
  StaCount : Nat → Nat
  EntryClientCount : Nat

/-- The number of BSSes is bounded when the profile is read. -/
structure Config where
  BssidNum : Nat
  MAX_MBSSID_NUM : Nat
  bssidNum : BssidNum ≤ MAX_MBSSID_NUM
  maxNum : MAX_MBSSID_NUM ≤ HW_BEACON_MAX_NUM

/-- The index of a BSS, of a WDS link or of an AP client. -/
structure Apidx (cfg : Config) where
  val : Nat
  valid : val < cfg.BssidNum ∨
    (MIN_NET_DEVICE_FOR_WDS ≤ val ∧ val < MIN_NET_DEVICE_FOR_WDS + MAX_WDS_ENTRY) ∨
    (MIN_NET_DEVICE_FOR_APCLI ≤ val ∧ val < MIN_NET_DEVICE_FOR_APCLI + MAX_APCLI_NUM)

/-- `none` when the loop does not end, otherwise the pointer that is returned. -/
def MacTableLookup (pAddr : Mac) (pAd : RTMP_ADAPTER) : Option (Option Wcid) :=
  Buckets.seek pAd.pNext
    (fun i => (pAd.Content i).EntryType = .NONE ∨ (pAd.Content i).Addr = pAddr)
    MAX_LEN_OF_MAC_TABLE (pAd.Hash (MAC_ADDR_HASH_INDEX pAddr))

/-- The first entry that is free, but for the one with index 0. -/
def vacancy (pAd : RTMP_ADAPTER) : Option Wcid :=
  ((List.finRange MAX_LEN_OF_MAC_TABLE).drop 1).find? fun i =>
    (pAd.Content i).EntryType = .NONE

def entryType (apidx : Nat) : EntryType :=
  if MIN_NET_DEVICE_FOR_APCLI ≤ apidx then .APCLI
  else if MIN_NET_DEVICE_FOR_WDS ≤ apidx then .WDS
  else .CLIENT

def entryApidx (apidx : Nat) : EntryType → Nat
  | .APCLI => apidx - MIN_NET_DEVICE_FOR_APCLI
  | .WDS => apidx - MIN_NET_DEVICE_FOR_WDS
  | _ => apidx

/-- The BSS has as many clients as it may have; 0 means that there is no limit. -/
def bssFull (cfg : Config) (MaxStaNum : Nat → Nat) (apidx : Nat) (pAd : RTMP_ADAPTER) : Bool :=
  apidx < cfg.BssidNum && apidx < cfg.MAX_MBSSID_NUM && apidx < HW_BEACON_MAX_NUM &&
    MaxStaNum apidx != 0 && MaxStaNum apidx ≤ pAd.StaCount apidx

/-- `MBSS_MR_APIDX_SANITY_CHECK`. -/
def sanityCheck (cfg : Config) (apidx : Nat) : Nat :=
  if cfg.MAX_MBSSID_NUM ≤ apidx ∨ HW_BEACON_MAX_NUM ≤ apidx then MAIN_MBSSID else apidx

def countClient (apidx : Nat) (pAd : RTMP_ADAPTER) : RTMP_ADAPTER :=
  { pAd with
    StaCount := update pAd.StaCount apidx ((pAd.StaCount apidx + 1) % 256)
    EntryClientCount := (pAd.EntryClientCount + 1) % 256 }

def uncountClient (apidx : Nat) (pAd : RTMP_ADAPTER) : RTMP_ADAPTER :=
  { pAd with
    StaCount := update pAd.StaCount apidx ((pAd.StaCount apidx + 255) % 256)
    EntryClientCount := (pAd.EntryClientCount + 255) % 256 }

/-- `NdisZeroMemory(pEntry, sizeof(MAC_TABLE_ENTRY))`. -/
def zeroEntry (i : Wcid) (pAd : RTMP_ADAPTER) : RTMP_ADAPTER :=
  { pAd with Content := update pAd.Content i zeroed, pNext := update pAd.pNext i none }

def newEntry (pAddr : Mac) (apidx : Nat) (i : Wcid) : MAC_TABLE_ENTRY where
  EntryType := entryType apidx
  Addr := pAddr
  apidx := entryApidx apidx (entryType apidx)
  Aid := i
  Sst := .SST_NOT_AUTH

/-- An entry is filled and put behind the last one with its hash. -/
def addEntry (pAddr : Mac) (apidx : Nat) (i : Wcid) (pAd : RTMP_ADAPTER) :
    Option RTMP_ADAPTER := do
  let (Hash, pNext) ← Buckets.pushBack pAd.pNext pAd.Hash MAX_LEN_OF_MAC_TABLE
    (MAC_ADDR_HASH_INDEX pAddr) i
  some
    { pAd with
      Hash, pNext
      Content := update pAd.Content i (newEntry pAddr apidx i)
      Size := (pAd.Size + 1) % 2 ^ 16 }

/-- `none` when a loop does not end, otherwise the entry that is returned. -/
def MacTableInsertEntry (cfg : Config) (MaxStaNum : Nat → Nat) (pAddr : Mac) (apidx : Nat)
    (pAd : RTMP_ADAPTER) : Option (Option Wcid × RTMP_ADAPTER) :=
  if MAX_LEN_OF_MAC_TABLE ≤ pAd.Size then some (none, pAd)
  else
    match vacancy pAd with
    | none => some (none, pAd)
    | some i =>
      let pAd := zeroEntry i pAd
      if entryType apidx = .CLIENT then
        if bssFull cfg MaxStaNum apidx pAd then some (none, pAd)
        else (addEntry pAddr apidx i (countClient (sanityCheck cfg apidx) pAd)).map (some i, ·)
      else (addEntry pAddr apidx i pAd).map (some i, ·)

/-- An entry is taken out of its chain and invalidated. -/
def dropEntry (wcid : Wcid) (pAddr : Mac) (pAd : RTMP_ADAPTER) : Option RTMP_ADAPTER := do
  let (Hash, pNext) ← Buckets.remove pAd.pNext pAd.Hash MAX_LEN_OF_MAC_TABLE
    (MAC_ADDR_HASH_INDEX pAddr) wcid
  some
    { pAd with
      Hash, pNext
      Content := update pAd.Content wcid { pAd.Content wcid with EntryType := .NONE }
      Size := (pAd.Size + (2 ^ 16 - 1)) % 2 ^ 16 }

def deleteAt (wcid : Wcid) (pAddr : Mac) (pAd : RTMP_ADAPTER) : Option RTMP_ADAPTER :=
  if (pAd.Content wcid).EntryType ≠ .NONE ∧ (pAd.Content wcid).Addr = pAddr then
    if (pAd.Content wcid).EntryType = .CLIENT then
      dropEntry wcid pAddr (uncountClient (pAd.Content wcid).apidx pAd)
    else dropEntry wcid pAddr pAd
  else some pAd

def MacTableDeleteEntry (wcid : Nat) (pAddr : Mac) (pAd : RTMP_ADAPTER) :
    Option (Bool × RTMP_ADAPTER) :=
  if h : wcid < MAX_LEN_OF_MAC_TABLE then (deleteAt ⟨wcid, h⟩ pAddr pAd).map (true, ·)
  else some (false, pAd)

/-- The loop over the entries, and whether it gets to its end: an associated client is told
before it is deleted, `alloc` says for which entries there is memory for that frame. -/
def resetLoop (alloc : Wcid → Bool) : List Wcid → RTMP_ADAPTER → Option (Bool × RTMP_ADAPTER)
  | [], pAd => some (true, pAd)
  | i :: is, pAd =>
    if (pAd.Content i).EntryType = .CLIENT ∧ (pAd.Content i).Sst = .SST_ASSOC ∧
        alloc i = false then
      some (false, pAd)
    else do
      let (_, pAd) ← MacTableDeleteEntry i (pAd.Content i).Addr pAd
      resetLoop alloc is pAd

/-- The counters are zeroed once more behind the loop. -/
def zeroCounters (cfg : Config) (pAd : RTMP_ADAPTER) : RTMP_ADAPTER :=
  { pAd with
    Size := 0
    StaCount := fun apidx => if apidx < cfg.BssidNum then 0 else pAd.StaCount apidx }

def MacTableReset (cfg : Config) (alloc : Wcid → Bool) (pAd : RTMP_ADAPTER) :
    Option RTMP_ADAPTER := do
  let (done, pAd) ← resetLoop alloc ((List.finRange MAX_LEN_OF_MAC_TABLE).drop 1) pAd
  some (if done then zeroCounters cfg pAd else pAd)

structure Linked (Hash : HashIdx → Option Wcid) (pNext : Wcid → Option Wcid)
    (Content : Wcid → MAC_TABLE_ENTRY) (own : HashIdx → List Wcid) : Prop where
  holds : Buckets.Holds Hash pNext own
  mem : ∀ k i, i ∈ own k ↔
    (Content i).EntryType ≠ .NONE ∧ MAC_ADDR_HASH_INDEX (Content i).Addr = k
  zero : (Content 0).EntryType = .NONE
  aid : ∀ i, (Content i).EntryType ≠ .NONE → (Content i).Aid = i

variable {Hash : HashIdx → Option Wcid} {pNext : Wcid → Option Wcid}
  {Content : Wcid → MAC_TABLE_ENTRY} {own : HashIdx → List Wcid} {i : Wcid}
  {e : MAC_TABLE_ENTRY}

section

variable (h : Linked Hash pNext Content own)
include h

theorem Linked.length_lt (k : HashIdx) : (own k).length < MAX_LEN_OF_MAC_TABLE := by
  have hzero : (0 : Wcid) ∉ own k := fun hmem => ((h.mem k 0).mp hmem).1 h.zero
  have hnodup : ((0 : Wcid) :: own k).Nodup :=
    List.nodup_cons.mpr ⟨hzero, (h.holds.chain k).nodup⟩
  have hlen := hnodup.length_le_card
  rwa [List.length_cons, Fintype.card_fin] at hlen

theorem Linked.notMem (hi : (Content i).EntryType = .NONE) (k : HashIdx) : i ∉ own k :=
  fun hmem => ((h.mem k i).mp hmem).1 hi

theorem Linked.zeroEntry (hi : (Content i).EntryType = .NONE) :
    Linked Hash (update pNext i none) (update Content i zeroed) own := by
  have hcontent : ∀ j, (update Content i zeroed j).EntryType ≠ .NONE →
      update Content i zeroed j = Content j := by
    intro j hj
    rcases eq_or_ne j i with rfl | hne
    · rw [update_self] at hj
      exact absurd rfl hj
    · exact update_of_ne hne _ _
  refine ⟨h.holds.write_other (h.notMem hi) none, fun k j => ?_, ?_, fun j hj => ?_⟩
  · rw [h.mem]
    rcases eq_or_ne j i with rfl | hne
    · rw [update_self]
      exact iff_of_false (fun hj => hj.1 hi) fun hj => hj.1 rfl
    · rw [update_of_ne hne]
  · rcases eq_or_ne (0 : Wcid) i with rfl | hne
    · rw [update_self]
      rfl
    · rw [update_of_ne hne]
      exact h.zero
  · have heq := hcontent j hj
    rw [heq] at hj ⊢
    exact h.aid j hj

theorem Linked.add (hi : (Content i).EntryType = .NONE) (hzero : i ≠ 0) (hnext : pNext i = none)
    (htype : e.EntryType ≠ .NONE) (haid : e.Aid = i) :
    ∃ Hash' pNext', Buckets.pushBack pNext Hash MAX_LEN_OF_MAC_TABLE
        (MAC_ADDR_HASH_INDEX e.Addr) i = some (Hash', pNext') ∧
      Linked Hash' pNext' (update Content i e)
        (update own (MAC_ADDR_HASH_INDEX e.Addr) (own (MAC_ADDR_HASH_INDEX e.Addr) ++ [i])) := by
  obtain ⟨Hash', pNext', heq, hholds⟩ :=
    h.holds.pushBack (k := MAC_ADDR_HASH_INDEX e.Addr) (h.notMem hi) hnext (h.length_lt _).le
  refine ⟨Hash', pNext', heq, hholds, fun k j => ?_, ?_, fun j hj => ?_⟩
  · rw [Buckets.mem_pushed, h.mem]
    rcases eq_or_ne j i with rfl | hne
    · rw [update_self]
      refine ⟨fun hj => ⟨htype, ?_⟩, fun hj => .inr ⟨rfl, hj.2.symm⟩⟩
      exact hj.elim (fun hj => absurd hi hj.1) (·.2.symm)
    · rw [update_of_ne hne]
      exact or_iff_left fun hj => hne hj.1
  · rw [update_of_ne hzero.symm]
    exact h.zero
  · rcases eq_or_ne j i with rfl | hne
    · rw [update_self]
      exact haid
    · rw [update_of_ne hne] at hj ⊢
      exact h.aid j hj

theorem Linked.drop (hi : (Content i).EntryType ≠ .NONE) :
    ∃ Hash' pNext' own', Buckets.remove pNext Hash MAX_LEN_OF_MAC_TABLE
        (MAC_ADDR_HASH_INDEX (Content i).Addr) i = some (Hash', pNext') ∧
      Linked Hash' pNext' (update Content i { Content i with EntryType := .NONE }) own' := by
  have hin := (h.mem (MAC_ADDR_HASH_INDEX (Content i).Addr) i).mpr ⟨hi, rfl⟩
  obtain ⟨l₁, l₂, hsplit⟩ := List.append_of_mem hin
  obtain ⟨Hash', pNext', heq, hholds⟩ := h.holds.remove hsplit (h.length_lt _).le
  refine ⟨Hash', pNext', _, heq, hholds, fun k j => ?_, ?_, fun j hj => ?_⟩
  · rw [h.holds.mem_removed hsplit, h.mem]
    rcases eq_or_ne j i with rfl | hne
    · rw [update_self]
      exact iff_of_false (fun hj => hj.2 rfl) fun hj => hj.1 rfl
    · rw [update_of_ne hne]
      exact and_iff_left hne
  · rcases eq_or_ne (0 : Wcid) i with rfl | hne
    · exact absurd h.zero hi
    · rw [update_of_ne hne]
      exact h.zero
  · rcases eq_or_ne j i with rfl | hne
    · rw [update_self] at hj
      exact absurd rfl hj
    · rw [update_of_ne hne] at hj ⊢
      exact h.aid j hj

end

end Ralink.Station
