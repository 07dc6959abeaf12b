import Ralink.Igmp.LinkList

/-! The table of `igmp_snoop.c`: groups in an array with hash chains through it, and a pool of cells
for the lists of members. Where a loop does not end or a `NULL` pointer is followed, there is
`none`. -/
namespace Ralink.Igmp
open Function

abbrev Mac := Vector UInt8 6

def zeroMac : Mac := Vector.replicate 6 0

def FREE_MEMBER_POOL_SIZE : Nat := 64

abbrev Member := Fin FREE_MEMBER_POOL_SIZE

/-- `MAX_LEN_OF_MULTICAST_FILTER_TABLE`, which goes by `MEMORY_OPTIMIZATION`. -/
def maxLen (memoryOptimization : Bool) : Nat := if memoryOptimization then 16 else 64

/-- `MAC_ADDR_HASH(Addr) & (MAX_LEN_OF_MULTICAST_FILTER_HASH_TABLE - 1)`. -/
def hashIndex (n : Nat) (a : Mac) : Nat :=
  (a.toList.foldl (· ^^^ ·) 0).toNat &&& (n * 2 - 1)

inductive FilterType where
  | static
  | dynamic
  deriving DecidableEq

/-- `MULTICAST_FILTER_TABLE_ENTRY` without its link; a device is its address, 0 for `NULL`. -/
structure Entry where
  Valid : Bool
  type : FilterType
  lastTime : BitVec 32
  net_dev : Nat
  Addr : Mac
  MemberList : ListHeader Member
  deriving DecidableEq

def Entry.zero : Entry := ⟨false, .static, 0, 0, zeroMac, initList⟩

def Entry.isFor (e : Entry) (grp : Mac) (dev : Nat) : Bool := e.net_dev = dev ∧ e.Addr = grp

/-- The table; the links of the entries and the two fields of the cells of the pool are maps
of their own. -/
structure Table (n : Nat) where
  Size : Nat
  Hash : Nat → Option (Fin n)
  Content : Fin n → Entry
  pNext : Fin n → Option (Fin n)
  memberNext : Member → Option Member
  memberAddr : Member → Mac
  freeEntryList : ListHeader Member

variable {n : Nat}

/-- As many turns as a loop over the members of a list takes at most. -/
def memberTurns : Nat := FREE_MEMBER_POOL_SIZE + 1

namespace Table

variable (t : Table n)

def freeGrpMemberEntry (pEntry : Member) : Table n :=
  let r := insertTailList t.memberNext t.freeEntryList pEntry
  { t with memberNext := r.1, freeEntryList := r.2 }

/-- The list of an entry, and the memory, after a function of `link_list.h`. -/
def setMembers (i : Fin n) (r : (Member → Option Member) × ListHeader Member) : Table n :=
  { t with memberNext := r.1, Content := update t.Content i { t.Content i with MemberList := r.2 } }

def insertIgmpMember (i : Fin n) (addr : Mac) : Table n :=
  match removeHeadList t.memberNext t.freeEntryList with
  | (none, _) => t
  | (some pMember, free) =>
    let t := { t with
      freeEntryList := free
      memberNext := update t.memberNext pMember none
      memberAddr := update t.memberAddr pMember addr }
    t.setMembers i (insertTailList t.memberNext (t.Content i).MemberList pMember)

def deleteIgmpMemberLoop (i : Fin n) (addr : Mac) : Nat → Option Member → Option (Table n)
  | 0, _ => none
  | _ + 1, none => some t
  | turns + 1, some cur =>
    if addr = t.memberAddr cur then
      (delEntryList t.memberNext (t.Content i).MemberList memberTurns cur).map fun r =>
        (t.setMembers i r).freeGrpMemberEntry cur
    else deleteIgmpMemberLoop i addr turns (t.memberNext cur)

def deleteIgmpMember (i : Fin n) (addr : Mac) : Option (Table n) :=
  t.deleteIgmpMemberLoop i addr memberTurns (t.Content i).MemberList.pHead

def deleteIgmpMemberListLoop (i : Fin n) : Nat → Table n → Option Member → Option (Table n)
  | 0, _, _ => none
  | _ + 1, t, none => some t
  | turns + 1, t, some cur =>
    (delEntryList t.memberNext (t.Content i).MemberList memberTurns cur).bind fun r =>
      -- the link is read before the cell goes to the free list
      let t := t.setMembers i r
      deleteIgmpMemberListLoop i turns (t.freeGrpMemberEntry cur) (t.memberNext cur)

def deleteIgmpMemberList (i : Fin n) : Option (Table n) :=
  match (t.Content i).MemberList.pHead with
  | none => some t
  | some cur =>
    (deleteIgmpMemberListLoop i memberTurns t (some cur)).map fun t =>
      t.setMembers i (t.memberNext, initList)

def igmpMemberCnt (i : Fin n) : Nat := getListSize (t.Content i).MemberList

def hasMember (addr : Mac) : Nat → Option Member → Option Bool
  | 0, _ => none
  | _ + 1, none => some false
  | turns + 1, some cur =>
    if addr = t.memberAddr cur then some true else hasMember addr turns (t.memberNext cur)

def zeroEntry (i : Fin n) : Table n :=
  { t with Content := update t.Content i .zero, pNext := update t.pNext i none }

def decSize : Table n := { t with Size := (t.Size + 255) % 256 }

/-- The entry taken out of its chain, which is that of `hashIdx`; `prev` is the one before. -/
def unlink (hashIdx : Nat) (prev i : Fin n) : Table n :=
  if t.Hash hashIdx = some i then { t with Hash := update t.Hash hashIdx (t.pNext i) }
  else { t with pNext := update t.pNext prev (t.pNext i) }

/-- What deleting and looking up do to an entry that goes. -/
def removeEntry (hashIdx : Nat) (prev i : Fin n) : Option (Table n) :=
  ((t.unlink hashIdx prev i).deleteIgmpMemberList i).map fun t => (t.zeroEntry i).decSize

def timeAfter (a b : BitVec 32) : Bool := (b - a).msb

/-- `IGMPMAC_TB_ENTRY_AGEOUT_TIME`. -/
def ageoutTime (OS_HZ : BitVec 32) : BitVec 32 := 120 * OS_HZ

/-- `now` is the time that is read while the loop is at an entry. -/
def lookupLoop (OS_HZ : BitVec 32) (addr : Mac) (dev : Nat) (now : Fin n → BitVec 32)
    (hashIdx : Nat) :
    Nat → Table n → Fin n → Option (Fin n) → Option (Option (Fin n) × Table n)
  | 0, _, _, _ => none
  | _ + 1, t, _, none => some (none, t)
  | turns + 1, t, prev, some i =>
    let e := t.Content i
    if ¬ e.Valid then some (some i, t)
    else if e.isFor addr dev then
      some (some i, { t with Content := update t.Content i { e with lastTime := now i } })
    else if e.type = .dynamic ∧ timeAfter (now i) (e.lastTime + ageoutTime OS_HZ) then
      (t.removeEntry hashIdx prev i).bind fun t' =>
        if t.Hash hashIdx = some i then
          lookupLoop OS_HZ addr dev now hashIdx turns t' ((t'.Hash hashIdx).getD prev)
            (t'.Hash hashIdx)
        else lookupLoop OS_HZ addr dev now hashIdx turns t' prev (t'.pNext prev)
    else lookupLoop OS_HZ addr dev now hashIdx turns t i (t.pNext i)

def multicastFilterTableLookup (OS_HZ : BitVec 32) (addr : Mac) (dev : Nat)
    (now : Fin n → BitVec 32) : Option (Option (Fin n) × Table n) :=
  match t.Hash (hashIndex n addr) with
  | none => some (none, t)
  | some head => lookupLoop OS_HZ addr dev now (hashIndex n addr) (n + 1) t head (some head)

/-- The loop that takes an entry that has aged out of the middle of its chain. -/
def ageLoop (i : Fin n) : Nat → Fin n → Option (Table n)
  | 0, _ => none
  | turns + 1, cur =>
    match t.pNext cur with
    | none => some t
    | some next =>
      if (t.Content next).isFor (t.Content i).Addr (t.Content i).net_dev then
        some { t with pNext := update t.pNext cur (t.pNext next) }.decSize
      else ageLoop i turns next

def ageEntry (i : Fin n) : Option (Table n) :=
  let hashIdx := hashIndex n (t.Content i).Addr
  (match t.Hash hashIdx with
    | none => none
    | some head =>
      if (t.Content head).isFor (t.Content i).Addr (t.Content i).net_dev then
        some { t with Hash := update t.Hash hashIdx (t.pNext head) }.decSize
      else t.ageLoop i (n + 1) head).bind fun t =>
  { t with Content := update t.Content i { t.Content i with Valid := false } }.deleteIgmpMemberList i

/-- What the allocation loop writes into the vacancy it has found. -/
def fillEntry (i : Fin n) (grp : Mac) (member : Option Mac) (dev : Nat) (type : FilterType)
    (now : BitVec 32) : Table n :=
  let t := t.zeroEntry i
  let t := { t with Content := update t.Content i ⟨true, type, now, dev, grp, initList⟩ }
  let t := member.elim t (t.insertIgmpMember i)
  { t with Size := (t.Size + 1) % 256 }

/-- The times that an insertion reads: while it looks the group up, and twice at each entry of
the allocation loop. -/
structure Clock (n : Nat) where
  lookup : Fin n → BitVec 32
  age : Fin n → BitVec 32
  fill : Fin n → BitVec 32

/-- The allocation loop, from the entries `is` on; `pEntry` is the one it was at last. -/
def allocLoop (OS_HZ : BitVec 32) (grp : Mac) (member : Option Mac) (dev : Nat)
    (type : FilterType) (clock : Clock n) :
    List (Fin n) → Option (Fin n) → Table n → Option (Option (Fin n) × Table n)
  | [], pEntry, t => some (pEntry, t)
  | i :: is, _, t =>
    let e := t.Content i
    (if e.Valid ∧ e.type = .dynamic ∧ clock.age i - e.lastTime > ageoutTime OS_HZ then t.ageEntry i
      else some t).bind fun t =>
    if ¬ (t.Content i).Valid then some (some i, t.fillEntry i grp member dev type (clock.fill i))
    else allocLoop OS_HZ grp member dev type clock is (some i) t

/-- The last entry of the chain that `cur` is in. -/
def lastLoop : Nat → Fin n → Option (Fin n)
  | 0, _ => none
  | turns + 1, cur =>
    match t.pNext cur with
    | none => some cur
    | some next => lastLoop turns next

def linkEntry (hashIdx : Nat) (i : Fin n) : Option (Table n) :=
  match t.Hash hashIdx with
  | none => some { t with Hash := update t.Hash hashIdx (some i) }
  | some head =>
    (t.lastLoop (n + 1) head).map fun last => { t with pNext := update t.pNext last (some i) }

def multicastFilterTableInsertEntry (OS_HZ : BitVec 32) (grp : Mac) (member : Option Mac)
    (dev : Nat) (type : FilterType) (clock : Clock n) : Option (Bool × Table n) :=
  if t.Size ≥ n then some (false, t)
  else
    (t.multicastFilterTableLookup OS_HZ grp dev clock.lookup).bind fun (pEntry, t) =>
    match pEntry, member with
    | some _, none => some (false, t)
    | some i, some addr =>
      (t.hasMember addr memberTurns (t.Content i).MemberList.pHead).map fun found =>
        if found then (false, t) else (true, t.insertIgmpMember i addr)
    | none, member =>
      (allocLoop OS_HZ grp member dev type clock (List.finRange n) none t).bind fun (pEntry, t) =>
        match pEntry with
        | none => some (true, t)
        | some i => (t.linkEntry (hashIndex n grp) i).map fun t => (true, t)

/-- The entry that the search stops at, and the one before it. -/
def findLoop (grp : Mac) (dev : Nat) :
    Nat → Fin n → Option (Fin n) → Option (Fin n × Option (Fin n))
  | 0, _, _ => none
  | _ + 1, prev, none => some (prev, none)
  | turns + 1, prev, some i =>
    if ¬ (t.Content i).Valid ∨ (t.Content i).isFor grp dev then some (prev, some i)
    else findLoop grp dev turns i (t.pNext i)

/-- It returns `TRUE` in every case. -/
def multicastFilterTableDeleteEntry (grp : Mac) (member : Option Mac) (dev : Nat) :
    Option (Table n) :=
  match t.Hash (hashIndex n grp) with
  | none => some t
  | some head =>
    (t.findLoop grp dev (n + 1) head (some head)).bind fun (prev, pEntry) =>
    match pEntry with
    | none => some t
    | some i =>
      (member.elim (some t) (t.deleteIgmpMember i)).bind fun t =>
        if member.isSome ∧ t.igmpMemberCnt i > 0 then some t
        else t.removeEntry (hashIndex n grp) prev i

def igmpGroupDelMembersLoop (member : Option Mac) (dev : Nat) :
    List (Fin n) → Table n → Option (Table n)
  | [], t => some t
  | i :: is, t =>
    (if (t.Content i).Valid then
      (member.elim (some t) (t.deleteIgmpMember i)).bind fun t =>
        if (t.Content i).type = .dynamic ∧ t.igmpMemberCnt i = 0 then
          t.multicastFilterTableDeleteEntry (t.Content i).Addr member dev
        else some t
    else some t).bind (igmpGroupDelMembersLoop member dev is)

def igmpGroupDelMembers (member : Option Mac) (dev : Nat) : Option (Table n) :=
  igmpGroupDelMembersLoop member dev (List.finRange n) t

end Table

/-- `MulticastFilterTableInit`: all memory zero but for the list of free cells. -/
def multicastFilterTableInit (n : Nat) : Table n :=
  (List.finRange FREE_MEMBER_POOL_SIZE).foldl (fun t i => t.freeGrpMemberEntry i)
    { Size := 0
      Hash := fun _ => none
      Content := fun _ => .zero
      pNext := fun _ => none
      memberNext := fun _ => none
      memberAddr := fun _ => zeroMac
      freeEntryList := initList }

/-- The calls that use the table. -/
inductive Op (n : Nat) where
  | insert (grp : Mac) (member : Option Mac) (dev : Nat) (type : FilterType)
      (clock : Table.Clock n)
  | delete (grp : Mac) (member : Option Mac) (dev : Nat)
  | lookup (addr : Mac) (dev : Nat) (now : Fin n → BitVec 32)
  | delMembers (member : Option Mac) (dev : Nat)

def Table.step (OS_HZ : BitVec 32) (t : Table n) : Op n → Option (Table n)
  | .insert grp member dev type clock =>
    (t.multicastFilterTableInsertEntry OS_HZ grp member dev type clock).map Prod.snd
  | .delete grp member dev => t.multicastFilterTableDeleteEntry grp member dev
  | .lookup addr dev now => (t.multicastFilterTableLookup OS_HZ addr dev now).map Prod.snd
  | .delMembers member dev => t.igmpGroupDelMembers member dev

def Table.run (OS_HZ : BitVec 32) (t : Table n) (ops : List (Op n)) : Option (Table n) :=
  ops.foldlM (Table.step OS_HZ) t

end Ralink.Igmp
