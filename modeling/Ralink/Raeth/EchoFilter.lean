import Mathlib.Logic.Function.Basic
import Mathlib.Data.List.Defs
import Ralink.Lib.Run
import Ralink.Lib.Slots

/-! The table of `mcast.c`. A multicast frame that is sent is noted, and when the switch gives it
back it is dropped. -/
namespace Ralink.Raeth
open Function

def MAX_MCAST_ENTRY : Nat := 16

def AGEING_TIME : BitVec 32 := 5

abbrev ETH_ALEN : Nat := 6

abbrev Mac := Vector UInt8 ETH_ALEN

structure McastEntry where
  src_mac : Mac
  dst_mac : Mac
  vlan_id : BitVec 16
  valid : Bool
  use_count : BitVec 32
  ageout : BitVec 32
  deriving DecidableEq

/-- The table and `mcast_entry_num`. -/
structure Mcast where
  tbl : Fin MAX_MCAST_ENTRY → McastEntry
  entryNum : Int

/-- The fields of a frame's header that are read, the 16-bit ones in host order. -/
structure VlanEthhdr where
  h_dest : Mac
  h_source : Mac
  h_vlan_proto : BitVec 16 := 0
  h_vlan_TCI : BitVec 16 := 0
  deriving DecidableEq

/-- Whether time `a` is after time `b`, by the sign of the difference. -/
def timeAfter (a b : BitVec 32) : Bool := (b - a).msb

def isMulticastPkt (mac : Mac) : Bool := mac[0] = 0x01 ∧ mac[1] = 0x00 ∧ mac[2] = 0x5E

variable (s : Mcast) (HZ jiffies : BitVec 32) (vlan_id : BitVec 16) (src_mac dst_mac : Mac)

def mcastEntryGet : Option (Fin MAX_MCAST_ENTRY) :=
  Fin.find? fun i =>
    (s.tbl i).vlan_id = vlan_id ∧ (s.tbl i).src_mac = src_mac ∧ (s.tbl i).dst_mac = dst_mac
      ∧ (s.tbl i).valid

/-- The first slot that is empty or has aged out is taken. -/
def addMcastEntry : Int × Mcast :=
  match Fin.find? fun i => ¬ (s.tbl i).valid ∨ timeAfter jiffies (s.tbl i).ageout with
  | some i =>
    (1, { tbl := update s.tbl i ⟨src_mac, dst_mac, vlan_id, true, 1, jiffies + AGEING_TIME * HZ⟩
          entryNum := if (s.tbl i).valid then s.entryNum else s.entryNum + 1 })
  | none => (0, s)

def mcastEntryIns : Int × Mcast :=
  match mcastEntryGet s vlan_id src_mac dst_mac with
  | some i =>
    let entry := s.tbl i
    let ageout := jiffies + AGEING_TIME * HZ
    let entry := { entry with use_count := entry.use_count + 1, ageout := ageout }
    (1, { s with tbl := update s.tbl i entry })
  | none => addMcastEntry s HZ jiffies vlan_id src_mac dst_mac

/-- Returns 0 when the entry is found and 1 when it is not. -/
def mcastEntryDel : Int × Mcast :=
  match mcastEntryGet s vlan_id src_mac dst_mac with
  | some i =>
    let entry := { s.tbl i with use_count := (s.tbl i).use_count - 1 }
    if entry.use_count = 0 then
      (0, ⟨update s.tbl i { entry with valid := false }, s.entryNum - 1⟩)
    else (0, { s with tbl := update s.tbl i entry })
  | none => (1, s)

/-- Returns 0 to drop the frame and 1 to go on with it. -/
def mcastRx (eth : VlanEthhdr) : Int × Mcast :=
  if s.entryNum = 0 then (1, s)
  else if isMulticastPkt eth.h_dest then
    if eth.h_vlan_proto = 0x8100 then mcastEntryDel s eth.h_vlan_TCI eth.h_source eth.h_dest
    else mcastEntryDel s 0 eth.h_source eth.h_dest
  else (1, s)

def mcastTx (eth : VlanEthhdr) : Int × Mcast :=
  if isMulticastPkt eth.h_dest then
    if eth.h_vlan_proto = 0x8100 then
      (1, (mcastEntryIns s HZ jiffies eth.h_vlan_TCI eth.h_source eth.h_dest).2)
    else (1, (mcastEntryIns s HZ jiffies 0 eth.h_source eth.h_dest).2)
  else (1, s)

/-- The calls of the driver, a sent frame with the time of the call. -/
inductive Call where
  | tx (jiffies : BitVec 32) (eth : VlanEthhdr)
  | rx (eth : VlanEthhdr)
  deriving DecidableEq

def Mcast.call : Call → Int × Mcast
  | .tx jiffies eth => mcastTx s HZ jiffies eth
  | .rx eth => mcastRx s eth

def Mcast.zero : Mcast :=
  ⟨fun _ => ⟨Vector.replicate 6 0, Vector.replicate 6 0, 0, false, 0, 0⟩, 0⟩

end Ralink.Raeth

/-! For each key the table holds how many frames that were sent have not come back. Entries that age
out and a full table lose some of them; without these the filter drops exactly the frames that come
back. -/
namespace Ralink.Raeth
open Function

structure EchoKey where
  vlan_id : BitVec 16
  src_mac : Mac
  dst_mac : Mac
  deriving DecidableEq

def McastEntry.key (e : McastEntry) : Option EchoKey :=
  if e.valid then some ⟨e.vlan_id, e.src_mac, e.dst_mac⟩ else none

/-- What the filter knows a multicast frame by. -/
def VlanEthhdr.key (eth : VlanEthhdr) : Option EchoKey :=
  if isMulticastPkt eth.h_dest then
    some ⟨if eth.h_vlan_proto = 0x8100 then eth.h_vlan_TCI else 0, eth.h_source, eth.h_dest⟩
  else none

/-- A key has one entry at most, no entry in use has count 0, and `mcast_entry_num` is the
number of entries in use. -/
structure TableOk (s : Mcast) : Prop where
  distinct : Slots.Distinct McastEntry.key s.tbl
  counted : ∀ i, (s.tbl i).valid → 1 ≤ (s.tbl i).use_count.toNat
  entryNum : s.entryNum = Slots.used McastEntry.key s.tbl

def held (s : Mcast) (k : EchoKey) : Nat :=
  match Slots.find McastEntry.key s.tbl k with
  | some i => (s.tbl i).use_count.toNat
  | none => 0

def McastEntry.setCount (e : McastEntry) (count time : BitVec 32) : McastEntry :=
  { e with use_count := count, ageout := time }

def McastEntry.release (e : McastEntry) : McastEntry :=
  { e.setCount (e.use_count - 1) e.ageout with valid := false }

section Entries

variable {s : Mcast} {k k' : EchoKey} {i : Fin MAX_MCAST_ENTRY} {e : McastEntry} {n : Int}

@[simp] theorem McastEntry.key_isSome (e : McastEntry) : e.key.isSome = e.valid := by
  unfold McastEntry.key
  cases e.valid <;> rfl

@[simp] theorem McastEntry.key_setCount (e : McastEntry) (count time : BitVec 32) :
    (e.setCount count time).key = e.key := rfl

@[simp] theorem McastEntry.key_release (e : McastEntry) : e.release.key = none := rfl

theorem McastEntry.key_eq_none : e.key = none ↔ e.valid = false := by
  rw [← Option.isSome_eq_false_iff.trans Option.isNone_iff_eq_none, McastEntry.key_isSome]

theorem McastEntry.valid_of_key (h : e.key = some k) : e.valid = true := by
  rw [← McastEntry.key_isSome, h]
  rfl

theorem mcastEntryGet_eq (s : Mcast) (k : EchoKey) :
    mcastEntryGet s k.vlan_id k.src_mac k.dst_mac = Slots.find McastEntry.key s.tbl k := by
  unfold mcastEntryGet Slots.find
  congr 1
  funext i
  rcases k with ⟨vlan, src, dst⟩
  cases hv : (s.tbl i).valid <;> simp [McastEntry.key, hv]

theorem held_of_find (h : Slots.find McastEntry.key s.tbl k = some i) :
    held s k = (s.tbl i).use_count.toNat := by
  simp [held, h]

theorem held_of_none (h : Slots.find McastEntry.key s.tbl k = none) : held s k = 0 := by
  simp [held, h]

theorem TableOk.held_pos (h : TableOk s) : 0 < held s k ↔ ∃ i, (s.tbl i).key = some k := by
  constructor
  · intro hpos
    cases hf : Slots.find McastEntry.key s.tbl k with
    | none => rw [held_of_none hf] at hpos; omega
    | some i => exact ⟨i, Slots.key_of_find hf⟩
  · rintro ⟨i, hi⟩
    have := h.counted i (McastEntry.valid_of_key hi)
    rw [held_of_find (h.distinct.find_eq_some.mpr hi)]
    omega

theorem held_update_other (ht : (s.tbl i).key ≠ some k') (he : e.key ≠ some k') :
    held ⟨update s.tbl i e, n⟩ k' = held s k' := by
  have hfind := Slots.find_update_other (t := s.tbl) (a := e) ht he
  unfold held
  rw [hfind]
  cases hf : Slots.find McastEntry.key s.tbl k' with
  | none => rfl
  | some j =>
    have hj : j ≠ i := by
      rintro rfl
      exact ht (Slots.key_of_find hf)
    simp [update_of_ne hj]

theorem held_update_self (h : Slots.Distinct McastEntry.key (update s.tbl i e))
    (he : e.key = some k) : held ⟨update s.tbl i e, n⟩ k = e.use_count.toNat := by
  rw [held_of_find (h.find_update_self he)]
  simp

theorem held_update_gone (h : TableOk s) (ht : (s.tbl i).key = some k) (he : e.key ≠ some k) :
    held ⟨update s.tbl i e, n⟩ k = 0 :=
  held_of_none (h.distinct.find_update_gone ht he)

theorem TableOk.update (h : TableOk s) {n : Int}
    (hkey : ∀ k, e.key = some k →
      (s.tbl i).key = some k ∨ Slots.find McastEntry.key s.tbl k = none)
    (hcount : e.valid → 1 ≤ e.use_count.toNat)
    (hn : n = Slots.used McastEntry.key (Function.update s.tbl i e)) :
    TableOk ⟨Function.update s.tbl i e, n⟩ := by
  refine ⟨h.distinct.update fun j hj k hk hjk => ?_, fun j => ?_, hn⟩
  · rcases hkey k hk with hi | hnone
    · exact hj (h.distinct j i k hjk hi)
    · exact Slots.find_eq_none.mp hnone j hjk
  · rcases eq_or_ne j i with rfl | hj
    · simpa using hcount
    · simpa [hj] using h.counted j

end Entries

theorem toNat_add_one {c : BitVec 32} (h : c.toNat + 1 < 2 ^ 32) : (c + 1).toNat = c.toNat + 1 := by
  rw [BitVec.toNat_add]
  exact Nat.mod_eq_of_lt h

section Steps

variable {s : Mcast} {k : EchoKey} (HZ jiffies : BitVec 32)

def Mcast.ins (s : Mcast) (k : EchoKey) : Mcast :=
  (mcastEntryIns s HZ jiffies k.vlan_id k.src_mac k.dst_mac).2

def Mcast.del (s : Mcast) (k : EchoKey) : Int × Mcast :=
  mcastEntryDel s k.vlan_id k.src_mac k.dst_mac

theorem ins_cases (s : Mcast) (k : EchoKey) :
    (∃ i, Slots.find McastEntry.key s.tbl k = some i ∧
      s.ins HZ jiffies k = ⟨update s.tbl i
        ((s.tbl i).setCount ((s.tbl i).use_count + 1) (jiffies + AGEING_TIME * HZ)), s.entryNum⟩) ∨
    (Slots.find McastEntry.key s.tbl k = none ∧ ∃ i,
      ((s.tbl i).valid = false ∨ timeAfter jiffies (s.tbl i).ageout) ∧
      s.ins HZ jiffies k = ⟨update s.tbl i
        ⟨k.src_mac, k.dst_mac, k.vlan_id, true, 1, jiffies + AGEING_TIME * HZ⟩,
        if (s.tbl i).valid then s.entryNum else s.entryNum + 1⟩) ∨
    (Slots.find McastEntry.key s.tbl k = none ∧ (∀ i, (s.tbl i).valid) ∧
      s.ins HZ jiffies k = s) := by
  unfold Mcast.ins mcastEntryIns
  rw [mcastEntryGet_eq]
  cases hf : Slots.find McastEntry.key s.tbl k with
  | some i =>
    refine .inl ⟨i, rfl, ?_⟩
    simp only [McastEntry.setCount]
  | none =>
    refine .inr ?_
    unfold addMcastEntry
    cases hs : Fin.find? fun i => ¬ (s.tbl i).valid ∨ timeAfter jiffies (s.tbl i).ageout with
    | some i =>
      refine .inl ⟨rfl, i, ?_, rfl⟩
      simpa using Fin.eq_true_of_find?_eq_some hs
    | none =>
      rw [Fin.find?_eq_none_iff] at hs
      refine .inr ⟨rfl, fun i => ?_, rfl⟩
      have hi := hs i
      simp only [decide_eq_false_iff_not, not_or, not_not] at hi
      exact hi.1

theorem TableOk.ins (h : TableOk s) (hfew : held s k + 1 < 2 ^ 32) :
    TableOk (s.ins HZ jiffies k) := by
  rcases ins_cases HZ jiffies s k with ⟨i, hf, heq⟩ | ⟨hf, i, hslot, heq⟩ | ⟨-, -, heq⟩
  · have hi := Slots.key_of_find hf
    rw [held_of_find hf] at hfew
    rw [heq]
    refine h.update (fun k' hk' => .inl hk') (fun _ => ?_) ?_
    · rw [McastEntry.setCount, toNat_add_one hfew]
      omega
    · rw [h.entryNum, Slots.used_update_same]
      simp
  · rw [heq]
    refine h.update (fun k' hk' => .inr ?_) (fun _ => by simp) ?_
    · have hkk : k = k' := by simpa [McastEntry.key] using hk'
      rwa [← hkk]
    · cases hv : (s.tbl i).valid with
      | true =>
        rw [if_pos rfl, h.entryNum, Slots.used_update_same]
        simp [hv]
      | false =>
        rw [if_neg (by simp), h.entryNum,
          Slots.used_take (McastEntry.key_eq_none.mpr hv) (by simp)]
        simp
  · rwa [heq]

theorem held_ins_le (h : TableOk s) (hfew : held s k + 1 < 2 ^ 32) (k' : EchoKey) :
    held (s.ins HZ jiffies k) k' ≤ held s k' + if k = k' then 1 else 0 := by
  have hins := h.ins HZ jiffies hfew
  rcases ins_cases HZ jiffies s k with ⟨i, hf, heq⟩ | ⟨hf, i, hslot, heq⟩ | ⟨-, -, heq⟩
  · have hi := Slots.key_of_find hf
    rw [heq] at hins ⊢
    by_cases hk : k = k'
    · subst hk
      rw [held_of_find hf] at hfew
      rw [held_update_self hins.distinct hi, held_of_find hf, if_pos rfl, McastEntry.setCount,
        toNat_add_one hfew]
    · have hne : (s.tbl i).key ≠ some k' := by simpa [hi] using hk
      rw [held_update_other hne (by rwa [McastEntry.key_setCount])]
      omega
  · rw [heq] at hins ⊢
    by_cases hk : k = k'
    · subst hk
      rw [held_update_self hins.distinct (by simp [McastEntry.key])]
      simp
    · by_cases hi : (s.tbl i).key = some k'
      · rw [held_update_gone h hi (by simpa [McastEntry.key] using hk)]
        omega
      · rw [held_update_other hi (by simpa [McastEntry.key] using hk)]
        omega
  · rw [heq]
    omega

theorem held_ins (h : TableOk s) (hfew : held s k + 1 < 2 ^ 32)
    (hage : ∀ i, (s.tbl i).valid → ¬ timeAfter jiffies (s.tbl i).ageout)
    (hroom : 0 < held s k ∨ Slots.used McastEntry.key s.tbl < MAX_MCAST_ENTRY) (k' : EchoKey) :
    held (s.ins HZ jiffies k) k' = held s k' + if k = k' then 1 else 0 := by
  have hins := h.ins HZ jiffies hfew
  rcases ins_cases HZ jiffies s k with ⟨i, hf, heq⟩ | ⟨hf, i, hslot, heq⟩ | ⟨hf, hall, heq⟩
  · have hi := Slots.key_of_find hf
    rw [heq] at hins ⊢
    by_cases hk : k = k'
    · subst hk
      rw [held_of_find hf] at hfew
      rw [held_update_self hins.distinct hi, held_of_find hf, if_pos rfl, McastEntry.setCount,
        toNat_add_one hfew]
    · have hne : (s.tbl i).key ≠ some k' := by simpa [hi] using hk
      rw [held_update_other hne (by rwa [McastEntry.key_setCount]), if_neg hk]
      rfl
  · have hempty : (s.tbl i).valid = false := by
      cases hv : (s.tbl i).valid with
      | false => rfl
      | true => exact absurd (hslot.resolve_left (by simp [hv])) (hage i hv)
    rw [heq] at hins ⊢
    by_cases hk : k = k'
    · subst hk
      rw [held_update_self hins.distinct (by simp [McastEntry.key]), held_of_none hf, if_pos rfl]
      simp
    · have hi : (s.tbl i).key ≠ some k' := by simp [McastEntry.key_eq_none.mpr hempty]
      rw [held_update_other hi (by simpa [McastEntry.key] using hk), if_neg hk]
      rfl
  · -- no slot is left, and the key has none
    rcases hroom with hpos | hroom
    · rw [held_of_none hf] at hpos
      omega
    · obtain ⟨i, hi⟩ := Slots.exists_empty hroom
      rw [McastEntry.key_eq_none, hall i] at hi
      cases hi

theorem del_cases (s : Mcast) (k : EchoKey) :
    (Slots.find McastEntry.key s.tbl k = none ∧ s.del k = (1, s)) ∨
    ∃ i, Slots.find McastEntry.key s.tbl k = some i ∧
      (((s.tbl i).use_count - 1 = 0 ∧
          s.del k = (0, ⟨update s.tbl i (s.tbl i).release, s.entryNum - 1⟩)) ∨
        ((s.tbl i).use_count - 1 ≠ 0 ∧ s.del k = (0, ⟨update s.tbl i
          ((s.tbl i).setCount ((s.tbl i).use_count - 1) (s.tbl i).ageout), s.entryNum⟩))) := by
  unfold Mcast.del mcastEntryDel
  rw [mcastEntryGet_eq]
  cases hf : Slots.find McastEntry.key s.tbl k with
  | none => exact .inl ⟨rfl, rfl⟩
  | some i =>
    refine .inr ⟨i, rfl, ?_⟩
    by_cases hlast : (s.tbl i).use_count - 1 = 0
    · exact .inl ⟨hlast, if_pos hlast⟩
    · exact .inr ⟨hlast, if_neg hlast⟩

theorem TableOk.del (h : TableOk s) : TableOk (s.del k).2 := by
  rcases del_cases s k with ⟨-, heq⟩ | ⟨i, hf, ⟨-, heq⟩ | ⟨hmore, heq⟩⟩
  · rwa [heq]
  · have hv := McastEntry.valid_of_key (Slots.key_of_find hf)
    rw [heq]
    refine h.update (by simp) (by simp [McastEntry.release]) ?_
    have hused := Slots.used_free (t := s.tbl) (i := i) (a := (s.tbl i).release)
      ((McastEntry.key_isSome _).trans hv) rfl
    rw [h.entryNum, hused]
    simp
  · rw [heq]
    refine h.update (fun k' hk' => .inl hk') (fun _ => ?_) ?_
    · have hne : ((s.tbl i).use_count - 1).toNat ≠ 0 := fun h0 => hmore (BitVec.eq_of_toNat_eq h0)
      exact Nat.pos_of_ne_zero hne
    · rw [h.entryNum, Slots.used_update_same]
      simp

theorem del_spec (h : TableOk s) (k : EchoKey) :
    (s.del k).1 = (if 0 < held s k then 0 else 1) ∧
      ∀ k', held (s.del k).2 k' = held s k' - if k = k' then 1 else 0 := by
  have hdel : TableOk (s.del k).2 := h.del
  rcases del_cases s k with ⟨hf, heq⟩ | ⟨i, hf, hcase⟩
  · rw [heq]
    refine ⟨by simp [held_of_none hf], fun k' => ?_⟩
    by_cases hk : k = k'
    · subst hk
      simp [held_of_none hf]
    · simp [hk]
  · have hi := Slots.key_of_find hf
    have hheld := held_of_find hf
    have hpos := h.counted i (McastEntry.valid_of_key hi)
    have hsub : ((s.tbl i).use_count - 1).toNat = (s.tbl i).use_count.toNat - 1 := by
      rw [BitVec.toNat_sub_of_le]
      · rfl
      · rw [BitVec.le_def]
        exact hpos
    rw [if_pos (by omega)]
    rcases hcase with ⟨hlast, heq⟩ | ⟨-, heq⟩ <;> rw [heq] at hdel ⊢ <;> refine ⟨rfl, fun k' => ?_⟩
    · by_cases hk : k = k'
      · subst hk
        rw [hlast] at hsub
        have hone : (s.tbl i).use_count.toNat - 1 = 0 := hsub.symm
        rw [held_update_gone h hi (by simp), hheld, if_pos rfl, hone]
      · rw [held_update_other (by simpa [hi] using hk) (by simp), if_neg hk]
        rfl
    · by_cases hk : k = k'
      · subst hk
        rw [held_update_self hdel.distinct hi, hheld, if_pos rfl]
        exact hsub
      · have hne : (s.tbl i).key ≠ some k' := by simpa [hi] using hk
        rw [held_update_other hne (by rwa [McastEntry.key_setCount]), if_neg hk]
        rfl

variable {eth : VlanEthhdr}

theorem mcastTx_eq (s : Mcast) (eth : VlanEthhdr) : mcastTx s HZ jiffies eth =
    (1, match eth.key with
      | some k => s.ins HZ jiffies k
      | none => s) := by
  unfold mcastTx VlanEthhdr.key
  cases isMulticastPkt eth.h_dest with
  | false => rfl
  | true =>
    by_cases hp : eth.h_vlan_proto = 0x8100
    · simp only [if_true, if_pos hp, Mcast.ins]
    · simp only [if_true, if_neg hp, Mcast.ins]

theorem TableOk.mcastRx_eq (h : TableOk s) (eth : VlanEthhdr) : mcastRx s eth =
    match eth.key with
    | some k => s.del k
    | none => (1, s) := by
  have hkey : (if isMulticastPkt eth.h_dest then
      if eth.h_vlan_proto = 0x8100 then mcastEntryDel s eth.h_vlan_TCI eth.h_source eth.h_dest
      else mcastEntryDel s 0 eth.h_source eth.h_dest
      else (1, s)) = match eth.key with
        | some k => s.del k
        | none => (1, s) := by
    unfold VlanEthhdr.key
    cases isMulticastPkt eth.h_dest with
    | false => rfl
    | true =>
      by_cases hp : eth.h_vlan_proto = 0x8100
      · simp only [if_true, if_pos hp, Mcast.del]
      · simp only [if_true, if_neg hp, Mcast.del]
  unfold mcastRx
  rw [hkey]
  split
  · next hzero =>
    have hnone : ∀ k, Slots.find McastEntry.key s.tbl k = none := by
      intro k
      rw [h.entryNum, Int.natCast_eq_zero, Slots.used_eq_zero] at hzero
      rw [Slots.find_eq_none]
      intro i hi
      rw [hzero i] at hi
      cases hi
    cases eth.key with
    | none => rfl
    | some k =>
      rcases del_cases s k with ⟨-, heq⟩ | ⟨i, hi, -⟩
      · exact heq.symm
      · rw [hnone k] at hi
        cases hi
  · rfl

end Steps

abbrev Log := List (Call × Int)

def Call.sends (k : EchoKey) : Call → Bool
  | .tx _ eth => eth.key = some k
  | .rx _ => false

def Call.gets (k : EchoKey) : Call → Bool
  | .tx _ _ => false
  | .rx eth => eth.key = some k

/-- How many frames with the key have been sent. -/
def sent (k : EchoKey) (log : Log) : Nat := log.countP fun e => e.1.sends k

/-- How many frames with the key have come in and been dropped. -/
def dropped (k : EchoKey) (log : Log) : Nat := log.countP fun e => e.1.gets k ∧ e.2 = 0

def Call.key : Call → Option EchoKey
  | .tx _ eth | .rx eth => eth.key

/-- The keys with frames that were sent and have not been dropped. -/
def outstanding (log : Log) : Finset EchoKey :=
  (log.filterMap (·.1.key)).toFinset.filter fun k => dropped k log < sent k log

/-- The filter with what its calls have returned so far. -/
structure Traced where
  filter : Mcast
  log : Log

def Traced.step (HZ : BitVec 32) (t : Traced) (c : Call) : Traced :=
  let (r, filter) := t.filter.call HZ c
  ⟨filter, t.log ++ [(c, r)]⟩

def Traced.zero : Traced := ⟨Mcast.zero, []⟩

/-- After the call fewer than 2^32 frames of a key are outstanding. -/
def FewCopies (HZ : BitVec 32) (t : Traced) (c : Call) : Prop :=
  ∀ k, sent k (t.step HZ c).log < dropped k (t.step HZ c).log + 2 ^ 32

/-- After the call the outstanding keys fit into the table, and at it no entry has passed
its time. -/
def Fits (HZ : BitVec 32) (t : Traced) (c : Call) : Prop :=
  (outstanding (t.step HZ c).log).card ≤ MAX_MCAST_ENTRY ∧
    match c with
    | .tx jiffies _ => ∀ i, (t.filter.tbl i).valid → ¬ timeAfter jiffies (t.filter.tbl i).ageout
    | .rx _ => True

/-- A frame that comes in is dropped just when more of its key were sent than dropped. -/
def DropsEcho (HZ : BitVec 32) (t : Traced) (c : Call) : Prop :=
  match c with
  | .tx _ _ => True
  | .rx eth => (t.filter.call HZ c).1 =
    match eth.key with
    | some k => if dropped k t.log < sent k t.log then 0 else 1
    | none => 1

section Runs

variable {HZ : BitVec 32} {t : Traced} {k k' : EchoKey} {log : Log}

theorem mem_outstanding : k ∈ outstanding log ↔ dropped k log < sent k log := by
  simp only [outstanding, Finset.mem_filter, List.mem_toFinset, List.mem_filterMap,
    and_iff_right_iff_imp]
  intro h
  have hpos : 0 < sent k log := by omega
  obtain ⟨⟨c, r⟩, hmem, hsends⟩ := List.countP_pos_iff.mp hpos
  refine ⟨(c, r), hmem, ?_⟩
  cases c with
  | tx jiffies eth => simpa [Call.sends, Call.key] using hsends
  | rx eth => simp [Call.sends] at hsends

theorem sent_append (k : EchoKey) (log : Log) (c : Call) (r : Int) :
    sent k (log ++ [(c, r)]) = sent k log + if c.sends k then 1 else 0 := by
  simp [sent, List.countP_append, List.countP_cons]

theorem dropped_append (k : EchoKey) (log : Log) (c : Call) (r : Int) :
    dropped k (log ++ [(c, r)]) = dropped k log + if c.gets k ∧ r = 0 then 1 else 0 := by
  simp [dropped, List.countP_append, List.countP_cons]

structure Bounded (t : Traced) : Prop where
  ok : TableOk t.filter
  le : ∀ k, held t.filter k + dropped k t.log ≤ sent k t.log

theorem tx_step (HZ jiffies : BitVec 32) (t : Traced) (eth : VlanEthhdr) :
    (t.step HZ (.tx jiffies eth)).filter =
      (match eth.key with
      | some k => t.filter.ins HZ jiffies k
      | none => t.filter) ∧
    (t.step HZ (.tx jiffies eth)).log = t.log ++ [(.tx jiffies eth, 1)] := by
  simp only [Traced.step, Mcast.call]
  rw [mcastTx_eq]
  exact ⟨rfl, rfl⟩

theorem rx_step (h : TableOk t.filter) (HZ : BitVec 32) (eth : VlanEthhdr) :
    (t.step HZ (.rx eth)).filter =
      (match eth.key with
      | some k => (t.filter.del k).2
      | none => t.filter) ∧
    (t.step HZ (.rx eth)).log = t.log ++ [(.rx eth, (t.filter.call HZ (.rx eth)).1)] ∧
    (t.filter.call HZ (.rx eth)).1 =
      match eth.key with
      | some k => if 0 < held t.filter k then 0 else 1
      | none => 1 := by
  simp only [Traced.step, Mcast.call]
  rw [h.mcastRx_eq]
  cases eth.key with
  | none => exact ⟨rfl, trivial, rfl⟩
  | some k => exact ⟨rfl, trivial, (del_spec h k).1⟩

theorem rx_counts (h : TableOk t.filter) (HZ : BitVec 32) (eth : VlanEthhdr) (k : EchoKey) :
    held (t.step HZ (.rx eth)).filter k + dropped k (t.step HZ (.rx eth)).log =
      held t.filter k + dropped k t.log ∧
    sent k (t.step HZ (.rx eth)).log = sent k t.log := by
  obtain ⟨hfilter, hlog, hres⟩ := rx_step h HZ eth
  rw [hlog, dropped_append, sent_append, hres, hfilter]
  refine ⟨?_, by simp [Call.sends]⟩
  cases hk : eth.key with
  | none => simp [Call.gets, hk]
  | some k₀ =>
    dsimp only
    rw [(del_spec h k₀).2]
    by_cases hkk : k₀ = k
    · subst hkk
      by_cases hpos : 0 < held t.filter k₀
      · simp [Call.gets, hk, hpos]
        omega
      · have hzero : held t.filter k₀ = 0 := by omega
        simp [hzero]
    · simp [Call.gets, hk, hkk]

theorem Bounded.ins_ok (h : Bounded t) {jiffies : BitVec 32} {eth : VlanEthhdr}
    (hfew : FewCopies HZ t (.tx jiffies eth)) (hk : eth.key = some k) :
    held t.filter k + 1 < 2 ^ 32 := by
  have hlt := hfew k
  have hle := h.le k
  rw [(tx_step HZ jiffies t eth).2, sent_append, dropped_append] at hlt
  simp only [Call.sends, hk, Call.gets] at hlt
  simp at hlt
  omega

theorem Bounded.step (h : Bounded t) (c : Call) (hfew : FewCopies HZ t c) :
    Bounded (t.step HZ c) := by
  cases c with
  | tx jiffies eth =>
    obtain ⟨hfilter, hlog⟩ := tx_step HZ jiffies t eth
    cases hk : eth.key with
    | none =>
      rw [hk] at hfilter
      refine ⟨hfilter ▸ h.ok, fun k => ?_⟩
      rw [hfilter, hlog, sent_append, dropped_append]
      simpa [Call.sends, Call.gets, hk] using h.le k
    | some k₀ =>
      have hroom := h.ins_ok hfew hk
      rw [hk] at hfilter
      refine ⟨hfilter ▸ h.ok.ins HZ jiffies hroom, fun k => ?_⟩
      have hheld := held_ins_le HZ jiffies h.ok hroom k
      have hle := h.le k
      rw [hfilter, hlog, sent_append, dropped_append]
      simp only [Call.sends, Call.gets, hk]
      simp
      omega
  | rx eth =>
    refine ⟨?_, fun k => ?_⟩
    · rw [(rx_step h.ok HZ eth).1]
      cases eth.key with
      | none => exact h.ok
      | some k => exact h.ok.del
    · obtain ⟨hcount, hsent⟩ := rx_counts h.ok HZ eth k
      rw [hcount, hsent]
      exact h.le k

structure Exact (t : Traced) : Prop where
  bounded : Bounded t
  eq : ∀ k, held t.filter k + dropped k t.log = sent k t.log

theorem Exact.card_outstanding (h : Exact t) :
    (outstanding t.log).card = Slots.used McastEntry.key t.filter.tbl := by
  apply h.bounded.ok.distinct.card_eq_used
  intro k
  rw [mem_outstanding, ← h.bounded.ok.held_pos]
  have := h.eq k
  omega

theorem Exact.room (h : Exact t) {jiffies : BitVec 32} {eth : VlanEthhdr}
    (hfits : Fits HZ t (.tx jiffies eth)) (hk : eth.key = some k) :
    0 < held t.filter k ∨ Slots.used McastEntry.key t.filter.tbl < MAX_MCAST_ENTRY := by
  by_cases hpos : 0 < held t.filter k
  · exact .inl hpos
  · right
    have heq := h.eq k
    have hnew : k ∉ outstanding t.log := by
      rw [mem_outstanding]
      omega
    -- the frame makes one more key outstanding
    have hsub : insert k (outstanding t.log) ⊆ outstanding (t.step HZ (.tx jiffies eth)).log := by
      intro k' hk'
      rw [mem_outstanding, (tx_step HZ jiffies t eth).2, sent_append, dropped_append]
      simp only [Call.sends, Call.gets, hk]
      rcases Finset.mem_insert.mp hk' with rfl | hold
      · simp
        omega
      · rw [mem_outstanding] at hold
        simp
        omega
    have hcard := Finset.card_le_card hsub
    rw [Finset.card_insert_of_notMem hnew, h.card_outstanding] at hcard
    have := hfits.1
    omega

theorem Exact.step (h : Exact t) (c : Call) (hfew : FewCopies HZ t c) (hfits : Fits HZ t c) :
    Exact (t.step HZ c) := by
  refine ⟨h.bounded.step c hfew, fun k => ?_⟩
  cases c with
  | tx jiffies eth =>
    obtain ⟨hfilter, hlog⟩ := tx_step HZ jiffies t eth
    have heq := h.eq k
    rw [hfilter, hlog, sent_append, dropped_append]
    cases hk : eth.key with
    | none => simpa [Call.sends, Call.gets, hk] using heq
    | some k₀ =>
      have hheld := held_ins HZ jiffies h.bounded.ok (h.bounded.ins_ok hfew hk) hfits.2
        (h.room hfits hk) k
      simp only [Call.sends, Call.gets, hk]
      simp
      omega
  | rx eth =>
    obtain ⟨hcount, hsent⟩ := rx_counts h.bounded.ok HZ eth k
    rw [hcount, hsent]
    exact h.eq k

theorem Exact.dropsEcho (h : Exact t) (HZ : BitVec 32) (c : Call) : DropsEcho HZ t c := by
  cases c with
  | tx jiffies eth => trivial
  | rx eth =>
    have hiff : ∀ k, 0 < held t.filter k ↔ dropped k t.log < sent k t.log := by
      intro k
      have := h.eq k
      omega
    simp only [DropsEcho, (rx_step h.bounded.ok HZ eth).2.2, hiff]

theorem exact_zero : Exact Traced.zero := by
  have hfind : ∀ k, Slots.find McastEntry.key Mcast.zero.tbl k = none := by
    intro k
    rw [Slots.find_eq_none]
    intro i hi
    cases hi
  have hheld : ∀ k, held Traced.zero.filter k = 0 := fun k => held_of_none (hfind k)
  refine ⟨⟨⟨?_, ?_, ?_⟩, fun k => ?_⟩, fun k => ?_⟩
  · intro i j k hi
    cases hi
  · intro i hi
    cases hi
  · have hused : Slots.used McastEntry.key Mcast.zero.tbl = 0 :=
      Slots.used_eq_zero.mpr fun _ => rfl
    exact congrArg Int.ofNat hused.symm
  · rw [hheld]
    rfl
  · rw [hheld]
    rfl

/-- Throughout a run with fewer than 2^32 copies of a key outstanding the table is well
formed; and as long as the keys fit and nothing ages out, a frame that comes in is dropped
just when it is an echo. -/
theorem mcast_filter_exact (HZ : BitVec 32) (calls : List Call)
    (hfew : Run.AllSteps (Traced.step HZ) (FewCopies HZ) Traced.zero calls) :
    (∀ n, TableOk (Run.exec (Traced.step HZ) Traced.zero (calls.take n)).filter) ∧
      (Run.AllSteps (Traced.step HZ) (Fits HZ) Traced.zero calls →
        Run.AllSteps (Traced.step HZ) (DropsEcho HZ) Traced.zero calls) := by
  constructor
  · intro n
    exact (Run.exec_inv (fun t c h hc => h.step c hc) exact_zero.bounded (hfew.take n)).ok
  · intro hfits
    exact (hfew.and hfits).of_inv (fun t c h hc => h.step c hc.1 hc.2)
      (fun t c h _ => h.dropsEcho HZ c) exact_zero

theorem fewCopies_of_length {c : Call} (h : (t.step HZ c).log.length < 2 ^ 32) :
    FewCopies HZ t c := by
  intro k
  have hle : sent k (t.step HZ c).log ≤ (t.step HZ c).log.length := List.countP_le_length
  omega

instance (HZ : BitVec 32) (t : Traced) : ∀ c, Decidable (Fits HZ t c)
  | .tx jiffies eth => inferInstanceAs (Decidable
      ((outstanding (t.step HZ (.tx jiffies eth)).log).card ≤ MAX_MCAST_ENTRY ∧
        ∀ i, (t.filter.tbl i).valid → ¬ timeAfter jiffies (t.filter.tbl i).ageout))
  | .rx eth => inferInstanceAs (Decidable
      ((outstanding (t.step HZ (.rx eth)).log).card ≤ MAX_MCAST_ENTRY ∧ True))

def echoTwice : List Call :=
  let eth : VlanEthhdr := { h_dest := #v[1, 0, 0x5E, 0, 0, 1], h_source := #v[0, 1, 2, 3, 4, 5] }
  [.tx 7 eth, .rx eth, .rx eth]

/-- Only the first echo is dropped. -/
theorem mcast_filter_exact_echoTwice :
    Run.AllSteps (Traced.step 100) (DropsEcho 100) Traced.zero echoTwice := by
  have hfew : Run.AllSteps (Traced.step 100) (FewCopies 100) Traced.zero echoTwice :=
    ⟨fewCopies_of_length (by decide), fewCopies_of_length (by decide),
      fewCopies_of_length (by decide), trivial⟩
  exact (mcast_filter_exact 100 echoTwice hfew).2 (by decide)

end Runs
end Ralink.Raeth
