import Ralink.Lib.Run
import Ralink.Igmp.Insertion

/-! Every call keeps the chains, the lists and the count of the table right, whatever entries age
out in the middle of it. -/
namespace Ralink.Igmp
open Function Links

section Calls

variable {n : Nat} {t t' : Table n} {chains : Nat → List (Fin n)}
  {own : Option (Fin n) → List Member} {i : Fin n} {k : Mac × Nat} {l : List (Fin n)}

def Groups.clear (g : Groups) (k : Mac × Nat) (member : Option Mac) (dev : Nat) : Groups :=
  match g k with
  | none => g
  | some (type, ms) =>
    let ms := member.elim ms ms.erase
    let g : Groups := update g k (some (type, ms))
    if type = .dynamic ∧ ms = [] then g.delete (k.1, dev) member else g

def Table.clearEntry (t : Table n) (member : Option Mac) (dev : Nat) (i : Fin n) :
    Option (Table n) :=
  if (t.Content i).Valid then
    (member.elim (some t) (t.deleteIgmpMember i)).bind fun t =>
      if (t.Content i).type = .dynamic ∧ t.igmpMemberCnt i = 0 then
        t.multicastFilterTableDeleteEntry (t.Content i).Addr member dev
      else some t
  else some t

theorem delMembersLoop_eq (member : Option Mac) (dev : Nat) (l : List (Fin n)) (t : Table n) :
    t.igmpGroupDelMembersLoop member dev l =
      l.foldlM (fun t i => t.clearEntry member dev i) t := by
  induction l generalizing t with
  | nil => rfl
  | cons i l ih =>
    rw [Table.igmpGroupDelMembersLoop, List.foldlM_cons]
    exact congrArg _ (funext ih)

theorem Shape.clearMember (h : Shape t chains own) (hk : (t.Content i).key = some k)
    (member : Option Mac) :
    ∃ t' own', member.elim (some t) (t.deleteIgmpMember i) = some t' ∧ Shape t' chains own' ∧
      OnlyLists i t t' ∧ t'.members own' i =
        member.elim (t.members own i) (t.members own i).erase ∧
      t'.groups = update t.groups k (some ((t.Content i).type, t'.members own' i)) := by
  cases member with
  | none =>
    refine ⟨t, own, rfl, h, OnlyLists.refl i t, rfl, ?_⟩
    rw [← h.groups_of_key hk, update_eq_self]
  | some a =>
    obtain ⟨t', own', heq, h', honly, hself, hother⟩ := h.deleteMember (key_eq_some.mp hk).1 a
    exact ⟨t', own', heq, h', honly, hself, h.groups_onlyLists h' honly hk hother⟩

theorem Shape.clearEntry (hn : n ≤ 255) (h : Shape t chains own) (member : Option Mac) (dev : Nat)
    (i : Fin n) :
    ∃ t', t.clearEntry member dev i = some t' ∧ t'.Shaped ∧ t.Sheds t' ∧
      t'.groups = (t.Content i).key.elim t.groups fun k => t.groups.clear k member dev := by
  cases hk : (t.Content i).key with
  | none =>
    refine ⟨t, ?_, h.shaped, fun _ _ hj => hj, rfl⟩
    rw [Table.clearEntry, if_neg (by simp [key_eq_none.mp hk])]
  | some k =>
    obtain ⟨hv, haddr, -⟩ := key_eq_some.mp hk
    obtain ⟨t₁, own₁, heq, h₁, honly, hmembers, hgroups⟩ := h.clearMember hk member
    have hentry : (t₁.Content i).type = (t.Content i).type ∧ (t₁.Content i).Addr = k.1 := by
      obtain ⟨pList, he, -⟩ := honly.entry i
      rw [he]
      exact ⟨rfl, haddr⟩
    have hclear : t.groups.clear k member dev =
        if (t.Content i).type = .dynamic ∧ t₁.members own₁ i = [] then
          t₁.groups.delete (k.1, dev) member else t₁.groups := by
      rw [hgroups, hmembers, Groups.clear, h.groups_of_key hk]
    rw [Option.elim_some, hclear, Table.clearEntry, if_pos hv, heq, Option.bind_some, hentry.1,
      hentry.2, h₁.igmpMemberCnt i]
    by_cases hgoes : (t.Content i).type = .dynamic ∧ t₁.members own₁ i = []
    · rw [if_pos ⟨hgoes.1, List.length_eq_zero_iff.mpr hgoes.2⟩, if_pos hgoes]
      obtain ⟨t', heq', h', hgroups', hsheds⟩ := h₁.deleteEntry hn k.1 member dev
      exact ⟨t', heq', h', honly.sheds.trans hsheds, hgroups'⟩
    · rw [if_neg (fun hc => hgoes ⟨hc.1, List.length_eq_zero_iff.mp hc.2⟩), if_neg hgoes]
      exact ⟨t₁, rfl, h₁.shaped, honly.sheds, rfl⟩

theorem Shape.delMembers (hn : n ≤ 255) (h : Shape t chains own) (member : Option Mac)
    (dev : Nat) : ∃ t', t.igmpGroupDelMembers member dev = some t' ∧ t'.Shaped := by
  have hloop : ∃ t', Run.tryExec (fun (t : Table n) i => t.clearEntry member dev i) t
      (List.finRange n) = some t' ∧ t'.Shaped := by
    refine Run.tryExec_inv (P := fun _ _ => True) (fun t i ht _ => ?_) h.shaped
      (Run.AllTries.of_forall fun _ _ => trivial)
    obtain ⟨chains, own, ht⟩ := ht
    obtain ⟨t', heq, h', -⟩ := ht.clearEntry hn member dev i
    exact ⟨t', heq, h'⟩
  obtain ⟨t', hrun, h'⟩ := hloop
  exact ⟨t', (delMembersLoop_eq member dev _ t).trans hrun, h'⟩

theorem Shape.step (hn : n ≤ 255) (OS_HZ : BitVec 32) (h : Shape t chains own) (op : Op n) :
    ∃ t', t.step OS_HZ op = some t' ∧ t'.Shaped := by
  cases op with
  | insert grp member dev type clock =>
    obtain ⟨r, heq, hr, -⟩ := h.insertEntry hn OS_HZ grp member dev type clock
    exact ⟨r.2, by rw [Table.step, heq]; rfl, hr⟩
  | delete grp member dev =>
    obtain ⟨t', heq, h', -⟩ := h.deleteEntry hn grp member dev
    exact ⟨t', heq, h'⟩
  | lookup addr dev now =>
    obtain ⟨r, heq, hfound, -⟩ := h.lookup hn OS_HZ addr dev now
    exact ⟨r.2, by rw [Table.step, heq]; rfl, hfound.shaped⟩
  | delMembers member dev => exact h.delMembers hn member dev

theorem lists_freeAll (l : List Member) {own : Option (Fin n) → List Member}
    (h : Lists t.memberNext t.hdr own) (hl : l.Nodup) (hout : ∀ m ∈ l, ∀ k, m ∉ own k) :
    ∃ next pList, l.foldl (fun t m => t.freeGrpMemberEntry m) t =
        { t with memberNext := next, freeEntryList := pList } ∧
      Lists next (update t.hdr none pList) (update own none (own none ++ l)) := by
  induction l generalizing t own with
  | nil =>
    refine ⟨t.memberNext, t.freeEntryList, rfl, ?_⟩
    rw [List.append_nil, update_eq_self, show t.freeEntryList = t.hdr none from rfl,
      update_eq_self]
    exact h
  | cons m l ih =>
    obtain ⟨hm, hl⟩ := List.nodup_cons.mp hl
    have hpush := h.insertTail none (hout m List.mem_cons_self)
    have hpush' : Lists (t.freeGrpMemberEntry m).memberNext (t.freeGrpMemberEntry m).hdr
        (update own none (own none ++ [m])) := by
      rw [Table.freeGrpMemberEntry, hdr_free]
      exact hpush
    obtain ⟨next, pList, heq, hlists⟩ := ih hpush' hl fun x hx k => by
      rcases eq_or_ne k none with rfl | hk
      · rw [update_self, List.mem_append, List.mem_singleton]
        rintro (hmem | rfl)
        · exact hout x (List.mem_cons_of_mem m hx) none hmem
        · exact hm hx
      · rw [update_of_ne hk]
        exact hout x (List.mem_cons_of_mem m hx) k
    refine ⟨next, pList, heq.trans rfl, ?_⟩
    rw [Table.freeGrpMemberEntry, hdr_free, update_idem, update_self, update_idem,
      List.append_assoc, List.singleton_append] at hlists
    exact hlists

theorem shape_init (n : Nat) : Shape (multicastFilterTableInit n) (fun _ => [])
    (update (fun _ => []) none (List.finRange FREE_MEMBER_POOL_SIZE)) := by
  obtain ⟨t, ht⟩ : ∃ t : Table n, t = ⟨0, fun _ => none, fun _ => .zero, fun _ => none,
    fun _ => none, fun _ => zeroMac, initList⟩ := ⟨_, rfl⟩
  have hempty : Lists t.memberNext t.hdr fun _ => [] := by
    rw [ht]
    exact ⟨fun k => by cases k <;> exact isList_init _, fun k k' x hx => nomatch hx⟩
  obtain ⟨next, pList, heq, hlists⟩ := lists_freeAll (List.finRange FREE_MEMBER_POOL_SIZE) hempty
    (List.nodup_finRange _) fun m _ k => List.not_mem_nil
  rw [multicastFilterTableInit, ← ht, heq]
  refine ⟨⟨fun _ => by rw [ht]; rfl, fun hash i => ?_⟩, ⟨?_, fun m => ⟨none, ?_⟩⟩, fun i j k hi => ?_, ?_,
    fun i _ => ?_, fun i => ?_⟩
  · rw [ht]
    exact iff_of_false List.not_mem_nil fun h => nomatch h.1
  · rw [hdr_free]
    exact hlists
  · rw [update_self]
    exact List.mem_finRange m
  · rw [ht] at hi
    cases hi
  · rw [ht]
    exact (Slots.used_eq_zero.mpr fun _ => rfl).symm
  · exact update_of_ne (Option.some_ne_none i) _ _
  · rw [Table.members, update_of_ne (Option.some_ne_none i)]
    exact List.nodup_nil

def Table.chain (t : Table n) (hash : Nat) : List (Fin n) := walk t.pNext n (t.Hash hash)

/-- The cells of the list of an entry, or of the free list. -/
def Table.cells (t : Table n) (k : Option (Fin n)) : List Member :=
  walk t.memberNext memberTurns (t.hdr k).pHead

/-- The chains, the lists, the pool and the count fit together. -/
structure Table.WellFormed (t : Table n) : Prop where
  size : t.Size = (Finset.univ.filter fun i => (t.Content i).Valid = true).card
  chainEnds : ∀ hash, Chain t.pNext (t.Hash hash) (t.chain hash)
  acyclic : ∀ hash, (t.chain hash).Nodup
  inChain : ∀ i hash, i ∈ t.chain hash ↔
    (t.Content i).Valid = true ∧ hash = hashIndex n (t.Content i).Addr
  distinct : ∀ i j, (t.Content i).Valid = true → (t.Content j).Valid = true →
    (t.Content i).Addr = (t.Content j).Addr → (t.Content i).net_dev = (t.Content j).net_dev → i = j
  members : ∀ i, (t.memberList i).Nodup
  listEnds : ∀ k, Chain t.memberNext (t.hdr k).pHead (t.cells k)
  vacant : ∀ i, (t.Content i).Valid = false → t.cells (some i) = []
  pool : (t.cells none ++ (List.finRange n).flatMap fun i => t.cells (some i)).Perm
    (List.finRange FREE_MEMBER_POOL_SIZE)

theorem Shape.chain_eq (h : Shape t chains own) (hash : Nat) : t.chain hash = chains hash :=
  (h.chained.chain hash).walk_eq (h.length_chain hash)

theorem Shape.cells_eq (h : Shape t chains own) (k : Option (Fin n)) : t.cells k = own k :=
  (h.pooled.lists.list k).chain.walk_eq ((h.pooled.length_le k).trans (Nat.le_succ _))

theorem Pooled.perm (h : Pooled t own) :
    (own none ++ (List.finRange n).flatMap fun i => own (some i)).Perm
      (List.finRange FREE_MEMBER_POOL_SIZE) := by
  have hnodup : ∀ k, (own k).Nodup := fun k => (h.lists.list k).nodup
  apply (List.perm_ext_iff_of_nodup ?_ (List.nodup_finRange _)).mpr
  · intro m
    refine iff_of_true ?_ (List.mem_finRange m)
    obtain ⟨k, hk⟩ := h.cover m
    cases k with
    | none => exact List.mem_append_left _ hk
    | some i =>
      exact List.mem_append_right _ (List.mem_flatMap.mpr ⟨i, List.mem_finRange i, hk⟩)
  · rw [List.nodup_append, List.nodup_flatMap]
    refine ⟨hnodup none, ⟨fun i _ => hnodup (some i), ?_⟩, fun x hx y hy => ?_⟩
    · refine (List.nodup_finRange n).imp fun hne m hi hj => hne ?_
      exact Option.some.inj (h.lists.apart _ _ m hi hj)
    · obtain ⟨i, -, hyi⟩ := List.mem_flatMap.mp hy
      rintro rfl
      cases h.lists.apart none (some i) x hx hyi

theorem Shape.wellFormed (h : Shape t chains own) : t.WellFormed where
  size := by
    rw [h.size]
    unfold Slots.used Entry.key
    congr 2
    funext i
    cases (t.Content i).Valid <;> simp
  chainEnds hash := by
    rw [h.chain_eq]
    exact h.chained.chain hash
  acyclic hash := by
    rw [h.chain_eq]
    exact h.chained.nodup hash
  inChain i hash := by
    rw [h.chain_eq, h.chained.mem, eq_comm (a := hash)]
  distinct i j hi hj haddr hdev := by
    apply h.distinct i j ((t.Content i).Addr, (t.Content i).net_dev)
    · exact key_eq_some.mpr ⟨hi, rfl, rfl⟩
    · exact key_eq_some.mpr ⟨hj, haddr.symm, hdev.symm⟩
  members i := by
    rw [h.memberList]
    exact h.nodup i
  listEnds k := by
    rw [h.cells_eq]
    exact (h.pooled.lists.list k).chain
  vacant i hv := by
    rw [h.cells_eq]
    exact h.vacant i hv
  pool := by
    simp only [h.cells_eq]
    exact h.pooled.perm

theorem maxLen_le (memoryOptimization : Bool) : maxLen memoryOptimization ≤ 255 := by
  cases memoryOptimization <;> decide

/-- Every run of calls ends, with a table that is well formed. -/
theorem run_wellFormed (memoryOptimization : Bool) (OS_HZ : BitVec 32)
    (ops : List (Op (maxLen memoryOptimization))) :
    ∃ t, (multicastFilterTableInit (maxLen memoryOptimization)).run OS_HZ ops = some t ∧
      t.WellFormed := by
  have hinit := (shape_init (maxLen memoryOptimization)).shaped
  have hexec : ∃ t, Run.tryExec (Table.step OS_HZ)
      (multicastFilterTableInit (maxLen memoryOptimization)) ops = some t ∧ t.Shaped := by
    refine Run.tryExec_inv (P := fun _ _ => True) (fun t op ht _ => ?_) hinit
      (Run.AllTries.of_forall fun _ _ => trivial)
    obtain ⟨chains, own, ht⟩ := ht
    exact ht.step (maxLen_le memoryOptimization) OS_HZ op
  obtain ⟨t, hrun, chains, own, h⟩ := hexec
  exact ⟨t, hrun, h.wellFormed⟩

end Calls
end Ralink.Igmp
