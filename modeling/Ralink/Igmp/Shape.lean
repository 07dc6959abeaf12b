import Ralink.Lib.Slots
import Ralink.Igmp.Snoop

/-! The chains and the lists that a table holds, and what the functions on members and the removal
of an entry do to them. -/
namespace Ralink.Igmp
open Function Links

variable {n : Nat}

def Entry.key (e : Entry) : Option (Mac × Nat) := if e.Valid then some (e.Addr, e.net_dev) else none

/-- The lists of the pool: that of an entry, and that of the free cells. -/
def Table.hdr (t : Table n) : Option (Fin n) → ListHeader Member
  | none => t.freeEntryList
  | some i => (t.Content i).MemberList

def Table.members (t : Table n) (own : Option (Fin n) → List Member) (i : Fin n) : List Mac :=
  (own (some i)).map t.memberAddr

structure Chained (t : Table n) (chains : Nat → List (Fin n)) : Prop where
  chain : ∀ h, Chain t.pNext (t.Hash h) (chains h)
  mem : ∀ h i, i ∈ chains h ↔ (t.Content i).Valid ∧ hashIndex n (t.Content i).Addr = h

structure Pooled (t : Table n) (own : Option (Fin n) → List Member) : Prop where
  lists : Lists t.memberNext t.hdr own
  cover : ∀ m, ∃ k, m ∈ own k

structure Shape (t : Table n) (chains : Nat → List (Fin n)) (own : Option (Fin n) → List Member) :
    Prop where
  chained : Chained t chains
  pooled : Pooled t own
  distinct : Slots.Distinct Entry.key t.Content
  size : t.Size = Slots.used Entry.key t.Content
  vacant : ∀ i, (t.Content i).Valid = false → own (some i) = []
  nodup : ∀ i, (t.members own i).Nodup

section Pool

variable {t t' : Table n} {own : Option (Fin n) → List Member} {i : Fin n} {m : Member} {a : Mac}
  {p : Option Member} {l l₁ l₂ : List Member} {turns : Nat}

theorem Pooled.length_le (h : Pooled t own) (k : Option (Fin n)) :
    (own k).length ≤ FREE_MEMBER_POOL_SIZE := by
  have hle := (h.lists.list k).nodup.length_le_card
  rwa [Fintype.card_fin] at hle

theorem hdr_free (t : Table n) (next : Member → Option Member) (pList : ListHeader Member) :
    ({ t with memberNext := next, freeEntryList := pList } : Table n).hdr =
      update t.hdr none pList := by
  funext k
  cases k <;> simp [Table.hdr]

theorem hdr_setMembers (t : Table n) (i : Fin n)
    (r : (Member → Option Member) × ListHeader Member) :
    (t.setMembers i r).hdr = update t.hdr (some i) r.2 := by
  funext k
  cases k with
  | none => simp [Table.hdr, Table.setMembers]
  | some j => by_cases hj : j = i <;> simp [Table.hdr, Table.setMembers, hj]

theorem cover_move {k k' : Option (Fin n)} (hcover : ∀ m, ∃ k, m ∈ own k)
    (hk : own k = l₁ ++ m :: l₂) (hne : k' ≠ k) (x : Member) :
    ∃ q, x ∈ update (update own k (l₁ ++ l₂)) k' (own k' ++ [m]) q := by
  obtain ⟨q, hq⟩ := hcover x
  by_cases hx : x = m
  · exact ⟨k', by simp [hx]⟩
  · rcases eq_or_ne q k' with rfl | hqk'
    · exact ⟨q, by simp [hq]⟩
    · refine ⟨q, ?_⟩
      rw [update_of_ne hqk']
      rcases eq_or_ne q k with rfl | hqk
      · rw [update_self]
        rw [hk] at hq
        simpa [hx] using hq
      · rwa [update_of_ne hqk]

theorem Pooled.release (h : Pooled t own) (hi : own (some i) = l₁ ++ m :: l₂) :
    ∃ r, delEntryList t.memberNext (t.Content i).MemberList memberTurns m = some r ∧
      r.1 m = t.memberNext m ∧
      Pooled ((t.setMembers i r).freeGrpMemberEntry m)
        (update (update own (some i) (l₁ ++ l₂)) none (own none ++ [m])) := by
  have hturns : (own (some i)).length ≤ memberTurns := (h.length_le _).trans (Nat.le_succ _)
  obtain ⟨next', pList', heq, hlists, hnext⟩ := h.lists.delEntry hi hturns
  refine ⟨(next', pList'), heq, hnext, ?_, cover_move h.cover hi (by simp)⟩
  have hlists' : Lists (t.setMembers i (next', pList')).memberNext
      (t.setMembers i (next', pList')).hdr (update own (some i) (l₁ ++ l₂)) := by
    rw [hdr_setMembers]
    exact hlists
  have hpush := hlists'.insertTail none (h.lists.notMem_of_taken hi)
  rw [update_of_ne (by simp)] at hpush
  rw [Table.freeGrpMemberEntry, hdr_free]
  exact hpush

structure OnlyLists (i : Fin n) (t t' : Table n) : Prop where
  size : t'.Size = t.Size
  hash : t'.Hash = t.Hash
  pNext : t'.pNext = t.pNext
  content : ∃ pList, t'.Content = update t.Content i { t.Content i with MemberList := pList }

theorem OnlyLists.refl (i : Fin n) (t : Table n) : OnlyLists i t t :=
  ⟨rfl, rfl, rfl, (t.Content i).MemberList, (update_eq_self i t.Content).symm⟩

theorem OnlyLists.trans {t'' : Table n} (h : OnlyLists i t t') (h' : OnlyLists i t' t'') :
    OnlyLists i t t'' := by
  obtain ⟨pList, hc⟩ := h.content
  obtain ⟨pList', hc'⟩ := h'.content
  refine ⟨h'.size.trans h.size, h'.hash.trans h.hash, h'.pNext.trans h.pNext, pList', ?_⟩
  rw [hc', hc, update_self, update_idem]

theorem onlyLists_release (t : Table n) (i : Fin n)
    (r : (Member → Option Member) × ListHeader Member) (m : Member) :
    OnlyLists i t ((t.setMembers i r).freeGrpMemberEntry m) := ⟨rfl, rfl, rfl, r.2, rfl⟩

theorem OnlyLists.entry (h : OnlyLists i t t') (j : Fin n) :
    ∃ pList, t'.Content j = { t.Content j with MemberList := pList } ∧
      (j ≠ i → t'.Content j = t.Content j) := by
  obtain ⟨pList, hc⟩ := h.content
  rcases eq_or_ne j i with rfl | hj
  · exact ⟨pList, by rw [hc, update_self], fun hne => absurd rfl hne⟩
  · have hsame : t'.Content j = t.Content j := by rw [hc, update_of_ne hj]
    exact ⟨(t.Content j).MemberList, hsame, fun _ => hsame⟩

theorem OnlyLists.key (h : OnlyLists i t t') (j : Fin n) :
    (t'.Content j).key = (t.Content j).key := by
  obtain ⟨pList, hc, -⟩ := h.entry j
  rw [hc]
  rfl

theorem OnlyLists.chained {chains : Nat → List (Fin n)} (h : OnlyLists i t t')
    (hc : Chained t chains) : Chained t' chains := by
  constructor
  · rw [h.hash, h.pNext]
    exact hc.chain
  · intro hash j
    obtain ⟨pList, he, -⟩ := h.entry j
    rw [he]
    exact hc.mem hash j

theorem hasMember_eq (h : Chain t.memberNext p l) (hturns : l.length < turns) :
    t.hasMember a turns p = some (decide (a ∈ l.map t.memberAddr)) := by
  induction l generalizing p turns with
  | nil =>
    obtain ⟨turns, rfl⟩ := Nat.exists_eq_add_of_lt hturns
    obtain rfl := chain_nil.mp h
    simp [Table.hasMember]
  | cons m l ih =>
    obtain ⟨turns, rfl⟩ := Nat.exists_eq_add_of_lt hturns
    obtain ⟨rfl, hrest⟩ := chain_cons.mp h
    rw [Table.hasMember]
    split
    · next ha => simp [ha]
    · next ha =>
      rw [ih hrest (by simp; omega)]
      simp [ha]

theorem deleteLoop_eq {p : Option Member} {l : List Member} {turns : Nat}
    (h : Chain t.memberNext p l) (hturns : l.length < turns) :
    t.deleteIgmpMemberLoop i a turns p =
      match l.find? fun m => a = t.memberAddr m with
      | none => some t
      | some m => (delEntryList t.memberNext (t.Content i).MemberList memberTurns m).map fun r =>
        (t.setMembers i r).freeGrpMemberEntry m := by
  induction l generalizing p turns with
  | nil =>
    obtain ⟨turns, rfl⟩ := Nat.exists_eq_add_of_lt hturns
    obtain rfl := chain_nil.mp h
    rfl
  | cons m l ih =>
    obtain ⟨turns, rfl⟩ := Nat.exists_eq_add_of_lt hturns
    obtain ⟨rfl, hrest⟩ := chain_cons.mp h
    rw [Table.deleteIgmpMemberLoop, List.find?_cons]
    by_cases ha : a = t.memberAddr m
    · simp [ha]
    · simp only [ha, if_false, decide_false]
      exact ih hrest (by simp; omega)

theorem Pooled.deleteIgmpMember (h : Pooled t own) (i : Fin n) (a : Mac) :
    a ∉ t.members own i ∧ t.deleteIgmpMember i a = some t ∨
    ∃ l₁ m l₂ t', own (some i) = l₁ ++ m :: l₂ ∧ t.memberAddr m = a ∧
      (∀ x ∈ l₁, t.memberAddr x ≠ a) ∧ t.deleteIgmpMember i a = some t' ∧
      Pooled t' (update (update own (some i) (l₁ ++ l₂)) none (own none ++ [m])) ∧
      OnlyLists i t t' ∧ t'.memberAddr = t.memberAddr := by
  have hchain : Chain t.memberNext (t.Content i).MemberList.pHead (own (some i)) :=
    (h.lists.list (some i)).chain
  have hloop := deleteLoop_eq (i := i) (a := a) hchain (Nat.lt_succ_of_le (h.length_le _))
  cases hf : (own (some i)).find? fun m => a = t.memberAddr m with
  | none =>
    left
    rw [hf] at hloop
    refine ⟨fun hmem => ?_, hloop⟩
    obtain ⟨m, hm, hma⟩ := List.mem_map.mp hmem
    have hno := List.find?_eq_none.mp hf m hm
    simp [hma] at hno
  | some m =>
    right
    rw [hf] at hloop
    obtain ⟨hm, l₁, l₂, hi, hpre⟩ := List.find?_eq_some_iff_append.mp hf
    obtain ⟨r, heq, -, hpool⟩ := h.release hi
    dsimp only at hloop
    rw [heq] at hloop
    refine ⟨l₁, m, l₂, _, hi, by simpa using Eq.symm (by simpa using hm), fun x hx => ?_, hloop, hpool,
      onlyLists_release t i r m, rfl⟩
    have hne := hpre x hx
    simp at hne
    exact fun he => hne he.symm

theorem Pooled.deleteListLoop {l : List Member} {turns : Nat} (h : Pooled t own)
    (hi : own (some i) = l) (hturns : l.length < turns) :
    ∃ t', Table.deleteIgmpMemberListLoop i turns t l.head? = some t' ∧
      Pooled t' (update (update own (some i) []) none (own none ++ l)) ∧ OnlyLists i t t' ∧
      t'.memberAddr = t.memberAddr := by
  induction l generalizing t own turns with
  | nil =>
    obtain ⟨turns, rfl⟩ := Nat.exists_eq_add_of_lt hturns
    refine ⟨t, rfl, ?_, OnlyLists.refl i t, rfl⟩
    rw [List.append_nil, ← hi, update_eq_self, update_eq_self]
    exact h
  | cons m l ih =>
    obtain ⟨turns, rfl⟩ := Nat.exists_eq_add_of_lt hturns
    obtain ⟨r, heq, hnext, hpool⟩ := h.release (hi.trans (List.nil_append _).symm)
    have hi' : update (update own (some i) ([] ++ l)) none (own none ++ [m]) (some i) = l := by
      rw [update_of_ne (by simp), update_self, List.nil_append]
    obtain ⟨t', hloop, hpool', honly, haddr⟩ :=
      ih hpool hi' (show l.length < l.length + 1 + turns by omega)
    have hhead : r.1 m = l.head? := by
      rw [hnext]
      have hchain := (h.lists.list (some i)).chain
      rw [hi] at hchain
      exact Chain.head_eq hchain.2
    refine ⟨t', ?_, ?_, (onlyLists_release t i r m).trans honly, haddr⟩
    · rw [List.head?_cons, Table.deleteIgmpMemberListLoop, heq]
      show Table.deleteIgmpMemberListLoop i _ _ (r.1 m) = some t'
      rw [hhead, ← hloop]
      congr 1
    · have hown : update (update (update (update own (some i) ([] ++ l)) none (own none ++ [m]))
          (some i) []) none
            (update (update own (some i) ([] ++ l)) none (own none ++ [m]) none ++ l) =
          update (update own (some i) []) none (own none ++ m :: l) := by
        funext k
        cases k with
        | none => simp
        | some j => by_cases hj : j = i <;> simp [hj]
      rwa [hown] at hpool'

def freed (own : Option (Fin n) → List Member) (i : Fin n) : Option (Fin n) → List Member :=
  update (update own (some i) []) none (own none ++ own (some i))

theorem Pooled.clear (h : Pooled t own) (hi : own (some i) = [])
    {t' : Table n} (hnext : t'.memberNext = t.memberNext)
    (hhdr : t'.hdr = update t.hdr (some i) initList) : Pooled t' own := by
  refine ⟨?_, h.cover⟩
  have hlists := h.lists.change (k := some i) (isList_init t.memberNext)
    (fun _ _ _ _ => rfl) (fun y hy => nomatch hy)
  rw [hnext, hhdr]
  rwa [← hi, update_eq_self] at hlists

theorem Pooled.deleteList (h : Pooled t own) (i : Fin n) :
    ∃ t', t.deleteIgmpMemberList i = some t' ∧ Pooled t' (freed own i) ∧ OnlyLists i t t' ∧
      t'.memberAddr = t.memberAddr := by
  have hhead := (h.lists.list (some i)).head_eq
  unfold Table.deleteIgmpMemberList
  cases hp : (t.Content i).MemberList.pHead with
  | none =>
    have hnil : own (some i) = [] := by
      rw [Table.hdr, hp] at hhead
      exact List.head?_eq_none_iff.mp hhead.symm
    refine ⟨t, rfl, ?_, OnlyLists.refl i t, rfl⟩
    unfold freed
    rw [hnil, List.append_nil, ← hnil, update_eq_self, update_eq_self]
    exact h
  | some cur =>
    obtain ⟨t', hloop, hpool, honly, haddr⟩ :=
      h.deleteListLoop rfl (Nat.lt_succ_of_le (h.length_le (some i)))
    rw [Table.hdr, hp] at hhead
    rw [← hhead] at hloop
    refine ⟨t'.setMembers i (t'.memberNext, initList), congrArg (Option.map _) hloop, ?_,
      honly.trans ⟨rfl, rfl, rfl, _, rfl⟩, haddr⟩
    refine Pooled.clear hpool ?_ rfl (hdr_setMembers t' i _)
    simp

theorem hdr_zeroEntry (t : Table n) (i : Fin n) :
    (t.zeroEntry i).hdr = update t.hdr (some i) initList := by
  funext k
  cases k with
  | none => simp [Table.hdr, Table.zeroEntry]
  | some j => by_cases hj : j = i <;> simp [Table.hdr, Table.zeroEntry, Entry.zero, hj]

theorem Pooled.zeroEntry (h : Pooled t own) (hi : own (some i) = []) :
    Pooled (t.zeroEntry i) own := h.clear hi rfl (hdr_zeroEntry t i)

end Pool

section Chains

variable {t t' : Table n} {chains : Nat → List (Fin n)} {own : Option (Fin n) → List Member}
  {i prev : Fin n} {hash : Nat} {l₁ l₂ : List (Fin n)}

theorem Chained.notMem (h : Chained t chains) (hi : i ∈ chains hash) {hash' : Nat}
    (hne : hash' ≠ hash) : i ∉ chains hash' := by
  intro hi'
  exact hne (((h.mem hash' i).mp hi').2.symm.trans ((h.mem hash i).mp hi).2)

theorem Chained.nodup (h : Chained t chains) (hash : Nat) : (chains hash).Nodup :=
  (h.chain hash).nodup

theorem notMem_of_split {l₁ l₂ : List (Fin n)} (h : (l₁ ++ i :: l₂).Nodup) : i ∉ l₁ ++ l₂ :=
  (List.nodup_cons.mp (List.nodup_middle.mp h)).1

theorem Chained.head_iff (h : Chained t chains) (hi : chains hash = l₁ ++ i :: l₂) :
    t.Hash hash = some i ↔ l₁ = [] := by
  have hhead := (h.chain hash).head_eq
  rw [hi] at hhead
  have hnodup := h.nodup hash
  rw [hi] at hnodup
  cases l₁ with
  | nil => exact iff_of_true hhead rfl
  | cons j l₁ =>
    refine iff_of_false (fun he => ?_) (List.cons_ne_nil j l₁)
    obtain rfl := Option.some.inj (hhead.symm.trans he)
    exact notMem_of_split hnodup (List.mem_append_left l₂ List.mem_cons_self)

theorem Chained.unlink_head (h : Chained t chains) (hi : chains hash = i :: l₂) (hash' : Nat) :
    Chain t.pNext (update t.Hash hash (t.pNext i) hash') (update chains hash l₂ hash') := by
  rcases eq_or_ne hash' hash with rfl | hne
  · rw [update_self, update_self]
    have hchain := h.chain hash'
    rw [hi] at hchain
    exact hchain.2
  · rw [update_of_ne hne, update_of_ne hne]
    exact h.chain hash'

theorem Chained.unlink_prev (h : Chained t chains) (hi : chains hash = l₁ ++ [prev] ++ i :: l₂)
    (hash' : Nat) :
    Chain (update t.pNext prev (t.pNext i)) (t.Hash hash')
      (update chains hash (l₁ ++ [prev] ++ l₂) hash') := by
  rcases eq_or_ne hash' hash with rfl | hne
  · rw [update_self]
    have hchain := h.chain hash'
    rw [hi] at hchain
    exact hchain.unlink
  · rw [update_of_ne hne]
    refine (h.chain hash').write_other (h.notMem ?_ hne)
    rw [hi]
    exact List.mem_append_left _ (List.mem_append_right _ (List.mem_singleton.mpr rfl))

theorem Chained.unlink (h : Chained t chains) (hi : chains hash = l₁ ++ i :: l₂)
    (hprev : l₁ ≠ [] → l₁.getLast? = some prev) (hash' : Nat) :
    Chain (t.unlink hash prev i).pNext ((t.unlink hash prev i).Hash hash')
      (update chains hash (l₁ ++ l₂) hash') := by
  unfold Table.unlink
  by_cases hnil : l₁ = []
  · rw [if_pos ((h.head_iff hi).mpr hnil)]
    subst hnil
    exact h.unlink_head hi hash'
  · rw [if_neg (mt (h.head_iff hi).mp hnil)]
    obtain ⟨init, hsplit⟩ := List.getLast?_eq_some_iff.mp (hprev hnil)
    rw [hsplit] at hi ⊢
    exact h.unlink_prev hi hash'

theorem Shape.drop (hn : n ≤ 255) (h : Shape t chains own) (hi : chains hash = l₁ ++ i :: l₂)
    (hchain : ∀ hash', Chain t'.pNext (t'.Hash hash') (update chains hash (l₁ ++ l₂) hash'))
    (hpool : Pooled t' (freed own i)) (hcontent : t'.Content = update t.Content i .zero)
    (haddr : t'.memberAddr = t.memberAddr) (hsize : t'.Size = (t.Size + 255) % 256) :
    Shape t' (update chains hash (l₁ ++ l₂)) (freed own i) := by
  have hmem : i ∈ chains hash := by
    rw [hi]
    exact List.mem_append_right _ List.mem_cons_self
  obtain ⟨hvalid, hhash⟩ := (h.chained.mem hash i).mp hmem
  have hnodup := h.chained.nodup hash
  rw [hi] at hnodup
  have hother : ∀ j, j ≠ i → t'.Content j = t.Content j := fun j hj => by
    rw [hcontent, update_of_ne hj]
  have hself : t'.Content i = .zero := by rw [hcontent, update_self]
  refine ⟨⟨hchain, fun hash' j => ?_⟩, hpool, ?_, ?_, fun j hj => ?_, fun j => ?_⟩
  · rcases eq_or_ne j i with rfl | hj
    · rw [hself]
      refine iff_of_false (fun hmem' => ?_) (fun h => nomatch h.1)
      rcases eq_or_ne hash' hash with rfl | hne
      · rw [update_self] at hmem'
        exact notMem_of_split hnodup hmem'
      · rw [update_of_ne hne] at hmem'
        exact h.chained.notMem hmem hne hmem'
    · rw [hother j hj, ← h.chained.mem hash' j]
      rcases eq_or_ne hash' hash with rfl | hne
      · rw [update_self, hi]
        simp [hj]
      · rw [update_of_ne hne]
  · rw [hcontent]
    exact h.distinct.update fun j _ k hk => nomatch hk
  · have hkey : (Entry.key (t.Content i)).isSome := by simp [Entry.key, hvalid]
    have hused := Slots.used_free (a := Entry.zero) hkey rfl
    have hle : Slots.used Entry.key t.Content ≤ n := Slots.used_le
    rw [hsize, h.size, hcontent]
    omega
  · rcases eq_or_ne j i with rfl | hne
    · simp [freed]
    · rw [hother j hne] at hj
      simpa [freed, hne] using h.vacant j hj
  · unfold Table.members
    rw [haddr]
    rcases eq_or_ne j i with rfl | hne
    · simp [freed]
    · have hj := h.nodup j
      unfold Table.members at hj
      simpa [freed, hne] using hj

theorem Shape.release (hn : n ≤ 255) (h : Shape t chains own) (hi : chains hash = l₁ ++ i :: l₂)
    (hchain : ∀ hash', Chain t'.pNext (t'.Hash hash') (update chains hash (l₁ ++ l₂) hash'))
    (hpool : Pooled t' own) (hcontent : ∀ j, j ≠ i → t'.Content j = t.Content j)
    (haddr : t'.memberAddr = t.memberAddr) :
    ∃ t₂ : Table n, t'.deleteIgmpMemberList i = some t₂ ∧ OnlyLists i t' t₂ ∧
      ∀ t₃ : Table n, t₃ = { t₂.zeroEntry i with Size := (t.Size + 255) % 256 } →
        Shape t₃ (update chains hash (l₁ ++ l₂)) (freed own i) ∧
        t₃.Content = update t.Content i .zero ∧ t₃.memberAddr = t.memberAddr := by
  obtain ⟨t₂, heq, hpool₂, honly, haddr₂⟩ := hpool.deleteList i
  refine ⟨t₂, heq, honly, ?_⟩
  rintro t₃ rfl
  have hcontent₃ : (t₂.zeroEntry i).Content = update t.Content i .zero := by
    obtain ⟨pList, hc⟩ := honly.content
    show update t₂.Content i .zero = _
    funext j
    rcases eq_or_ne j i with rfl | hj
    · rw [update_self, update_self]
    · rw [update_of_ne hj, update_of_ne hj, hc, update_of_ne hj, hcontent j hj]
  have hi' : ∀ hash', i ∉ update chains hash (l₁ ++ l₂) hash' := by
    intro hash'
    have hnodup := h.chained.nodup hash
    rw [hi] at hnodup
    rcases eq_or_ne hash' hash with rfl | hne
    · rw [update_self]
      exact notMem_of_split hnodup
    · rw [update_of_ne hne]
      exact h.chained.notMem (by rw [hi]; simp) hne
  refine ⟨h.drop hn hi (fun hash' => ?_) ?_ hcontent₃ (haddr₂.trans haddr) rfl, hcontent₃,
    haddr₂.trans haddr⟩
  · have hunlinked := hchain hash'
    rw [← honly.hash, ← honly.pNext] at hunlinked
    exact hunlinked.write_other (hi' hash')
  · have hnil : freed own i (some i) = [] := by simp [freed]
    have hzero := hpool₂.zeroEntry hnil
    exact ⟨hzero.lists, hzero.cover⟩

theorem unlink_same (t : Table n) (hash : Nat) (prev i : Fin n) :
    ∃ links heads, t.unlink hash prev i = { t with Hash := heads, pNext := links } := by
  unfold Table.unlink
  split
  · exact ⟨t.pNext, _, rfl⟩
  · exact ⟨_, t.Hash, rfl⟩

theorem Shape.removeEntry (hn : n ≤ 255) (h : Shape t chains own)
    (hi : chains hash = l₁ ++ i :: l₂) (hprev : l₁ ≠ [] → l₁.getLast? = some prev) :
    ∃ t', t.removeEntry hash prev i = some t' ∧
      Shape t' (update chains hash (l₁ ++ l₂)) (freed own i) ∧
      t'.Content = update t.Content i .zero ∧ t'.memberAddr = t.memberAddr := by
  have hunlink := h.chained.unlink hi hprev
  obtain ⟨links, heads, hsame⟩ := unlink_same t hash prev i
  rw [hsame] at hunlink
  obtain ⟨t₂, heq, honly, hrest⟩ := h.release hn hi hunlink ⟨h.pooled.lists, h.pooled.cover⟩
    (fun _ _ => rfl) rfl
  refine ⟨(t₂.zeroEntry i).decSize, ?_, hrest _ ?_⟩
  · rw [Table.removeEntry, hsame, heq]
    rfl
  · show { t₂.zeroEntry i with Size := (t₂.Size + 255) % 256 } = _
    rw [honly.size]

end Chains

section Members

variable {t t' : Table n} {chains : Nat → List (Fin n)} {own own' : Option (Fin n) → List Member}
  {i : Fin n} {a : Mac}

theorem Shape.onlyLists (h : Shape t chains own) (honly : OnlyLists i t t') (hpool : Pooled t' own')
    (hi : (t.Content i).Valid = true) (hnodup : (t'.members own' i).Nodup)
    (hother : ∀ j, j ≠ i → own' (some j) = own (some j) ∧ t'.members own' j = t.members own j) :
    Shape t' chains own' := by
  have hkey : ∀ j, Entry.key (t'.Content j) = Entry.key (t.Content j) := honly.key
  refine ⟨honly.chained h.chained, hpool, fun j j' k hj hj' => ?_, ?_, fun j hj => ?_, fun j => ?_⟩
  · rw [hkey] at hj hj'
    exact h.distinct j j' k hj hj'
  · rw [honly.size, h.size]
    unfold Slots.used
    simp only [hkey]
  · obtain ⟨pList, he, -⟩ := honly.entry j
    rw [he] at hj
    rcases eq_or_ne j i with rfl | hne
    · exact absurd hi (by rw [hj]; exact Bool.false_ne_true)
    · rw [(hother j hne).1]
      exact h.vacant j hj
  · rcases eq_or_ne j i with rfl | hne
    · exact hnodup
    · rw [(hother j hne).2]
      exact h.nodup j

theorem Shape.igmpMemberCnt (h : Shape t chains own) (i : Fin n) :
    t.igmpMemberCnt i = (t.members own i).length := by
  have hsize := (h.pooled.lists.list (some i)).size
  have hle := h.pooled.length_le (some i)
  unfold FREE_MEMBER_POOL_SIZE at hle
  rw [Nat.mod_eq_of_lt (by omega)] at hsize
  rw [Table.members, List.length_map]
  exact hsize

theorem Shape.deleteMember (h : Shape t chains own) (hi : (t.Content i).Valid = true) (a : Mac) :
    ∃ t' own', t.deleteIgmpMember i a = some t' ∧ Shape t' chains own' ∧ OnlyLists i t t' ∧
      t'.members own' i = (t.members own i).erase a ∧
      ∀ j, j ≠ i → t'.members own' j = t.members own j := by
  rcases h.pooled.deleteIgmpMember i a with ⟨ha, heq⟩ |
    ⟨l₁, m, l₂, t', hown, rfl, hpre, heq, hpool, honly, haddr⟩
  · exact ⟨t, own, heq, h, OnlyLists.refl i t, (List.erase_of_not_mem ha).symm, fun _ _ => rfl⟩
  · have hself : t'.members (update (update own (some i) (l₁ ++ l₂)) none (own none ++ [m])) i =
        (t.members own i).erase (t.memberAddr m) := by
      have hnot : t.memberAddr m ∉ l₁.map t.memberAddr := by
        intro hmem
        obtain ⟨x, hx, hxm⟩ := List.mem_map.mp hmem
        exact hpre x hx hxm
      rw [Table.members, Table.members, hown, haddr, List.map_append, List.map_cons,
        List.erase_append_right _ hnot, List.erase_cons_head]
      simp
    have hother : ∀ j, j ≠ i →
        update (update own (some i) (l₁ ++ l₂)) none (own none ++ [m]) (some j) = own (some j) ∧
        t'.members (update (update own (some i) (l₁ ++ l₂)) none (own none ++ [m])) j =
          t.members own j := by
      intro j hj
      simp [Table.members, haddr, hj]
    refine ⟨t', _, heq, h.onlyLists honly hpool hi ?_ hother, honly, hself, fun j hj => (hother j hj).2⟩
    rw [hself]
    exact (h.nodup i).erase _

theorem onlyLists_insert (t : Table n) (i : Fin n) (a : Mac) :
    OnlyLists i t (t.insertIgmpMember i a) := by
  unfold Table.insertIgmpMember
  rcases removeHeadList t.memberNext t.freeEntryList with ⟨_ | pMember, free⟩
  · exact OnlyLists.refl i t
  · exact ⟨rfl, rfl, rfl, _, rfl⟩

theorem Shape.insertMember (h : Shape t chains own) (hi : (t.Content i).Valid = true)
    (ha : a ∉ t.members own i) :
    ∃ own', Shape (t.insertIgmpMember i a) chains own' ∧ OnlyLists i t (t.insertIgmpMember i a) ∧
      (t.insertIgmpMember i a).members own' i =
        (if own none = [] then t.members own i else t.members own i ++ [a]) ∧
      ∀ j, j ≠ i → (t.insertIgmpMember i a).members own' j = t.members own j := by
  cases hfree : own none with
  | nil =>
    have hlist := h.pooled.lists.list none
    rw [hfree] at hlist
    have hsame : t.insertIgmpMember i a = t := by
      have hno : (removeHeadList t.memberNext t.freeEntryList).1 = none := removeHead_nil hlist
      unfold Table.insertIgmpMember
      split
      · rfl
      · next heq => rw [heq] at hno; cases hno
    rw [hsame]
    exact ⟨own, h, OnlyLists.refl i t, rfl, fun _ _ => rfl⟩
  | cons m l =>
    obtain ⟨hhead, hpop⟩ := h.pooled.lists.removeHead hfree
    have hloose := h.pooled.lists.notMem_of_taken (hfree.trans (List.nil_append _).symm)
    obtain ⟨t₁, ht₁⟩ : ∃ t₁ : Table n, t₁ = { t with
        freeEntryList := (removeHeadList t.memberNext t.freeEntryList).2
        memberNext := update t.memberNext m none
        memberAddr := update t.memberAddr m a } := ⟨_, rfl⟩
    have heq : t.insertIgmpMember i a = t₁.setMembers i
        (insertTailList t₁.memberNext (t₁.Content i).MemberList m) := by
      unfold Table.insertIgmpMember
      split
      · next hr => exact nomatch (congrArg Prod.fst hr).symm.trans hhead
      · next m' free hr =>
        obtain rfl := Option.some.inj ((congrArg Prod.fst hr).symm.trans hhead)
        rw [ht₁, hr]
    have hhdr : t₁.hdr = update t.hdr none (removeHeadList t.memberNext t.freeEntryList).2 := by
      rw [ht₁]
      exact hdr_free t t.memberNext _
    have hlists := (hpop.write_other hloose none).insertTail (some i) hloose
    have hlists' : Lists (t₁.setMembers i
          (insertTailList t₁.memberNext (t₁.Content i).MemberList m)).memberNext
        (t₁.setMembers i (insertTailList t₁.memberNext (t₁.Content i).MemberList m)).hdr
        (update (update own none l) (some i) (own (some i) ++ [m])) := by
      rw [hdr_setMembers, hhdr]
      rw [update_of_ne (Option.some_ne_none i)] at hlists
      rw [ht₁]
      exact hlists
    have hpool : Pooled (t.insertIgmpMember i a)
        (update (update own none l) (some i) (own (some i) ++ [m])) := by
      rw [heq]
      exact ⟨hlists', cover_move h.pooled.cover
        (hfree.trans (List.nil_append _).symm) (Option.some_ne_none i)⟩
    have honly := onlyLists_insert t i a
    have haddr : (t.insertIgmpMember i a).memberAddr = update t.memberAddr m a := by
      rw [heq, ht₁]
      rfl
    have hm : ∀ j, m ∉ own (some j) := fun j hmem =>
      nomatch h.pooled.lists.apart (some j) none m hmem (by rw [hfree]; exact List.mem_cons_self)
    have hmap : ∀ j, (own (some j)).map (update t.memberAddr m a) = t.members own j := fun j =>
      List.map_congr_left fun x hx => update_of_ne (ne_of_mem_of_not_mem hx (hm j)) _ _
    have hself : (t.insertIgmpMember i a).members
        (update (update own none l) (some i) (own (some i) ++ [m])) i =
        t.members own i ++ [a] := by
      rw [Table.members, haddr, update_self, List.map_append, hmap]
      simp
    have hother : ∀ j, j ≠ i →
        update (update own none l) (some i) (own (some i) ++ [m]) (some j) = own (some j) ∧
        (t.insertIgmpMember i a).members
          (update (update own none l) (some i) (own (some i) ++ [m])) j = t.members own j := by
      intro j hj
      have hown : update (update own none l) (some i) (own (some i) ++ [m]) (some j) =
          own (some j) := by simp [hj]
      rw [Table.members, haddr, hown, hmap]
      exact ⟨rfl, rfl⟩
    refine ⟨_, h.onlyLists honly hpool hi ?_ hother, honly, ?_, fun j hj => (hother j hj).2⟩
    · rw [hself]
      exact List.nodup_append.mpr ⟨h.nodup i, List.nodup_singleton a, fun x hx y hy =>
        List.mem_singleton.mp hy ▸ ne_of_mem_of_not_mem hx ha⟩
    · rw [hself, if_neg (List.cons_ne_nil m l)]

end Members
end Ralink.Igmp
