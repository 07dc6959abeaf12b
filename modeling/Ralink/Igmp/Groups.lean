import Ralink.Igmp.Shape

/-! What the table is for: each group on each device with its members, in the order in which they
came. The groups that a table holds, and what its functions do to them. -/
namespace Ralink.Igmp
open Function Links

/-- The type and the members of each group that there is. -/
abbrev Groups := Mac × Nat → Option (FilterType × List Mac)

namespace Groups

def insert (g : Groups) (k : Mac × Nat) (member : Option Mac) (type : FilterType) : Groups :=
  match g k, member with
  | none, member => update g k (some (type, member.toList))
  | some _, none => g
  | some (type', ms), some a => if a ∈ ms then g else update g k (some (type', ms ++ [a]))

def delete (g : Groups) (k : Mac × Nat) (member : Option Mac) : Groups :=
  match g k with
  | none => g
  | some (type, ms) =>
    let ms := member.elim ms ms.erase
    if member.isSome ∧ ms ≠ [] then update g k (some (type, ms)) else update g k none

variable {g : Groups} {k : Mac × Nat} {type type' : FilterType} {ms : List Mac} {a : Mac}

theorem insert_new (h : g k = none) (member : Option Mac) (type : FilterType) :
    g.insert k member type = update g k (some (type, member.toList)) := by
  simp [Groups.insert, h]

theorem insert_bare (h : g k = some (type', ms)) : g.insert k none type = g := by
  simp [Groups.insert, h]

theorem insert_mem (h : g k = some (type', ms)) (ha : a ∈ ms) : g.insert k (some a) type = g := by
  simp [Groups.insert, h, ha]

theorem insert_join (h : g k = some (type', ms)) (ha : a ∉ ms) :
    g.insert k (some a) type = update g k (some (type', ms ++ [a])) := by
  simp [Groups.insert, h, ha]

theorem insert_other {k' : Mac × Nat} (hne : k' ≠ k) (member : Option Mac) :
    g.insert k member type k' = g k' := by
  cases hk : g k with
  | none => rw [insert_new hk, update_of_ne hne]
  | some e =>
    obtain ⟨type', ms⟩ := e
    cases member with
    | none => rw [insert_bare hk]
    | some a =>
      by_cases ha : a ∈ ms
      · rw [insert_mem hk ha]
      · rw [insert_join hk ha, update_of_ne hne]

end Groups

variable {n : Nat}

def Table.memberList (t : Table n) (i : Fin n) : List Mac :=
  (walk t.memberNext memberTurns (t.Content i).MemberList.pHead).map t.memberAddr

def Table.groups (t : Table n) : Groups := fun k =>
  (Slots.find Entry.key t.Content k).map fun i => ((t.Content i).type, t.memberList i)

section View

variable {t t' : Table n} {chains chains' : Nat → List (Fin n)}
  {own own' : Option (Fin n) → List Member} {i j : Fin n} {k : Mac × Nat}

theorem Shape.memberList (h : Shape t chains own) (i : Fin n) :
    t.memberList i = t.members own i := by
  have hchain := (h.pooled.lists.list (some i)).chain
  have hwalk := hchain.walk_eq ((h.pooled.length_le (some i)).trans (Nat.le_succ _))
  exact congrArg (List.map t.memberAddr) hwalk

theorem key_eq_some {e : Entry} :
    e.key = some k ↔ e.Valid = true ∧ e.Addr = k.1 ∧ e.net_dev = k.2 := by
  unfold Entry.key
  cases e.Valid <;> simp [Prod.ext_iff]

theorem key_eq_none {e : Entry} : e.key = none ↔ e.Valid = false := by
  unfold Entry.key
  cases e.Valid <;> simp

theorem key_of_isFor {e : Entry} (hv : e.Valid = true) :
    e.isFor k.1 k.2 = true ↔ e.key = some k := by
  rw [key_eq_some, Entry.isFor, decide_eq_true_eq]
  exact ⟨fun h => ⟨hv, h.2, h.1⟩, fun h => ⟨h.2.2, h.2.1⟩⟩

theorem Shape.groups_of_key (h : Shape t chains own) (hk : (t.Content i).key = some k) :
    t.groups k = some ((t.Content i).type, t.members own i) := by
  rw [Table.groups, h.distinct.find_eq_some.mpr hk, Option.map_some, h.memberList]

theorem groups_eq_none :
    t.groups k = none ↔ ∀ i, (t.Content i).key ≠ some k := by
  rw [Table.groups, Option.map_eq_none_iff, Slots.find_eq_none]

section

variable (h : Shape t chains own)
include h

theorem Shape.exists_key {e : FilterType × List Mac} (he : t.groups k = some e) :
    ∃ i, (t.Content i).key = some k ∧ e = ((t.Content i).type, t.members own i) := by
  obtain ⟨i, hi, rfl⟩ := Option.map_eq_some_iff.mp he
  exact ⟨i, Slots.key_of_find hi, by rw [h.memberList]⟩

theorem Shape.groups_congr (h' : Shape t' chains' own')
    (hsame : ∀ i, (t.Content i).key = some k ↔ (t'.Content i).key = some k)
    (hentry : ∀ i, (t.Content i).key = some k →
      (t'.Content i).type = (t.Content i).type ∧ t'.members own' i = t.members own i) :
    t'.groups k = t.groups k := by
  cases hf : Slots.find Entry.key t.Content k with
  | none =>
    have hno := Slots.find_eq_none.mp hf
    rw [groups_eq_none.mpr hno, groups_eq_none.mpr fun i hi => hno i ((hsame i).mpr hi)]
  | some i =>
    have hi := Slots.key_of_find hf
    obtain ⟨htype, hmembers⟩ := hentry i hi
    rw [h.groups_of_key hi, h'.groups_of_key ((hsame i).mp hi), htype, hmembers]

theorem Shape.groups_onlyLists (h' : Shape t' chains' own') (honly : OnlyLists i t t')
    (hk : (t.Content i).key = some k) (hother : ∀ j, j ≠ i → t'.members own' j = t.members own j) :
    t'.groups = update t.groups k (some ((t.Content i).type, t'.members own' i)) := by
  have hkey : ∀ j, (t'.Content j).key = (t.Content j).key := honly.key
  have htype : ∀ j, (t'.Content j).type = (t.Content j).type := by
    intro j
    obtain ⟨pList, he, -⟩ := honly.entry j
    rw [he]
  funext k'
  rcases eq_or_ne k' k with rfl | hne
  · rw [update_self, h'.groups_of_key (by rw [hkey, hk]), htype]
  · rw [update_of_ne hne]
    refine h.groups_congr h' (fun j => by rw [hkey]) fun j hj => ⟨htype j, hother j ?_⟩
    rintro rfl
    exact hne (Option.some.inj (hj.symm.trans hk))

theorem Shape.groups_drop (h' : Shape t' chains' (freed own i)) (hk : (t.Content i).key = some k)
    (hcontent : t'.Content = update t.Content i .zero) (haddr : t'.memberAddr = t.memberAddr) :
    t'.groups = update t.groups k none := by
  have hself : (t'.Content i).key = none := by
    rw [hcontent, update_self]
    rfl
  have hother : ∀ j, j ≠ i → t'.Content j = t.Content j := fun j hj => by
    rw [hcontent, update_of_ne hj]
  funext k'
  rcases eq_or_ne k' k with rfl | hne
  · rw [update_self]
    refine groups_eq_none.mpr fun j hj => ?_
    rcases eq_or_ne j i with rfl | hji
    · rw [hself] at hj
      cases hj
    · rw [hother j hji] at hj
      exact hji (h.distinct j i k' hj hk)
  · rw [update_of_ne hne]
    refine h.groups_congr h' (fun j => ?_) fun j hj => ?_
    · rcases eq_or_ne j i with rfl | hji
      · rw [hself, hk]
        exact iff_of_false (fun he => hne (Option.some.inj he).symm) (fun he => nomatch he)
      · rw [hother j hji]
    · have hji : j ≠ i := by
        rintro rfl
        exact hne (Option.some.inj (hj.symm.trans hk))
      rw [hother j hji, Table.members, Table.members, haddr, freed,
        update_of_ne (Option.some_ne_none j), update_of_ne (fun he => hji (Option.some.inj he))]
      exact ⟨rfl, rfl⟩

theorem Shape.groups_add (h' : Shape t' chains' own') (hi : (t.Content i).key = none)
    (hnone : t.groups k = none) (hk : (t'.Content i).key = some k)
    (hother : ∀ j, j ≠ i → t'.Content j = t.Content j ∧ t'.members own' j = t.members own j) :
    t'.groups = update t.groups k (some ((t'.Content i).type, t'.members own' i)) := by
  funext k'
  rcases eq_or_ne k' k with rfl | hne
  · rw [update_self, h'.groups_of_key hk]
  · rw [update_of_ne hne]
    refine h.groups_congr h' (fun j => ?_) fun j hj => ?_
    · rcases eq_or_ne j i with rfl | hji
      · rw [hi, hk]
        exact iff_of_false (fun he => nomatch he) fun he => hne (Option.some.inj he).symm
      · rw [(hother j hji).1]
    · have hji : j ≠ i := by
        rintro rfl
        rw [hi] at hj
        cases hj
      rw [(hother j hji).1, (hother j hji).2]
      exact ⟨rfl, rfl⟩

end

end View
end Ralink.Igmp

/-! The loops along a hash chain: the search of a deletion, and the lookup, which takes the entries
that have aged out of the chain while it goes along it. -/
namespace Ralink.Igmp
open Function Links

def Table.Shaped {n : Nat} (t : Table n) : Prop := ∃ chains own, Shape t chains own

section Search

variable {n : Nat} {t t' : Table n} {chains : Nat → List (Fin n)}
  {own : Option (Fin n) → List Member} {i prev : Fin n} {hash turns dev : Nat} {grp addr : Mac}
  {p : Option (Fin n)} {l l₁ l₂ : List (Fin n)}

section

variable (h : Shape t chains own)
include h

theorem Shape.shaped : t.Shaped := ⟨chains, own, h⟩

theorem Shape.valid_of_mem (hi : i ∈ chains hash) :
    (t.Content i).Valid = true := ((h.chained.mem hash i).mp hi).1

theorem Shape.notMem_vacant (hv : (t.Content i).Valid = false) (hash : Nat) : i ∉ chains hash := by
  intro hi
  have hvalid := h.valid_of_mem hi
  rw [hv] at hvalid
  cases hvalid

theorem Shape.mem_of_key (hk : (t.Content i).key = some (grp, dev)) :
    i ∈ chains (hashIndex n grp) := by
  obtain ⟨hv, haddr, -⟩ := key_eq_some.mp hk
  refine (h.chained.mem _ i).mpr ⟨hv, ?_⟩
  rw [haddr]

theorem Shape.length_chain (hash : Nat) : (chains hash).length ≤ n := by
  have hle := (h.chained.nodup hash).length_le_card
  rwa [Fintype.card_fin] at hle

theorem Shape.key_before (hi : chains hash = l₁ ++ i :: l₂) {k : Mac × Nat}
    (hk : (t.Content i).key = some k) {j : Fin n} (hj : j ∈ l₁) : (t.Content j).key ≠ some k := by
  intro hjk
  obtain rfl := h.distinct j i k hjk hk
  have hnodup := h.chained.nodup hash
  rw [hi] at hnodup
  exact notMem_of_split hnodup (List.mem_append_left l₂ hj)

end

theorem findLoop_found (h : Seg t.pNext p l (some i)) (hi : (t.Content i).key = some (grp, dev))
    (hl : ∀ j ∈ l, (t.Content j).Valid = true ∧ (t.Content j).key ≠ some (grp, dev))
    (hturns : l.length < turns) :
    t.findLoop grp dev turns prev p = some (l.getLast?.getD prev, some i) := by
  induction l generalizing turns prev p with
  | nil =>
    obtain ⟨turns, rfl⟩ := Nat.exists_eq_add_of_lt hturns
    obtain rfl := seg_nil.mp h
    have hv := (key_eq_some.mp hi).1
    have hfor : (t.Content i).isFor grp dev = true := (key_of_isFor hv).mpr hi
    simp [Table.findLoop, hfor]
  | cons j l ih =>
    obtain ⟨turns, rfl⟩ := Nat.exists_eq_add_of_lt hturns
    obtain ⟨rfl, hrest⟩ := seg_cons.mp h
    obtain ⟨hv, hne⟩ := hl j List.mem_cons_self
    have hfor : ¬ (t.Content j).isFor grp dev = true := mt (key_of_isFor (k := (grp, dev)) hv).mp hne
    have hlen : l.length < (j :: l).length + turns := by simp; omega
    rw [Table.findLoop, if_neg (by simp [hv, hfor]),
      ih hrest (fun x hx => hl x (List.mem_cons_of_mem j hx)) hlen]
    cases l with
    | nil => rfl
    | cons x l => simp [List.getLast?_cons]

theorem findLoop_none (prev : Fin n) (h : Chain t.pNext p l)
    (hl : ∀ j ∈ l, (t.Content j).Valid = true ∧ (t.Content j).key ≠ some (grp, dev))
    (hturns : l.length < turns) : ∃ last, t.findLoop grp dev turns prev p = some (last, none) := by
  induction l generalizing turns prev p with
  | nil =>
    obtain ⟨turns, rfl⟩ := Nat.exists_eq_add_of_lt hturns
    obtain rfl := chain_nil.mp h
    exact ⟨prev, by simp [Table.findLoop]⟩
  | cons j l ih =>
    obtain ⟨turns, rfl⟩ := Nat.exists_eq_add_of_lt hturns
    obtain ⟨rfl, hrest⟩ := chain_cons.mp h
    obtain ⟨hv, hne⟩ := hl j List.mem_cons_self
    have hfor : ¬ (t.Content j).isFor grp dev = true := mt (key_of_isFor (k := (grp, dev)) hv).mp hne
    have hlen : l.length < (j :: l).length + turns := by simp; omega
    rw [Table.findLoop, if_neg (by simp [hv, hfor])]
    exact ih j hrest (fun x hx => hl x (List.mem_cons_of_mem j hx)) hlen

def Table.Sheds (t t' : Table n) : Prop :=
  ∀ j k, (t'.Content j).key = some k → (t.Content j).key = some k

theorem sheds_zero (hcontent : t'.Content = update t.Content i .zero) : t.Sheds t' := by
  intro j k hk
  rw [hcontent] at hk
  rcases eq_or_ne j i with rfl | hj
  · rw [update_self] at hk
    cases hk
  · rwa [update_of_ne hj] at hk

theorem OnlyLists.sheds (h : OnlyLists i t t') : t.Sheds t' := fun j _ hk => (h.key j).symm.trans hk

theorem Table.Sheds.trans {t'' : Table n} (h : t.Sheds t') (h' : t'.Sheds t'') : t.Sheds t'' :=
  fun j k hk => h j k (h' j k hk)

theorem Shape.leaveEntry (hn : n ≤ 255) (h : Shape t chains own) {k : Mac × Nat}
    (hi : chains hash = l₁ ++ i :: l₂) (hprev : l₁ ≠ [] → l₁.getLast? = some prev)
    (hk : (t.Content i).key = some k) (member : Option Mac) :
    ∃ t', ((member.elim (some t) (t.deleteIgmpMember i)).bind fun t =>
        if member.isSome ∧ t.igmpMemberCnt i > 0 then some t
        else t.removeEntry hash prev i) = some t' ∧
      t'.Shaped ∧ t'.groups = t.groups.delete k member ∧ t.Sheds t' := by
  have hv := (key_eq_some.mp hk).1
  have hgroup := h.groups_of_key hk
  cases member with
  | none =>
    obtain ⟨t', heq, h', hcontent, haddr⟩ := h.removeEntry hn hi hprev
    refine ⟨t', ?_, h'.shaped, ?_, sheds_zero hcontent⟩
    · simpa using heq
    · rw [h.groups_drop h' hk hcontent haddr, Groups.delete, hgroup]
      simp
  | some a =>
    obtain ⟨t₁, own₁, heq₁, h₁, honly, hself, hother⟩ := h.deleteMember hv a
    have hk₁ : (t₁.Content i).key = some k := by rw [honly.key, hk]
    have hgroups₁ := h.groups_onlyLists h₁ honly hk hother
    have hcnt := h₁.igmpMemberCnt i
    rw [hself] at hgroups₁ hcnt
    by_cases hnil : (t.members own i).erase a = []
    · obtain ⟨t', heq, h', hcontent, haddr⟩ := h₁.removeEntry hn hi hprev
      refine ⟨t', ?_, h'.shaped, ?_, honly.sheds.trans (sheds_zero hcontent)⟩
      · rw [Option.elim_some, heq₁, Option.bind_some, hcnt, hnil, if_neg (by simp), heq]
      · rw [h₁.groups_drop h' hk₁ hcontent haddr, hgroups₁, update_idem, Groups.delete, hgroup]
        simp [hnil]
    · refine ⟨t₁, ?_, h₁.shaped, ?_, honly.sheds⟩
      · rw [Option.elim_some, heq₁, Option.bind_some, hcnt,
          if_pos ⟨rfl, List.length_pos_iff.mpr hnil⟩]
      · rw [hgroups₁, Groups.delete, hgroup]
        simp [hnil]

theorem Shape.deleteEntry (hn : n ≤ 255) (h : Shape t chains own) (grp : Mac)
    (member : Option Mac) (dev : Nat) :
    ∃ t', t.multicastFilterTableDeleteEntry grp member dev = some t' ∧ t'.Shaped ∧
      t'.groups = t.groups.delete (grp, dev) member ∧ t.Sheds t' := by
  have hchain := h.chained.chain (hashIndex n grp)
  have hlen := Nat.lt_succ_of_le (h.length_chain (hashIndex n grp))
  unfold Table.multicastFilterTableDeleteEntry
  by_cases hex : ∃ i, (t.Content i).key = some (grp, dev)
  · obtain ⟨i, hk⟩ := hex
    obtain ⟨l₁, l₂, hi⟩ := List.append_of_mem (h.mem_of_key hk)
    have hbefore : ∀ j ∈ l₁, (t.Content j).Valid = true ∧ (t.Content j).key ≠ some (grp, dev) :=
      fun j hj => ⟨h.valid_of_mem (by rw [hi]; exact List.mem_append_left _ hj),
        h.key_before hi hk hj⟩
    rw [hi] at hchain hlen
    obtain ⟨r, hseg, hrest⟩ := chain_append.mp hchain
    obtain ⟨rfl, -⟩ := chain_cons.mp hrest
    rw [List.length_append] at hlen
    cases hhead : t.Hash (hashIndex n grp) with
    | none =>
      rw [hhead] at hchain
      have hnil := List.head?_eq_none_iff.mp hchain.head_eq.symm
      simp at hnil
    | some head =>
      rw [hhead] at hseg
      dsimp only
      rw [findLoop_found hseg hk hbefore (by omega), Option.bind_some]
      refine h.leaveEntry hn hi (fun hne => ?_) hk member
      obtain ⟨last, hlast⟩ := Option.ne_none_iff_exists'.mp (mt List.getLast?_eq_none_iff.mp hne)
      rw [hlast, Option.getD_some]
  · have hnone : t.groups (grp, dev) = none :=
      groups_eq_none.mpr fun i hk => hex ⟨i, hk⟩
    have hsame : t.groups.delete (grp, dev) member = t.groups := by
      rw [Groups.delete, hnone]
    rw [hsame]
    cases hhead : t.Hash (hashIndex n grp) with
    | none => exact ⟨t, rfl, h.shaped, rfl, fun _ _ hk => hk⟩
    | some head =>
      rw [hhead] at hchain
      obtain ⟨last, hloop⟩ := findLoop_none head hchain
        (fun j hj => ⟨h.valid_of_mem hj, fun hk => hex ⟨j, hk⟩⟩) hlen
      refine ⟨t, ?_, h.shaped, rfl, fun _ _ hk => hk⟩
      dsimp only
      rw [hloop]
      rfl

def Table.touch (t : Table n) (i : Fin n) (now : BitVec 32) : Table n :=
  { t with Content := update t.Content i { t.Content i with lastTime := now } }

theorem touch_entry (t : Table n) (i : Fin n) (now : BitVec 32) (j : Fin n) :
    ∃ time, (t.touch i now).Content j = { t.Content j with lastTime := time } := by
  by_cases hj : j = i
  · exact ⟨now, by simp [Table.touch, hj]⟩
  · exact ⟨(t.Content j).lastTime, by simp [Table.touch, hj]⟩

theorem touch_key (t : Table n) (i : Fin n) (now : BitVec 32) (j : Fin n) :
    ((t.touch i now).Content j).key = (t.Content j).key := by
  obtain ⟨time, he⟩ := touch_entry t i now j
  rw [he]
  rfl

theorem Shape.touch (h : Shape t chains own) (i : Fin n) (now : BitVec 32) :
    Shape (t.touch i now) chains own := by
  have hkey := touch_key t i now
  refine ⟨⟨h.chained.chain, fun hash j => ?_⟩, ⟨?_, h.pooled.cover⟩, fun j j' k hj hj' => ?_, ?_,
    fun j hj => ?_, h.nodup⟩
  · obtain ⟨time, he⟩ := touch_entry t i now j
    rw [he]
    exact h.chained.mem hash j
  · have hhdr : (t.touch i now).hdr = t.hdr := by
      funext k
      cases k with
      | none => rfl
      | some j =>
        obtain ⟨time, he⟩ := touch_entry t i now j
        exact (congrArg Entry.MemberList he).trans rfl
    rw [hhdr]
    exact h.pooled.lists
  · rw [hkey] at hj hj'
    exact h.distinct j j' k hj hj'
  · show t.Size = _
    rw [h.size]
    unfold Slots.used
    simp only [hkey]
  · obtain ⟨time, he⟩ := touch_entry t i now j
    rw [he] at hj
    exact h.vacant j hj

theorem Shape.groups_touch (h : Shape t chains own) (i : Fin n) (now : BitVec 32) :
    (t.touch i now).groups = t.groups := by
  funext k
  refine h.groups_congr (h.touch i now) (fun j => by rw [touch_key]) fun j _ => ⟨?_, rfl⟩
  obtain ⟨time, he⟩ := touch_entry t i now j
  rw [he]

def Entry.lookupAged (OS_HZ now : BitVec 32) (e : Entry) : Prop :=
  e.type = .dynamic ∧ Table.timeAfter now (e.lastTime + Table.ageoutTime OS_HZ)

structure Found (t : Table n) (k : Mac × Nat) (r : Option (Fin n) × Table n) : Prop where
  shaped : r.2.Shaped
  found : ∀ i, r.1 = some i → (r.2.Content i).key = some k
  missing : r.1 = none → r.2.groups k = none
  size : r.2.Size ≤ t.Size

theorem lookupLoop_spec (hn : n ≤ 255) (OS_HZ : BitVec 32) (now : Fin n → BitVec 32)
    (h : Shape t chains own) (hi : chains (hashIndex n addr) = l₁ ++ l₂)
    (hprev : l₁ ≠ [] → l₁.getLast? = some prev)
    (hl : ∀ j ∈ l₁, (t.Content j).key ≠ some (addr, dev)) (hturns : l₂.length < turns) :
    ∃ r, t.lookupLoop OS_HZ addr dev now (hashIndex n addr) turns prev l₂.head? = some r ∧
      Found t (addr, dev) r ∧
      ((∀ j, ¬ (t.Content j).lookupAged OS_HZ (now j)) →
        r = (none, t) ∨ ∃ i, r = (some i, t.touch i (now i))) := by
  induction l₂ generalizing t chains own prev l₁ turns with
  | nil =>
    obtain ⟨turns, rfl⟩ := Nat.exists_eq_add_of_lt hturns
    rw [List.append_nil] at hi
    refine ⟨(none, t), by simp [Table.lookupLoop], ⟨h.shaped, (fun i he => nomatch he), fun _ => ?_,
      Nat.le_refl _⟩, fun _ => .inl rfl⟩
    refine groups_eq_none.mpr fun i hk => ?_
    have hmem := h.mem_of_key hk
    rw [hi] at hmem
    exact hl i hmem hk
  | cons i l₂ ih =>
    obtain ⟨turns, rfl⟩ := Nat.exists_eq_add_of_lt hturns
    have hmem : i ∈ chains (hashIndex n addr) := by
      rw [hi]
      exact List.mem_append_right _ List.mem_cons_self
    have hv := h.valid_of_mem hmem
    obtain ⟨r, -, hrest⟩ := chain_append.mp (hi ▸ h.chained.chain (hashIndex n addr))
    obtain ⟨-, hnext⟩ := chain_cons.mp hrest
    rw [List.head?_cons, Table.lookupLoop, if_neg (by simp [hv])]
    by_cases hfor : (t.Content i).isFor addr dev = true
    · have hk := (key_of_isFor (k := (addr, dev)) hv).mp hfor
      rw [if_pos hfor]
      refine ⟨_, rfl, ⟨(h.touch i (now i)).shaped, fun j hj => ?_, (fun he => nomatch he),
        Nat.le_refl _⟩, fun _ => .inr ⟨i, rfl⟩⟩
      obtain rfl := Option.some.inj hj
      exact (touch_key t i (now i) i).trans hk
    · have hk := mt (key_of_isFor (k := (addr, dev)) hv).mpr hfor
      rw [if_neg hfor]
      by_cases haged : (t.Content i).type = .dynamic ∧
          Table.timeAfter (now i) ((t.Content i).lastTime + Table.ageoutTime OS_HZ) = true
      · -- the entry goes, and the lookup is on with the one behind it
        obtain ⟨t', heq, h', hcontent, -⟩ := h.removeEntry hn hi hprev
        have hi' : update chains (hashIndex n addr) (l₁ ++ l₂) (hashIndex n addr) = l₁ ++ l₂ :=
          update_self ..
        have hl' : ∀ j ∈ l₁, (t'.Content j).key ≠ some (addr, dev) := by
          intro j hj
          have hne : j ≠ i := by
            rintro rfl
            have hnodup := h.chained.nodup (hashIndex n addr)
            rw [hi] at hnodup
            exact notMem_of_split hnodup (List.mem_append_left l₂ hj)
          rw [hcontent, update_of_ne hne]
          exact hl j hj
        have hsize : t'.Size ≤ t.Size := by
          have hused := Slots.used_free (i := i) (a := Entry.zero)
            (show (Entry.key (t.Content i)).isSome by simp [Entry.key, hv]) rfl
          rw [h'.size, hcontent, h.size]
          omega
        have hchain' := h'.chained.chain (hashIndex n addr)
        rw [hi'] at hchain'
        have hrun : ∃ r, (if t.Hash (hashIndex n addr) = some i then
              t'.lookupLoop OS_HZ addr dev now (hashIndex n addr) ((i :: l₂).length + turns)
                ((t'.Hash (hashIndex n addr)).getD prev) (t'.Hash (hashIndex n addr))
            else t'.lookupLoop OS_HZ addr dev now (hashIndex n addr) ((i :: l₂).length + turns)
                prev (t'.pNext prev)) = some r ∧ Found t' (addr, dev) r := by
          have hlen : l₂.length < (i :: l₂).length + turns := by simp; omega
          by_cases hnil : l₁ = []
          · subst hnil
            rw [if_pos ((h.chained.head_iff hi).mpr rfl), hchain'.head_eq]
            exact (ih h' hi' (fun hne => absurd rfl hne) hl' hlen).imp fun r hr => ⟨hr.1, hr.2.1⟩
          · obtain ⟨init, hsplit⟩ := List.getLast?_eq_some_iff.mp (hprev hnil)
            rw [hsplit, List.append_assoc] at hchain'
            obtain ⟨q, -, hq⟩ := chain_append.mp hchain'
            rw [if_neg (mt (h.chained.head_iff hi).mp hnil), Chain.head_eq (chain_cons.mp hq).2]
            exact (ih h' hi' hprev hl' hlen).imp fun r hr => ⟨hr.1, hr.2.1⟩
        obtain ⟨r, hr, hfound⟩ := hrun
        rw [if_pos haged, heq, Option.bind_some]
        exact ⟨r, hr, ⟨hfound.shaped, hfound.found, hfound.missing, hfound.size.trans hsize⟩,
          fun hfresh => absurd haged (hfresh i)⟩
      · have hi' : chains (hashIndex n addr) = (l₁ ++ [i]) ++ l₂ := by
          rw [hi, List.append_assoc, List.singleton_append]
        have hl' : ∀ j ∈ l₁ ++ [i], (t.Content j).key ≠ some (addr, dev) := by
          intro j hj
          rcases List.mem_append.mp hj with hj | hj
          · exact hl j hj
          · rwa [List.mem_singleton.mp hj]
        rw [if_neg haged, Chain.head_eq hnext]
        exact ih h hi' (fun _ => List.getLast?_concat) hl' (by simp; omega)

theorem Shape.lookup (hn : n ≤ 255) (OS_HZ : BitVec 32) (addr : Mac) (dev : Nat)
    (now : Fin n → BitVec 32) (h : Shape t chains own) :
    ∃ r, t.multicastFilterTableLookup OS_HZ addr dev now = some r ∧ Found t (addr, dev) r ∧
      ((∀ j, ¬ (t.Content j).lookupAged OS_HZ (now j)) →
        r = (none, t) ∨ ∃ i, r = (some i, t.touch i (now i))) := by
  have hhead := (h.chained.chain (hashIndex n addr)).head_eq
  unfold Table.multicastFilterTableLookup
  cases hp : t.Hash (hashIndex n addr) with
  | none =>
    refine ⟨(none, t), rfl, ⟨h.shaped, (fun i he => nomatch he), fun _ => ?_, Nat.le_refl _⟩,
      fun _ => .inl rfl⟩
    refine groups_eq_none.mpr fun i hk => ?_
    have hmem := h.mem_of_key hk
    rw [hp] at hhead
    rw [List.head?_eq_none_iff.mp hhead.symm] at hmem
    cases hmem
  | some head =>
    rw [hp] at hhead
    dsimp only
    rw [hhead]
    exact lookupLoop_spec hn OS_HZ now h (List.nil_append _).symm (fun hne => absurd rfl hne)
      (fun j hj => nomatch hj) (Nat.lt_succ_of_le (h.length_chain _))

end Search
end Ralink.Igmp
