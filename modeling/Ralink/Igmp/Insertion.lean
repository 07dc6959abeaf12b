import Ralink.Igmp.Groups

/-! The allocation loop, which takes an entry that has aged out of its chain before it uses it
again, and the link of the new entry at the tail of its chain. -/
namespace Ralink.Igmp
open Function Links

section Insertion

variable {n : Nat} {t t' : Table n} {chains : Nat → List (Fin n)}
  {own : Option (Fin n) → List Member} {i cur last : Fin n} {hash turns dev : Nat} {grp : Mac}
  {k : Mac × Nat} {l l₁ l₂ : List (Fin n)}

theorem ageLoop_eq (h : Seg t.pNext (t.pNext cur) l (some i)) (hi : (t.Content i).key = some k)
    (hl : ∀ j ∈ l, (t.Content j).Valid = true ∧ (t.Content j).key ≠ some k)
    (hturns : l.length < turns) :
    t.ageLoop i turns cur =
      some { t with pNext := update t.pNext (l.getLast?.getD cur) (t.pNext i) }.decSize := by
  obtain ⟨hv, haddr, hdev⟩ := key_eq_some.mp hi
  induction l generalizing turns cur with
  | nil =>
    obtain ⟨turns, rfl⟩ := Nat.exists_eq_add_of_lt hturns
    have hfor : (t.Content i).isFor k.1 k.2 = true := (key_of_isFor hv).mpr hi
    rw [Table.ageLoop, seg_nil.mp h]
    dsimp only
    rw [haddr, hdev, if_pos hfor]
    rfl
  | cons j l ih =>
    obtain ⟨turns, rfl⟩ := Nat.exists_eq_add_of_lt hturns
    obtain ⟨hnext, hrest⟩ := seg_cons.mp h
    obtain ⟨hvj, hne⟩ := hl j List.mem_cons_self
    have hfor : ¬ (t.Content j).isFor k.1 k.2 = true := mt (key_of_isFor hvj).mp hne
    have hlen : l.length < (j :: l).length + turns := by simp; omega
    rw [Table.ageLoop, hnext]
    dsimp only
    rw [haddr, hdev, if_neg hfor, ih hrest (fun x hx => hl x (List.mem_cons_of_mem j hx)) hlen]
    cases l with
    | nil => rfl
    | cons x l => simp [List.getLast?_cons]

theorem Shape.ageUnlink (h : Shape t chains own) (hi : chains hash = l₁ ++ i :: l₂) :
    ∃ prev, (l₁ ≠ [] → l₁.getLast? = some prev) ∧
      (match t.Hash hash with
        | none => none
        | some head =>
          if (t.Content head).isFor (t.Content i).Addr (t.Content i).net_dev then
            some { t with Hash := update t.Hash hash (t.pNext head) }.decSize
          else t.ageLoop i (n + 1) head) = some (t.unlink hash prev i).decSize := by
  have hmem : ∀ j ∈ l₁ ++ i :: l₂, j ∈ chains hash := fun j hj => hi ▸ hj
  have hv := h.valid_of_mem (hmem i (List.mem_append_right _ List.mem_cons_self))
  have hk : (t.Content i).key = some ((t.Content i).Addr, (t.Content i).net_dev) :=
    key_eq_some.mpr ⟨hv, rfl, rfl⟩
  have hchain := h.chained.chain hash
  have hlen := h.length_chain hash
  have hhead := h.chained.head_iff hi
  rw [hi] at hchain hlen
  cases l₁ with
  | nil =>
    have hself := (key_of_isFor (k := ((t.Content i).Addr, (t.Content i).net_dev)) hv).mpr hk
    refine ⟨i, fun hne => absurd rfl hne, ?_⟩
    rw [Table.unlink, if_pos (hhead.mpr rfl), hhead.mpr rfl]
    dsimp only
    rw [if_pos hself]
  | cons cur l =>
    obtain ⟨hcur, hrest⟩ := chain_cons.mp hchain
    obtain ⟨r, hseg, hend⟩ := chain_append.mp hrest
    obtain ⟨rfl, -⟩ := chain_cons.mp hend
    have hother : ∀ j ∈ cur :: l, (t.Content j).Valid = true ∧
        (t.Content j).key ≠ some ((t.Content i).Addr, (t.Content i).net_dev) :=
      fun j hj => ⟨h.valid_of_mem (hmem j (List.mem_append_left _ hj)), h.key_before hi hk hj⟩
    obtain ⟨hvc, hne⟩ := hother cur List.mem_cons_self
    have hfor := mt (key_of_isFor (k := ((t.Content i).Addr, (t.Content i).net_dev)) hvc).mp hne
    refine ⟨l.getLast?.getD cur, fun _ => List.getLast?_cons, ?_⟩
    rw [Table.unlink, if_neg (mt hhead.mp (List.cons_ne_nil cur l)), hcur]
    dsimp only
    rw [if_neg hfor]
    refine ageLoop_eq hseg hk (fun j hj => hother j (List.mem_cons_of_mem cur hj)) ?_
    simp only [List.length_append, List.length_cons] at hlen
    omega

theorem Shape.ageEntry (hn : n ≤ 255) (h : Shape t chains own) (hv : (t.Content i).Valid = true) :
    ∃ t₂ chains', t.ageEntry i = some t₂ ∧ (t₂.Content i).Valid = false ∧
      Shape (t₂.zeroEntry i) chains' (freed own i) ∧
      (t₂.zeroEntry i).Content = update t.Content i .zero ∧
      (t₂.zeroEntry i).memberAddr = t.memberAddr := by
  obtain ⟨l₁, l₂, hi⟩ := List.append_of_mem ((h.chained.mem _ i).mpr ⟨hv, rfl⟩)
  obtain ⟨prev, hprev, hloop⟩ := h.ageUnlink hi
  have hunlink := h.chained.unlink hi hprev
  obtain ⟨links, heads, hsame⟩ := unlink_same t (hashIndex n (t.Content i).Addr) prev i
  rw [hsame] at hunlink hloop
  obtain ⟨t₁, ht₁⟩ : ∃ t₁ : Table n, t₁ = { t with
      Size := (t.Size + 255) % 256
      Hash := heads
      pNext := links
      Content := update t.Content i { t.Content i with Valid := false } } := ⟨_, rfl⟩
  have hhdr : t₁.hdr = t.hdr := by
    rw [ht₁]
    funext q
    cases q with
    | none => rfl
    | some j => by_cases hj : j = i <;> simp [Table.hdr, hj]
  have hpool : Pooled t₁ own := by
    have hnext : t₁.memberNext = t.memberNext := by rw [ht₁]
    exact ⟨by rw [hnext, hhdr]; exact h.pooled.lists, h.pooled.cover⟩
  obtain ⟨t₂, heq, honly, hrest⟩ := h.release hn hi (by rw [ht₁]; exact hunlink) hpool
    (fun j hj => by rw [ht₁]; exact update_of_ne hj _ _) (by rw [ht₁])
  have hsize : t₂.Size = (t.Size + 255) % 256 := by rw [honly.size, ht₁]
  refine ⟨t₂, _, ?_, ?_, hrest _ ?_⟩
  · refine (congrArg (fun o => Option.bind o _) hloop).trans ?_
    rw [Option.bind_some, ← heq, ht₁]
    rfl
  · obtain ⟨pList, he, -⟩ := honly.entry i
    rw [he, ht₁]
    simp
  · rw [← hsize]
    rfl

theorem lastLoop_eq (h : Chain t.pNext (some cur) (l ++ [last])) (hturns : l.length < turns) :
    t.lastLoop turns cur = some last := by
  induction l generalizing turns cur with
  | nil =>
    obtain ⟨turns, rfl⟩ := Nat.exists_eq_add_of_lt hturns
    obtain ⟨hcur, hnext⟩ := chain_cons.mp h
    obtain rfl := Option.some.inj hcur
    rw [Table.lastLoop, chain_nil.mp hnext]
  | cons x l ih =>
    obtain ⟨turns, rfl⟩ := Nat.exists_eq_add_of_lt hturns
    obtain ⟨hcur, hrest⟩ := chain_cons.mp h
    obtain rfl := Option.some.inj hcur
    have hlen : l.length < (cur :: l).length + turns := by simp; omega
    cases hnext : t.pNext cur with
    | none =>
      rw [hnext] at hrest
      exact absurd (List.head?_eq_none_iff.mp hrest.head_eq.symm) (by simp)
    | some y =>
      rw [hnext] at hrest
      rw [Table.lastLoop, hnext]
      exact ih hrest hlen

theorem linkEntry_eq (hchain : ∀ hash', Chain t.pNext (t.Hash hash') (chains hash'))
    (hapart : ∀ hash', hash' ≠ hash → ∀ j ∈ chains hash, j ∉ chains hash')
    (hi : i ∉ chains hash) (hnext : t.pNext i = none) (hlen : (chains hash).length ≤ n) :
    ∃ heads links, t.linkEntry hash i = some { t with Hash := heads, pNext := links } ∧
      ∀ hash', Chain links (heads hash') (update chains hash (chains hash ++ [i]) hash') := by
  rcases List.eq_nil_or_concat (chains hash) with hnil | ⟨init, last, hsplit⟩
  · have hhead : t.Hash hash = none := by
      have h := hchain hash
      rwa [hnil] at h
    refine ⟨update t.Hash hash (some i), t.pNext, ?_, fun hash' => ?_⟩
    · rw [Table.linkEntry, hhead]
    · rcases eq_or_ne hash' hash with rfl | hne
      · rw [update_self, update_self, hnil]
        exact ⟨rfl, hnext⟩
      · rw [update_of_ne hne, update_of_ne hne]
        exact hchain hash'
  · rw [List.concat_eq_append] at hsplit
    have h := hchain hash
    rw [hsplit] at h hi hlen
    have hlast : last ∈ chains hash := by
      rw [hsplit]
      exact List.mem_append_right init (List.mem_singleton.mpr rfl)
    refine ⟨t.Hash, update t.pNext last (some i), ?_, fun hash' => ?_⟩
    · cases hhead : t.Hash hash with
      | none =>
        rw [hhead] at h
        exact absurd (List.head?_eq_none_iff.mp h.head_eq.symm) (by simp)
      | some head =>
        rw [hhead] at h
        rw [List.length_append] at hlen
        rw [Table.linkEntry, hhead]
        dsimp only
        rw [lastLoop_eq h (by omega)]
        rfl
    · rcases eq_or_ne hash' hash with rfl | hne
      · rw [update_self, hsplit]
        exact h.snoc hi hnext
      · rw [update_of_ne hne]
        exact (hchain hash').write_other (hapart hash' hne last hlast)

theorem Shape.add (hn : n ≤ 255) (h : Shape t chains own) (hv : (t.Content i).Valid = false)
    {e : Entry} (hk : e.key = some k) (hnone : t.groups k = none) (hlist : e.MemberList = initList)
    (hcontent : t'.Content = update t.Content i e)
    (hchain : ∀ hash', Chain t'.pNext (t'.Hash hash')
      (update chains (hashIndex n k.1) (chains (hashIndex n k.1) ++ [i]) hash'))
    (hnext : t'.memberNext = t.memberNext) (hfree : t'.freeEntryList = t.freeEntryList)
    (haddr : t'.memberAddr = t.memberAddr) (hsize : t'.Size = (t.Size + 1) % 256) :
    Shape t' (update chains (hashIndex n k.1) (chains (hashIndex n k.1) ++ [i])) own := by
  have hempty : Entry.key (t.Content i) = none := key_eq_none.mpr hv
  have hother : ∀ j, j ≠ i → t'.Content j = t.Content j := fun j hj => by
    rw [hcontent, update_of_ne hj]
  have hself : t'.Content i = e := by rw [hcontent, update_self]
  obtain ⟨hve, haddre, -⟩ := key_eq_some.mp hk
  refine ⟨⟨hchain, fun hash' j => ?_⟩, ?_, ?_, ?_, fun j hj => ?_, fun j => ?_⟩
  · rcases eq_or_ne j i with rfl | hj
    · rw [hself, haddre]
      rcases eq_or_ne hash' (hashIndex n k.1) with rfl | hne
      · simp [hve]
      · rw [update_of_ne hne]
        exact iff_of_false (h.notMem_vacant hv hash') fun he => hne he.2.symm
    · rw [hother j hj, ← h.chained.mem hash' j]
      rcases eq_or_ne hash' (hashIndex n k.1) with rfl | hne
      · rw [update_self]
        simp [hj]
      · rw [update_of_ne hne]
  · refine h.pooled.clear (h.vacant i hv) hnext ?_
    funext q
    cases q with
    | none => exact hfree.trans (update_of_ne (Option.some_ne_none i).symm initList t.hdr).symm
    | some j =>
      by_cases hj : j = i
      · subst hj
        simp [Table.hdr, hself, hlist]
      · simp [Table.hdr, hother j hj, hj]
  · rw [hcontent]
    refine h.distinct.update fun j _ k' hk' => ?_
    obtain rfl := Option.some.inj (hk.symm.trans hk')
    exact groups_eq_none.mp hnone j
  · have hlt : Slots.used Entry.key t.Content < n := Slots.used_lt hempty
    have htake := Slots.used_take (a := e) hempty (by simp [hk])
    rw [hsize, h.size, hcontent, htake]
    omega
  · rcases eq_or_ne j i with rfl | hne
    · exact h.vacant j hv
    · rw [hother j hne] at hj
      exact h.vacant j hj
  · unfold Table.members
    rw [haddr]
    exact h.nodup j

theorem insertIgmpMember_links (t : Table n) (i : Fin n) (a : Mac) (size : Nat)
    (heads : Nat → Option (Fin n)) (links : Fin n → Option (Fin n)) :
    { t with Size := size, Hash := heads, pNext := links }.insertIgmpMember i a =
      { t.insertIgmpMember i a with Size := size, Hash := heads, pNext := links } := by
  unfold Table.insertIgmpMember
  dsimp only
  rcases removeHeadList t.memberNext t.freeEntryList with ⟨_ | pMember, free⟩ <;> rfl

theorem Shape.fillEntry (hn : n ≤ 255) (h : Shape t chains own) (hv : (t.Content i).Valid = false)
    (hnone : t.groups (grp, dev) = none) (member : Option Mac) (type : FilterType)
    (now : BitVec 32) :
    ∃ t', (t.fillEntry i grp member dev type now).linkEntry (hashIndex n grp) i = some t' ∧
      t'.Shaped ∧ (member = none ∨ own none ≠ [] →
        t'.groups = update t.groups (grp, dev) (some (type, member.toList))) := by
  obtain ⟨e, he⟩ : ∃ e : Entry, e = ⟨true, type, now, dev, grp, initList⟩ := ⟨_, rfl⟩
  have hke : e.key = some (grp, dev) := by
    rw [he]
    rfl
  obtain ⟨t₀, ht₀⟩ : ∃ t₀ : Table n, t₀ = { t with
      pNext := update t.pNext i none
      Content := update t.Content i e } := ⟨_, rfl⟩
  have hfill : t.fillEntry i grp member dev type now =
      { member.elim t₀ (t₀.insertIgmpMember i) with
        Size := ((member.elim t₀ (t₀.insertIgmpMember i)).Size + 1) % 256 } := by
    have hzero : { t.zeroEntry i with Content := update (t.zeroEntry i).Content i e } = t₀ := by
      rw [ht₀]
      simp [Table.zeroEntry]
    rw [Table.fillEntry, ← he, hzero]
  have hframe : ∀ m : Option Mac, OnlyLists i t₀ (m.elim t₀ (t₀.insertIgmpMember i)) := by
    intro m
    cases m with
    | none => exact OnlyLists.refl i t₀
    | some a => exact onlyLists_insert t₀ i a
  obtain ⟨hsize, hhash, hnext, -⟩ := hframe member
  have hno : ∀ hash, i ∉ chains hash := h.notMem_vacant hv
  have hhash' : (t.fillEntry i grp member dev type now).Hash = t.Hash := by
    rw [hfill, hhash, ht₀]
  have hnext' : (t.fillEntry i grp member dev type now).pNext = update t.pNext i none := by
    rw [hfill, hnext, ht₀]
  obtain ⟨heads, links, hlink, hchain⟩ := linkEntry_eq (i := i)
    (t := t.fillEntry i grp member dev type now)
    (fun hash' => by rw [hhash', hnext']; exact (h.chained.chain hash').write_other (hno hash'))
    (fun hash' hne j hj => h.chained.notMem hj hne) (hno (hashIndex n grp))
    (by rw [hnext', update_self]) (h.length_chain _)
  obtain ⟨t₁, ht₁⟩ : ∃ t₁ : Table n, t₁ =
      { t₀ with Size := (t.Size + 1) % 256, Hash := heads, pNext := links } := ⟨_, rfl⟩
  have ht' : { t.fillEntry i grp member dev type now with Hash := heads, pNext := links } =
      member.elim t₁ (t₁.insertIgmpMember i) := by
    have hsize₀ : t₀.Size = t.Size := by rw [ht₀]
    rw [hfill, hsize, hsize₀, ht₁]
    cases member with
    | none => rfl
    | some a => exact (insertIgmpMember_links t₀ i a _ heads links).symm
  have h₁ : Shape t₁ (update chains (hashIndex n grp) (chains (hashIndex n grp) ++ [i])) own := by
    refine h.add (k := (grp, dev)) hn hv hke hnone (by rw [he]) (by rw [ht₁, ht₀])
      (fun hash' => ?_) (by rw [ht₁, ht₀]) (by rw [ht₁, ht₀]) (by rw [ht₁, ht₀]) (by rw [ht₁])
    rw [ht₁]
    exact hchain hash'
  have hself : t₁.Content i = e := by
    rw [ht₁, ht₀]
    exact update_self ..
  have hk₁ : (t₁.Content i).key = some (grp, dev) := by rw [hself, hke]
  have hnil : t₁.members own i = [] := by
    rw [Table.members, h.vacant i hv, List.map_nil]
  have hgroups₁ : t₁.groups = update t.groups (grp, dev) (some (type, [])) := by
    have hadd := h.groups_add h₁ (key_eq_none.mpr hv) hnone hk₁ fun j hj => ⟨?_, ?_⟩
    · rw [hadd, hnil, hself, he]
    · rw [ht₁, ht₀]
      exact update_of_ne hj _ _
    · rw [Table.members, Table.members, ht₁, ht₀]
  refine ⟨_, hlink, ?_⟩
  rw [ht']
  cases member with
  | none => exact ⟨h₁.shaped, fun _ => hgroups₁⟩
  | some a =>
    have hv₁ := (key_eq_some.mp hk₁).1
    obtain ⟨own', h', honly, hmembers, hother⟩ := h₁.insertMember hv₁ (a := a) (by simp [hnil])
    rw [Option.elim_some]
    refine ⟨h'.shaped, fun hfree => ?_⟩
    have hne : own none ≠ [] := hfree.resolve_left (Option.some_ne_none a)
    rw [h₁.groups_onlyLists h' honly hk₁ hother, hmembers, if_neg hne, hnil,
      hgroups₁, update_idem, hself, he]
    rfl

def Entry.insertAged (OS_HZ now : BitVec 32) (e : Entry) : Prop :=
  e.type = .dynamic ∧ now - e.lastTime > Table.ageoutTime OS_HZ

theorem zeroEntry_fill (t : Table n) (i : Fin n) (grp : Mac) (member : Option Mac) (dev : Nat)
    (type : FilterType) (now : BitVec 32) :
    (t.zeroEntry i).fillEntry i grp member dev type now = t.fillEntry i grp member dev type now := by
  have hzero : (t.zeroEntry i).zeroEntry i = t.zeroEntry i := by simp [Table.zeroEntry]
  rw [Table.fillEntry, hzero, Table.fillEntry]

theorem allocLoop_spec (hn : n ≤ 255) (OS_HZ : BitVec 32) (member : Option Mac)
    (type : FilterType) (clock : Table.Clock n) (pEntry : Option (Fin n)) (h : Shape t chains own)
    (hnone : t.groups (grp, dev) = none) (hvacant : ∃ i ∈ l, (t.Content i).Valid = false) :
    ∃ i t₁ chains₁ own₁, t.allocLoop OS_HZ grp member dev type clock l pEntry =
        some (some i, t₁.fillEntry i grp member dev type (clock.fill i)) ∧
      Shape t₁ chains₁ own₁ ∧ (t₁.Content i).Valid = false ∧ t₁.groups (grp, dev) = none ∧
      ((∀ j, ¬ (t.Content j).insertAged OS_HZ (clock.age j)) → t₁ = t ∧ own₁ = own) := by
  induction l generalizing pEntry with
  | nil =>
    obtain ⟨i, hi, -⟩ := hvacant
    cases hi
  | cons i l ih =>
    rw [Table.allocLoop]
    by_cases haged : (t.Content i).Valid = true ∧ (t.Content i).type = .dynamic ∧
        clock.age i - (t.Content i).lastTime > Table.ageoutTime OS_HZ
    · obtain ⟨t₂, chains', heq, hv₂, h₂, hcontent, haddr⟩ := h.ageEntry hn haged.1
      have hk : (t.Content i).key = some ((t.Content i).Addr, (t.Content i).net_dev) :=
        key_eq_some.mpr ⟨haged.1, rfl, rfl⟩
      refine ⟨i, t₂.zeroEntry i, chains', freed own i, ?_, h₂, ?_, ?_,
        fun hfresh => absurd haged.2 (hfresh i)⟩
      · rw [if_pos haged, heq, Option.bind_some, if_pos (by simp [hv₂]), zeroEntry_fill]
      · rw [hcontent, update_self]
        rfl
      · rw [h.groups_drop h₂ hk hcontent haddr]
        by_cases hsame : (grp, dev) = ((t.Content i).Addr, (t.Content i).net_dev)
        · rw [hsame, update_self]
        · rwa [update_of_ne hsame]
    · rw [if_neg haged, Option.bind_some]
      by_cases hv : (t.Content i).Valid = false
      · refine ⟨i, t, chains, own, ?_, h, hv, hnone, fun _ => ⟨rfl, rfl⟩⟩
        rw [if_pos (by simp [hv])]
      · rw [if_neg (by simpa using hv)]
        refine ih (some i) ?_
        obtain ⟨j, hj, hvj⟩ := hvacant
        rcases List.mem_cons.mp hj with rfl | hj
        · exact absurd hvj hv
        · exact ⟨j, hj, hvj⟩

/-- No entry has aged out, whenever the insertion comes to it. -/
def Table.Unaged (t : Table n) (OS_HZ : BitVec 32) (clock : Table.Clock n) : Prop :=
  ∀ j, ¬ (t.Content j).lookupAged OS_HZ (clock.lookup j) ∧
    ¬ (t.Content j).insertAged OS_HZ (clock.age j)

theorem Shape.insertNew (hn : n ≤ 255) (OS_HZ : BitVec 32) (member : Option Mac)
    (type : FilterType) (clock : Table.Clock n) (h : Shape t chains own) (hsize : t.Size < n)
    (hnone : t.groups (grp, dev) = none) :
    ∃ t', ((t.allocLoop OS_HZ grp member dev type clock (List.finRange n) none).bind fun (p, t) =>
        match p with
        | none => some (true, t)
        | some i => (t.linkEntry (hashIndex n grp) i).map fun t => (true, t)) = some (true, t') ∧
      t'.Shaped ∧ ((∀ j, ¬ (t.Content j).insertAged OS_HZ (clock.age j)) →
        (member = none ∨ own none ≠ []) → t'.groups = t.groups.insert (grp, dev) member type) := by
  obtain ⟨j, hj⟩ : ∃ j, Entry.key (t.Content j) = none := Slots.exists_empty (h.size ▸ hsize)
  obtain ⟨i, t₁, chains₁, own₁, heq, h₁, hv, hnone₁, hfresh⟩ := allocLoop_spec hn OS_HZ member type
    clock none h hnone ⟨j, List.mem_finRange j, key_eq_none.mp hj⟩
  obtain ⟨t', hlink, h', hgroups⟩ := h₁.fillEntry hn hv hnone₁ member type (clock.fill i)
  refine ⟨t', ?_, h', fun hunaged hfree => ?_⟩
  · rw [heq, Option.bind_some]
    dsimp only
    rw [hlink]
    rfl
  · obtain ⟨rfl, rfl⟩ := hfresh hunaged
    rw [hgroups hfree, Groups.insert_new hnone₁]

theorem Shape.insertKnown (h : Shape t chains own) (hk : (t.Content i).key = some k) (a : Mac)
    (type : FilterType) :
    ∃ r, ((t.hasMember a memberTurns (t.Content i).MemberList.pHead).map fun found =>
        if found then (false, t) else (true, t.insertIgmpMember i a)) = some r ∧
      r.2.Shaped ∧ (own none ≠ [] → r.2.groups = t.groups.insert k (some a) type) := by
  have hhas := hasMember_eq (t := t) (a := a) (h.pooled.lists.list (some i)).chain
    (Nat.lt_succ_of_le (h.pooled.length_le (some i)))
  have hgroup := h.groups_of_key hk
  refine ⟨_, congrArg (Option.map _) hhas, ?_⟩
  by_cases ha : a ∈ t.members own i
  · rw [decide_eq_true (show a ∈ (own (some i)).map t.memberAddr from ha)]
    exact ⟨h.shaped, fun _ => (Groups.insert_mem hgroup ha).symm⟩
  · obtain ⟨own', h', honly, hmembers, hother⟩ := h.insertMember (key_eq_some.mp hk).1 ha
    rw [decide_eq_false (show a ∉ (own (some i)).map t.memberAddr from ha)]
    refine ⟨h'.shaped, fun hfree => ?_⟩
    rw [Groups.insert_join hgroup ha]
    refine (h.groups_onlyLists h' honly hk hother).trans ?_
    rw [hmembers, if_neg hfree]

def Table.Spare (t : Table n) : Prop := t.freeEntryList.pHead ≠ none

theorem Shape.spare_iff (h : Shape t chains own) : t.Spare ↔ own none ≠ [] := by
  have hhead := (h.pooled.lists.list none).head_eq
  unfold Table.Spare
  rw [show t.freeEntryList.pHead = (own none).head? from hhead, ne_eq, List.head?_eq_none_iff]

theorem Shape.insertEntry (hn : n ≤ 255) (OS_HZ : BitVec 32) (h : Shape t chains own) (grp : Mac)
    (member : Option Mac) (dev : Nat) (type : FilterType) (clock : Table.Clock n) :
    ∃ r, t.multicastFilterTableInsertEntry OS_HZ grp member dev type clock = some r ∧ r.2.Shaped ∧
      (t.Size < n → t.Unaged OS_HZ clock → (member = none ∨ t.Spare) →
        r.2.groups = t.groups.insert (grp, dev) member type) := by
  unfold Table.multicastFilterTableInsertEntry
  by_cases hfull : t.Size ≥ n
  · rw [if_pos hfull]
    exact ⟨_, rfl, h.shaped, fun hlt => absurd hlt (Nat.not_lt.mpr hfull)⟩
  · obtain ⟨⟨p, t₁⟩, heq, hfound, hfresh⟩ := h.lookup hn OS_HZ grp dev clock.lookup
    rw [if_neg hfull, heq, Option.bind_some]
    obtain ⟨chains₁, own₁, h₁⟩ := hfound.shaped
    have hlookup : t.Unaged OS_HZ clock → (p, t₁) = (none, t) ∨
        ∃ i, (p, t₁) = (some i, t.touch i (clock.lookup i)) := fun hu =>
      hfresh fun j => (hu j).1
    cases p with
    | none =>
      have hsize : t₁.Size < n := hfound.size.trans_lt (Nat.lt_of_not_le hfull)
      obtain ⟨t', hrun, h', hgroups⟩ := h₁.insertNew hn OS_HZ member type clock hsize
        (hfound.missing rfl)
      refine ⟨(true, t'), hrun, h', fun _ hu hfree => ?_⟩
      rcases hlookup hu with hsame | ⟨i, hne⟩
      · obtain ⟨-, rfl⟩ := Prod.mk.inj hsame
        exact hgroups (fun j => (hu j).2) (hfree.imp_right h₁.spare_iff.mp)
      · cases hne
    | some i =>
      have hk := hfound.found i rfl
      have hsame : t.Unaged OS_HZ clock → t₁.groups = t.groups ∧ (t₁.Spare ↔ t.Spare) := by
        intro hu
        rcases hlookup hu with hne | ⟨j, hj⟩
        · cases hne
        · obtain ⟨-, rfl⟩ := Prod.mk.inj hj
          exact ⟨h.groups_touch j (clock.lookup j), Iff.rfl⟩
      cases member with
      | none =>
        refine ⟨(false, t₁), rfl, h₁.shaped, fun _ hu _ => ?_⟩
        have hgroup := h₁.groups_of_key hk
        rw [(hsame hu).1] at hgroup ⊢
        exact (Groups.insert_bare hgroup).symm
      | some a =>
        obtain ⟨r, hrun, hr, hgroups⟩ := h₁.insertKnown hk a type
        refine ⟨r, hrun, hr, fun _ hu hfree => ?_⟩
        have hspare := (hsame hu).2.mpr (hfree.resolve_left (Option.some_ne_none a))
        rw [hgroups (h₁.spare_iff.mp hspare), (hsame hu).1]

end Insertion
end Ralink.Igmp
