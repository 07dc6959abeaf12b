import Mathlib.Tactic
import Ralink.Lib.Links

/-! The singly linked lists of `link_list.h`. Their cells are in one memory, which is given by the
cell that each points to; several lists in it keep apart. -/
namespace Ralink.Igmp
open Function Links

/-- `LIST_HEADER`; the size is a byte. -/
structure ListHeader (α : Type) where
  pHead : Option α
  pTail : Option α
  size : Nat
  deriving DecidableEq

section Functions

variable {α : Type} [DecidableEq α]

def initList : ListHeader α := ⟨none, none, 0⟩

variable (next : α → Option α) (pList : ListHeader α)

def insertTailList (pEntry : α) : (α → Option α) × ListHeader α :=
  let next := update next pEntry none
  match pList.pTail with
  | some tail =>
    (update next tail (some pEntry), ⟨pList.pHead, some pEntry, (pList.size + 1) % 256⟩)
  | none => (next, ⟨some pEntry, some pEntry, (pList.size + 1) % 256⟩)

def removeHeadList : Option α × ListHeader α :=
  match pList.pHead with
  | none => (none, pList)
  | some head =>
    (some head,
      ⟨next head, if next head = none then none else pList.pTail, (pList.size + 255) % 256⟩)

def getListSize : Nat := pList.size

/-- The loop of `delEntryList`; `none` when it does not end in the given number of turns. -/
def delEntryLoop (pEntry : α) :
    Nat → α → Option α → Option ((α → Option α) × ListHeader α)
  | 0, _, _ => none
  | _ + 1, _, none => some (next, pList)
  | turns + 1, prev, some cur =>
    if pEntry = cur then
      some (update next prev (next cur),
        ⟨pList.pHead, if pList.pTail = some pEntry then some prev else pList.pTail,
          (pList.size + 255) % 256⟩)
    else delEntryLoop pEntry turns cur (next cur)

def delEntryList (turns : Nat) (pEntry : α) : Option ((α → Option α) × ListHeader α) :=
  match pList.pHead with
  | none => some (next, pList)
  | some head =>
    if pEntry = head then
      some (next,
        ⟨next head, if next head = none then none else pList.pTail, (pList.size + 255) % 256⟩)
    else delEntryLoop next pList pEntry turns head (next head)

end Functions

structure IsList {α : Type} (next : α → Option α) (pList : ListHeader α) (l : List α) : Prop where
  chain : Chain next pList.pHead l
  tail : pList.pTail = l.getLast?
  size : pList.size = l.length % 256

section Single

variable {α : Type} {next next' : α → Option α} {pList : ListHeader α} {l l' l₁ l₂ : List α} {x : α}

theorem isList_init (next : α → Option α) : IsList next initList [] := ⟨rfl, rfl, rfl⟩

theorem IsList.congr (h : IsList next pList l) (hnext : ∀ x ∈ l, next' x = next x) :
    IsList next' pList l := ⟨h.chain.congr hnext, h.tail, h.size⟩

theorem IsList.nodup (h : IsList next pList l) : l.Nodup := h.chain.nodup

theorem IsList.head_eq (h : IsList next pList l) : pList.pHead = l.head? := h.chain.head_eq

theorem IsList.tail_of_cons (h : IsList next pList (x :: l)) :
    (if next x = none then none else pList.pTail) = l.getLast? := by
  rw [h.tail]
  cases l with
  | nil => rw [if_pos (show next x = none from h.chain.2)]; rfl
  | cons y l =>
    have hy : next x = some y := h.chain.2.1
    rw [if_neg (by rw [hy]; exact Option.some_ne_none y), List.getLast?_cons_cons]

theorem IsList.size_pred (h : IsList next pList l) (hl : l.length = l'.length + 1) :
    (pList.size + 255) % 256 = l'.length % 256 := by
  rw [h.size, hl]
  omega

theorem IsList.removeHead (h : IsList next pList (x :: l)) :
    (removeHeadList next pList).1 = some x ∧ IsList next (removeHeadList next pList).2 l := by
  have hhead : pList.pHead = some x := h.chain.1
  simp only [removeHeadList, hhead]
  exact ⟨trivial, h.chain.2, h.tail_of_cons, h.size_pred rfl⟩

theorem removeHead_nil (h : IsList next pList []) : (removeHeadList next pList).1 = none := by
  have hhead : pList.pHead = none := h.chain
  simp only [removeHeadList, hhead]

variable [DecidableEq α]

theorem IsList.insertTail (h : IsList next pList l) (hx : x ∉ l) :
    IsList (insertTailList next pList x).1 (insertTailList next pList x).2 (l ++ [x]) ∧
      ∀ y, y ≠ x → y ∉ l → (insertTailList next pList x).1 y = next y := by
  have hsize : (pList.size + 1) % 256 = (l ++ [x]).length % 256 := by
    rw [h.size, List.length_append, List.length_singleton, Nat.mod_add_mod]
  rcases List.eq_nil_or_concat l with rfl | ⟨init, last, rfl⟩
  · have htail : pList.pTail = none := h.tail
    simp only [insertTailList, htail]
    refine ⟨⟨⟨rfl, ?_⟩, rfl, hsize⟩, fun y hy _ => update_of_ne hy none next⟩
    rw [update_self]
    exact rfl
  · have htail : pList.pTail = some last := by
      rw [h.tail, List.concat_eq_append, List.getLast?_concat]
    rw [List.concat_eq_append] at h hx hsize ⊢
    simp only [insertTailList, htail]
    have hchain := (h.chain.write_other (r := none) hx).snoc hx (update_self x none next)
    refine ⟨⟨hchain, by rw [List.getLast?_concat], hsize⟩, fun y hy hyl => ?_⟩
    have hlast : y ≠ last := fun he => hyl (List.mem_append_right _ (List.mem_singleton.mpr he))
    rw [update_of_ne hlast, update_of_ne hy]

theorem delEntryLoop_eq {turns : Nat} {prev : α} {p : Option α}
    (h : Seg next p l₁ (some x)) (hx : x ∉ l₁) (hturns : l₁.length < turns) :
    delEntryLoop next pList x turns prev p =
      some (update next (l₁.getLast?.getD prev) (next x),
        ⟨pList.pHead, if pList.pTail = some x then some (l₁.getLast?.getD prev) else pList.pTail,
          (pList.size + 255) % 256⟩) := by
  induction l₁ generalizing turns prev p with
  | nil =>
    obtain ⟨turns, rfl⟩ := Nat.exists_eq_add_of_lt hturns
    obtain rfl := seg_nil.mp h
    simp [delEntryLoop]
  | cons y l₁ ih =>
    obtain ⟨turns, rfl⟩ := Nat.exists_eq_add_of_lt hturns
    obtain ⟨rfl, hrest⟩ := seg_cons.mp h
    have hne : x ≠ y := fun he => hx (he ▸ List.mem_cons_self)
    have hlen : l₁.length < (y :: l₁).length + turns := by simp; omega
    rw [delEntryLoop, if_neg hne, ih hrest (fun hm => hx (List.mem_cons_of_mem y hm)) hlen]
    cases l₁ with
    | nil => rfl
    | cons z l₁ => simp [List.getLast?_cons]

theorem IsList.delEntry {turns : Nat} (h : IsList next pList (l₁ ++ x :: l₂))
    (hturns : (l₁ ++ x :: l₂).length ≤ turns) :
    ∃ next' pList', delEntryList next pList turns x = some (next', pList') ∧
      IsList next' pList' (l₁ ++ l₂) ∧ ∀ y, y ∉ l₁ → next' y = next y := by
  have hnodup := h.nodup
  have hlen : (l₁ ++ x :: l₂).length = (l₁ ++ l₂).length + 1 := by
    rw [List.length_append, List.length_append, List.length_cons]
    omega
  cases l₁ with
  | nil =>
    have hhead : pList.pHead = some x := h.chain.1
    refine ⟨next, ⟨next x, if next x = none then none else pList.pTail, (pList.size + 255) % 256⟩,
      ?_, ⟨h.chain.2, h.tail_of_cons, h.size_pred rfl⟩, fun _ _ => rfl⟩
    simp only [delEntryList, hhead, if_true]
  | cons y l₁ =>
    have hhead : pList.pHead = some y := h.chain.1
    have hx : x ∉ y :: l₁ := fun hm =>
      (List.nodup_append.mp hnodup).2.2 x hm x List.mem_cons_self rfl
    have hne : x ≠ y := fun he => hx (he ▸ List.mem_cons_self)
    obtain ⟨r, hseg, hrest⟩ := chain_append.mp h.chain.2
    obtain ⟨rfl, -⟩ := chain_cons.mp hrest
    have hturns' : l₁.length < turns := by
      simp only [List.length_append, List.length_cons] at hturns
      omega
    have hloop : delEntryLoop next pList x turns y (next y) = _ := delEntryLoop_eq hseg
      (fun hm => hx (List.mem_cons_of_mem y hm)) hturns'
    obtain ⟨init, last, hsplit⟩ : ∃ init last, y :: l₁ = init ++ [last] :=
      ⟨(y :: l₁).dropLast, (y :: l₁).getLast (List.cons_ne_nil y l₁),
        (List.dropLast_append_getLast _).symm⟩
    have hlast : l₁.getLast?.getD y = last := by
      have hl := congrArg List.getLast? hsplit
      rw [List.getLast?_cons, List.getLast?_concat] at hl
      exact Option.some.inj hl
    rw [hlast] at hloop
    refine ⟨_, _, by rw [delEntryList, hhead]; dsimp only; rw [if_neg hne, hloop],
      ⟨?_, ?_, h.size_pred hlen⟩, fun z hz => ?_⟩
    · have hchain := h.chain
      rw [hsplit] at hchain ⊢
      exact hchain.unlink
    · have hlt : x ∉ l₂ := (List.nodup_cons.mp (List.nodup_append.mp hnodup).2.1).1
      rw [h.tail, hsplit]
      cases l₂ with
      | nil => rw [List.getLast?_concat, if_pos rfl, List.append_nil, List.getLast?_concat]
      | cons z l₂ =>
        have hend : (init ++ [last] ++ x :: z :: l₂).getLast? =
            (init ++ [last] ++ z :: l₂).getLast? := by
          simp [List.getLast?_append, List.getLast?_cons]
        have hne' : (init ++ [last] ++ z :: l₂).getLast? ≠ some x := by
          rw [List.getLast?_append_of_ne_nil _ (List.cons_ne_nil z l₂)]
          exact fun he => hlt (List.mem_of_getLast? he)
        rw [hend, if_neg hne']
    · refine update_of_ne (fun he => hz ?_) _ _
      rw [hsplit, he]
      exact List.mem_append_right init (List.mem_singleton.mpr rfl)

end Single

structure Lists {α κ : Type} (next : α → Option α) (hdr : κ → ListHeader α) (own : κ → List α) :
    Prop where
  list : ∀ k, IsList next (hdr k) (own k)
  apart : ∀ k k' x, x ∈ own k → x ∈ own k' → k = k'

section Several

variable {α κ : Type} [DecidableEq κ] {next next' : α → Option α}
  {hdr : κ → ListHeader α} {own : κ → List α} {k : κ} {x : α} {l l₁ l₂ : List α}

theorem Lists.change (h : Lists next hdr own) {pList : ListHeader α}
    (hlist : IsList next' pList l) (hnext : ∀ k', k' ≠ k → ∀ y ∈ own k', next' y = next y)
    (hl : ∀ y ∈ l, y ∈ own k ∨ ∀ k', y ∉ own k') :
    Lists next' (update hdr k pList) (update own k l) := by
  constructor
  · intro k'
    rcases eq_or_ne k' k with rfl | hk
    · rw [update_self, update_self]
      exact hlist
    · rw [update_of_ne hk, update_of_ne hk]
      exact (h.list k').congr (hnext k' hk)
  · have hown : ∀ k' y, k' ≠ k → y ∈ own k' → y ∉ l := by
      intro k' y hk hy hyl
      rcases hl y hyl with hyk | hno
      · exact hk (h.apart k' k y hy hyk)
      · exact hno k' hy
    intro k₁ k₂ y h₁ h₂
    rcases eq_or_ne k₁ k with rfl | hk₁
    · rcases eq_or_ne k₂ k₁ with rfl | hk₂
      · rfl
      · rw [update_self] at h₁
        rw [update_of_ne hk₂] at h₂
        exact absurd h₁ (hown k₂ y hk₂ h₂)
    · rw [update_of_ne hk₁] at h₁
      rcases eq_or_ne k₂ k with rfl | hk₂
      · rw [update_self] at h₂
        exact absurd h₂ (hown k₁ y hk₁ h₁)
      · rw [update_of_ne hk₂] at h₂
        exact h.apart k₁ k₂ y h₁ h₂

theorem Lists.removeHead (h : Lists next hdr own) (hk : own k = x :: l) :
    (removeHeadList next (hdr k)).1 = some x ∧
      Lists next (update hdr k (removeHeadList next (hdr k)).2) (update own k l) := by
  have hlist := h.list k
  rw [hk] at hlist
  obtain ⟨hhead, hrest⟩ := hlist.removeHead
  exact ⟨hhead, h.change hrest (fun _ _ _ _ => rfl) fun y hy =>
    .inl (hk ▸ List.mem_cons_of_mem x hy)⟩

theorem Lists.notMem_of_taken (h : Lists next hdr own) (hk : own k = l₁ ++ x :: l₂) :
    ∀ k', x ∉ update own k (l₁ ++ l₂) k' := by
  have hnodup := (h.list k).nodup
  rw [hk] at hnodup
  intro k' hx
  rcases eq_or_ne k' k with rfl | hne
  · rw [update_self] at hx
    have hmid := List.nodup_middle.mp hnodup
    exact (List.nodup_cons.mp hmid).1 hx
  · rw [update_of_ne hne] at hx
    refine hne (h.apart k' k x hx ?_)
    rw [hk]
    exact List.mem_append_right _ List.mem_cons_self

variable [DecidableEq α]

omit [DecidableEq κ] in
theorem Lists.write_other (h : Lists next hdr own) (hx : ∀ k, x ∉ own k) (p : Option α) :
    Lists (update next x p) hdr own := by
  refine ⟨fun k => (h.list k).congr fun y hy => ?_, h.apart⟩
  have hne : y ≠ x := ne_of_mem_of_not_mem hy (hx k)
  exact update_of_ne hne p next

theorem Lists.insertTail (h : Lists next hdr own) (k : κ) (hx : ∀ k, x ∉ own k) :
    Lists (insertTailList next (hdr k) x).1 (update hdr k (insertTailList next (hdr k) x).2)
      (update own k (own k ++ [x])) := by
  obtain ⟨hlist, hframe⟩ := (h.list k).insertTail (hx k)
  refine h.change hlist (fun k' hk y hy => ?_) fun y hy => ?_
  · refine hframe y ?_ fun hyk => hk (h.apart k' k y hy hyk)
    rintro rfl
    exact hx k' hy
  · rcases List.mem_append.mp hy with hy | hy
    · exact .inl hy
    · exact .inr ((List.mem_singleton.mp hy) ▸ hx)

theorem Lists.delEntry (h : Lists next hdr own) {turns : Nat} (hk : own k = l₁ ++ x :: l₂)
    (hturns : (own k).length ≤ turns) :
    ∃ next' pList', delEntryList next (hdr k) turns x = some (next', pList') ∧
      Lists next' (update hdr k pList') (update own k (l₁ ++ l₂)) ∧ next' x = next x := by
  have hlist := h.list k
  rw [hk] at hlist
  obtain ⟨next', pList', heq, hrest, hframe⟩ := hlist.delEntry (hk ▸ hturns)
  have hx : x ∉ l₁ := fun hm =>
    (List.nodup_append.mp hlist.nodup).2.2 x hm x List.mem_cons_self rfl
  refine ⟨next', pList', heq, h.change hrest (fun k' hne y hy => ?_) (fun y hy => .inl ?_),
    hframe x hx⟩
  · refine hframe y fun hy₁ => hne (h.apart k' k y hy ?_)
    rw [hk]
    exact List.mem_append_left _ hy₁
  · rw [hk]
    rcases List.mem_append.mp hy with hy | hy
    · exact List.mem_append_left _ hy
    · exact List.mem_append_right _ (List.mem_cons_of_mem x hy)

end Several
end Ralink.Igmp
