import Mathlib.Tactic
import Ralink.Lib.Links

/-! Cells that are linked to one chain for each bucket. A cell is put behind the last one of a
bucket, taken out of its bucket with a pointer to the cell before it, or searched. A loop gets the
number of turns it may take. -/
namespace Buckets
open Function Links

variable {α κ : Type*}

section Functions

variable (next : α → Option α)

/-- The first cell that is a hit from a pointer on. -/
def seek (hit : α → Bool) : Nat → Option α → Option (Option α)
  | 0, _ => none
  | _ + 1, none => some none
  | turns + 1, some x => if hit x then some (some x) else seek hit turns (next x)

def lastFrom : Nat → α → Option α
  | 0, _ => none
  | turns + 1, x =>
    match next x with
    | none => some x
    | some y => lastFrom turns y

variable [DecidableEq α] [DecidableEq κ] (head : κ → Option α)

/-- `x` put into bucket `k`. -/
def pushBack (turns : Nat) (k : κ) (x : α) : Option ((κ → Option α) × (α → Option α)) :=
  match head k with
  | none => some (update head k (some x), next)
  | some y => (lastFrom next turns y).map fun z => (head, update next z (some x))

/-- `x` put behind `last`, or at the head of its bucket. -/
def attach (k : κ) (x : α) : Option α → (κ → Option α) × (α → Option α)
  | none => (update head k (some x), next)
  | some z => (head, update next z (some x))

/-- `x` taken out behind `prev`, or from the head of its bucket. -/
def bypass (k : κ) (x : α) : Option α → (κ → Option α) × (α → Option α)
  | none => (update head k (next x), next)
  | some z => (head, update next z (next x))

def removeLoop (k : κ) (x : α) :
    Nat → Option α → α → Option ((κ → Option α) × (α → Option α))
  | 0, _, _ => none
  | turns + 1, prev, y =>
    if y = x then some (bypass next head k x prev)
    else
      match next y with
      | none => some (head, next)
      | some z => removeLoop k x turns (some y) z

def remove (turns : Nat) (k : κ) (x : α) : Option ((κ → Option α) × (α → Option α)) :=
  match head k with
  | none => some (head, next)
  | some y => removeLoop next head k x turns none y

end Functions

/-- The buckets hold these cells, none is in two of them. -/
structure Holds (head : κ → Option α) (next : α → Option α) (own : κ → List α) : Prop where
  chain : ∀ k, Chain next (head k) (own k)
  apart : ∀ k k' x, x ∈ own k → x ∈ own k' → k = k'

variable {next next' : α → Option α} {head head' : κ → Option α} {own : κ → List α} {k : κ}
  {x y : α} {l l₁ l₂ : List α} {p : Option α} {turns : Nat}

theorem seek_eq {hit : α → Bool} (h : Chain next p l) (hturns : l.length < turns) :
    seek next hit turns p = some (l.find? hit) := by
  induction l generalizing p turns with
  | nil =>
    obtain ⟨turns, rfl⟩ := Nat.exists_eq_add_of_lt hturns
    obtain rfl := chain_nil.mp h
    rw [seek]
    rfl
  | cons x l ih =>
    obtain ⟨rfl, hrest⟩ := chain_cons.mp h
    obtain ⟨turns, rfl⟩ := Nat.exists_eq_succ_of_ne_zero (Nat.ne_zero_of_lt hturns)
    rw [seek, List.find?_cons]
    cases hhit : hit x with
    | true => rfl
    | false => exact ih hrest (Nat.lt_of_succ_lt_succ hturns)

theorem lastFrom_eq (h : Chain next (some y) l) (hturns : l.length ≤ turns) :
    lastFrom next turns y = l.getLast? := by
  induction l generalizing y turns with
  | nil => exact absurd (chain_nil.mp h) (Option.some_ne_none y)
  | cons x l ih =>
    obtain ⟨hx, hrest⟩ := chain_cons.mp h
    obtain rfl := Option.some.inj hx
    obtain ⟨turns, rfl⟩ := Nat.exists_eq_succ_of_ne_zero
      (Nat.ne_zero_of_lt (Nat.lt_of_lt_of_le (Nat.succ_pos _) hturns))
    cases l with
    | nil =>
      have hnext : next y = none := hrest
      simp only [lastFrom, hnext]
      rfl
    | cons z l =>
      have hnext : next y = some z := hrest.1
      simp only [lastFrom, hnext]
      rw [hnext] at hrest
      rw [ih hrest (Nat.le_of_succ_le_succ hturns), List.getLast?_cons_cons]

theorem Holds.change [DecidableEq κ] (h : Holds head next own)
    (hchain : Chain next' (head' k) l) (hhead : ∀ k', k' ≠ k → head' k' = head k')
    (hnext : ∀ k', k' ≠ k → ∀ y ∈ own k', next' y = next y)
    (hl : ∀ y ∈ l, y ∈ own k ∨ ∀ k', y ∉ own k') :
    Holds head' next' (update own k l) := by
  have hown : ∀ k' y, k' ≠ k → y ∈ own k' → y ∉ l := by
    intro k' y hk hy hyl
    rcases hl y hyl with hyk | hno
    · exact hk (h.apart k' k y hy hyk)
    · exact hno k' hy
  constructor
  · intro k'
    rcases eq_or_ne k' k with rfl | hk
    · rw [update_self]
      exact hchain
    · rw [update_of_ne hk, hhead k' hk]
      exact (h.chain k').congr (hnext k' hk)
  · intro k₁ k₂ y h₁ h₂
    rcases eq_or_ne k₁ k with rfl | hk₁
    · rcases eq_or_ne k₂ k₁ with rfl | hk₂
      · rfl
      · rw [update_self] at h₁
        rw [update_of_ne hk₂] at h₂
        exact absurd h₁ (hown k₂ y hk₂ h₂)
    · rw [update_of_ne hk₁] at h₁
      rcases eq_or_ne k₂ k with rfl | hk₂
      · rw [update_self] at h₂
        exact absurd h₂ (hown k₁ y hk₁ h₁)
      · rw [update_of_ne hk₂] at h₂
        exact h.apart k₁ k₂ y h₁ h₂

theorem mem_pushed [DecidableEq κ] {k' : κ} :
    y ∈ update own k (own k ++ [x]) k' ↔ y ∈ own k' ∨ y = x ∧ k' = k := by
  rcases eq_or_ne k' k with rfl | hk
  · rw [update_self, List.mem_append, List.mem_singleton, and_iff_left rfl]
  · rw [update_of_ne hk]
    exact (or_iff_left fun hy => hk hy.2).symm

theorem Holds.mem_removed [DecidableEq κ] {k' : κ} (h : Holds head next own)
    (hk : own k = l₁ ++ x :: l₂) : y ∈ update own k (l₁ ++ l₂) k' ↔ y ∈ own k' ∧ y ≠ x := by
  have hx : x ∈ own k := hk ▸ List.mem_append_right l₁ List.mem_cons_self
  rcases eq_or_ne k' k with rfl | hne
  · have hnodup := (h.chain k').nodup
    rw [hk, List.nodup_middle, List.nodup_cons] at hnodup
    rw [update_self, hk]
    constructor
    · intro hy
      refine ⟨?_, fun he => hnodup.1 (he ▸ hy)⟩
      exact List.mem_append.mpr ((List.mem_append.mp hy).imp_right (List.mem_cons_of_mem x))
    · rintro ⟨hy, hyx⟩
      refine List.mem_append.mpr ((List.mem_append.mp hy).imp_right fun hy => ?_)
      exact (List.mem_cons.mp hy).resolve_left hyx
  · rw [update_of_ne hne]
    refine (and_iff_left_of_imp fun hy he => hne ?_).symm
    exact h.apart k' k y hy (he ▸ hx)

variable [DecidableEq α]

theorem Holds.write_other (h : Holds head next own) (hx : ∀ k, x ∉ own k) (p : Option α) :
    Holds head (update next x p) own :=
  ⟨fun k => (h.chain k).write_other (hx k), h.apart⟩

variable [DecidableEq κ]

theorem pushBack_eq (h : Chain next (head k) l) (hturns : l.length ≤ turns) :
    pushBack next head turns k x = some (attach next head k x l.getLast?) := by
  unfold pushBack
  cases hhead : head k with
  | none =>
    rw [hhead] at h
    have hl := h.head_eq
    cases l with
    | nil => rfl
    | cons y l => cases hl
  | some y =>
    rw [hhead] at h
    show Option.map _ (lastFrom next turns y) = _
    rw [lastFrom_eq h hturns]
    cases hlast : l.getLast? with
    | none =>
      rw [List.getLast?_eq_none_iff.mp hlast] at h
      cases chain_nil.mp h
    | some z => rfl

theorem Holds.pushBack (h : Holds head next own) (hx : ∀ k, x ∉ own k) (hnext : next x = none)
    (hturns : (own k).length ≤ turns) :
    ∃ head' next', pushBack next head turns k x = some (head', next') ∧
      Holds head' next' (update own k (own k ++ [x])) := by
  have hl : ∀ y ∈ own k ++ [x], y ∈ own k ∨ ∀ k', y ∉ own k' := by
    intro y hy
    rcases List.mem_append.mp hy with hy | hy
    · exact .inl hy
    · exact .inr (List.mem_singleton.mp hy ▸ hx)
  have hchain := h.chain k
  refine ⟨_, _, pushBack_eq hchain hturns, ?_⟩
  rcases List.eq_nil_or_concat (own k) with hnil | ⟨init, z, hconcat⟩
  · have hlast : (own k).getLast? = none := by rw [hnil, List.getLast?_nil]
    rw [hlast]
    refine h.change ?_ (fun k' hk => update_of_ne hk _ _) (fun _ _ _ _ => rfl) hl
    show Chain next (update head k (some x) k) (own k ++ [x])
    rw [hnil, update_self, List.nil_append]
    exact ⟨rfl, hnext⟩
  · rw [List.concat_eq_append] at hconcat
    rw [hconcat] at hchain
    have hz : z ∈ own k := hconcat ▸ List.mem_append_right _ (List.mem_singleton.mpr rfl)
    have hlast : (own k).getLast? = some z := by rw [hconcat, List.getLast?_concat]
    rw [hlast]
    refine h.change ?_ (fun _ _ => rfl) ?_ hl
    · rw [hconcat]
      exact hchain.snoc (hconcat ▸ hx k) hnext
    · intro k' hk y hy
      refine update_of_ne ?_ _ _
      rintro rfl
      exact hk (h.apart k' k y hy hz)

theorem Holds.pushBack_next (h : Holds head next own) (hturns : (own k).length ≤ turns)
    (heq : Buckets.pushBack next head turns k x = some (head', next')) (hy : ∀ k, y ∉ own k) :
    next' y = next y := by
  rw [pushBack_eq (h.chain k) hturns] at heq
  have hpair := Option.some.inj heq
  cases hlast : (own k).getLast? with
  | none =>
    rw [hlast] at hpair
    exact congrFun (Prod.mk.inj hpair).2.symm y
  | some z =>
    rw [hlast] at hpair
    rw [← (Prod.mk.inj hpair).2]
    apply update_of_ne
    rintro rfl
    exact hy k (List.mem_of_getLast? hlast)

theorem removeLoop_eq {prev : Option α} (h : Seg next (some y) l (some x)) (hx : x ∉ l)
    (hturns : l.length < turns) :
    removeLoop next head k x turns prev y =
      some (bypass next head k x (l.getLast?.or prev)) := by
  induction l generalizing turns prev y with
  | nil =>
    obtain ⟨turns, rfl⟩ := Nat.exists_eq_add_of_lt hturns
    obtain rfl := Option.some.inj (seg_nil.mp h)
    rw [removeLoop, if_pos rfl]
    rfl
  | cons z l ih =>
    obtain ⟨hz, hrest⟩ := seg_cons.mp h
    obtain rfl := Option.some.inj hz
    obtain ⟨turns, rfl⟩ := Nat.exists_eq_succ_of_ne_zero (Nat.ne_zero_of_lt hturns)
    have hne : y ≠ x := fun he => hx (he ▸ List.mem_cons_self)
    have hxl : x ∉ l := fun hm => hx (List.mem_cons_of_mem y hm)
    obtain ⟨w, hw⟩ : ∃ w, next y = some w := by
      cases l with
      | nil => exact ⟨x, hrest⟩
      | cons w l => exact ⟨w, hrest.1⟩
    rw [hw] at hrest
    rw [removeLoop, if_neg hne]
    simp only [hw]
    rw [ih hrest hxl (Nat.lt_of_succ_lt_succ hturns)]
    cases l with
    | nil => rfl
    | cons w l => rw [List.getLast?_cons_cons, List.getLast?_cons, Option.some_or, Option.some_or]

theorem remove_eq (h : Chain next (head k) (l₁ ++ x :: l₂)) (hturns : (l₁ ++ x :: l₂).length ≤ turns) :
    remove next head turns k x = some (bypass next head k x l₁.getLast?) := by
  have hx : x ∉ l₁ := fun hm => (List.nodup_append.mp h.nodup).2.2 x hm x List.mem_cons_self rfl
  have hlen : l₁.length < turns := by
    rw [List.length_append, List.length_cons] at hturns
    omega
  obtain ⟨r, hseg, hrest⟩ := chain_append.mp h
  obtain ⟨rfl, -⟩ := chain_cons.mp hrest
  unfold remove
  cases hhead : head k with
  | none =>
    have hfirst := h.head_eq
    rw [hhead] at hfirst
    cases l₁ <;> cases hfirst
  | some y =>
    rw [hhead] at hseg
    have hloop : removeLoop next head k x turns none y = _ := removeLoop_eq hseg hx hlen
    rw [Option.or_none] at hloop
    exact hloop

theorem Holds.remove (h : Holds head next own) (hk : own k = l₁ ++ x :: l₂)
    (hturns : (own k).length ≤ turns) :
    ∃ head' next', remove next head turns k x = some (head', next') ∧
      Holds head' next' (update own k (l₁ ++ l₂)) := by
  have hchain := h.chain k
  rw [hk] at hchain hturns
  have hl : ∀ y ∈ l₁ ++ l₂, y ∈ own k ∨ ∀ k', y ∉ own k' := by
    intro y hy
    rw [hk]
    refine .inl (List.mem_append.mpr ?_)
    exact (List.mem_append.mp hy).imp_right (List.mem_cons_of_mem x)
  refine ⟨_, _, remove_eq hchain hturns, ?_⟩
  rcases List.eq_nil_or_concat l₁ with rfl | ⟨init, z, rfl⟩
  · refine h.change ?_ (fun k' hne => update_of_ne hne _ _) (fun _ _ _ _ => rfl) hl
    show Chain next (update head k (next x) k) l₂
    rw [update_self]
    exact hchain.2
  · rw [List.concat_eq_append] at hchain hk hl ⊢
    rw [List.getLast?_concat]
    have hz : z ∈ own k := by
      rw [hk]
      exact List.mem_append_left _ (List.mem_append_right _ (List.mem_singleton.mpr rfl))
    refine h.change hchain.unlink (fun _ _ => rfl) ?_ hl
    intro k' hne y hy
    refine update_of_ne ?_ _ _
    rintro rfl
    exact hne (h.apart k' k y hy hz)

theorem Holds.remove_next (h : Holds head next own) (hk : own k = l₁ ++ x :: l₂)
    (hturns : (own k).length ≤ turns) (heq : Buckets.remove next head turns k x = some (head', next'))
    (hy : ∀ k, y ∉ own k) : next' y = next y := by
  have hchain := h.chain k
  rw [hk] at hchain hturns
  rw [remove_eq hchain hturns] at heq
  have hpair := Option.some.inj heq
  cases hlast : l₁.getLast? with
  | none =>
    rw [hlast] at hpair
    exact congrFun (Prod.mk.inj hpair).2.symm y
  | some z =>
    rw [hlast] at hpair
    rw [← (Prod.mk.inj hpair).2]
    apply update_of_ne
    rintro rfl
    have hmem : y ∈ own k := hk ▸ List.mem_append_left _ (List.mem_of_getLast? hlast)
    exact hy k hmem

end Buckets
