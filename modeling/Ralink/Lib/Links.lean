import Mathlib.Data.List.Basic
import Mathlib.Logic.Function.Basic

/-! Cells that each point to the next one or to none. A segment runs from a pointer through some
cells to another pointer, a chain is a segment that ends. What a write to one cell does to the
segments that it is in, and to those that it is not in. -/
namespace Links
open Function

variable {α : Type*}

/-- From `p` through the cells `l` to `q`. -/
def Seg (next : α → Option α) : Option α → List α → Option α → Prop
  | p, [], q => p = q
  | p, x :: l, q => p = some x ∧ Seg next (next x) l q

def Chain (next : α → Option α) (p : Option α) (l : List α) : Prop := Seg next p l none

variable {next next' : α → Option α} {p q r : Option α} {x y : α} {l l' : List α}

@[simp] theorem seg_nil : Seg next p [] q ↔ p = q := Iff.rfl

@[simp] theorem seg_cons : Seg next p (x :: l) q ↔ p = some x ∧ Seg next (next x) l q := Iff.rfl

theorem seg_append : Seg next p (l ++ l') q ↔ ∃ r, Seg next p l r ∧ Seg next r l' q := by
  induction l generalizing p with
  | nil => simp
  | cons x l ih => simp only [List.cons_append, seg_cons, ih, ← exists_and_left, and_assoc]

theorem Seg.congr (h : Seg next p l q) (hnext : ∀ x ∈ l, next' x = next x) : Seg next' p l q := by
  induction l generalizing p with
  | nil => exact h
  | cons x l ih =>
    refine ⟨h.1, ?_⟩
    rw [hnext x List.mem_cons_self]
    exact ih h.2 fun y hy => hnext y (List.mem_cons_of_mem x hy)

/-- The cells met in at most `k` steps. -/
def walk (next : α → Option α) : Nat → Option α → List α
  | 0, _ => []
  | _ + 1, none => []
  | k + 1, some x => x :: walk next k (next x)

theorem chain_nil : Chain next p [] ↔ p = none := Iff.rfl

theorem chain_cons : Chain next p (x :: l) ↔ p = some x ∧ Chain next (next x) l := Iff.rfl

theorem chain_append : Chain next p (l ++ l') ↔ ∃ r, Seg next p l r ∧ Chain next r l' := seg_append

section

variable (h : Chain next p l)
include h

theorem Chain.congr (hnext : ∀ x ∈ l, next' x = next x) : Chain next' p l :=
  Seg.congr h hnext

theorem Chain.head_eq : p = l.head? := by
  cases l with
  | nil => exact h
  | cons x l => exact h.1

theorem Chain.walk_eq {k : Nat} (hk : l.length ≤ k) : walk next k p = l := by
  induction l generalizing p k with
  | nil =>
    obtain rfl := chain_nil.mp h
    cases k <;> rfl
  | cons x l ih =>
    obtain ⟨rfl, hrest⟩ := chain_cons.mp h
    obtain ⟨k, rfl⟩ := Nat.exists_eq_add_of_le' (Nat.lt_of_lt_of_le (Nat.succ_pos _) hk)
    exact congrArg (x :: ·) (ih hrest (Nat.le_of_succ_le_succ hk))

theorem Chain.unique (h' : Chain next p l') : l = l' := by
  induction l generalizing p l' with
  | nil =>
    cases l' with
    | nil => rfl
    | cons x l' => cases h.symm.trans h'.1
  | cons x l ih =>
    cases l' with
    | nil => cases h'.symm.trans h.1
    | cons x' l' =>
      obtain rfl := Option.some.inj (h.1.symm.trans h'.1)
      rw [ih h.2 h'.2]

theorem Chain.nodup : l.Nodup := by
  induction l generalizing p with
  | nil => exact List.nodup_nil
  | cons x l ih =>
    refine List.nodup_cons.mpr ⟨fun hx => ?_, ih h.2⟩
    -- the chain from the second time on would be all of it
    obtain ⟨l₁, l₂, rfl⟩ := List.append_of_mem hx
    obtain ⟨r, -, hr⟩ := chain_append.mp h.2
    obtain ⟨rfl, hl₂⟩ := chain_cons.mp hr
    have heq := hl₂.unique h.2
    have hlen := congrArg List.length heq
    simp at hlen
    omega

end

section Write
variable [DecidableEq α]

theorem Seg.write_other (h : Seg next p l q) (hx : x ∉ l) : Seg (update next x r) p l q :=
  h.congr fun _ hy => update_of_ne (ne_of_mem_of_not_mem hy hx) r next

theorem Chain.write_other (h : Chain next p l) (hx : x ∉ l) : Chain (update next x r) p l :=
  Seg.write_other h hx

theorem Seg.write_last (h : Seg next p (l ++ [x]) q) (hx : x ∉ l) :
    Seg (update next x r) p (l ++ [x]) r := by
  obtain ⟨s, hl, hlast⟩ := seg_append.mp h
  refine seg_append.mpr ⟨s, hl.write_other hx, hlast.1, ?_⟩
  rw [update_self]
  exact rfl

theorem Chain.snoc (h : Chain next p (l ++ [x])) (hy : y ∉ l ++ [x]) (hnext : next y = none) :
    Chain (update next x (some y)) p (l ++ [x] ++ [y]) := by
  have hx : x ∉ l := by
    have hnodup := h.nodup
    rw [List.nodup_append] at hnodup
    exact fun hmem => hnodup.2.2 x hmem x (List.mem_singleton.mpr rfl) rfl
  refine chain_append.mpr ⟨some y, Seg.write_last h hx, rfl, ?_⟩
  have hne : y ≠ x := fun he => hy (List.mem_append_right l (List.mem_singleton.mpr he))
  rw [update_of_ne hne, hnext]
  exact rfl

theorem Chain.unlink (h : Chain next p (l ++ [x] ++ y :: l')) :
    Chain (update next x (next y)) p (l ++ [x] ++ l') := by
  have hnodup := h.nodup
  obtain ⟨r, hl, hr⟩ := chain_append.mp h
  have hx : x ∉ l ∧ x ∉ l' := by
    rw [List.nodup_append, List.nodup_append] at hnodup
    obtain ⟨⟨-, -, hlx⟩, -, hall⟩ := hnodup
    refine ⟨fun hmem => hlx x hmem x (List.mem_singleton.mpr rfl) rfl, fun hmem => ?_⟩
    exact hall x (List.mem_append_right l (List.mem_singleton.mpr rfl)) x
      (List.mem_cons_of_mem y hmem) rfl
  exact chain_append.mpr ⟨next y, hl.write_last hx.1, Chain.write_other hr.2 hx.2⟩

end Write

end Links
