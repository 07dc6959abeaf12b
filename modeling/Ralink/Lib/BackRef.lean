import Mathlib.Tactic

/-! Entries `1 .. n-1` of a table, each free or owned by a key, and for every key one slot that
names its entry or is 0. When both sides agree, ownership is a partial injection, and the count of
owned entries follows linking and unlinking. -/
namespace BackRef

variable {κ : Type*} {slot : κ → Nat} {owner : Nat → Option κ} {k k' : κ} {i j n : Nat}

structure Linked (slot : κ → Nat) (owner : Nat → Option κ) : Prop where
  zero : owner 0 = none
  agree : ∀ k i, i ≠ 0 → (slot k = i ↔ owner i = some k)

theorem Linked.empty : Linked (fun _ : κ => 0) (fun _ => none) :=
  ⟨rfl, fun k i hi => by simp [Ne.symm hi]⟩

theorem Linked.slot_of_owner (h : Linked slot owner) (ho : owner i = some k) : slot k = i := by
  have hi : i ≠ 0 := by
    rintro rfl
    rw [h.zero] at ho
    cases ho
  exact (h.agree k i hi).mpr ho

theorem Linked.owner_of_slot (h : Linked slot owner) (hs : slot k ≠ 0) : owner (slot k) = some k :=
  (h.agree k _ hs).mp rfl

theorem Linked.existsUnique_slot (h : Linked slot owner) (ho : owner i = some k) :
    ∀ k', slot k' = i ↔ k' = k := by
  have hi : i ≠ 0 := by
    rintro rfl
    rw [h.zero] at ho
    cases ho
  intro k'
  rw [h.agree k' i hi, ho, Option.some.injEq]
  exact eq_comm

section Update
variable [DecidableEq κ]

theorem Linked.link (h : Linked slot owner) (hi : i ≠ 0) (hk : slot k = 0) (ho : owner i = none) :
    Linked (Function.update slot k i) (Function.update owner i (some k)) := by
  refine ⟨by rw [Function.update_of_ne (Ne.symm hi), h.zero], fun k' j hj => ?_⟩
  rcases eq_or_ne k' k with rfl | hkk
  · rcases eq_or_ne j i with rfl | hji
    · simp
    · rw [Function.update_self, Function.update_of_ne hji, ← h.agree k' j hj, hk]
      exact iff_of_false (Ne.symm hji) (Ne.symm hj)
  · rw [Function.update_of_ne hkk, h.agree k' j hj]
    rcases eq_or_ne j i with rfl | hji
    · rw [Function.update_self, ho, Option.some.injEq]
      exact iff_of_false (by simp) (Ne.symm hkk)
    · rw [Function.update_of_ne hji]

theorem Linked.unlink (h : Linked slot owner) (ho : owner i = some k) :
    Linked (Function.update slot k 0) (Function.update owner i none) := by
  have hi : i ≠ 0 := by
    rintro rfl
    rw [h.zero] at ho
    cases ho
  refine ⟨by rw [Function.update_of_ne (Ne.symm hi), h.zero], fun k' j hj => ?_⟩
  rcases eq_or_ne k' k with rfl | hkk
  · rw [Function.update_self]
    rcases eq_or_ne j i with rfl | hji
    · rw [Function.update_self]
      exact iff_of_false (Ne.symm hj) (by simp)
    · rw [Function.update_of_ne hji, ← h.agree k' j hj, h.slot_of_owner ho]
      exact iff_of_false (Ne.symm hj) (Ne.symm hji)
  · rw [Function.update_of_ne hkk, h.agree k' j hj]
    rcases eq_or_ne j i with rfl | hji
    · rw [Function.update_self, ho, Option.some.injEq]
      exact iff_of_false (Ne.symm hkk) (by simp)
    · rw [Function.update_of_ne hji]

end Update

/-- The number of indices `1 .. n-1` with property `p`. -/
def count (n : Nat) (p : Nat → Bool) : Nat := ((Finset.Ico 1 n).filter (fun i => p i)).card

variable {p q : Nat → Bool}

theorem count_congr (h : ∀ i, 1 ≤ i → i < n → p i = q i) : count n p = count n q := by
  unfold count
  congr 1
  refine Finset.filter_congr fun i hi => ?_
  have hb := Finset.mem_Ico.mp hi
  rw [h i hb.1 hb.2]

theorem count_eq_zero (h : ∀ i, 1 ≤ i → i < n → p i = false) : count n p = 0 := by
  rw [count_congr (q := fun _ => false) h]
  simp [count]

theorem count_set (hi : 1 ≤ i) (hn : i < n) (hp : p i = false) (hq : q i = true)
    (hother : ∀ j, j ≠ i → q j = p j) : count n q = count n p + 1 := by
  unfold count
  have hins : (Finset.Ico 1 n).filter (fun i => q i) =
      insert i ((Finset.Ico 1 n).filter (fun i => p i)) := by
    ext j
    rcases eq_or_ne j i with rfl | hj
    · simp [hq, hi, hn]
    · simp [hother j hj, hj]
  rw [hins, Finset.card_insert_of_notMem (by simp [hp])]

theorem count_clear (hi : 1 ≤ i) (hn : i < n) (hp : p i = true) (hq : q i = false)
    (hother : ∀ j, j ≠ i → q j = p j) : count n q = count n p - 1 := by
  rw [count_set hi hn hq hp fun j hj => (hother j hj).symm]
  rfl

theorem exists_of_count_lt (h : count n p < n - 1) : ∃ i, 1 ≤ i ∧ i < n ∧ p i = false := by
  by_contra hall
  push Not at hall
  have heq : (Finset.Ico 1 n).filter (fun i => p i) = Finset.Ico 1 n := by
    refine Finset.filter_true_of_mem fun i hi => ?_
    have hb := Finset.mem_Ico.mp hi
    simpa using hall i hb.1 hb.2
  rw [count, heq, Nat.card_Ico] at h
  omega

end BackRef
