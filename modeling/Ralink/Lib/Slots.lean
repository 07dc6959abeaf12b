import Mathlib.Data.Fintype.Card
import Mathlib.Data.Finset.Card
import Mathlib.Data.List.FinRange

/-! A table with `n` slots, each empty or taken by a key, in which a key is searched from the first
slot on. When no key is in two slots, what a search finds after one slot has been written is known
from what it found before. -/
namespace Slots
open Function

variable {n : Nat} {α κ : Type*} (key : α → Option κ) (t : Fin n → α)

@[irreducible] def find [DecidableEq κ] (k : κ) : Option (Fin n) :=
  Fin.find? fun i => key (t i) = some k

def used : Nat := (Finset.univ.filter fun i => (key (t i)).isSome).card

def Distinct : Prop := ∀ i j k, key (t i) = some k → key (t j) = some k → i = j

variable {key t} {i : Fin n} {k : κ} {a : α}

theorem Distinct.update (h : Distinct key t)
    (ha : ∀ j, j ≠ i → ∀ k, key a = some k → key (t j) ≠ some k) :
    Distinct key (update t i a) := by
  intro j j' k hj hj'
  rcases eq_or_ne j i with rfl | hji
  · rcases eq_or_ne j' j with rfl | hji'
    · rfl
    · rw [update_self] at hj
      rw [update_of_ne hji'] at hj'
      exact absurd hj' (ha j' hji' k hj)
  · rw [update_of_ne hji] at hj
    rcases eq_or_ne j' i with rfl | hji'
    · rw [update_self] at hj'
      exact absurd hj (ha j hji k hj')
    · rw [update_of_ne hji'] at hj'
      exact h j j' k hj hj'

section Find
variable [DecidableEq κ]

theorem find_eq_none : find key t k = none ↔ ∀ i, key (t i) ≠ some k := by
  rw [find, Fin.find?_eq_none_iff]
  simp

theorem key_of_find (h : find key t k = some i) : key (t i) = some k := by
  rw [find] at h
  simpa using Fin.eq_true_of_find?_eq_some h

theorem Distinct.find_eq_some (h : Distinct key t) :
    find key t k = some i ↔ key (t i) = some k := by
  constructor
  · exact key_of_find
  · intro hk
    cases hf : find key t k with
    | none => exact absurd hk (find_eq_none.mp hf i)
    | some j => rw [h i j k hk (key_of_find hf)]

theorem Distinct.find_update_self (h : Distinct key (Function.update t i a)) (ha : key a = some k) :
    find key (Function.update t i a) k = some i := by
  rw [h.find_eq_some, update_self]
  exact ha

theorem find_update_other (ht : key (t i) ≠ some k) (ha : key a ≠ some k) :
    find key (update t i a) k = find key t k := by
  unfold find
  congr 1
  funext j
  rcases eq_or_ne j i with rfl | hj
  · simp [ht, ha]
  · rw [update_of_ne hj]

theorem Distinct.find_update_gone (h : Distinct key t) (ht : key (t i) = some k)
    (ha : key a ≠ some k) : find key (Function.update t i a) k = none := by
  rw [find_eq_none]
  intro j
  rcases eq_or_ne j i with rfl | hj
  · rwa [update_self]
  · rw [update_of_ne hj]
    intro hjk
    exact hj (h j i k hjk ht)

end Find

theorem used_le : used key t ≤ n := (Finset.card_filter_le _ _).trans (by simp)

theorem used_lt (h : key (t i) = none) : used key t < n := by
  have hlt : (Finset.univ.filter fun i => (key (t i)).isSome).card <
      (Finset.univ : Finset (Fin n)).card := by
    apply Finset.card_lt_card
    refine Finset.filter_ssubset.mpr ⟨i, Finset.mem_univ i, ?_⟩
    simp [h]
  simpa [used] using hlt

theorem exists_empty (h : used key t < n) : ∃ i, key (t i) = none := by
  by_contra hall
  push Not at hall
  have huniv : (Finset.univ.filter fun i => (key (t i)).isSome) = Finset.univ := by
    refine Finset.filter_true_of_mem fun i _ => ?_
    exact Option.isSome_iff_ne_none.mpr (hall i)
  rw [used, huniv] at h
  simp at h

theorem used_eq_zero : used key t = 0 ↔ ∀ i, key (t i) = none := by
  rw [used, Finset.card_eq_zero, Finset.filter_eq_empty_iff]
  simp

theorem used_update_same (h : (key a).isSome = (key (t i)).isSome) :
    used key (update t i a) = used key t := by
  unfold used
  congr 1
  ext j
  rcases eq_or_ne j i with rfl | hj
  · simp [h]
  · simp [hj]

theorem used_take (ht : key (t i) = none) (ha : (key a).isSome) :
    used key (update t i a) = used key t + 1 := by
  have hins : (Finset.univ.filter fun j => (key (update t i a j)).isSome) =
      insert i (Finset.univ.filter fun j => (key (t j)).isSome) := by
    ext j
    rcases eq_or_ne j i with rfl | hj
    · simp [ha]
    · simp [hj]
  rw [used, hins, Finset.card_insert_of_notMem (by simp [ht]), used]

theorem used_free (ht : (key (t i)).isSome) (ha : key a = none) :
    used key t = used key (update t i a) + 1 := by
  have hback : update (update t i a) i (t i) = t := by simp
  rw [← used_take (t := update t i a) (i := i) (a := t i) (by simpa using ha) ht, hback]

theorem Distinct.card_eq_used (h : Distinct key t) {ks : Finset κ}
    (hks : ∀ k, k ∈ ks ↔ ∃ i, key (t i) = some k) : ks.card = used key t := by
  symm
  apply Finset.card_bij (fun i hi => (key (t i)).get (Finset.mem_filter.mp hi).2)
  · intro i hi
    rw [hks]
    exact ⟨i, (Option.some_get _).symm⟩
  · intro i hi j hj heq
    have hki := (Finset.mem_filter.mp hi).2
    refine h i j ((key (t i)).get hki) (Option.some_get _).symm ?_
    rw [heq, Option.some_get]
  · intro k hk
    obtain ⟨i, hi⟩ := (hks k).mp hk
    exact ⟨i, by simp [hi], by simp [hi]⟩

/-- One pass over slots that writes each as a function of what is in it. -/
def sweep (g : Fin n → α → α) (t : Fin n → α) (l : List (Fin n)) : Fin n → α :=
  l.foldl (fun t j => update t j (g j (t j))) t

theorem sweep_apply {g : Fin n → α → α} {l : List (Fin n)} (h : l.Nodup) (t : Fin n → α)
    (i : Fin n) : sweep g t l i = if i ∈ l then g i (t i) else t i := by
  induction l generalizing t with
  | nil => rfl
  | cons j l ih =>
    obtain ⟨hj, hl⟩ := List.nodup_cons.mp h
    rw [sweep, List.foldl_cons, ← sweep, ih hl]
    rcases eq_or_ne i j with rfl | hij
    · simp [hj]
    · simp [hij]

theorem sweep_all {g : Fin n → α → α} (t : Fin n → α) (i : Fin n) :
    sweep g t (List.finRange n) i = g i (t i) := by
  rw [sweep_apply (List.nodup_finRange n), if_pos (List.mem_finRange i)]

section Last

variable {p : Fin n → Bool} {index : Option (Fin n)}

/-- A loop that keeps the slot it has found until it finds the next. -/
def lastOf (p : Fin n → Bool) (index : Option (Fin n)) (l : List (Fin n)) : Option (Fin n) :=
  l.foldl (fun index i => if p i then some i else index) index

def findLast (p : Fin n → Bool) : Option (Fin n) := lastOf p none (List.finRange n)

theorem lastOf_eq_some {l : List (Fin n)} (h : lastOf p index l = some i) :
    index = some i ∨ p i = true := by
  induction l generalizing index with
  | nil => exact .inl h
  | cons j l ih =>
    rcases ih h with hj | hi
    · by_cases hpj : p j = true
      · have hji : some j = some i := (if_pos hpj).symm.trans hj
        obtain rfl := Option.some.inj hji
        exact .inr hpj
      · exact .inl ((if_neg hpj).symm.trans hj)
    · exact .inr hi

theorem lastOf_eq_none {l : List (Fin n)} :
    lastOf p index l = none ↔ index = none ∧ ∀ j ∈ l, p j = false := by
  induction l generalizing index with
  | nil => exact ⟨fun h => ⟨h, nofun⟩, fun h => h.1⟩
  | cons j l ih =>
    rw [lastOf, List.foldl_cons, ← lastOf, ih, List.forall_mem_cons]
    cases p j <;> simp

theorem of_findLast (h : findLast p = some i) : p i = true := by
  rcases lastOf_eq_some h with hnone | hi
  · exact (Option.some_ne_none i hnone.symm).elim
  · exact hi

theorem findLast_eq_none : findLast p = none ↔ ∀ i, p i = false := by
  rw [findLast, lastOf_eq_none]
  exact ⟨fun h i => h.2 i (List.mem_finRange i), fun h => ⟨rfl, fun i _ => h i⟩⟩

theorem isSome_findLast : (findLast p).isSome ↔ ∃ i, p i = true := by
  rw [Option.isSome_iff_ne_none, ne_eq, findLast_eq_none]
  simp

theorem findLast_eq_some (huniq : ∀ i j, p i = true → p j = true → i = j) :
    findLast p = some i ↔ p i = true := by
  constructor
  · exact of_findLast
  · intro hi
    obtain ⟨j, hj⟩ := Option.isSome_iff_exists.mp (isSome_findLast.mpr ⟨i, hi⟩)
    rw [hj, huniq i j hi (of_findLast hj)]

end Last

end Slots
