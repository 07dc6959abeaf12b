import Mathlib.Tactic

/-! A queue in a ring of `N` slots: a head and a number of slots in use, the tail is the slot behind
them. Slots are numbers below `N`, taken modulo `N`. -/
namespace Ring

variable {α : Type*} {N head num i j k : Nat} (cell : Nat → α) (v : α)

/-- The slot after `i`, as a counter that is set back when it reaches the end. -/
def next (N i : Nat) : Nat := if i + 1 = N then 0 else i + 1

theorem next_eq_mod (h : i < N) : next N i = (i + 1) % N := by
  unfold next
  split
  · next heq => rw [heq, Nat.mod_self]
  · next hne => rw [Nat.mod_eq_of_lt (by omega)]

theorem next_lt (h : i < N) : next N i < N := by
  rw [next_eq_mod h]
  exact Nat.mod_lt _ (by omega)

theorem slot_injective (hi : i < N) (hj : j < N) (h : (head + i) % N = (head + j) % N) :
    i = j := by
  have hmod : i ≡ j [MOD N] := Nat.ModEq.add_left_cancel' head h
  exact hmod.eq_of_lt_of_lt hi hj

theorem slot_before (hk : k < N) (hi : i < N) (h : (next N k + i) % N = k) : i + 1 = N := by
  rw [next_eq_mod hk, Nat.mod_add_mod, Nat.add_assoc] at h
  have hmod : k + (1 + i) ≡ k + 0 [MOD N] := h.trans (Nat.mod_eq_of_lt hk).symm
  have hdvd : N ∣ 1 + i := (Nat.modEq_zero_iff_dvd).mp (Nat.ModEq.add_left_cancel' k hmod)
  have := Nat.le_of_dvd (by omega) hdvd
  omega

/-- What the slots in use hold, from the head on. -/
def contents (N : Nat) (cell : Nat → α) (head num : Nat) : List α :=
  (List.range num).map fun i => cell ((head + i) % N)

theorem contents_succ :
    contents N cell head (num + 1) = contents N cell head num ++ [cell ((head + num) % N)] := by
  rw [contents, List.range_succ, List.map_append]
  rfl

theorem contents_cons (h : head < N) :
    contents N cell head (num + 1) = cell head :: contents N cell (next N head) num := by
  rw [contents, List.range_succ_eq_map, List.map_cons, List.map_map]
  congr 1
  · rw [Nat.add_zero, Nat.mod_eq_of_lt h]
  · refine List.map_congr_left fun i _ => ?_
    rw [next_eq_mod h, Nat.mod_add_mod, Function.comp_apply]
    congr 2
    omega

theorem contents_congr {cell cell' : Nat → α}
    (h : ∀ i < num, cell' ((head + i) % N) = cell ((head + i) % N)) :
    contents N cell' head num = contents N cell head num :=
  List.map_congr_left fun i hi => h i (List.mem_range.mp hi)

theorem contents_update (h : ∀ i < num, (head + i) % N ≠ k) :
    contents N (Function.update cell k v) head num = contents N cell head num :=
  contents_congr fun i hi => Function.update_of_ne (h i hi) v cell

theorem contents_push (h : num < N) :
    contents N (Function.update cell ((head + num) % N) v) head (num + 1) =
      contents N cell head num ++ [v] := by
  rw [contents_succ, Function.update_self, contents_update]
  intro i hi heq
  exact hi.ne (slot_injective (hi.trans h) h heq)

end Ring
