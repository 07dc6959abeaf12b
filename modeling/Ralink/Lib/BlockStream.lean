import Mathlib.Tactic

/-! A text that comes in parts is collected in a buffer, and each block that is full is worked off.
What was worked off depends on the text, and on nothing about its parts. -/

/-- What the blocks worked off have come to, and the begun block. -/
structure BlockStream (σ α : Type*) (n : ℕ) where
  state : σ
  pending : List α
  short : pending.length < n

namespace BlockStream

variable {σ α : Type*} {n : ℕ} (f : σ → List α → σ) (s : BlockStream σ α n) {as bs : List α}

def start (x : σ) (hn : 0 < n) : BlockStream σ α n := ⟨x, [], hn⟩

def push (a : α) : BlockStream σ α n :=
  if h : s.pending.length + 1 < n then ⟨s.state, s.pending ++ [a], by simpa using h⟩
  else start (f s.state (s.pending ++ [a])) (Nat.zero_lt_of_lt s.short)

def absorb (as : List α) : BlockStream σ α n := as.foldl (push f) s

theorem absorb_append : s.absorb f (as ++ bs) = (s.absorb f as).absorb f bs := List.foldl_append

theorem absorb_short (h : s.pending.length + as.length < n) :
    (s.absorb f as).state = s.state ∧ (s.absorb f as).pending = s.pending ++ as := by
  induction as generalizing s with
  | nil => exact ⟨rfl, (List.append_nil _).symm⟩
  | cons a as ih =>
    rw [List.length_cons] at h
    have hpush : s.push f a = ⟨s.state, s.pending ++ [a], by simp; omega⟩ :=
      dif_pos (by omega)
    have hrest := ih (s.push f a) (by rw [hpush]; simp; omega)
    rw [hpush] at hrest
    have hfold : s.absorb f (a :: as) = (s.push f a).absorb f as := rfl
    rw [hfold, hpush, hrest.1, hrest.2]
    exact ⟨rfl, by simp⟩

theorem absorb_full (h : s.pending.length + as.length = n) :
    s.absorb f as = start (f s.state (s.pending ++ as)) (Nat.zero_lt_of_lt s.short) := by
  have hne : as ≠ [] := by
    rintro rfl
    exact s.short.ne h
  -- all but the last element stay in the buffer
  have hsplit := List.dropLast_append_getLast hne
  have hlen : as.length = as.dropLast.length + 1 := by
    rw [← congrArg List.length hsplit]
    simp
  have hfront := @absorb_short _ _ _ f s as.dropLast (by omega)
  have hlast : ¬ (s.absorb f as.dropLast).pending.length + 1 < n := by
    rw [hfront.2, List.length_append]
    omega
  rw [← hsplit, absorb_append]
  show (s.absorb f as.dropLast).push f (as.getLast hne) = _
  unfold push
  rw [dif_neg hlast, hfront.1, hfront.2, List.append_assoc, hsplit]

def blocks (n : ℕ) (as : List α) : List (List α) :=
  (List.range (as.length / n)).map fun i => (as.drop (n * i)).take n

theorem absorb_take {x : σ} (hn : 0 < n) (k : ℕ) (hk : n * k ≤ as.length) :
    (start x hn).absorb f (as.take (n * k)) =
      start (((List.range k).map fun i => (as.drop (n * i)).take n).foldl f x) hn := by
  induction k with
  | zero => rfl
  | succ k ih =>
    rw [Nat.mul_succ] at hk
    have hblock : ((as.drop (n * k)).take n).length = n := by
      rw [List.length_take, List.length_drop]
      omega
    rw [Nat.mul_succ, List.take_add, absorb_append, ih (by omega),
      absorb_full f _ (by rw [hblock]; exact Nat.zero_add n), List.range_succ, List.map_append,
      List.foldl_append]
    rfl

theorem absorb_eq (x : σ) (hn : 0 < n) (as : List α) :
    ((start x hn).absorb f as).state = (blocks n as).foldl f x ∧
      ((start x hn).absorb f as).pending = as.drop (n * (as.length / n)) := by
  have hle : n * (as.length / n) ≤ as.length := Nat.mul_div_le _ _
  have hrest : (as.drop (n * (as.length / n))).length < n := by
    rw [List.length_drop]
    have := Nat.mod_lt as.length hn
    have := Nat.div_add_mod as.length n
    omega
  have happ : (start x hn).absorb f as =
      (start ((blocks n as).foldl f x) hn).absorb f (as.drop (n * (as.length / n))) := by
    have hfront := absorb_take f (x := x) hn _ hle
    rw [blocks, ← hfront, ← absorb_append, List.take_append_drop]
  rw [happ]
  exact absorb_short f _ (by rw [start, List.length_nil, Nat.zero_add]; exact hrest)

theorem length_pending (x : σ) (hn : 0 < n) (as : List α) :
    ((start x hn).absorb f as).pending.length = as.length % n := by
  rw [(absorb_eq f x hn as).2, List.length_drop]
  have := Nat.div_add_mod as.length n
  omega

end BlockStream
