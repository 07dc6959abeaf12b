import Mathlib.Tactic

/-! Loops whose body may return. -/
namespace Turns

variable {σ ρ : Type*} (turn : σ → (σ × ρ) ⊕ σ)

/-- The body is run until it returns, at most so many times. -/
def loop : Nat → σ → Option (σ × ρ)
  | 0, _ => none
  | turns + 1, s =>
    match turn s with
    | .inl r => some r
    | .inr s' => loop turns s'

/-- `P` holds before every turn. -/
def AllTurns (P : σ → Prop) : Nat → σ → Prop
  | 0, _ => True
  | turns + 1, s => P s ∧ ∀ s', turn s = .inr s' → AllTurns P turns s'

variable {turn} {I P : σ → Prop} {s s' : σ} {r : ρ} {turns : Nat}

theorem loop_inv (hret : ∀ s s' r, I s → P s → turn s = .inl (s', r) → I s')
    (hnext : ∀ s s', I s → P s → turn s = .inr s' → I s') (hs : I s)
    (hp : AllTurns turn P turns s) (h : loop turn turns s = some (s', r)) : I s' := by
  induction turns generalizing s with
  | zero => cases h
  | succ turns ih =>
    rw [loop] at h
    cases hturn : turn s with
    | inl out =>
      rw [hturn] at h
      obtain rfl := Option.some.inj h
      exact hret s s' r hs hp.1 hturn
    | inr next =>
      rw [hturn] at h
      exact ih (hnext s next hs hp.1 hturn) (hp.2 next hturn) h

theorem isSome_loop {μ : σ → Nat} (hturn : ∀ s s', turn s = .inr s' → μ s' < μ s)
    (h : μ s < turns) : (loop turn turns s).isSome := by
  induction turns generalizing s with
  | zero => cases h
  | succ turns ih =>
    rw [loop]
    cases hs : turn s with
    | inl out => rfl
    | inr next => exact ih (Nat.lt_of_lt_of_le (hturn s next hs) (Nat.le_of_lt_succ h))

end Turns

/-! A pointer is what can be read from it on. A function of the entry it points to gives a result or
lets it go on to the next entry, and fails where it would read past the end. -/
namespace Walk

variable {α ρ : Type*} (w : Nat)

def entries : Nat → List α → List (List α)
  | 0, _ => []
  | n + 1, p => p.take w :: entries n (p.drop w)

/-- The first result of at most so many entries. -/
def walk (f : List α → Option (Option ρ)) : Nat → List α → Option (Option ρ)
  | 0, _ => some none
  | n + 1, p => do
    match ← f p with
    | some r => some (some r)
    | none => walk f n (p.drop w)

/-- The result of an entry is read from all of its bytes. -/
structure Reads (f : List α → Option (Option ρ)) (g : List α → Option ρ) : Prop where
  inside : ∀ p : List α, w ≤ p.length → f p = some (g (p.take w))
  past : ∀ p : List α, p.length < w → f p = none

variable {w} {f : List α → Option (Option ρ)} {g : List α → Option ρ} {n : Nat} {p q : List α}

theorem entries_append (h : w * n ≤ p.length) : entries w n (p ++ q) = entries w n p := by
  induction n generalizing p with
  | zero => rfl
  | succ n ih =>
    rw [Nat.mul_succ] at h
    rw [entries, entries, List.take_append_of_le_length (by omega),
      List.drop_append_of_le_length (by omega), ih (by rw [List.length_drop]; omega)]

theorem walk_of_le (hf : Reads w f g) (h : w * n ≤ p.length) :
    walk w f n p = some ((entries w n p).findSome? g) := by
  induction n generalizing p with
  | zero => rfl
  | succ n ih =>
    rw [Nat.mul_succ] at h
    rw [walk, entries, List.findSome?_cons, hf.inside p (by omega)]
    cases hr : g (p.take w) with
    | some r => rfl
    | none => exact ih (by rw [List.length_drop]; omega)

theorem walk_of_lt (hf : Reads w f g) (h : p.length < w * n) : walk w f n p ≠ some none := by
  induction n generalizing p with
  | zero => cases h
  | succ n ih =>
    rw [walk]
    by_cases hle : w ≤ p.length
    · rw [hf.inside p hle]
      cases g (p.take w) with
      | some r => nofun
      | none =>
        apply ih
        rw [Nat.mul_succ] at h
        rw [List.length_drop]
        omega
    · rw [hf.past p (Nat.lt_of_not_le hle)]
      nofun

end Walk
