import Mathlib.Tactic

/-! A list cut at a delimiter into fields, and put together again: the first field, and each other
one behind its delimiter. -/
namespace Delimited

variable {α : Type*} {d : α} {xs f : List α} {fs : List (List α)}

def tails (d : α) (fs : List (List α)) : List α := fs.flatMap (d :: ·)

@[simp] theorem tails_nil : tails d [] = [] := rfl
@[simp] theorem tails_cons : tails d (f :: fs) = d :: (f ++ tails d fs) := rfl

@[simp] theorem tails_append (fs gs : List (List α)) :
    tails d (fs ++ gs) = tails d fs ++ tails d gs := List.flatMap_append

theorem intercalate_cons (d : α) (f : List α) (fs : List (List α)) :
    [d].intercalate (f :: fs) = f ++ tails d fs := by
  induction fs generalizing f with
  | nil => simp
  | cons g fs ih => rw [List.intercalate_cons_cons, ih, tails_cons, List.append_assoc]; rfl

theorem tails_eq_cons (hne : fs ≠ []) : tails d fs = d :: [d].intercalate fs := by
  cases fs with
  | nil => exact absurd rfl hne
  | cons f fs => rw [tails_cons, intercalate_cons]

variable [DecidableEq α]

theorem splitOn_first (h : d ∉ f) (xs : List α) :
    (f ++ d :: xs).splitOn d = f :: xs.splitOn d := by
  rw [List.splitOn_append_cons_self, List.splitOn_eq_singleton h, List.singleton_append]

theorem splitOn_cases (d : α) (xs : List α) :
    d ∉ xs ∧ xs.splitOn d = [xs] ∨
      ∃ f rest, d ∉ f ∧ xs = f ++ d :: rest ∧ xs.splitOn d = f :: rest.splitOn d := by
  by_cases h : d ∈ xs
  · obtain ⟨f, rest, hxs, hf⟩ := List.eq_append_cons_of_mem h
    exact .inr ⟨f, rest, hf, hxs, by rw [hxs, splitOn_first hf]⟩
  · exact .inl ⟨h, List.splitOn_eq_singleton h⟩

theorem not_mem_of_mem_splitOn (h : f ∈ xs.splitOn d) : d ∉ f := by
  induction hn : xs.length using Nat.strong_induction_on generalizing xs with
  | h n ih =>
    rcases splitOn_cases d xs with ⟨hd, hsplit⟩ | ⟨g, rest, hg, hxs, hsplit⟩
    · rw [hsplit, List.mem_singleton] at h
      rwa [h]
    · rw [hsplit, List.mem_cons] at h
      rcases h with rfl | h
      · exact hg
      · apply ih rest.length _ h rfl
        rw [← hn, hxs, List.length_append, List.length_cons]
        omega

theorem length_splitOn (d : α) (xs : List α) : (xs.splitOn d).length = xs.count d + 1 := by
  induction hn : xs.length using Nat.strong_induction_on generalizing xs with
  | h n ih =>
    rcases splitOn_cases d xs with ⟨hd, hsplit⟩ | ⟨g, rest, hg, hxs, hsplit⟩
    · rw [hsplit, List.count_eq_zero_of_not_mem hd]
      rfl
    · have hrest := ih rest.length (by rw [← hn, hxs, List.length_append, List.length_cons]; omega)
        rest rfl
      rw [hsplit, List.length_cons, hrest, hxs, List.count_append, List.count_cons_self,
        List.count_eq_zero_of_not_mem hg, Nat.zero_add]

theorem infix_of_mem_splitOn (h : f ∈ xs.splitOn d) : f <:+: xs := by
  induction hn : xs.length using Nat.strong_induction_on generalizing xs with
  | h n ih =>
    rcases splitOn_cases d xs with ⟨hd, hsplit⟩ | ⟨g, rest, hg, hxs, hsplit⟩
    · rw [hsplit, List.mem_singleton] at h
      rw [h]
    · rw [hsplit, List.mem_cons] at h
      rcases h with rfl | h
      · rw [hxs]
        exact (List.prefix_append f (d :: rest)).isInfix
      · have hlen : rest.length < n := by
          rw [← hn, hxs, List.length_append, List.length_cons]
          omega
        have hrest := ih rest.length hlen h rfl
        rw [hxs]
        exact hrest.trans ((List.suffix_cons d rest).trans (List.suffix_append g _)).isInfix

theorem length_le_of_mem_splitOn (h : f ∈ xs.splitOn d) : f.length ≤ xs.length :=
  (infix_of_mem_splitOn h).length_le

theorem mem_of_mem_splitOn {x : α} (h : f ∈ xs.splitOn d) (hx : x ∈ f) : x ∈ xs :=
  (infix_of_mem_splitOn h).mem hx

end Delimited
