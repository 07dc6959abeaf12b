import Mathlib.Data.Set.Card

/-! A bounded cache that forgets what was refreshed longest ago. -/
namespace Cache
open Function

variable {κ ι : Type*}

/-- What is kept under a key, and when it was put there last. -/
abbrev Book (κ ι : Type*) := κ → Option (ι × Nat)

noncomputable def Book.size (b : Book κ ι) : Nat := {k | b k ≠ none}.ncard

theorem Book.size_eq {b : Book κ ι} (ks : Finset κ) (h : ∀ k, k ∈ ks ↔ b k ≠ none) :
    b.size = ks.card := by
  have hset : {k | b k ≠ none} = (ks : Set κ) := by
    ext k
    exact (h k).symm
  rw [Book.size, hset, Set.ncard_coe_finset]

inductive Op (κ ι : Type*) where
  | add (k : κ) (v : ι) (now : Nat)
  | drop (k : κ)
  | idle
  | age (now : κ → Nat) (period : Nat)

/-- What an operation does with room for `n` keys. An addition to a full cache takes out one key
with the oldest time, and nothing else is lost but by deletion and age. -/
inductive Step [DecidableEq κ] (n : Nat) : Book κ ι → Op κ ι → Book κ ι → Prop
  | refresh {b k v now} : b k ≠ none → Step n b (.add k v now) (update b k (some (v, now)))
  | fill {b k v now} : b k = none → b.size < n →
      Step n b (.add k v now) (update b k (some (v, now)))
  | evict {b k v now old w} : b k = none → n ≤ b.size → b old = some w →
      (∀ c w', b c = some w' → w.2 ≤ w'.2) →
      Step n b (.add k v now) (update (update b old none) k (some (v, now)))
  | drop {b k} : Step n b (.drop k) (update b k none)
  | idle {b} : Step n b .idle b
  | age {b now period} :
      Step n b (.age now period) fun k => (b k).filter fun w => now k - w.2 < period

variable [DecidableEq κ] {n now : Nat} {b b' : Book κ ι} {k c : κ} {v : ι} {w : ι × Nat}

theorem Step.newer_stays (h : Step n b (.add k v now) b') (hc : b c = some w) (hck : c ≠ k)
    (holder : ∃ d u, b d = some u ∧ u.2 < w.2) : b' c = some w := by
  cases h with
  | refresh => rwa [update_of_ne hck]
  | fill => rwa [update_of_ne hck]
  | evict _ _ hold holdest =>
    obtain ⟨d, u, hd, hlt⟩ := holder
    rw [update_of_ne hck, update_of_ne]
    · exact hc
    · rintro rfl
      obtain rfl := Option.some.inj (hold.symm.trans hc)
      exact absurd (holdest d u hd) (Nat.not_le.mpr hlt)

end Cache

/-! The keys of a map are kept in slots. A key that has no slot gets a free one, or one that is
taken from an entry that is stale; only where there is neither it is refused. -/
namespace Ageing
open Function Cache

variable {κ ι : Type*}

inductive Op (κ : Type*) where
  | insert (k : κ) (now : Nat)
  | lookUp (k : κ)
  | delete (k : κ)
  deriving DecidableEq

def Op.time? : Op κ → Option Nat
  | .insert _ now => some now
  | .lookUp _ => none
  | .delete _ => none

/-- What an operation answers and does. With `stale now since` an entry may be taken out at `now`
that was put in at `since`. -/
inductive Step [DecidableEq κ] (stale : Nat → Nat → Prop) :
    Book κ ι → Op κ → Option ι → Book κ ι → Prop
  | present {b k i since now} : b k = some (i, since) → Step stale b (.insert k now) (some i) b
  | fill {b k i now} : b k = none → (∀ c since, b c ≠ some (i, since)) →
      Step stale b (.insert k now) (some i) (update b k (some (i, now)))
  | reuse {b k old i since now} : b k = none → b old = some (i, since) → stale now since →
      Step stale b (.insert k now) (some i) (update (update b old none) k (some (i, now)))
  | refuse {b k now} : b k = none → (∀ i, ∃ c since, b c = some (i, since) ∧ ¬ stale now since) →
      Step stale b (.insert k now) none b
  | lookUp {b k} : Step stale b (.lookUp k) ((b k).map (·.1)) b
  | delete {b k} : Step stale b (.delete k) none (update b k none)

/-- The operations with their answers from the empty map on. -/
inductive History [DecidableEq κ] (stale : Nat → Nat → Prop) :
    List (Op κ × Option ι) → Book κ ι → Prop
  | nil : History stale [] fun _ => none
  | snoc {past b op answer b'} : History stale past b → Step stale b op answer b' →
      History stale (past ++ [(op, answer)]) b'

def NonDecreasing (ops : List (Op κ)) : Prop := (ops.filterMap Op.time?).Pairwise (· ≤ ·)

instance (ops : List (Op κ)) : Decidable (NonDecreasing ops) :=
  inferInstanceAs (Decidable ((ops.filterMap Op.time?).Pairwise (· ≤ ·)))

variable [DecidableEq κ] {stale : Nat → Nat → Prop} {b b' : Book κ ι} {op : Op κ}
  {answer : Option ι} {k : κ} {i : ι} {since : Nat} {past : List (Op κ × Option ι)}

theorem Step.came (h : Step stale b op answer b') (hk : b' k = some (i, since)) :
    b k = some (i, since) ∨ op = .insert k since := by
  have hput : ∀ {b₀ : Book κ ι} {c : κ} {w : ι × Nat}, update b₀ c (some w) k = some (i, since) →
      b₀ k = some (i, since) ∨ k = c ∧ w = (i, since) := by
    intro b₀ c w hw
    rcases eq_or_ne k c with rfl | hne
    · rw [update_self] at hw
      exact .inr ⟨rfl, Option.some.inj hw⟩
    · rw [update_of_ne hne] at hw
      exact .inl hw
  have hgone : ∀ {c : κ}, update b c none k = some (i, since) → b k = some (i, since) := by
    intro c hw
    rcases eq_or_ne k c with rfl | hne
    · rw [update_self] at hw
      cases hw
    · rwa [update_of_ne hne] at hw
  cases h with
  | present _ => exact .inl hk
  | fill _ _ =>
    rcases hput hk with hold | ⟨rfl, hw⟩
    · exact .inl hold
    · cases hw
      exact .inr rfl
  | reuse _ _ _ =>
    rcases hput hk with hold | ⟨rfl, hw⟩
    · exact .inl (hgone hold)
    · cases hw
      exact .inr rfl
  | refuse _ _ => exact .inl hk
  | lookUp => exact .inl hk
  | delete => exact .inl (hgone hk)

theorem History.came (h : History stale past b) (hk : b k = some (i, since)) :
    ∃ answer, (Op.insert k since, answer) ∈ past := by
  induction h with
  | nil => cases hk
  | snoc _ hstep ih =>
    rcases hstep.came hk with hold | rfl
    · obtain ⟨answer, hmem⟩ := ih hold
      exact ⟨answer, List.mem_append_left _ hmem⟩
    · exact ⟨_, List.mem_append_right _ (List.mem_singleton.mpr rfl)⟩

theorem History.since_le {now : Nat} (h : History stale past b)
    (htimes : NonDecreasing (past.map (·.1) ++ [.insert k now])) {c : κ}
    (hc : b c = some (i, since)) : since ≤ now := by
  obtain ⟨answer, hmem⟩ := h.came hc
  unfold NonDecreasing at htimes
  rw [List.filterMap_append, List.pairwise_append] at htimes
  apply htimes.2.2
  · apply List.mem_filterMap.mpr
    exact ⟨_, List.mem_map_of_mem hmem, rfl⟩
  · exact List.mem_singleton.mpr rfl

end Ageing
