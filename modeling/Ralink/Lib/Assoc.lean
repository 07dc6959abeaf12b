import Mathlib.Tactic

/-! Setting a key replaces the value at its first occurrence or appends a new pair. -/
namespace Assoc

variable {K V : Type*} {k k' : K} {v : V} {l : List (K × V)}

def keys (l : List (K × V)) : List K := l.map Prod.fst

@[simp] theorem keys_nil : keys ([] : List (K × V)) = [] := rfl
@[simp] theorem keys_cons (p : K × V) (l : List (K × V)) : keys (p :: l) = p.1 :: keys l := rfl
@[simp] theorem keys_append (l l' : List (K × V)) : keys (l ++ l') = keys l ++ keys l' := List.map_append

theorem mem_keys_of_mem {p : K × V} (h : p ∈ l) : p.1 ∈ keys l := List.mem_map_of_mem h

theorem length_keys (l : List (K × V)) : (keys l).length = l.length := List.length_map _

theorem nodup_keys_of_length_le_one (h : l.length ≤ 1) : (keys l).Nodup := by
  cases l with
  | nil => exact List.nodup_nil
  | cons p l =>
    have hnil : l = [] := List.eq_nil_of_length_eq_zero (by simpa using h)
    rw [hnil]
    exact List.nodup_singleton p.1

variable [DecidableEq K]

def set (k : K) (v : V) : List (K × V) → List (K × V)
  | [] => [(k, v)]
  | (k', v') :: l => if k = k' then (k', v) :: l else (k', v') :: set k v l

@[simp] theorem lookup_set_self (k : K) (v : V) (l : List (K × V)) : (set k v l).lookup k = some v := by
  induction l with
  | nil => simp [set]
  | cons p l ih =>
    obtain ⟨k', v'⟩ := p
    unfold set
    split
    · next h => simp [h]
    · next h =>
      rw [List.lookup_cons, beq_eq_false_iff_ne.mpr h]
      exact ih

theorem lookup_set_ne (h : k' ≠ k) (v : V) (l : List (K × V)) :
    (set k v l).lookup k' = l.lookup k' := by
  have hb : (k' == k) = false := beq_eq_false_iff_ne.mpr h
  induction l with
  | nil => simp [set, List.lookup_cons, hb]
  | cons p l ih =>
    obtain ⟨k₁, v₁⟩ := p
    unfold set
    split
    · next hk =>
      subst hk
      simp [List.lookup_cons, hb]
    · simp only [List.lookup_cons, ih]

theorem mem_keys_of_lookup (h : l.lookup k = some v) : k ∈ keys l := by
  obtain ⟨l₁, l₂, rfl, -⟩ := List.lookup_eq_some_iff.mp h
  exact mem_keys_of_mem (p := (k, v)) (List.mem_append_right l₁ List.mem_cons_self)

theorem keys_set (k : K) (v : V) (l : List (K × V)) :
    keys (set k v l) = if k ∈ keys l then keys l else keys l ++ [k] := by
  induction l with
  | nil => simp [set]
  | cons p l ih =>
    obtain ⟨k', v'⟩ := p
    unfold set
    split
    · next h => simp [h]
    · next h =>
      simp only [keys_cons, ih, List.mem_cons, h, false_or]
      split <;> rfl

theorem nodup_keys_set (h : (keys l).Nodup) (k : K) (v : V) : (keys (set k v l)).Nodup := by
  rw [keys_set]
  split
  · exact h
  · next hk => exact h.append (List.nodup_singleton k) (by simpa using hk)

theorem mem_keys_set : k' ∈ keys (set k v l) ↔ k' = k ∨ k' ∈ keys l := by
  rw [keys_set]
  split
  · next hk => exact ⟨Or.inr, fun h => h.elim (fun he => he ▸ hk) id⟩
  · simp [or_comm]

theorem set_eq (k : K) (v : V) (l : List (K × V)) :
    set k v l = match l.findIdx? (fun p => k = p.1) with
      | some i => l.set i (k, v)
      | none => l ++ [(k, v)] := by
  induction l with
  | nil => rfl
  | cons p l ih =>
    obtain ⟨k', v'⟩ := p
    unfold set
    by_cases h : k = k'
    · subst h
      simp [List.findIdx?_cons]
    · rw [if_neg h, ih, List.findIdx?_cons]
      simp only [h, decide_false, Bool.false_eq_true, if_false]
      cases l.findIdx? (fun p => k = p.1) with
      | none => rfl
      | some i => rfl

theorem lookup_eq (k : K) (l : List (K × V)) :
    l.lookup k = (l.findIdx? (fun p => k = p.1)).bind fun i => l[i]?.map Prod.snd := by
  induction l with
  | nil => rfl
  | cons p l ih =>
    obtain ⟨k', v'⟩ := p
    rw [List.findIdx?_cons, List.lookup_cons]
    by_cases h : k = k'
    · simp [h]
    · simp only [h, decide_false, Bool.false_eq_true, if_false, beq_eq_false_iff_ne.mpr h, ih]
      cases l.findIdx? (fun p => k = p.1) with
      | none => rfl
      | some i => rfl

/-! Every pair of the list is assigned in turn, so that the last one of a key stands. -/

def fill (t : K → V) (l : List (K × V)) : K → V :=
  l.foldl (fun t p => Function.update t p.1 p.2) t

variable {t : K → V} {l' : List (K × V)}

theorem fill_append : fill t (l ++ l') = fill (fill t l) l' := List.foldl_append

theorem fill_of_notMem (h : k ∉ keys l) : fill t l k = t k := by
  induction l generalizing t with
  | nil => rfl
  | cons p l ih =>
    obtain ⟨hk, hl⟩ := not_or.mp (fun hm => h (List.mem_cons.mpr hm))
    exact (ih hl).trans (Function.update_of_ne hk _ _)

theorem fill_of_mem (hm : (k, v) ∈ l) (h : ∀ v', (k, v') ∈ l → v' = v) : fill t l k = v := by
  induction l generalizing t with
  | nil => cases hm
  | cons p l ih =>
    by_cases hk : k ∈ keys l
    · obtain ⟨⟨k', v'⟩, hp, rfl⟩ := List.mem_map.mp hk
      have hv := h v' (List.mem_cons_of_mem p hp)
      subst hv
      exact ih hp fun w hw => h w (List.mem_cons_of_mem p hw)
    · have hhead : (k, v) = p := by
        rcases List.mem_cons.mp hm with hp | hp
        · exact hp
        · exact absurd (mem_keys_of_mem hp) hk
      subst hhead
      exact (fill_of_notMem hk).trans (Function.update_self k v t)

/-! A key that is new is not taken in once the list is full. -/

def lastOf (l : List (K × V)) : K → Option V := fill (fun _ => none) (l.map fun p => (p.1, some p.2))

def setWithin (n : Nat) (l : List (K × V)) (p : K × V) : List (K × V) :=
  if p.1 ∈ keys l ∨ l.length < n then set p.1 p.2 l else l

def fillWithin (n : Nat) (l ps : List (K × V)) : List (K × V) := ps.foldl (setWithin n) l

/-- The keys, and behind them the new ones in the order in which they come. -/
def addKeys (ks new : List K) : List K := new.foldl (fun ks k => if k ∈ ks then ks else ks ++ [k]) ks

variable {W : Type*} {n : Nat} {ps : List (K × V)} {p : K × V} {ks : List K}

@[simp] theorem lastOf_nil (k : K) : lastOf ([] : List (K × V)) k = none := rfl

theorem lastOf_append (l l' : List (K × V)) (k : K) : lastOf (l ++ l') k = (lastOf l' k).or (lastOf l k) := by
  induction l' using List.reverseRecOn with
  | nil => rw [List.append_nil, lastOf_nil, Option.none_or]
  | append_singleton l' p ih =>
    have hlast (m : List (K × V)) : lastOf (m ++ [p]) k = if k = p.1 then some p.2 else lastOf m k := by
      rw [lastOf, List.map_append, fill_append]
      exact Function.update_apply _ _ _ _
    rw [← List.append_assoc, hlast, hlast, ih]
    split
    · rfl
    · rfl

theorem lastOf_singleton (p : K × V) (k : K) : lastOf [p] k = if k = p.1 then some p.2 else none :=
  Function.update_apply (fun _ => none) p.1 (some p.2) k

theorem lastOf_map (f : V → W) (l : List (K × V)) (k : K) :
    lastOf (l.map fun p => (p.1, f p.2)) k = (lastOf l k).map f := by
  induction l using List.reverseRecOn with
  | nil => rfl
  | append_singleton l p ih =>
    rw [List.map_append, lastOf_append, lastOf_append, ih, List.map_singleton, lastOf_singleton,
      lastOf_singleton]
    split
    · rfl
    · rfl

theorem lastOf_eq_none (h : k ∉ keys l) : lastOf l k = none :=
  fill_of_notMem (by simpa [keys] using h)

theorem fillWithin_append (n : Nat) (l ps : List (K × V)) (p : K × V) :
    fillWithin n l (ps ++ [p]) = setWithin n (fillWithin n l ps) p := List.foldl_append

theorem mem_keys_setWithin : k ∈ keys (setWithin n l p) ↔
    k ∈ keys l ∨ k = p.1 ∧ (p.1 ∈ keys l ∨ l.length < n) := by
  unfold setWithin
  split
  · next h => rw [mem_keys_set, or_comm, and_iff_left h]
  · next h => simp only [h, and_false, or_false]

theorem lookup_fillWithin (h : k ∈ keys (fillWithin n l ps)) :
    (fillWithin n l ps).lookup k = (lastOf ps k).or (l.lookup k) := by
  induction ps using List.reverseRecOn with
  | nil => rfl
  | append_singleton ps p ih =>
    rw [fillWithin_append] at h ⊢
    rw [lastOf_append, lastOf_singleton]
    by_cases hroom : p.1 ∈ keys (fillWithin n l ps) ∨ (fillWithin n l ps).length < n
    · rw [setWithin, if_pos hroom] at h ⊢
      by_cases hk : k = p.1
      · rw [if_pos hk, hk, lookup_set_self, Option.some_or, Option.some_or]
      · rw [if_neg hk, Option.none_or, lookup_set_ne hk]
        exact ih ((mem_keys_set.mp h).resolve_left hk)
    · rw [setWithin, if_neg hroom] at h ⊢
      have hk : k ≠ p.1 := fun he => hroom (.inl (he ▸ h))
      rw [if_neg hk, Option.none_or]
      exact ih h

theorem keys_subset_fillWithin (n : Nat) (l ps : List (K × V)) : keys l ⊆ keys (fillWithin n l ps) := by
  induction ps using List.reverseRecOn with
  | nil => exact List.Subset.refl _
  | append_singleton ps p ih =>
    intro k hk
    rw [fillWithin_append]
    exact mem_keys_setWithin.mpr (.inl (ih hk))

theorem addKeys_append (ks new : List K) (k : K) :
    addKeys ks (new ++ [k]) = if k ∈ addKeys ks new then addKeys ks new else addKeys ks new ++ [k] :=
  List.foldl_append

theorem keys_fillWithin (h : l.length ≤ n) (ps : List (K × V)) :
    keys (fillWithin n l ps) = (addKeys (keys l) (keys ps)).take n := by
  induction ps using List.reverseRecOn with
  | nil => exact (List.take_of_length_le (length_keys l ▸ h)).symm
  | append_singleton ps p ih =>
    rw [fillWithin_append, keys_append, keys_cons, keys_nil, addKeys_append, setWithin]
    generalize fillWithin n l ps = m at ih ⊢
    generalize addKeys (keys l) (keys ps) = all at ih ⊢
    by_cases hm : p.1 ∈ keys m
    · have hall : p.1 ∈ all := List.mem_of_mem_take (ih ▸ hm)
      rw [if_pos (.inl hm), keys_set, if_pos hm, if_pos hall, ih]
    · by_cases hlen : m.length < n
      · -- the list still has every key that came
        have hfull : keys m = all := by
          rw [ih]
          refine List.take_of_length_le ?_
          have hmin := congrArg List.length ih
          rw [length_keys, List.length_take] at hmin
          omega
        rw [if_pos (.inr hlen), keys_set, if_neg hm, if_neg (hfull ▸ hm), hfull, List.take_of_length_le]
        rw [← hfull, List.length_append, length_keys, List.length_singleton]
        exact hlen
      · have hn : n ≤ all.length := by
          have hmin := congrArg List.length ih
          rw [length_keys, List.length_take] at hmin
          omega
        rw [if_neg (not_or.mpr ⟨hm, hlen⟩), ih]
        split
        · rfl
        · exact (List.take_append_of_le_length hn).symm

theorem length_fillWithin (h : l.length ≤ n) (ps : List (K × V)) : (fillWithin n l ps).length ≤ n := by
  rw [← length_keys, keys_fillWithin h]
  exact List.length_take_le n _

theorem mem_keys_fillWithin (h : k ∈ keys (fillWithin n l ps)) : k ∈ keys l ∨ k ∈ keys ps := by
  induction ps using List.reverseRecOn with
  | nil => exact .inl h
  | append_singleton ps p ih =>
    rw [fillWithin_append] at h
    rw [keys_append, List.mem_append]
    rcases mem_keys_setWithin.mp h with h | ⟨rfl, -⟩
    · exact (ih h).imp_right .inl
    · exact .inr (.inr List.mem_cons_self)

end Assoc
