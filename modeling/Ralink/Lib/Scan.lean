import Mathlib.Data.List.Basic

/-! A list that is searched, changed and shortened at the first element a predicate holds of, and a
store that is kept in such a list: what its scans must agree on for it to be a map. -/
namespace Scan

variable {α β : Type*} {l : List α} {p q : α → Bool} {a : α} {f : α → Option α}

theorem map_replaceF {g : α → β} (h : ∀ x y, f x = some y → g y = g x) (l : List α) :
    (l.replaceF f).map g = l.map g := by
  induction l with
  | nil => rfl
  | cons x l ih =>
    rw [List.replaceF]
    cases hx : f x with
    | none => simp [ih]
    | some y => simp [h x y hx]

theorem any_replaceF (h : ∀ x y, f x = some y → p y = p x) (l : List α) :
    (l.replaceF f).any p = l.any p := by
  have := congrArg (fun l => l.any id) (map_replaceF h l)
  simpa [List.any_map] using this

theorem length_replaceF (l : List α) : (l.replaceF f).length = l.length := by
  induction l with
  | nil => rfl
  | cons x l ih => rw [List.replaceF]; cases f x <;> simp [ih]

theorem replaceF_eq_nil : l.replaceF f = [] ↔ l = [] := by
  cases l with
  | nil => simp
  | cons x l => rw [List.replaceF]; cases f x <;> simp

theorem find?_split (h : l.find? p = some a) :
    ∃ l₁ l₂, l = l₁ ++ a :: l₂ ∧ (∀ x ∈ l₁, ¬ p x) ∧ p a ∧ l.eraseP p = l₁ ++ l₂ := by
  obtain ⟨hp, l₁, l₂, hl, hpre⟩ := List.find?_eq_some_iff_append.mp h
  have hpre' : ∀ x ∈ l₁, ¬ p x := by simpa using hpre
  refine ⟨l₁, l₂, hl, hpre', hp, ?_⟩
  rw [hl, List.eraseP_append_right _ hpre', List.eraseP_cons_of_pos hp]

theorem eraseP_eq_nil_of_find? (h : l.find? p = some a) : l.eraseP p = [] ↔ ∃ x, l = [x] ∧ p x := by
  have hne : l ≠ [] := by rintro rfl; cases h
  rw [List.eraseP_eq_nil_iff]
  constructor
  · rintro (hnil | ⟨x, hx, hl⟩)
    · exact absurd hnil hne
    · exact ⟨x, hl, hx⟩
  · rintro ⟨x, hl, hx⟩
    exact .inr ⟨x, hx, hl⟩

theorem eraseP_append_eq_self (ha : p a) (hl : a ∉ l) :
    (l ++ [a]).eraseP p = l ↔ ∀ x ∈ l, ¬ p x := by
  constructor
  · intro h x hx hp
    rw [List.eraseP_append_left hp _ hx] at h
    exact hl (h ▸ List.mem_append_right _ (List.mem_singleton.mpr rfl))
  · intro h
    rw [List.eraseP_append_right _ h, List.eraseP_cons_of_pos ha, List.append_nil]

theorem eraseP_eq_iff_find? (hqp : ∀ x, q x → p x) :
    l.eraseP p = l.eraseP q ↔ ∀ a, l.find? p = some a → q a := by
  induction l with
  | nil => simp
  | cons x l ih =>
    by_cases hp : p x
    · by_cases hq : q x
      · simp [hp, hq]
      · have hne : l ≠ x :: l.eraseP q := by
          intro h
          cases hf : l.find? q with
          | none =>
            rw [List.eraseP_of_forall_not (by simpa using hf)] at h
            simpa using congrArg List.length h
          | some a =>
            obtain ⟨l₁, l₂, hl, -, ha, herase⟩ := find?_split hf
            have hcount := congrArg (List.countP q) h
            rw [herase, hl] at hcount
            simp [ha, hq] at hcount
        simp [hp, hq, hne]
    · have hq : ¬ q x := fun hq => hp (hqp x hq)
      simp [hp, hq, ih]

theorem any_eraseP (h : l.any q = false) : (l.eraseP p).any q = false := by
  rw [List.any_eq_false] at h ⊢
  exact fun x hx => h x (List.mem_of_mem_eraseP hx)

/-! `ex` is what an add looks for before it puts a new element at the end, `del` what a deletion
looks for, and `same` tells which elements are the one that is meant. -/

section Store

/-- An add: whether it succeeds, and the list after it. An element that is found turns the
list into `upd`; without memory a new element is refused. -/
def add (ex : α → Bool) (l upd : List α) (a : α) (mem : Bool) : Bool × List α :=
  if l.any ex then (true, upd) else if mem then (true, l ++ [a]) else (false, l)

/-- A deletion: whether it succeeds, and the list after it. -/
def delete (del : α → Bool) (l : List α) : Bool × List α := (l.any del, l.eraseP del)

variable {ex del same : α → Bool} {upd : List α} {mem : Bool}

theorem add_holds_iff (ha : same a) (hupd : upd.any same = l.any same) :
    ((add ex l upd a mem).1 → (add ex l upd a mem).2.any same) ↔
      l.any same ∨ ∀ x ∈ l, ¬ ex x := by
  cases hex : l.any ex with
  | true =>
    have hno : ¬ ∀ x ∈ l, ¬ ex x := by simpa using hex
    rw [or_iff_left hno]
    simp [add, hex, hupd]
  | false =>
    have hno : ∀ x ∈ l, ¬ ex x := by simpa using hex
    refine iff_of_true (fun h => ?_) (.inr hno)
    cases mem with
    | false => simp [add, hex] at h
    | true => simp [add, hex, ha]

theorem add_delete_iff (ha : same a) (hd : del a)
    (hupd : l.any ex → (upd.eraseP del = l ↔ ∀ x ∈ l, ¬ del x)) :
    (¬ l.any same → (delete del (add ex l upd a mem).2).2 = l) ↔
      l.any same ∨ ∀ x ∈ l, ¬ del x := by
  by_cases hs : l.any same
  · simp [hs]
  · rw [or_iff_right hs, imp_iff_right hs]
    unfold add delete
    split
    · next hex => exact hupd hex
    · split
      · have hnew : a ∉ l := fun hmem => hs (List.any_eq_true.mpr ⟨a, hmem, ha⟩)
        exact eraseP_append_eq_self hd hnew
      · exact List.eraseP_eq_self_iff

theorem delete_eq_iff (hsd : ∀ x, same x → del x) :
    delete del l = delete same l ↔ ∀ x, l.find? del = some x → same x := by
  rw [delete, delete, Prod.mk.injEq, eraseP_eq_iff_find? hsd]
  refine and_iff_right_of_imp fun hfind => ?_
  cases hf : l.find? del with
  | none =>
    have hd : ∀ x ∈ l, ¬ del x := by simpa using hf
    have hs : ∀ x ∈ l, ¬ same x := fun x hx hs => hd x hx (hsd x hs)
    rw [List.any_eq_false.mpr hd, List.any_eq_false.mpr hs]
  | some x =>
    have hmem := List.mem_of_find?_eq_some hf
    rw [List.any_eq_true.mpr ⟨x, hmem, List.find?_some hf⟩,
      List.any_eq_true.mpr ⟨x, hmem, hfind x hf⟩]

theorem delete_eq_of_result {γ : Type*} {yes no : γ} (hne : yes ≠ no) :
    ((if (delete del l).1 then yes else no) = (if l.any same then yes else no) ∧
      (delete del l).2 = l.eraseP same) ↔ delete del l = delete same l := by
  rw [Prod.ext_iff]
  refine and_congr_left fun _ => ?_
  show _ ↔ (delete del l).1 = l.any same
  cases (delete del l).1 <;> cases l.any same <;> simp [hne, hne.symm]

end Store

end Scan

/-! A table in which entries stand one behind the other in chains, the last entry of each marked. A
chain matches when all its entries do, and a lookup finds the first that does. -/
namespace Chains

variable {ε : Type*} (ends test : ε → Bool)

/-- The last entry of the first chain that matches. `ok` tells whether the entries of the
chain so far do. -/
def lookup (ok : Bool) : List ε → Option ε
  | [] => none
  | e :: es =>
    let ok := ok && test e
    if ends e then if ok then some e else lookup true es
    else lookup ok es

/-- One chain: its last entry is marked, and no other. -/
def IsChain (es : List ε) (last : ε) : Prop :=
  ∃ init, es = init ++ [last] ∧ (∀ e ∈ init, ends e = false) ∧ ends last = true

variable {ends test} {es rest : List ε} {last : ε}

theorem mem_of_lookup {ok : Bool} {e : ε} (h : lookup ends test ok es = some e) : e ∈ es := by
  induction es generalizing ok with
  | nil => cases h
  | cons a es ih =>
    rw [lookup] at h
    split at h
    · split at h
      · exact List.mem_cons.mpr (.inl (Option.some.inj h).symm)
      · exact List.mem_cons_of_mem a (ih h)
    · exact List.mem_cons_of_mem a (ih h)

theorem lookup_init {ok : Bool} {init : List ε} (h : ∀ e ∈ init, ends e = false) :
    lookup ends test ok (init ++ rest) = lookup ends test (ok && init.all test) rest := by
  induction init generalizing ok with
  | nil => simp
  | cons e init ih =>
    have hend := h e List.mem_cons_self
    rw [List.cons_append, lookup]
    simp only [hend, Bool.false_eq_true, if_false]
    rw [ih fun e' he' => h e' (List.mem_cons_of_mem e he'), List.all_cons, Bool.and_assoc]

theorem IsChain.lookup (h : IsChain ends es last) :
    Chains.lookup ends test true (es ++ rest) =
      if es.all test then some last else Chains.lookup ends test true rest := by
  obtain ⟨init, rfl, hinit, hlast⟩ := h
  rw [List.append_assoc, lookup_init hinit, Bool.true_and, List.singleton_append, Chains.lookup]
  simp only [hlast, if_true, List.all_append, List.all_cons, List.all_nil, Bool.and_true]

theorem lookup_flatMap {α β : Type*} {chain : α → List ε} {out : ε → β} {res : α → β} {l : List α}
    (h : ∀ a ∈ l, ∃ last, IsChain ends (chain a) last ∧ out last = res a) :
    (lookup ends test true (l.flatMap chain ++ rest)).map out =
      ((l.find? fun a => (chain a).all test).map res).or
        ((lookup ends test true rest).map out) := by
  induction l with
  | nil => rfl
  | cons a l ih =>
    obtain ⟨last, hchain, hout⟩ := h a List.mem_cons_self
    rw [List.flatMap_cons, List.append_assoc, hchain.lookup, List.find?_cons]
    cases (chain a).all test with
    | true =>
      rw [if_pos rfl, Option.map_some, Option.map_some, Option.some_or, hout]
    | false =>
      exact ih fun b hb => h b (List.mem_cons_of_mem a hb)

end Chains
