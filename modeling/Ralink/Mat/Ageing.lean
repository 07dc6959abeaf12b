import Ralink.Mat.Store

/-! The chains as lists of entries, and what an update and a lookup do to the list of a chain. -/
namespace Ralink.Mat
open Function

structure Entry where
  ptr : Ptr
  data : Data
  lastTime : BitVec 32
  deriving DecidableEq

abbrev Lists := Slot → List Entry

def headPtr (l : List Entry) : Option Ptr := l.head?.map Entry.ptr

section Sweep

variable (c : Change) (now : Nat → BitVec 32)

def Change.old (n : Nat) (e : Entry) : Bool := RTMP_TIME_AFTER (now n) (e.lastTime + c.ageout)

def Change.hit (n : Nat) (e : Entry) : Entry :=
  { e with data := c.touch e.data, lastTime := now n }

def Change.sweep (n : Nat) : List Entry → List Entry × Option Ptr × Nat
  | [] => ([], none, n)
  | e :: l =>
    if c.same e.data then (c.hit now n e :: l, some e.ptr, n)
    else if c.old now n e then Change.sweep (n + 1) l
    else (e :: (Change.sweep (n + 1) l).1, (Change.sweep (n + 1) l).2)

def Change.walk : List Entry → List Entry × Option Ptr × Nat
  | [] => ([], none, 0)
  | e :: l =>
    if c.same e.data then (c.hit now 0 e :: l, some e.ptr, 0)
    else if c.old now 0 e then
      match l with
      | [] => ([], none, 1)
      | x :: l => (x :: (c.sweep now 1 l).1, (c.sweep now 1 l).2)
    else (e :: (c.sweep now 1 l).1, (c.sweep now 1 l).2)

end Sweep

def refresh (same : Data → Bool) (now : BitVec 32) : List Entry → List Entry
  | [] => []
  | e :: l => if same e.data then { e with lastTime := now } :: l else e :: refresh same now l

section Walk

variable {c : Change} {now : Nat → BitVec 32} {n : Nat} {e e' : Entry} {l : List Entry} {α : Type*}
  {q : Data → Bool} {p : Ptr} {f : Data → α}

theorem sweep_same (hs : c.same e.data = true) :
    c.sweep now n (e :: l) = (c.hit now n e :: l, some e.ptr, n) := by
  rw [Change.sweep, if_pos hs]

theorem sweep_old (hs : ¬ c.same e.data = true) (ho : c.old now n e = true) :
    c.sweep now n (e :: l) = c.sweep now (n + 1) l := by
  rw [Change.sweep, if_neg hs, if_pos ho]

theorem sweep_stay (hs : ¬ c.same e.data = true) (ho : ¬ c.old now n e = true) :
    c.sweep now n (e :: l) = (e :: (c.sweep now (n + 1) l).1, (c.sweep now (n + 1) l).2) := by
  rw [Change.sweep, if_neg hs, if_neg ho]

theorem sweep_fate (c : Change) (now : Nat → BitVec 32) (n : Nat) (he : e ∈ l) :
    e ∈ (c.sweep now n l).1 ∨
      (c.same e.data = true ∧ (c.sweep now n l).2.1 = some e.ptr ∧
        ∃ k, c.hit now k e ∈ (c.sweep now n l).1) ∨
      ¬ c.same e.data = true ∧ ∃ k, c.old now k e = true := by
  induction l generalizing n with
  | nil => exact absurd he List.not_mem_nil
  | cons x l ih =>
    by_cases hs : c.same x.data = true
    · rw [sweep_same hs]
      rcases List.mem_cons.mp he with rfl | he
      · exact .inr (.inl ⟨hs, rfl, n, List.mem_cons_self⟩)
      · exact .inl (List.mem_cons_of_mem _ he)
    · by_cases ho : c.old now n x = true
      · rw [sweep_old hs ho]
        rcases List.mem_cons.mp he with rfl | he
        · exact .inr (.inr ⟨hs, n, ho⟩)
        · exact ih (n + 1) he
      · rw [sweep_stay hs ho]
        rcases List.mem_cons.mp he with rfl | he
        · exact .inl List.mem_cons_self
        · rcases ih (n + 1) he with hin | ⟨hsame, hfound, k, hk⟩ | hgone
          · exact .inl (List.mem_cons_of_mem _ hin)
          · exact .inr (.inl ⟨hsame, hfound, k, List.mem_cons_of_mem _ hk⟩)
          · exact .inr (.inr hgone)

theorem sweep_sublist (hf : ∀ d, f (c.touch d) = f d) :
    ((c.sweep now n l).1.map (f ∘ Entry.data)).Sublist (l.map (f ∘ Entry.data)) := by
  induction l generalizing n with
  | nil => exact List.Sublist.refl _
  | cons x l ih =>
    by_cases hs : c.same x.data = true
    · rw [sweep_same hs, List.map_cons, List.map_cons, comp_apply, comp_apply, Change.hit, hf]
    · by_cases ho : c.old now n x = true
      · rw [sweep_old hs ho]
        exact ih.cons _
      · rw [sweep_stay hs ho]
        exact ih.cons_cons _

theorem sweep_none (hnone : (c.sweep now n l).2.1 = none) (he : e ∈ (c.sweep now n l).1) :
    ¬ c.same e.data = true := by
  induction l generalizing n with
  | nil => exact absurd he List.not_mem_nil
  | cons x l ih =>
    by_cases hs : c.same x.data = true
    · rw [sweep_same hs] at hnone
      exact absurd hnone (Option.some_ne_none _)
    · by_cases ho : c.old now n x = true
      · rw [sweep_old hs ho] at hnone he
        exact ih hnone he
      · rw [sweep_stay hs ho] at hnone he
        rcases List.mem_cons.mp he with rfl | he
        · exact hs
        · exact ih hnone he

theorem sweep_find (hq : ∀ d, q (c.touch d) = q d) (hfind : l.find? (q ∘ Entry.data) = some e)
    (hyoung : c.same e.data = true ∨ ∀ k, ¬ c.old now k e = true) :
    ∃ e', (c.sweep now n l).1.find? (q ∘ Entry.data) = some e' ∧
      (e' = e ∨ c.same e.data = true ∧ ∃ k, e' = c.hit now k e) := by
  induction l generalizing n with
  | nil => exact absurd hfind.symm (Option.some_ne_none _)
  | cons x l ih =>
    by_cases hx : q x.data = true
    · obtain rfl : x = e := by simpa [List.find?_cons, hx] using hfind
      by_cases hs : c.same x.data = true
      · rw [sweep_same hs]
        exact ⟨c.hit now n x, by simp [Change.hit, hq, hx], .inr ⟨hs, n, rfl⟩⟩
      · have ho := (hyoung.resolve_left hs) n
        rw [sweep_stay hs ho]
        exact ⟨x, by simp [hx], .inl rfl⟩
    · have hrest : l.find? (q ∘ Entry.data) = some e := by
        simpa [List.find?_cons, hx] using hfind
      by_cases hs : c.same x.data = true
      · rw [sweep_same hs]
        exact ⟨e, by simpa [List.find?_cons, Change.hit, hq, hx] using hrest, .inl rfl⟩
      · by_cases ho : c.old now n x = true
        · rw [sweep_old hs ho]
          exact ih hrest
        · rw [sweep_stay hs ho]
          simpa [List.find?_cons, hx] using ih (n := n + 1) hrest

theorem walk_cases (c : Change) (now : Nat → BitVec 32) (l : List Entry) :
    c.walk now l = c.sweep now 0 l ∨
      ∃ h x rest, l = h :: x :: rest ∧ ¬ c.same h.data = true ∧ c.old now 0 h = true ∧
        c.walk now l = (x :: (c.sweep now 1 rest).1, (c.sweep now 1 rest).2) := by
  cases l with
  | nil => exact .inl rfl
  | cons h l =>
    by_cases hs : c.same h.data = true
    · left
      rw [sweep_same hs]
      simp only [Change.walk, if_pos hs]
    · by_cases ho : c.old now 0 h = true
      · cases l with
        | nil =>
          left
          rw [sweep_old hs ho]
          simp only [Change.walk, Change.sweep, if_neg hs, if_pos ho]
        | cons x rest =>
          refine .inr ⟨h, x, rest, rfl, hs, ho, ?_⟩
          simp only [Change.walk, if_neg hs, if_pos ho]
      · left
        rw [sweep_stay hs ho]
        simp only [Change.walk, if_neg hs, if_neg ho]

theorem walk_fate (c : Change) (now : Nat → BitVec 32) (he : e ∈ l) :
    e ∈ (c.walk now l).1 ∨
      (c.same e.data = true ∧ (c.walk now l).2.1 = some e.ptr ∧
        ∃ k, c.hit now k e ∈ (c.walk now l).1) ∨
      ¬ c.same e.data = true ∧ ∃ k, c.old now k e = true := by
  rcases walk_cases c now l with heq | ⟨h, x, rest, rfl, hs, ho, heq⟩
  · rw [heq]
    exact sweep_fate c now 0 he
  · rw [heq]
    rcases List.mem_cons.mp he with rfl | he
    · exact .inr (.inr ⟨hs, 0, ho⟩)
    · rcases List.mem_cons.mp he with rfl | he
      · exact .inl List.mem_cons_self
      · rcases sweep_fate c now 1 he with hin | ⟨hsame, hf, k, hk⟩ | hgone
        · exact .inl (List.mem_cons_of_mem _ hin)
        · exact .inr (.inl ⟨hsame, hf, k, List.mem_cons_of_mem _ hk⟩)
        · exact .inr (.inr hgone)

theorem walk_sublist (hf : ∀ d, f (c.touch d) = f d) (now : Nat → BitVec 32) (l : List Entry) :
    ((c.walk now l).1.map (f ∘ Entry.data)).Sublist (l.map (f ∘ Entry.data)) := by
  rcases walk_cases c now l with heq | ⟨h, x, rest, rfl, -, -, heq⟩
  · rw [heq]
    exact sweep_sublist hf
  · rw [heq]
    exact ((sweep_sublist hf).cons_cons _).cons _

/-- The second entry is one that the update looks for, and the first one goes. -/
def Change.skips (c : Change) (now : Nat → BitVec 32) : List Entry → Bool
  | h :: x :: _ => !c.same h.data && c.old now 0 h && c.same x.data
  | _ => false

theorem walk_none (hskip : c.skips now l = false) (hnone : (c.walk now l).2.1 = none)
    (he : e ∈ (c.walk now l).1) : ¬ c.same e.data = true := by
  rcases walk_cases c now l with heq | ⟨h, x, rest, rfl, hs, ho, heq⟩
  · rw [heq] at hnone he
    exact sweep_none hnone he
  · rw [heq] at hnone he
    rcases List.mem_cons.mp he with rfl | he
    · simpa [Change.skips, hs, ho] using hskip
    · exact sweep_none hnone he

theorem walk_find (now : Nat → BitVec 32) (hq : ∀ d, q (c.touch d) = q d)
    (hfind : l.find? (q ∘ Entry.data) = some e)
    (hyoung : c.same e.data = true ∨ ∀ k, ¬ c.old now k e = true) :
    ∃ e', (c.walk now l).1.find? (q ∘ Entry.data) = some e' ∧
      (e' = e ∨ c.same e.data = true ∧ ∃ k, e' = c.hit now k e) := by
  rcases walk_cases c now l with heq | ⟨h, x, rest, rfl, hs, ho, heq⟩
  · rw [heq]
    exact sweep_find hq hfind hyoung
  · rw [heq]
    have hh : ¬ q h.data = true := by
      intro hh
      obtain rfl : h = e := by simpa [List.find?_cons, hh] using hfind
      exact hyoung.elim hs fun hno => hno 0 ho
    have hfind' : (x :: rest).find? (q ∘ Entry.data) = some e := by
      simpa [List.find?_cons, hh] using hfind
    by_cases hx : q x.data = true
    · obtain rfl : x = e := by simpa [List.find?_cons, hx] using hfind'
      exact ⟨x, by simp [hx], .inl rfl⟩
    · simpa [List.find?_cons, hx] using sweep_find (n := 1) hq
        (by simpa [List.find?_cons, hx] using hfind') hyoung

theorem sweep_found (hsame : ∀ d, c.same d = true → c.same (c.touch d) = true)
    (hfound : (c.sweep now n l).2.1 = some p) :
    ∃ e ∈ l, ∃ k, c.same e.data = true ∧ p = e.ptr ∧
      (c.sweep now n l).1.find? (c.same ∘ Entry.data) = some (c.hit now k e) := by
  induction l generalizing n with
  | nil => exact absurd hfound.symm (Option.some_ne_none _)
  | cons x l ih =>
    by_cases hs : c.same x.data = true
    · rw [sweep_same hs] at hfound ⊢
      obtain rfl := Option.some.inj hfound
      refine ⟨x, List.mem_cons_self, n, hs, rfl, ?_⟩
      exact List.find?_cons_of_pos (hsame _ hs)
    · by_cases ho : c.old now n x = true
      · rw [sweep_old hs ho] at hfound ⊢
        obtain ⟨e, he, hrest⟩ := ih hfound
        exact ⟨e, List.mem_cons_of_mem x he, hrest⟩
      · rw [sweep_stay hs ho] at hfound ⊢
        obtain ⟨e, he, k, hse, hp, hf⟩ := ih hfound
        refine ⟨e, List.mem_cons_of_mem x he, k, hse, hp, ?_⟩
        rwa [List.find?_cons_of_neg (p := c.same ∘ Entry.data) hs]

theorem walk_found (hsame : ∀ d, c.same d = true → c.same (c.touch d) = true)
    (hskip : c.skips now l = false) (hfound : (c.walk now l).2.1 = some p) :
    ∃ e ∈ l, ∃ k, c.same e.data = true ∧ p = e.ptr ∧
      (c.walk now l).1.find? (c.same ∘ Entry.data) = some (c.hit now k e) := by
  rcases walk_cases c now l with heq | ⟨h, x, rest, rfl, hs, ho, heq⟩
  · rw [heq] at hfound ⊢
    exact sweep_found hsame hfound
  · rw [heq] at hfound ⊢
    have hx : ¬ c.same x.data = true := by simpa [Change.skips, hs, ho] using hskip
    obtain ⟨e, he, k, hse, hp, hf⟩ := sweep_found hsame hfound
    refine ⟨e, by simp [he], k, hse, hp, ?_⟩
    rwa [List.find?_cons_of_neg (p := c.same ∘ Entry.data) hx]

section Refresh

variable {same : Data → Bool} {t : BitVec 32}

theorem refresh_map {α : Type*} (f : Data → α) (l : List Entry) :
    (refresh same t l).map (f ∘ Entry.data) = l.map (f ∘ Entry.data) := by
  induction l with
  | nil => rfl
  | cons x l ih =>
    by_cases hs : same x.data = true
    · rw [refresh, if_pos hs]
      rfl
    · rw [refresh, if_neg hs, List.map_cons, ih, List.map_cons]

theorem refresh_find (q same : Data → Bool) (t : BitVec 32) (l : List Entry) :
    ((refresh same t l).find? (q ∘ Entry.data)).map Entry.data =
      (l.find? (q ∘ Entry.data)).map Entry.data := by
  induction l with
  | nil => rfl
  | cons x l ih =>
    by_cases hs : same x.data = true
    · rw [refresh, if_pos hs]
      by_cases hx : q x.data = true <;> simp [hx]
    · rw [refresh, if_neg hs]
      by_cases hx : q x.data = true
      · simp [hx]
      · simpa [List.find?_cons, hx] using ih

end Refresh

end Walk

end Ralink.Mat
