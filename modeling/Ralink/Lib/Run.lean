import Mathlib.Tactic

/-! Executing a list of events, conditions met by every step of a run, and the rules that carry an
invariant from one step to a whole run. -/
namespace Run

variable {σ ε : Type*} (step : σ → ε → σ)

def exec (s : σ) (es : List ε) : σ := es.foldl step s

@[simp] theorem exec_nil (s : σ) : exec step s [] = s := rfl
@[simp] theorem exec_cons (s : σ) (e : ε) (es : List ε) :
    exec step s (e :: es) = exec step (step s e) es := rfl
theorem exec_append (s : σ) (es es' : List ε) :
    exec step s (es ++ es') = exec step (exec step s es) es' := List.foldl_append

/-- `P` holds of every event in the state it is executed in. -/
def AllSteps (P : σ → ε → Prop) : σ → List ε → Prop
  | _, [] => True
  | s, e :: es => P s e ∧ AllSteps P (step s e) es

instance AllSteps.decidable (P : σ → ε → Prop) [∀ s e, Decidable (P s e)] :
    ∀ s es, Decidable (AllSteps step P s es)
  | _, [] => .isTrue trivial
  | s, e :: es =>
    have := AllSteps.decidable P (step s e) es
    inferInstanceAs (Decidable (P s e ∧ AllSteps step P (step s e) es))

variable {step} {s : σ} {es : List ε} {P Q : σ → ε → Prop} {I : σ → Prop}

theorem AllSteps.and (hp : AllSteps step P s es) (hq : AllSteps step Q s es) :
    AllSteps step (fun s e => P s e ∧ Q s e) s es := by
  induction es generalizing s with
  | nil => trivial
  | cons e es ih => exact ⟨⟨hp.1, hq.1⟩, ih hp.2 hq.2⟩

theorem allSteps_append {es' : List ε} :
    AllSteps step P s (es ++ es') ↔
      AllSteps step P s es ∧ AllSteps step P (exec step s es) es' := by
  induction es generalizing s with
  | nil => simp [AllSteps]
  | cons e es ih => exact (and_congr_right fun _ => ih).trans and_assoc.symm

theorem AllSteps.take (h : AllSteps step P s es) (n : Nat) : AllSteps step P s (es.take n) := by
  induction es generalizing s n with
  | nil => simp [AllSteps]
  | cons e es ih =>
    cases n with
    | zero => trivial
    | succ n => exact ⟨h.1, ih h.2 n⟩

theorem AllSteps.of_forall (h : ∀ e ∈ es, ∀ s, P s e) : AllSteps step P s es := by
  induction es generalizing s with
  | nil => trivial
  | cons e es ih =>
    exact ⟨h e List.mem_cons_self s, ih fun e' he' => h e' (List.mem_cons_of_mem e he')⟩

theorem exec_inv (hstep : ∀ s e, I s → P s e → I (step s e)) (hs : I s)
    (hp : AllSteps step P s es) : I (exec step s es) := by
  induction es generalizing s with
  | nil => exact hs
  | cons e es ih => exact ih (hstep s e hs hp.1) hp.2

theorem exec_trace {J : List ε → σ → Prop}
    (hstep : ∀ past s e, J past s → P s e → J (past ++ [e]) (step s e)) (past : List ε)
    (hs : J past s) (hp : AllSteps step P s es) : J (past ++ es) (exec step s es) := by
  induction es generalizing s past with
  | nil => rwa [List.append_nil]
  | cons e es ih =>
    have h := ih (past ++ [e]) (hstep past s e hs hp.1) hp.2
    rwa [List.append_assoc, List.singleton_append] at h

theorem AllSteps.of_inv (hstep : ∀ s e, I s → P s e → I (step s e))
    (hq : ∀ s e, I s → P s e → Q s e) (hs : I s) (hp : AllSteps step P s es) :
    AllSteps step Q s es := by
  induction es generalizing s with
  | nil => trivial
  | cons e es ih => exact ⟨hq s e hs hp.1, ih (hstep s e hs hp.1) hp.2⟩

theorem allSteps_iff_kept {G A : σ → Prop} {K : σ → ε → Prop}
    (haux : ∀ s e, A s → G s → Q s e → A (step s e))
    (hgood : ∀ s e, A s → G s → Q s e → (G (step s e) ∧ K s e ↔ P s e))
    (hs : A s) (hg : G s) (hq : AllSteps step Q s es) :
    AllSteps step P s es ↔ (∀ n, G (exec step s (es.take n))) ∧ AllSteps step K s es := by
  induction es generalizing s with
  | nil => simp [AllSteps, hg]
  | cons e es ih =>
    have hstep := hgood s e hs hg hq.1
    have ha := haux s e hs hg hq.1
    constructor
    · intro h
      obtain ⟨hnext, hk⟩ := hstep.mpr h.1
      obtain ⟨hall, hkept⟩ := (ih ha hnext hq.2).mp h.2
      refine ⟨fun n => ?_, hk, hkept⟩
      cases n with
      | zero => exact hg
      | succ n =>
        rw [List.take_succ_cons]
        exact hall n
    · rintro ⟨hall, hk, hkept⟩
      have hnext : G (step s e) := by simpa using hall 1
      refine ⟨hstep.mp ⟨hnext, hk⟩, (ih ha hnext hq.2).mpr ⟨fun n => ?_, hkept⟩⟩
      simpa using hall (n + 1)

theorem allSteps_iff {G A : σ → Prop}
    (haux : ∀ s e, A s → G s → Q s e → A (step s e))
    (hgood : ∀ s e, A s → G s → Q s e → (G (step s e) ↔ P s e))
    (hs : A s) (hg : G s) (hq : AllSteps step Q s es) :
    AllSteps step P s es ↔ ∀ n, G (exec step s (es.take n)) := by
  have hkept : AllSteps step (fun _ _ => True) s es := AllSteps.of_forall fun _ _ _ => trivial
  have h := allSteps_iff_kept (K := fun _ _ => True) haux
    (fun s e hs hg hq => (and_iff_left trivial).trans (hgood s e hs hg hq)) hs hg hq
  exact h.trans (and_iff_left hkept)

section Tries

variable (step : σ → ε → Option σ)

def tryExec (s : σ) (es : List ε) : Option σ := es.foldlM step s

/-- `P` holds of every event in the state it is tried in. -/
def AllTries (P : σ → ε → Prop) : σ → List ε → Prop
  | _, [] => True
  | s, e :: es => P s e ∧ ∀ s', step s e = some s' → AllTries P s' es

instance AllTries.decidable (P : σ → ε → Prop) [∀ s e, Decidable (P s e)] :
    ∀ s es, Decidable (AllTries step P s es)
  | _, [] => .isTrue trivial
  | s, e :: es =>
    have : Decidable (∀ s', step s e = some s' → AllTries step P s' es) :=
      match step s e with
      | none => .isTrue fun _ h => nomatch h
      | some s' =>
        have := AllTries.decidable P s' es
        decidable_of_iff (AllTries step P s' es)
          ⟨fun h _ hs => Option.some.inj hs ▸ h, fun h => h s' rfl⟩
    inferInstanceAs (Decidable (P s e ∧ ∀ s', step s e = some s' → AllTries step P s' es))

variable {step} {J : List ε → σ → Prop}

theorem AllTries.of_forall (h : ∀ s e, P s e) : AllTries step P s es := by
  induction es generalizing s with
  | nil => trivial
  | cons e es ih => exact ⟨h s e, fun s' _ => ih⟩

theorem tryExec_trace
    (hstep : ∀ past s e, J past s → P s e → ∃ s', step s e = some s' ∧ J (past ++ [e]) s')
    (past : List ε) (hs : J past s) (hp : AllTries step P s es) :
    ∃ s', tryExec step s es = some s' ∧ J (past ++ es) s' := by
  induction es generalizing s past with
  | nil => exact ⟨s, rfl, by rwa [List.append_nil]⟩
  | cons e es ih =>
    obtain ⟨s₁, heq, h₁⟩ := hstep past s e hs hp.1
    obtain ⟨s', hrun, h'⟩ := ih (past ++ [e]) h₁ (hp.2 s₁ heq)
    rw [List.append_assoc, List.singleton_append] at h'
    refine ⟨s', ?_, h'⟩
    rw [tryExec, List.foldlM_cons, heq]
    exact hrun

theorem isSome_tryExec (hstep : ∀ s e, (step s e).isSome ↔ P s e) :
    (tryExec step s es).isSome ↔ AllTries step P s es := by
  induction es generalizing s with
  | nil => exact ⟨fun _ => trivial, fun _ => rfl⟩
  | cons e es ih =>
    rw [tryExec, List.foldlM_cons]
    constructor
    · intro h
      obtain ⟨s', hrun⟩ := Option.isSome_iff_exists.mp h
      obtain ⟨s₁, heq, hrest⟩ := Option.bind_eq_some_iff.mp hrun
      refine ⟨(hstep s e).mp (heq ▸ rfl), fun s₂ hs₂ => ?_⟩
      obtain rfl := Option.some.inj (heq.symm.trans hs₂)
      exact ih.mp (Option.isSome_iff_exists.mpr ⟨s', hrest⟩)
    · rintro ⟨hp, hrest⟩
      obtain ⟨s₁, heq⟩ := Option.isSome_iff_exists.mp ((hstep s e).mpr hp)
      rw [heq]
      exact ih.mpr (hrest s₁ heq)

theorem tryExec_append (s : σ) (es es' : List ε) :
    tryExec step s (es ++ es') = (tryExec step s es).bind fun s' => tryExec step s' es' := by
  rw [tryExec, List.foldlM_append]
  rfl

theorem tryExec_cons (s : σ) (e : ε) (es : List ε) :
    tryExec step s (e :: es) = (step s e).bind fun s' => tryExec step s' es := by
  rw [tryExec, List.foldlM_cons]
  rfl

theorem AllTries.of_append {es' : List ε} (h : AllTries step P s (es ++ es')) {s' : σ}
    (hrun : tryExec step s es = some s') : AllTries step P s' es' := by
  induction es generalizing s with
  | nil => exact Option.some.inj hrun ▸ h
  | cons e es ih =>
    rw [tryExec_cons] at hrun
    obtain ⟨s₁, hstep, hrest⟩ := Option.bind_eq_some_iff.mp hrun
    exact ih (h.2 s₁ hstep) hrest

theorem AllTries.imp (h : AllTries step P s es) (hpq : ∀ s e, P s e → Q s e) :
    AllTries step Q s es := by
  induction es generalizing s with
  | nil => trivial
  | cons e es ih => exact ⟨hpq s e h.1, fun s' hs' => ih (h.2 s' hs')⟩

theorem AllTries.and (hp : AllTries step P s es) (hq : AllTries step Q s es) :
    AllTries step (fun s e => P s e ∧ Q s e) s es := by
  induction es generalizing s with
  | nil => trivial
  | cons e es ih => exact ⟨⟨hp.1, hq.1⟩, fun s' hs' => ih (hp.2 s' hs') (hq.2 s' hs')⟩

theorem AllTries.take (h : AllTries step P s es) (n : Nat) : AllTries step P s (es.take n) := by
  induction es generalizing s n with
  | nil =>
    rw [List.take_nil]
    trivial
  | cons e es ih =>
    cases n with
    | zero => trivial
    | succ n => exact ⟨h.1, fun s' hs' => ih (h.2 s' hs') n⟩

theorem AllTries.of_trace
    (hstep : ∀ past s e, J past s → P s e → ∃ s', step s e = some s' ∧ J (past ++ [e]) s')
    (hq : ∀ past s e, J past s → P s e → Q s e) (past : List ε) (hs : J past s)
    (hp : AllTries step P s es) : AllTries step Q s es := by
  induction es generalizing s past with
  | nil => trivial
  | cons e es ih =>
    refine ⟨hq past s e hs hp.1, fun s' hs' => ?_⟩
    obtain ⟨s₁, heq, h₁⟩ := hstep past s e hs hp.1
    obtain rfl := Option.some.inj (heq.symm.trans hs')
    exact ih (past ++ [e]) h₁ (hp.2 s₁ heq)

theorem tryExec_inv (hstep : ∀ s e, I s → P s e → ∃ s', step s e = some s' ∧ I s') (hs : I s)
    (hp : AllTries step P s es) : ∃ s', tryExec step s es = some s' ∧ I s' :=
  tryExec_trace (J := fun _ => I) (fun _ s e => hstep s e) [] hs hp

end Tries

section Forgets

variable {τ : Type*} {step : σ → ε → σ} {step' : τ → ε → τ} {f : σ → τ}

theorem exec_map (h : ∀ s e, f (step s e) = step' (f s) e) (s : σ) (es : List ε) :
    f (exec step s es) = exec step' (f s) es := by
  induction es generalizing s with
  | nil => rfl
  | cons e es ih =>
    rw [exec_cons, exec_cons, ih, h]

end Forgets

section Purged

variable {τ O : Type*} (step : σ → ε → σ) (seen : ε → Bool)

/-- What is put out by the events that are seen. -/
def outputs (out : σ → ε → O) : σ → List ε → List O
  | _, [] => []
  | s, e :: es =>
    let rest := outputs out (step s e) es
    if seen e then out s e :: rest else rest

variable {step seen} {step' : τ → ε → τ} {out : σ → ε → O} {out' : τ → ε → O}
  {R : σ → τ → Prop} {t : τ}

theorem exec_purged
    (hhidden : ∀ s t e, R s t → P s e → seen e = false → R (step s e) t)
    (hseen : ∀ s t e, R s t → P s e → seen e = true →
      out s e = out' t e ∧ R (step s e) (step' t e))
    (hr : R s t) (hp : AllSteps step P s es) :
    outputs step seen out s es = outputs step' seen out' t (es.filter seen) ∧
      R (exec step s es) (exec step' t (es.filter seen)) := by
  induction es generalizing s t with
  | nil => exact ⟨rfl, hr⟩
  | cons e es ih =>
    cases he : seen e with
    | false =>
      rw [List.filter_cons_of_neg (by simp [he])]
      obtain ⟨houts, hrel⟩ := ih (hhidden s t e hr hp.1 he) hp.2
      constructor
      · simpa only [outputs, he, Bool.false_eq_true, if_false] using houts
      · exact hrel
    | true =>
      rw [List.filter_cons_of_pos he]
      obtain ⟨hout, hnext⟩ := hseen s t e hr hp.1 he
      obtain ⟨houts, hrel⟩ := ih hnext hp.2
      exact ⟨by simp only [outputs, he, if_true, hout, houts], hrel⟩

theorem outputs_map {f : σ → τ} (h : ∀ s e, f (step s e) = step' (f s) e)
    (hout : ∀ s e, out s e = out' (f s) e) (s : σ) (es : List ε) :
    outputs step seen out s es = outputs step' seen out' (f s) es := by
  induction es generalizing s with
  | nil => rfl
  | cons e es ih => simp only [outputs, ih, h, hout]

end Purged

section Since

variable {started ended : ε → Prop}

/-- An event that starts something, and none behind it that ends it. -/
def Since (started ended : ε → Prop) (es : List ε) : Prop :=
  ∃ past e later, es = past ++ e :: later ∧ started e ∧ ∀ e' ∈ later, ¬ ended e'

theorem since_nil : ¬ Since started ended [] := by
  rintro ⟨past, e, later, heq, -⟩
  simp at heq

theorem since_concat {es : List ε} {e : ε} :
    Since started ended (es ++ [e]) ↔ started e ∨ Since started ended es ∧ ¬ ended e := by
  constructor
  · rintro ⟨past, e', later, heq, hstart, hlater⟩
    rcases List.eq_nil_or_concat later with rfl | ⟨later', last, rfl⟩
    · obtain ⟨-, hlast⟩ := List.append_inj' heq rfl
      obtain rfl := (List.cons.inj hlast).1
      exact .inl hstart
    · rw [List.concat_eq_append] at heq hlater
      rw [← List.cons_append, ← List.append_assoc] at heq
      obtain ⟨hes, hlast⟩ := List.append_inj' heq rfl
      obtain rfl := (List.cons.inj hlast).1
      exact .inr ⟨⟨past, e', later', hes, hstart, fun x hx => hlater x (List.mem_append_left _ hx)⟩,
        hlater e (List.mem_append_right _ (List.mem_singleton.mpr rfl))⟩
  · rintro (hstart | ⟨⟨past, e', later, rfl, hstart, hlater⟩, hend⟩)
    · exact ⟨es, e, [], rfl, hstart, fun x hx => nomatch hx⟩
    · refine ⟨past, e', later ++ [e], by simp, hstart, fun x hx => ?_⟩
      rcases List.mem_append.mp hx with hx | hx
      · exact hlater x hx
      · rwa [List.mem_singleton.mp hx]

end Since

end Run
