import Mathlib.Tactic

/-! Each part of a table has a first index and the index behind its last entry, in words of `w`
bits. Entries are put behind the last, and a part is laid anew by setting both back. While no part
grows past its limit, every part holds the entries that were put into it. -/

structure Parts (ε ρ : Type*) (w : Nat) where
  tbl : Nat → Option ρ
  start : ε → BitVec w
  stop : ε → BitVec w

namespace Parts
open Function

variable {ε ρ : Type*} {w : Nat} [DecidableEq ε]

def append (p : Parts ε ρ w) (e : ε) (r : ρ) : Parts ε ρ w :=
  { p with tbl := update p.tbl (p.stop e).toNat (some r), stop := update p.stop e (p.stop e + 1) }

def reset (p : Parts ε ρ w) (e : ε) (a : BitVec w) : Parts ε ρ w :=
  { p with start := update p.start e a, stop := update p.stop e a }

def appendAll (p : Parts ε ρ w) (rs : List (ε × ρ)) : Parts ε ρ w :=
  rs.foldl (fun p r => p.append r.1 r.2) p

/-- The parts `es` set back to where they start, and filled with `rs`. -/
def relay (p : Parts ε ρ w) (es : List ε) (rs : List (ε × ρ)) : Parts ε ρ w :=
  (es.foldl (fun p e => p.reset e (p.start e)) p).appendAll rs

def rulesOf (rs : List (ε × ρ)) (e : ε) : List ρ :=
  rs.filterMap fun r => if r.1 = e then some r.2 else none

structure Holds (p : Parts ε ρ w) (e : ε) (rules : List ρ) : Prop where
  stop : (p.stop e).toNat = (p.start e).toNat + rules.length
  entry : ∀ i r, rules[i]? = some r → p.tbl ((p.start e).toNat + i) = some r

/-- The parts end before their limits, which are indices and within no other part. -/
structure Apart (start : ε → BitVec w) (limit : ε → Nat) : Prop where
  lt : ∀ e, limit e < 2 ^ w
  apart : ∀ e e', e ≠ e' → limit e ≤ (start e').toNat ∨ limit e' ≤ (start e).toNat

variable {p : Parts ε ρ w} {e e' : ε} {r : ρ} {rules : List ρ} {limit : ε → Nat} {a : BitVec w}
  {R : ε → List ρ}

theorem Holds.append_self (h : p.Holds e rules)
    (hlt : (p.start e).toNat + rules.length + 1 < 2 ^ w) :
    (p.append e r).Holds e (rules ++ [r]) := by
  have hstop := h.stop
  constructor
  · have hone : (1 : BitVec w).toNat = 1 := by
      show (BitVec.ofNat w 1).toNat = 1
      rw [BitVec.toNat_ofNat]
      exact Nat.mod_eq_of_lt (by omega)
    simp only [append, update_self, BitVec.toNat_add, List.length_append, List.length_singleton,
      hone]
    rw [Nat.mod_eq_of_lt (by omega)]
    omega
  · intro i x hx
    simp only [append]
    rcases Nat.lt_or_ge i rules.length with hi | hi
    · rw [List.getElem?_append_left hi] at hx
      rw [update_of_ne (by omega)]
      exact h.entry i x hx
    · rw [List.getElem?_append_right hi] at hx
      have hi0 : i - rules.length = 0 := by
        by_contra hne
        rw [List.getElem?_eq_none (by simp; omega)] at hx
        cases hx
      rw [hi0] at hx
      obtain rfl : r = x := by simpa using hx
      rw [show (p.start e).toNat + i = (p.stop e).toNat by omega, update_self]

theorem Holds.append_other (h : p.Holds e rules) (hne : e ≠ e')
    (hout : (p.stop e').toNat < (p.start e).toNat ∨ (p.stop e).toNat ≤ (p.stop e').toNat) :
    (p.append e' r).Holds e rules := by
  have hstop := h.stop
  constructor
  · simp only [append, update_of_ne hne]
    exact hstop
  · intro i x hx
    have hi : i < rules.length := by
      by_contra hge
      rw [List.getElem?_eq_none (by omega)] at hx
      cases hx
    simp only [append]
    rw [update_of_ne (by omega)]
    exact h.entry i x hx

theorem Holds.reset_self : (p.reset e a).Holds e [] := by
  constructor
  · simp [reset]
  · intro i x hx
    simp at hx

theorem Holds.reset_other (h : p.Holds e rules) (hne : e ≠ e') : (p.reset e' a).Holds e rules := by
  constructor
  · simpa [reset, hne] using h.stop
  · intro i x hx
    simpa [reset, hne] using h.entry i x hx

@[simp] theorem appendAll_start (p : Parts ε ρ w) (rs : List (ε × ρ)) :
    (p.appendAll rs).start = p.start := by
  induction rs generalizing p with
  | nil => rfl
  | cons r rs ih => exact ih (p.append r.1 r.2)

theorem appendAll_holds {rs : List (ε × ρ)} (hapart : Apart p.start limit)
    (hfit : ∀ e, (p.start e).toNat + (R e ++ rulesOf rs e).length ≤ limit e)
    (h : ∀ e, p.Holds e (R e)) : ∀ e, (p.appendAll rs).Holds e (R e ++ rulesOf rs e) := by
  induction rs generalizing p R with
  | nil => simpa [appendAll, rulesOf] using h
  | cons r rs ih =>
    obtain ⟨e₀, r⟩ := r
    have hcons : ∀ e, R e ++ rulesOf ((e₀, r) :: rs) e =
        update R e₀ (R e₀ ++ [r]) e ++ rulesOf rs e := by
      intro e
      rcases eq_or_ne e₀ e with rfl | hne
      · simp [rulesOf]
      · simp [rulesOf, hne, Ne.symm hne]
    have hlen : ∀ e, (p.start e).toNat + (R e).length ≤ limit e := by
      intro e
      have := hfit e
      rw [List.length_append] at this
      omega
    have hroom : (p.start e₀).toNat + (R e₀).length + 1 ≤ limit e₀ := by
      have := hfit e₀
      rw [hcons, update_self, List.length_append, List.length_append] at this
      simp at this
      omega
    have hstep : ∀ e, (p.append e₀ r).Holds e (update R e₀ (R e₀ ++ [r]) e) := by
      intro e
      rcases eq_or_ne e e₀ with rfl | hne
      · rw [update_self]
        exact (h e).append_self (by have := hapart.lt e; omega)
      · rw [update_of_ne hne]
        refine (h e).append_other hne ?_
        have hstop := (h e).stop
        have hstop₀ := (h e₀).stop
        have hlen₀ := hlen e
        rcases hapart.apart e e₀ hne with hap | hap <;> omega
    intro e
    rw [hcons]
    refine ih (p := p.append e₀ r) hapart (fun e => ?_) hstep e
    rw [← hcons]
    exact hfit e

theorem resetAll_start (p : Parts ε ρ w) (es : List ε) :
    (es.foldl (fun p e => p.reset e (p.start e)) p).start = p.start := by
  induction es generalizing p with
  | nil => rfl
  | cons e es ih =>
    have hone : (p.reset e (p.start e)).start = p.start := by simp [reset]
    exact (ih _).trans hone

@[simp] theorem relay_start (p : Parts ε ρ w) (es : List ε) (rs : List (ε × ρ)) :
    (p.relay es rs).start = p.start := (appendAll_start _ _).trans (resetAll_start p es)

theorem resetAll_holds {es : List ε} (h : ∀ e, p.Holds e (R e)) (e : ε) :
    (es.foldl (fun p e => p.reset e (p.start e)) p).Holds e (if e ∈ es then [] else R e) := by
  induction es generalizing p R with
  | nil => simpa using h e
  | cons e₀ es ih =>
    have hstep : ∀ e, (p.reset e₀ (p.start e₀)).Holds e (if e = e₀ then [] else R e) := by
      intro e
      split
      · next he => exact he ▸ Holds.reset_self
      · next he => exact (h e).reset_other he
    have hall := ih hstep
    by_cases he : e = e₀ <;> by_cases hes : e ∈ es <;> simpa [he, hes] using hall

theorem relay_holds {R R' : ε → List ρ} {es : List ε} {rs : List (ε × ρ)}
    (hapart : Apart p.start limit) (h : ∀ e, p.Holds e (R e))
    (hnew : ∀ e ∈ es, R' e = rulesOf rs e) (hold : ∀ e, e ∉ es → R' e = R e ∧ rulesOf rs e = [])
    (hfit : ∀ e, (p.start e).toNat + (R' e).length ≤ limit e) (e : ε) :
    (p.relay es rs).Holds e (R' e) := by
  have hrules : ∀ e, (if e ∈ es then [] else R e) ++ rulesOf rs e = R' e := by
    intro e
    split
    · next he => rw [List.nil_append, hnew e he]
    · next he => rw [(hold e he).2, List.append_nil, (hold e he).1]
  have hstart := resetAll_start p es
  rw [← hrules]
  refine appendAll_holds (hstart ▸ hapart : Apart _ limit) (fun e => ?_) (resetAll_holds h) e
  rw [hrules, hstart]
  exact hfit e

theorem appendAll_self (rules' : List ρ) (h : p.Holds e rules)
    (hlt : (p.start e).toNat + (rules ++ rules').length < 2 ^ w) :
    (p.appendAll (rules'.map (e, ·))).Holds e (rules ++ rules') := by
  induction rules' generalizing p rules with
  | nil => simpa [appendAll] using h
  | cons r rules' ih =>
    have hone := h.append_self (r := r) (by simp at hlt; omega)
    have hrest := ih hone (by simpa [append] using hlt)
    rw [List.append_assoc] at hrest
    exact hrest

theorem relay_self (p : Parts ε ρ w) (e : ε) (rules : List ρ)
    (hlt : (p.start e).toNat + rules.length < 2 ^ w) :
    (p.relay [e] (rules.map (e, ·))).Holds e rules := by
  refine appendAll_self rules Holds.reset_self ?_
  simpa [reset] using hlt

theorem filterMap_range {f : Nat → Option ρ} (h : ∀ i r, rules[i]? = some r → f i = some r) :
    (List.range rules.length).filterMap f = rules := by
  induction rules generalizing f with
  | nil => rfl
  | cons r rules ih =>
    rw [List.length_cons, List.range_succ_eq_map, List.filterMap_cons_some (h 0 r rfl),
      List.filterMap_map]
    exact congrArg (r :: ·) (ih fun i x hx => h (i + 1) x hx)

omit [DecidableEq ε] in
theorem Holds.read (h : p.Holds e rules) :
    ((List.range ((p.stop e).toNat - (p.start e).toNat)).filterMap fun i =>
      p.tbl ((p.start e).toNat + i)) = rules := by
  rw [h.stop, Nat.add_sub_cancel_left]
  exact filterMap_range h.entry

theorem rulesOf_append (rs rs' : List (ε × ρ)) (e : ε) :
    rulesOf (rs ++ rs') e = rulesOf rs e ++ rulesOf rs' e := List.filterMap_append

theorem rulesOf_length_le {rs rs' : List (ε × ρ)} (h : rs.Sublist rs') (e : ε) :
    (rulesOf rs e).length ≤ (rulesOf rs' e).length := (h.filterMap _).length_le

theorem rulesOf_map (rules : List ρ) (e e' : ε) :
    rulesOf (rules.map (e, ·)) e' = if e = e' then rules else [] := by
  induction rules with
  | nil => simp [rulesOf]
  | cons r rules ih =>
    by_cases h : e = e' <;> simp_all [rulesOf]

end Parts
