import Ralink.Lib.ByteStore

/-! A memory of objects that have a size each. An access that leaves its object gives no result, and
every operation comes with the condition under which it gives one. -/
namespace Sized

open ByteStore

variable {α β : Type*} {x : Option α} {f : α → Option β} {P : Prop}

theorem isSome_bind : (x.bind f).isSome ↔ x.isSome ∧ ∀ a, x = some a → (f a).isSome := by
  cases x with
  | none => simp
  | some a => simp

theorem isSome_bind_iff {Q : Prop} (hx : x.isSome ↔ P) (hf : ∀ a, x = some a → ((f a).isSome ↔ Q)) :
    (x.bind f).isSome ↔ P ∧ Q := by
  rw [isSome_bind, hx]
  refine and_congr_right fun hP => ?_
  obtain ⟨a, ha⟩ := Option.isSome_iff_exists.mp (hx.mpr hP)
  constructor
  · intro h
    exact (hf a ha).mp (h a ha)
  · intro h a ha
    exact (hf a ha).mpr h

theorem isSome_bind_left (hx : x.isSome ↔ P) (hf : ∀ a, x = some a → (f a).isSome) :
    (x.bind f).isSome ↔ P :=
  (isSome_bind_iff hx fun a ha => iff_true_intro (hf a ha)).trans (iff_of_eq (and_true P))

theorem isSome_bind_right (hx : x.isSome) (hf : ∀ a, x = some a → ((f a).isSome ↔ P)) :
    (x.bind f).isSome ↔ P :=
  (isSome_bind_iff (iff_true_intro hx) hf).trans (iff_of_eq (true_and P))

section Slices

variable {p : α → Prop} {as : List α} {n : Nat}

def slice (as : List α) (n : Nat) : Option (List α) :=
  if n ≤ as.length then some (as.take n) else none

theorem isSome_slice : (slice as n).isSome ↔ n ≤ as.length := by
  unfold slice
  split <;> simp [*]

theorem slice_eq_some {bs : List α} (h : slice as n = some bs) : bs = as.take n := by
  unfold slice at h
  split at h
  · exact (Option.some.inj h).symm
  · exact (Option.not_mem_none _ h).elim

theorem length_of_slice {bs : List α} (h : slice as n = some bs) : bs.length = n := by
  have hn : n ≤ as.length := isSome_slice.mp (h ▸ rfl)
  rw [slice_eq_some h, List.length_take, Nat.min_eq_left hn]

variable (p) [DecidablePred p]

/-- A loop of at most `n` turns that stops at the first element with the property. It gives
the number of elements passed and the one it stopped at. -/
def scan : Nat → List α → Option (Nat × Option α)
  | 0, _ => some (0, none)
  | _ + 1, [] => none
  | n + 1, a :: as =>
    if p a then some (0, some a) else (scan n as).map fun r => (r.1 + 1, r.2)

variable {p}

variable {r : Nat × Option α}

theorem isSome_scan : (scan p n as).isSome ↔ n ≤ as.length ∨ ∃ a ∈ as.take n, p a := by
  induction as generalizing n with
  | nil => cases n <;> simp [scan]
  | cons a as ih =>
    cases n with
    | zero => simp [scan]
    | succ n =>
      by_cases ha : p a
      · simp [scan, ha]
      · simp [scan, ha, ih]

theorem scan_fst (h : scan p n as = some r) :
    r.1 = ((as.take n).takeWhile fun a => !decide (p a)).length := by
  induction as generalizing n r with
  | nil =>
    cases n with
    | zero => cases h; rfl
    | succ n => exact (Option.not_mem_none _ h).elim
  | cons a as ih =>
    cases n with
    | zero => cases h; rfl
    | succ n =>
      unfold scan at h
      by_cases ha : p a
      · rw [if_pos ha] at h
        cases h
        simp [ha]
      · rw [if_neg ha] at h
        obtain ⟨r', hr', rfl⟩ := Option.map_eq_some_iff.mp h
        simp [ha, ih hr']

theorem scan_snd (h : scan p n as = some r) : r.2 = none ↔ ∀ a ∈ as.take n, ¬ p a := by
  induction as generalizing n r with
  | nil =>
    cases n with
    | zero => cases h; simp
    | succ n => exact (Option.not_mem_none _ h).elim
  | cons a as ih =>
    cases n with
    | zero => cases h; simp
    | succ n =>
      unfold scan at h
      by_cases ha : p a
      · rw [if_pos ha] at h
        cases h
        simp [ha]
      · rw [if_neg ha] at h
        obtain ⟨r', hr', rfl⟩ := Option.map_eq_some_iff.mp h
        simp [ha, ih hr']

theorem scan_fst_le (h : scan p n as = some r) : r.1 ≤ as.length := by
  rw [scan_fst h]
  exact (List.takeWhile_sublist _).length_le.trans (List.length_take_le' n as)

end Slices

section Objects

abbrev Mem (ω : Type*) := ω → Store

variable {ω : Type*} (size : ω → Nat)

def get (m : Mem ω) (o : ω) (off n : Nat) : Option (List UInt8) :=
  if off + n ≤ size o then some (readBytes (m o) off n) else none

variable {size} {m : Mem ω} {o : ω} {off n : Nat} {bs : List UInt8}

theorem isSome_get : (get size m o off n).isSome ↔ off + n ≤ size o := by
  unfold get
  split <;> simp [*]

theorem length_of_get (h : get size m o off n = some bs) : bs.length = n := by
  unfold get at h
  split at h
  · cases h
    exact length_readBytes _ _ _
  · exact (Option.not_mem_none _ h).elim

variable [DecidableEq ω] (size)

def put (m : Mem ω) (o : ω) (off : Nat) (bs : List UInt8) : Option (Mem ω) :=
  if off + bs.length ≤ size o then some (Function.update m o (writeBytes (m o) off bs)) else none

/-- The same bytes to the front of several objects, one after the other. -/
def putAll (m : Mem ω) (os : List ω) (bs : List UInt8) : Option (Mem ω) :=
  os.foldlM (fun m o => put size m o 0 bs) m

variable {size}

theorem isSome_put : (put size m o off bs).isSome ↔ off + bs.length ≤ size o := by
  unfold put
  split <;> simp [*]

theorem put_other {m' : Mem ω} {o' : ω} (h : put size m o off bs = some m') (ho : o' ≠ o) :
    m' o' = m o' := by
  unfold put at h
  split at h
  · cases h
    exact Function.update_of_ne ho _ _
  · exact (Option.not_mem_none _ h).elim

theorem isSome_putAll {os : List ω} :
    (putAll size m os bs).isSome ↔ ∀ o ∈ os, bs.length ≤ size o := by
  induction os generalizing m with
  | nil => simp [putAll]
  | cons o os ih =>
    rw [putAll, List.foldlM_cons, List.forall_mem_cons]
    refine isSome_bind_iff ?_ fun m' _ => ih
    rw [isSome_put, Nat.zero_add]

end Objects

end Sized
