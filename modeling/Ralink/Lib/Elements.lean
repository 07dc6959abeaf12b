import Mathlib.Data.List.Basic

/-! An identifier and a length of one byte each, and as many bytes of data. A loop over such
elements reads the header in front of it, and only then compares the length with the bytes that are
left. -/
namespace Elements

/-- The element in front, and what can be read from its data on. -/
structure Element where
  id : UInt8
  len : UInt8
  rest : List UInt8
  deriving DecidableEq

namespace Element

variable (e : Element)

def data : List UInt8 := e.rest.take e.len.toNat

def behind : List UInt8 := e.rest.drop e.len.toNat

def size : Nat := 2 + e.len.toNat

end Element

def front? : List UInt8 → Option Element
  | id :: len :: rest => some ⟨id, len, rest⟩
  | _ => none

variable {mem : List UInt8} {e : Element} {n : Nat}

theorem front?_eq_some (h : front? mem = some e) : mem = e.id :: e.len :: e.rest := by
  match mem with
  | [] => cases h
  | [_] => cases h
  | id :: len :: rest =>
    obtain rfl := Option.some.inj h
    rfl

theorem isSome_front? : (front? mem).isSome ↔ 2 ≤ mem.length := by
  match mem with
  | [] => simp [front?]
  | [_] => simp [front?]
  | _ :: _ :: _ => simp [front?]

theorem length_behind_lt (h : front? mem = some e) : e.behind.length < mem.length := by
  rw [front?_eq_some h, Element.behind, List.length_drop]
  simp only [List.length_cons]
  omega

/-- Of the next `n` bytes. -/
def elements (n : Nat) (mem : List UInt8) : List Element :=
  match _h : front? mem with
  | none => []
  | some e => if e.size ≤ n then e :: elements (n - e.size) e.behind else []
termination_by mem.length
decreasing_by exact length_behind_lt _h

def left (n : Nat) (mem : List UInt8) : Nat :=
  match _h : front? mem with
  | none => n
  | some e => if e.size ≤ n then left (n - e.size) e.behind else n
termination_by mem.length
decreasing_by exact length_behind_lt _h

theorem elements_none (h : front? mem = none) : elements n mem = [] := by
  unfold elements
  split
  · rfl
  · next e he => exact (Option.some_ne_none e (he.symm.trans h)).elim

theorem elements_some (h : front? mem = some e) :
    elements n mem = if e.size ≤ n then e :: elements (n - e.size) e.behind else [] := by
  conv_lhs => unfold elements
  split
  · next he => exact (Option.some_ne_none e (h.symm.trans he)).elim
  · next e' he =>
    obtain rfl := Option.some.inj (h.symm.trans he)
    rfl

theorem left_none (h : front? mem = none) : left n mem = n := by
  unfold left
  split
  · rfl
  · next e he => exact (Option.some_ne_none e (he.symm.trans h)).elim

theorem left_some (h : front? mem = some e) :
    left n mem = if e.size ≤ n then left (n - e.size) e.behind else n := by
  conv_lhs => unfold left
  split
  · next he => exact (Option.some_ne_none e (h.symm.trans he)).elim
  · next e' he =>
    obtain rfl := Option.some.inj (h.symm.trans he)
    rfl

theorem left_le (n : Nat) (mem : List UInt8) : left n mem ≤ n := by
  fun_induction left n mem with
  | case1 => exact Nat.le_refl _
  | case2 n mem e _ hsize ih => omega
  | case3 => exact Nat.le_refl _

theorem mem_elements (h : e ∈ elements n mem) :
    ∃ before, mem = before ++ e.id :: e.len :: e.rest ∧ before.length + e.size ≤ n := by
  fun_induction elements n mem with
  | case1 => exact absurd h List.not_mem_nil
  | case2 n mem e' hfront hsize ih =>
    rcases List.mem_cons.mp h with rfl | h
    · exact ⟨[], front?_eq_some hfront, by simpa using hsize⟩
    · obtain ⟨before, hmem, hlen⟩ := ih h
      refine ⟨e'.id :: e'.len :: e'.rest.take e'.len.toNat ++ before, ?_, ?_⟩
      · rw [front?_eq_some hfront, List.append_assoc, ← hmem, Element.behind]
        simp
      · simp only [List.length_append, List.length_cons, List.length_take]
        unfold Element.size at *
        omega
  | case3 => exact absurd h List.not_mem_nil

section Loop

variable {σ ρ : Type*} (body : σ → Element → Option (ρ ⊕ σ))

/-- The body may fail, end the loop with a result, or go on. The header is read where memory
ends only if it is there. -/
def walk (n : Nat) (mem : List UInt8) (s : σ) : Option (ρ ⊕ σ) :=
  match _h : front? mem with
  | none => none
  | some e =>
    if e.size ≤ n then
      (body s e).bind fun
        | .inl r => some (.inl r)
        | .inr s' => walk (n - e.size) e.behind s'
    else some (.inr s)
termination_by mem.length
decreasing_by exact length_behind_lt _h

def run : σ → List Element → Option (ρ ⊕ σ)
  | s, [] => some (.inr s)
  | s, e :: es =>
    (body s e).bind fun
      | .inl r => some (.inl r)
      | .inr s' => run s' es

/-- What the condition of the loop reads behind the last element is there. -/
def atEnd (n : Nat) (mem : List UInt8) : ρ ⊕ σ → Option (ρ ⊕ σ)
  | .inl r => some (.inl r)
  | .inr s => if n + 2 ≤ mem.length + left n mem then some (.inr s) else none

variable {body} {s : σ}

theorem walk_none (h : front? mem = none) : walk body n mem s = none := by
  unfold walk
  split
  · rfl
  · next e he => exact (Option.some_ne_none e (he.symm.trans h)).elim

theorem walk_some (h : front? mem = some e) :
    walk body n mem s = if e.size ≤ n then
        (body s e).bind fun
          | .inl r => some (.inl r)
          | .inr s' => walk body (n - e.size) e.behind s'
      else some (.inr s) := by
  conv_lhs => unfold walk
  split
  · next he => exact (Option.some_ne_none e (h.symm.trans he)).elim
  · next e' he =>
    obtain rfl := Option.some.inj (h.symm.trans he)
    rfl

theorem walk_eq (hn : n ≤ mem.length) (s : σ) :
    walk body n mem s = (run body s (elements n mem)).bind (atEnd n mem) := by
  fun_induction walk body n mem s with
  | case1 n mem s hfront =>
    have hlen : mem.length < 2 := by
      rw [← Nat.not_le, ← isSome_front?, hfront]
      exact Bool.noConfusion
    rw [elements_none hfront, run, Option.bind_some, atEnd, left_none hfront, if_neg (by omega)]
  | case2 n mem s e hfront hsize ih =>
    have hmem := congrArg List.length (front?_eq_some hfront)
    have hbehind : e.behind.length = mem.length - e.size := by
      rw [Element.behind, List.length_drop, Element.size]
      simp only [List.length_cons] at hmem
      omega
    rw [elements_some hfront, if_pos hsize, run, Option.bind_assoc]
    refine congrArg _ (funext fun r => ?_)
    cases r with
    | inl r => rfl
    | inr s' =>
      refine (ih s' (by omega)).trans (congrArg _ (funext fun r => ?_))
      cases r with
      | inl r => rfl
      | inr s'' =>
        rw [atEnd, atEnd, left_some hfront, if_pos hsize, hbehind]
        exact if_congr (by omega) rfl rfl
  | case3 n mem s e hfront hsize =>
    have hmem := congrArg List.length (front?_eq_some hfront)
    simp only [List.length_cons] at hmem
    rw [elements_some hfront, if_neg hsize, run, Option.bind_some, atEnd, left_some hfront,
      if_neg hsize, if_pos (by omega)]

theorem walk_exact (mem : List UInt8) (s : σ) :
    walk body mem.length mem s = (run body s (elements mem.length mem)).bind fun
      | .inl r => some (.inl r)
      | .inr s' => if 2 ≤ left mem.length mem then some (.inr s') else none := by
  rw [walk_eq (Nat.le_refl _)]
  refine congrArg _ (funext fun r => ?_)
  cases r with
  | inl r => rfl
  | inr s' => exact if_congr (by omega) rfl rfl

theorem walk_inside (hn : n + 2 ≤ mem.length) (s : σ) :
    walk body n mem s = run body s (elements n mem) := by
  rw [walk_eq (by omega)]
  cases run body s (elements n mem) with
  | none => rfl
  | some r =>
    cases r with
    | inl r => rfl
    | inr s' => exact if_pos (by omega)

theorem isSome_run_of_forall {P : Element → Prop} (hgo : ∀ s e r, body s e = some r → r.isRight)
    (hbody : ∀ s e, (body s e).isSome ↔ P e) (s : σ) (es : List Element) :
    (run body s es).isSome ↔ ∀ e ∈ es, P e := by
  induction es generalizing s with
  | nil => simp [run]
  | cons e es ih =>
    rw [run, List.forall_mem_cons, ← hbody s e]
    cases hb : body s e with
    | none => simp
    | some r =>
      obtain ⟨s', rfl⟩ := Sum.isRight_iff.mp (hgo s e r hb)
      simpa using ih s'

end Loop

/-! A part of the state may be enough to tell how the loop goes on and whether its body fails. -/

/-- An identifier and the data for it. -/
structure Written where
  id : UInt8
  data : List UInt8
  length_lt : data.length < 256

namespace Written

variable (x : Written) (behind : List UInt8)

def bytes : List UInt8 := x.id :: UInt8.ofNat x.data.length :: x.data

def element (behind : List UInt8) : Element := ⟨x.id, UInt8.ofNat x.data.length, x.data ++ behind⟩

theorem toNat_len : (UInt8.ofNat x.data.length).toNat = x.data.length := by
  rw [UInt8.toNat_ofNat', Nat.mod_eq_of_lt x.length_lt]

@[simp] theorem id_element : (x.element behind).id = x.id := rfl

@[simp] theorem length_bytes : x.bytes.length = 2 + x.data.length := by
  simp only [bytes, List.length_cons]
  omega

@[simp] theorem size_element : (x.element behind).size = 2 + x.data.length := by
  rw [Element.size, element, toNat_len]

@[simp] theorem data_element : (x.element behind).data = x.data := by
  rw [Element.data, element, toNat_len, List.take_left]

@[simp] theorem behind_element : (x.element behind).behind = behind := by
  rw [Element.behind, element, toNat_len, List.drop_left]

theorem front?_bytes : front? (x.bytes ++ behind) = some (x.element behind) := rfl

end Written

def encode (xs : List Written) : List UInt8 := xs.flatMap Written.bytes

def found : List Written → List UInt8 → List Element
  | [], _ => []
  | x :: xs, behind => x.element (encode xs ++ behind) :: found xs behind

theorem encode_cons (x : Written) (xs : List Written) : encode (x :: xs) = x.bytes ++ encode xs :=
  List.flatMap_cons

theorem elements_encode (xs : List Written) (k : Nat) (behind : List UInt8) :
    elements ((encode xs).length + k) (encode xs ++ behind) =
        found xs behind ++ elements k behind ∧
      left ((encode xs).length + k) (encode xs ++ behind) = left k behind := by
  induction xs with
  | nil => simp [encode, found]
  | cons x xs ih =>
    have hlen : (encode (x :: xs)).length + k = (2 + x.data.length) + ((encode xs).length + k) := by
      rw [encode_cons, List.length_append, Written.length_bytes]
      omega
    have hsub : (2 + x.data.length) + ((encode xs).length + k) - (2 + x.data.length) =
        (encode xs).length + k := by omega
    have hfront := x.front?_bytes (encode xs ++ behind)
    rw [encode_cons, List.append_assoc, ← encode_cons, hlen, elements_some hfront,
      left_some hfront, Written.size_element, if_pos (by omega), if_pos (by omega), hsub,
      Written.behind_element, ih.1, ih.2]
    exact ⟨rfl, rfl⟩

end Elements
