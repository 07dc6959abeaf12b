import Mathlib.Tactic

/-! Strings without a NUL byte, and the search for a byte from an address on. A search ends at the
byte, at a NUL before it, or runs out of the memory it is given. -/
namespace CString

/-- What a `char *` points to, up to its terminating NUL. -/
structure CStr where
  bytes : List UInt8
  noNul : 0 ∉ bytes
  deriving DecidableEq

namespace CStr

@[ext] theorem ext {s t : CStr} (h : s.bytes = t.bytes) : s = t := by
  cases s
  cases t
  cases h
  rfl

def empty : CStr := ⟨[], List.not_mem_nil⟩

def cons (b : UInt8) (s : CStr) (h : b ≠ 0) : CStr :=
  ⟨b :: s.bytes, List.not_mem_cons_of_ne_of_not_mem h.symm s.noNul⟩

def append (s t : CStr) : CStr := ⟨s.bytes ++ t.bytes, by simp [s.noNul, t.noNul]⟩

/-- `strlen`. -/
def length (s : CStr) : Nat := s.bytes.length

@[simp] theorem bytes_empty : empty.bytes = [] := rfl
@[simp] theorem bytes_cons (b : UInt8) (s : CStr) (h : b ≠ 0) : (s.cons b h).bytes = b :: s.bytes := rfl
@[simp] theorem bytes_append (s t : CStr) : (s.append t).bytes = s.bytes ++ t.bytes := rfl
@[simp] theorem length_bytes (s : CStr) : s.bytes.length = s.length := rfl

end CStr

inductive Scan where
  | found (before : CStr) (rest : List UInt8)
  | absent
  | overrun
  deriving DecidableEq

/-- `strchr`, split at the byte it finds. -/
def strchr (c : UInt8) : List UInt8 → Scan
  | [] => .overrun
  | b :: rest =>
    if b = c then .found .empty rest
    else if h : b = 0 then .absent
    else
      match strchr c rest with
      | .found before rest => .found (before.cons b h) rest
      | .absent => .absent
      | .overrun => .overrun

variable {c : UInt8} {mem rest : List UInt8} {s : CStr}

theorem strchr_append (hc : c ∉ s.bytes) (rest : List UInt8) :
    strchr c (s.bytes ++ c :: rest) = .found s rest := by
  obtain ⟨bytes, hnul⟩ := s
  induction bytes with
  | nil => simp [strchr, CStr.empty]
  | cons b bytes ih =>
    have hb : b ≠ c := fun h => hc (h ▸ List.mem_cons_self)
    have h0 : b ≠ 0 := fun h => hnul (h ▸ List.mem_cons_self)
    have htail := ih (fun h => hnul (List.mem_cons_of_mem b h))
      fun h => hc (List.mem_cons_of_mem b h)
    simp only [List.cons_append, strchr, if_neg hb, dif_neg h0, htail]
    rfl

theorem strchr_nul (s : CStr) (rest : List UInt8) : strchr 0 (s.bytes ++ 0 :: rest) = .found s rest :=
  strchr_append s.noNul rest

theorem strchr_absent (hc : c ∉ s.bytes) (h0 : c ≠ 0) (rest : List UInt8) :
    strchr c (s.bytes ++ 0 :: rest) = .absent := by
  obtain ⟨bytes, hnul⟩ := s
  induction bytes with
  | nil => simp [strchr, h0.symm]
  | cons b bytes ih =>
    have hb : b ≠ c := fun h => hc (h ▸ List.mem_cons_self)
    have hb0 : b ≠ 0 := fun h => hnul (h ▸ List.mem_cons_self)
    have htail := ih (fun h => hnul (List.mem_cons_of_mem b h))
      fun h => hc (List.mem_cons_of_mem b h)
    simp only [List.cons_append, strchr, if_neg hb, dif_neg hb0, htail]

/-- The three outcomes of a search. -/
inductive ScanCase (c : UInt8) (mem : List UInt8) : Scan → Prop
  | found {s : CStr} {r : List UInt8} (free : c ∉ s.bytes)
      (split : mem = s.bytes ++ c :: r) : ScanCase c mem (.found s r)
  | absent {s : CStr} {r : List UInt8} (free : c ∉ s.bytes) (nonNul : c ≠ 0)
      (split : mem = s.bytes ++ 0 :: r) : ScanCase c mem .absent
  | overrun {s : CStr} (free : c ∉ s.bytes) (split : mem = s.bytes) : ScanCase c mem .overrun

theorem strchr_cases (c : UInt8) (mem : List UInt8) : ScanCase c mem (strchr c mem) := by
  induction mem with
  | nil => exact .overrun (s := .empty) List.not_mem_nil rfl
  | cons b mem ih =>
    unfold strchr
    split
    · next hb =>
      subst hb
      exact .found (s := .empty) List.not_mem_nil rfl
    · next hb =>
      split
      · next h0 =>
        subst h0
        exact .absent (s := .empty) List.not_mem_nil (fun h => hb h.symm) rfl
      · next h0 =>
        generalize strchr c mem = scan at ih ⊢
        cases ih with
        | found free split =>
          next before rest =>
          exact .found (by simp [free, Ne.symm hb]) (by simp [split])
        | absent free nonNul split =>
          next before rest =>
          exact .absent (s := before.cons b h0) (r := rest) (by simp [free, Ne.symm hb]) nonNul
            (by simp [split])
        | overrun free split =>
          next all =>
          exact .overrun (s := all.cons b h0) (by simp [free, Ne.symm hb]) (by simp [split])

theorem strchr_found_append {before : CStr} (h : strchr c mem = .found before rest) (ext : List UInt8) :
    strchr c (mem ++ ext) = .found before (rest ++ ext) := by
  have hcase := strchr_cases c mem
  rw [h] at hcase
  cases hcase with
  | found free split =>
    rw [split, List.append_assoc, List.cons_append]
    exact strchr_append free _

theorem strchr_absent_append (h : strchr c mem = .absent) (ext : List UInt8) :
    strchr c (mem ++ ext) = .absent := by
  have hcase := strchr_cases c mem
  rw [h] at hcase
  cases hcase with
  | absent free nonNul split =>
    rw [split, List.append_assoc, List.cons_append]
    exact strchr_absent free nonNul _

end CString

/-! Arrays of `char` whose length is their size. An access outside of an array gives no result, and
so does a search that finds no terminator in it. -/
namespace CArray
open CString

abbrev Chars := List UInt8

def literal (s : CStr) : Chars := s.bytes ++ [0]

def store (m : Chars) (i : Nat) (bs : List UInt8) : Option Chars :=
  if i + bs.length ≤ m.length then some (m.take i ++ bs ++ m.drop (i + bs.length)) else none

def strAt (m : Chars) (i : Nat) : Option CStr :=
  match strchr 0 (m.drop i) with
  | .found s _ => some s
  | .absent | .overrun => none

/-- The string, or its first `n` bytes; what is behind those is not read. -/
def readN : Chars → Nat → Option (List UInt8)
  | _, 0 => some []
  | [], _ + 1 => none
  | b :: m, n + 1 => if b = 0 then some [] else (readN m n).map (b :: ·)

def memset (m : Chars) (i n : Nat) : Option Chars := store m i (List.replicate n 0)

def strcpy (dst src : Chars) : Option Chars := do
  let s ← strAt src 0
  store dst 0 (s.bytes ++ [0])

def strncpy (dst src : Chars) (n : Nat) : Option Chars := do
  let bs ← readN src n
  store dst 0 (bs ++ List.replicate (n - bs.length) 0)

def strcat (dst src : Chars) : Option Chars := do
  let d ← strAt dst 0
  let s ← strAt src 0
  store dst d.length (s.bytes ++ [0])

def strncat (dst src : Chars) (n : Nat) : Option Chars := do
  let d ← strAt dst 0
  let bs ← readN src n
  store dst d.length (bs ++ [0])

variable {m m' src rest : Chars} {i n : Nat} {bs : List UInt8} {s t : CStr}

theorem store_eq (h : i + bs.length ≤ m.length) :
    store m i bs = some (m.take i ++ bs ++ m.drop (i + bs.length)) := if_pos h

theorem store_none (h : m.length < i + bs.length) : store m i bs = none :=
  if_neg (Nat.not_le_of_lt h)

theorem store_append {pre old post : List UInt8} (h : old.length = bs.length) :
    store (pre ++ old ++ post) pre.length bs = some (pre ++ bs ++ post) := by
  have hlen : pre.length + bs.length = (pre ++ old).length := by rw [List.length_append, h]
  rw [store_eq (by simp only [List.length_append]; omega), hlen, List.drop_left, List.append_assoc pre,
    List.take_left]

theorem length_store (h : store m i bs = some m') : m'.length = m.length := by
  rw [store] at h
  split at h
  · next hle =>
    rw [← Option.some.inj h]
    simp only [List.length_append, List.length_take, List.length_drop]
    omega
  · exact absurd h nofun

theorem strAt_of_drop (h : m.drop i = s.bytes ++ 0 :: rest) : strAt m i = some s := by
  rw [strAt, h, strchr_nul]

theorem strAt_append (s : CStr) (rest : Chars) : strAt (s.bytes ++ 0 :: rest) 0 = some s :=
  strAt_of_drop rfl

theorem strAt_literal (s : CStr) : strAt (literal s) 0 = some s := strAt_append s []

theorem readN_string (s : CStr) (rest : Chars) (h : s.length ≤ n) (hend : s.length < n → rest.head? = some 0) :
    readN (s.bytes ++ rest) n = some s.bytes := by
  obtain ⟨bytes, hnul⟩ := s
  induction bytes generalizing n with
  | nil =>
    cases n with
    | zero => cases rest <;> rfl
    | succ n =>
      have hhead := hend (Nat.succ_pos n)
      cases rest with
      | nil => exact absurd hhead nofun
      | cons b rest =>
        rw [Option.some.inj hhead]
        rfl
  | cons b bytes ih =>
    cases n with
    | zero => exact absurd h (Nat.not_succ_le_zero _)
    | succ n =>
      have hb : b ≠ 0 := fun h0 => hnul (h0 ▸ List.mem_cons_self)
      have htail := ih (fun h0 => hnul (List.mem_cons_of_mem b h0)) (Nat.le_of_succ_le_succ h)
        fun hlt => hend (Nat.succ_lt_succ hlt)
      simp only [List.cons_append, readN, if_neg hb]
      rw [htail]
      rfl

def Holds (m : Chars) (s : CStr) : Prop := ∃ rest, m = s.bytes ++ 0 :: rest

theorem Holds.strAt_eq (h : Holds m s) : strAt m 0 = some s := by
  obtain ⟨rest, rfl⟩ := h
  exact strAt_append s rest

theorem Holds.append_room (h : Holds m s) (t : CStr) (hroom : s.length + t.length < m.length) :
    ∃ m', store m s.length (t.bytes ++ [0]) = some m' ∧ Holds m' (s.append t) ∧
      m'.length = m.length := by
  obtain ⟨rest, rfl⟩ := h
  have hfits : s.length + (t.bytes ++ [0]).length ≤ (s.bytes ++ 0 :: rest).length := by
    rw [List.length_append, List.length_singleton, CStr.length_bytes]
    omega
  have hrest : (s.bytes ++ 0 :: rest).drop (s.length + (t.bytes ++ [0]).length) =
      rest.drop t.length := by
    rw [← CStr.length_bytes, List.drop_length_add_append, List.length_append,
      List.length_singleton, List.drop_succ_cons, CStr.length_bytes]
  refine ⟨_, store_eq hfits, ⟨rest.drop t.length, ?_⟩, length_store (store_eq hfits)⟩
  rw [hrest, ← CStr.length_bytes, List.take_left, CStr.bytes_append]
  simp

theorem append_full (h : m.length ≤ s.length + t.length) :
    store m s.length (t.bytes ++ [0]) = none := by
  apply store_none
  rw [List.length_append, List.length_singleton, CStr.length_bytes]
  omega

theorem strcat_eq (h : Holds m s) (hsrc : strAt src 0 = some t) :
    strcat m src = store m s.length (t.bytes ++ [0]) := by
  simp only [strcat, h.strAt_eq, hsrc, Option.bind_eq_bind, Option.bind_some]

theorem strncat_eq (h : Holds m s) (hsrc : readN src n = some t.bytes) :
    strncat m src n = store m s.length (t.bytes ++ [0]) := by
  simp only [strncat, h.strAt_eq, hsrc, Option.bind_eq_bind, Option.bind_some]

end CArray
