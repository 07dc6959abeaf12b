import Ralink.Lib.Cipher

/-! A buffer of `size` bytes in a store, whose accesses give no result outside of it. Loops that put
a key stream over a part of it, possibly in place, and loops that pass over a text block by block.
-/
namespace Buffer
open ByteStore Cipher

section Accesses

variable (size : Nat)

def load (f : Store) (a n : Nat) : Option (List UInt8) :=
  if a + n ≤ size then some (readBytes f a n) else none

def save (f : Store) (a : Nat) (bs : List UInt8) : Option Store :=
  if a + bs.length ≤ size then some (writeBytes f a bs) else none

def loadByte (f : Store) (a : Nat) : Option UInt8 :=
  if a < size then some (f a) else none

def saveByte (f : Store) (a : Nat) (b : UInt8) : Option Store :=
  if a < size then some (writeBytes f a [b]) else none

/-- A key stream is put over the bytes from `src` on, one after the other, and the results are
stored from `dst` on. -/
def xorInto (src dst : Nat) : List UInt8 → Store → Option Store
  | [], f => some f
  | k :: ks, f => do
      let b ← loadByte size f src
      let f ← saveByte size f dst (b ^^^ k)
      xorInto (src + 1) (dst + 1) ks f

variable {size} {f : Store} {a n src dst : Nat} {b : UInt8} {bs ks : List UInt8}

theorem load_eq (h : a + n ≤ size) : load size f a n = some (readBytes f a n) := if_pos h

theorem load_none (h : size < a + n) : load size f a n = none := if_neg (Nat.not_le_of_lt h)

theorem load_some (h : load size f a n = some bs) : bs = readBytes f a n := by
  unfold load at h
  split at h
  · exact (Option.some.inj h).symm
  · exact absurd h nofun

theorem length_of_load (h : load size f a n = some bs) : bs.length = n := by
  rw [load_some h, length_readBytes]

theorem save_eq (h : a + bs.length ≤ size) : save size f a bs = some (writeBytes f a bs) := if_pos h

theorem loadByte_eq (h : a < size) : loadByte size f a = some (f a) := if_pos h

theorem loadByte_none (h : size ≤ a) : loadByte size f a = none := if_neg (Nat.not_lt_of_le h)

theorem saveByte_eq (h : a < size) : saveByte size f a b = some (writeBytes f a [b]) := if_pos h

theorem take_drop_readBytes (f : Store) (a m i r : Nat) :
    ((readBytes f a m).drop i).take r = readBytes f (a + i) (min r (m - i)) := by
  apply List.ext_getElem
  · simp
  · intro j _ _
    simp [readBytes, Nat.add_assoc]

theorem xorInto_eq (hdst : dst ≤ src) (hin : ks = [] ∨ src + ks.length ≤ size) :
    xorInto size src dst ks f =
      some (writeBytes f dst (xorBytes (readBytes f src ks.length) ks)) := by
  induction ks generalizing src dst f with
  | nil => simp [xorInto, xorBytes]
  | cons k ks ih =>
    have hlen : src + (ks.length + 1) ≤ size := by simpa using hin
    have hrest : readBytes (writeBytes f dst [f src ^^^ k]) (src + 1) ks.length =
        readBytes f (src + 1) ks.length := by
      apply readBytes_writeBytes_disjoint
      right
      simpa using hdst
    have hhead : readBytes f src (k :: ks).length = f src :: readBytes f (src + 1) ks.length := by
      rw [List.length_cons, Nat.add_comm, readBytes_add]
      rfl
    have happ := writeBytes_append f dst [f src ^^^ k]
      (xorBytes (readBytes f (src + 1) ks.length) ks)
    unfold xorInto
    rw [loadByte_eq (by omega), Option.bind_eq_bind, Option.bind_some, saveByte_eq (by omega),
      Option.bind_eq_bind, Option.bind_some, ih (by omega) (.inr (by omega)), hrest, hhead]
    exact congrArg some happ

theorem xorInto_none (hdst : dst ≤ src) (hks : ks ≠ []) (hout : size < src + ks.length) :
    xorInto size src dst ks f = none := by
  induction ks generalizing src dst f with
  | nil => exact absurd rfl hks
  | cons k ks ih =>
    unfold xorInto
    by_cases hsrc : src < size
    · have hne : ks ≠ [] := by
        rintro rfl
        simp only [List.length_cons, List.length_nil] at hout
        omega
      rw [loadByte_eq hsrc, Option.bind_eq_bind, Option.bind_some, saveByte_eq (by omega),
        Option.bind_eq_bind, Option.bind_some]
      exact ih (by omega) hne (by simp only [List.length_cons] at hout; omega)
    · rw [loadByte_none (by omega)]
      rfl

end Accesses

section Loops

variable {σ : Type*} {N Length : Nat} {g : Nat → σ} {turn : σ → Nat → Option σ}

theorem foldlM_range_eq {turn : σ → Nat → Option σ} (h : ∀ i < N, turn (g i) i = some (g (i + 1))) :
    (List.range N).foldlM turn (g 0) = some (g N) := by
  induction N with
  | zero => rfl
  | succ N ih =>
    have hfront := ih fun i hi => h i (by omega)
    rw [List.range_succ, List.foldlM_append, hfront]
    show ([N].foldlM turn (g N)) = some (g (N + 1))
    rw [List.foldlM_cons, h N (Nat.lt_succ_self N)]
    rfl

theorem foldlM_range_none {i : Nat} (hi : i < N) (h : ∀ j < i, turn (g j) j = some (g (j + 1)))
    (hnone : turn (g i) i = none) : (List.range N).foldlM turn (g 0) = none := by
  induction N with
  | zero => exact absurd hi (Nat.not_lt_zero _)
  | succ N ih =>
    rw [List.range_succ, List.foldlM_append]
    rcases Nat.lt_succ_iff_lt_or_eq.mp hi with hlt | rfl
    · rw [ih hlt]
      rfl
    · rw [foldlM_range_eq h]
      show [i].foldlM turn (g i) = none
      rw [List.foldlM_cons, hnone]
      rfl

/-- `while (Index < Length)` with a block of at most `n` bytes in each turn. -/
def blockLoop (n : Nat) [NeZero n] (turn : σ → Nat → Nat → Option σ) (Length Index : Nat) (s : σ) :
    Option σ :=
  if Index < Length then do
    let Copy_Length := min n (Length - Index)
    let s ← turn s Index Copy_Length
    blockLoop n turn Length (Index + Copy_Length) s
  else some s
termination_by Length - Index
decreasing_by have := NeZero.pos n; omega

/-- The number of blocks of a text of the length, the last one possibly short. -/
def blocks (n Length : Nat) : Nat := (Length + (n - 1)) / n

variable {n : Nat} [NeZero n] {turn : σ → Nat → Nat → Option σ}

theorem lt_blocks {i : Nat} : i < blocks n Length ↔ n * i < Length := by
  have hn : 0 < n := NeZero.pos n
  rw [blocks, Nat.lt_iff_add_one_le, Nat.le_div_iff_mul_le hn, Nat.add_mul, Nat.one_mul,
    Nat.mul_comm i n]
  omega

private theorem blockLoop_from
    (h : ∀ i, n * i < Length → turn (g i) (n * i) (min n (Length - n * i)) = some (g (i + 1)))
    (k i : Nat) (hk : i + k = blocks n Length) :
    blockLoop n turn Length (min Length (n * i)) (g i) = some (g (blocks n Length)) := by
  induction k generalizing i with
  | zero =>
    have hle : ¬ n * i < Length := by rw [← lt_blocks (n := n)]; omega
    rw [Nat.min_eq_left (by omega), blockLoop, if_neg (Nat.lt_irrefl _), ← hk, Nat.add_zero]
  | succ k ih =>
    have hlt : n * i < Length := lt_blocks.mp (by omega)
    have hnext : n * i + min n (Length - n * i) = min Length (n * (i + 1)) := by
      rw [Nat.mul_add, Nat.mul_one]
      omega
    have hrest := ih (i + 1) (by omega)
    rw [Nat.min_eq_right hlt.le, blockLoop, if_pos hlt]
    simp only [h i hlt, Option.bind_eq_bind, Option.bind_some]
    rw [hnext]
    exact hrest

theorem blockLoop_eq
    (h : ∀ i, n * i < Length → turn (g i) (n * i) (min n (Length - n * i)) = some (g (i + 1))) :
    blockLoop n turn Length 0 (g 0) = some (g (blocks n Length)) := by
  have hloop := blockLoop_from h (blocks n Length) 0 (Nat.zero_add _)
  rwa [Nat.mul_zero, Nat.min_zero] at hloop

end Loops

section Streams

variable {n : Nat} [NeZero n] {block block' : Nat → List UInt8} {i r m : Nat}

/-- Blocks of `n` bytes behind each other. -/
def stream (n : Nat) (block : Nat → List UInt8) : Store := fun a => (block (a / n)).getD (a % n) 0

theorem readBytes_stream (hblock : (block i).length = n) (hr : r ≤ n) :
    readBytes (stream n block) (n * i) r = (block i).take r := by
  have hn : 0 < n := NeZero.pos n
  apply List.ext_getElem
  · rw [length_readBytes, List.length_take, hblock, Nat.min_eq_left hr]
  · intro j hj _
    have hj : j < r := by rwa [length_readBytes] at hj
    have hdiv : (n * i + j) / n = i := by
      rw [Nat.mul_add_div hn, Nat.div_eq_of_lt (by omega), Nat.add_zero]
    have hmod : (n * i + j) % n = j := by
      rw [Nat.mul_add_mod, Nat.mod_eq_of_lt (by omega)]
    simp only [readBytes, List.getElem_map, List.getElem_range, stream, hdiv, hmod, List.getElem_take]
    rw [List.getD_eq_getElem _ _ (by omega)]

theorem readBytes_stream_congr (h : ∀ i < blocks n m, block i = block' i) :
    readBytes (stream n block) 0 m = readBytes (stream n block') 0 m := by
  apply readBytes_congr
  intro a ha
  have hlt : (0 + a) / n < blocks n m := by
    rw [lt_blocks]
    have := Nat.mul_div_le (0 + a) n
    omega
  unfold stream
  rw [h _ hlt]

/-- The first `m` bytes from `src` on, put under a key stream and stored from `dst` on. -/
def streamed (ks f : Store) (src dst m : Nat) : Store :=
  writeBytes f dst (xorBytes (readBytes f src m) (readBytes ks 0 m))

variable {ks f : Store} {src dst : Nat}

theorem length_streamed : (xorBytes (readBytes f src m) (readBytes ks 0 m)).length = m := by
  simp

theorem streamed_zero : streamed ks f src dst 0 = f := writeBytes_nil f dst

theorem streamed_add (hdst : dst ≤ src) :
    writeBytes (streamed ks f src dst m) (dst + m)
      (xorBytes (readBytes (streamed ks f src dst m) (src + m) r) (readBytes ks m r)) =
        streamed ks f src dst (m + r) := by
  have hread : readBytes (streamed ks f src dst m) (src + m) r = readBytes f (src + m) r := by
    apply readBytes_writeBytes_disjoint
    right
    rw [length_streamed]
    omega
  have happ := writeBytes_append f dst (xorBytes (readBytes f src m) (readBytes ks 0 m))
    (xorBytes (readBytes f (src + m) r) (readBytes ks m r))
  have hks : readBytes ks 0 m ++ readBytes ks m r = readBytes ks 0 (m + r) := by
    rw [readBytes_add, Nat.zero_add]
  rw [length_streamed, ← xorBytes_append (by simp), ← readBytes_add, hks] at happ
  rw [hread]
  exact happ

end Streams

section Chains

variable {n : Nat} {block block' : Nat → List UInt8} {E : List UInt8 → List UInt8}
  {iv bs text : List UInt8} {N : Nat}

/-- Each block is combined with the result so far and enciphered. -/
def chain (E : List UInt8 → List UInt8) (block : Nat → List UInt8) (iv : List UInt8) :
    Nat → List UInt8
  | 0 => iv
  | i + 1 => E (xorBytes (block i) (chain E block iv i))

theorem length_chain (hE : ∀ {b}, b.length = n → (E b).length = n) (hiv : iv.length = n)
    (hblock : ∀ i < N, (block i).length = n) : (chain E block iv N).length = n := by
  induction N with
  | zero => exact hiv
  | succ N ih =>
    have hN := ih fun i hi => hblock i (by omega)
    apply hE
    rw [length_xorBytes, hblock N (by omega), hN, Nat.min_self]

def pad (n : Nat) (bs : List UInt8) : List UInt8 := bs ++ List.replicate (n - bs.length) 0

theorem length_pad (h : bs.length ≤ n) : (pad n bs).length = n := by
  rw [pad, List.length_append, List.length_replicate]
  omega

def textBlock (n : Nat) (text : List UInt8) (i : Nat) : List UInt8 := pad n ((text.drop (n * i)).take n)

theorem length_textBlock {i : Nat} : (textBlock n text i).length = n :=
  length_pad (List.length_take_le _ _)

end Chains

section Joined

variable {n N i : Nat} {block : Nat → List UInt8} {f : Store}

def joined (block : Nat → List UInt8) : Nat → List UInt8
  | 0 => []
  | N + 1 => joined block N ++ block N

theorem length_joined (h : ∀ i < N, (block i).length = n) : (joined block N).length = n * N := by
  induction N with
  | zero => rfl
  | succ N ih =>
    rw [joined, List.length_append, ih fun i hi => h i (by omega), h N (by omega), Nat.mul_succ]

theorem joined_congr {block' : Nat → List UInt8} (h : ∀ i < N, block i = block' i) :
    joined block N = joined block' N := by
  induction N with
  | zero => rfl
  | succ N ih => rw [joined, joined, ih fun i hi => h i (by omega), h N (by omega)]

theorem readBytes_writeBytes_front (f : Store) (as bs : List UInt8) :
    readBytes (writeBytes f 0 (as ++ bs)) 0 as.length = as := by
  have hall := readBytes_writeBytes f 0 (as ++ bs)
  rw [List.length_append, readBytes_add] at hall
  exact (List.append_inj hall (length_readBytes _ _ _)).1

section

variable (h : ∀ i < N, (block i).length = n)
include h

theorem take_drop_joined (hi : i < N) : ((joined block N).drop (n * i)).take n = block i := by
  induction N with
  | zero => exact absurd hi (Nat.not_lt_zero _)
  | succ N ih =>
    have hfront : ∀ i < N, (block i).length = n := fun i hi => h i (by omega)
    have hlen := length_joined hfront
    rw [joined]
    rcases Nat.lt_succ_iff_lt_or_eq.mp hi with hlt | rfl
    · have hroom : n * i + n ≤ n * N := by
        rw [← Nat.mul_succ]
        exact Nat.mul_le_mul_left n hlt
      rw [List.drop_append_of_le_length (by omega),
        List.take_append_of_le_length (by rw [List.length_drop]; omega)]
      exact ih hfront hlt
    · rw [← hlen, List.drop_left, List.take_of_length_le (h i (by omega)).le]

theorem readBytes_joined (hi : i < N) :
    readBytes (writeBytes f 0 (joined block N)) (n * i) n = block i := by
  have hroom : n * i + n ≤ n * N := by
    rw [← Nat.mul_succ]
    exact Nat.mul_le_mul_left n hi
  have hall := readBytes_writeBytes f 0 (joined block N)
  have hpart := take_drop_readBytes (writeBytes f 0 (joined block N)) 0 (n * N) (n * i) n
  rw [length_joined h] at hall
  rw [hall, take_drop_joined h hi, Nat.zero_add, Nat.min_eq_left (by omega)] at hpart
  exact hpart.symm

theorem writeBytes_joined :
    writeBytes (writeBytes f 0 (joined block N)) (n * N) (block N) =
      writeBytes f 0 (joined block (N + 1)) := by
  have happend := writeBytes_append f 0 (joined block N) (block N)
  rw [length_joined h, Nat.zero_add] at happend
  exact happend

end

end Joined

end Buffer
