import Ralink.Goahead.Html
import Ralink.Goahead.Values

/-! The name of a network is shown with references in place of the characters that mean something to
a browser. They are put together in a buffer for the references of 32 characters. -/
namespace Ralink.Goahead
open CString CArray

def ampersand : UInt8 := 38

/-- `&amp;` -/
def ampRef : List UInt8 := [38, 97, 109, 112, 59]

/-- `&lt;` -/
def ltRef : List UInt8 := [38, 108, 116, 59]

/-- `&gt;` -/
def gtRef : List UInt8 := [38, 103, 116, 59]

/-- `&nbsp;` -/
def nbspRef : List UInt8 := [38, 110, 98, 115, 112, 59]

/-- `%0nd` of a number that is not negative. -/
def zeroPadded (n value : Nat) : List UInt8 :=
  let digits := (Nat.toDigits 10 value).map fun c => UInt8.ofNat c.toNat
  List.replicate (n - digits.length) 48 ++ digits

/-- `&#%0nd;` -/
def numberRef (n value : Nat) : List UInt8 := [38, 35] ++ zeroPadded n value ++ [59]

/-- A text is written to `pOut`, which goes on by `step`. -/
def emit (buffer : Chars) (pOut : Nat) (text : List UInt8) (step : Nat) : Option (Chars × Nat) :=
  (store buffer pOut (text ++ [0])).map fun buffer => (buffer, pOut + step)

/-- A turn of the loop; `char` is signed. -/
def displayTurn (c : UInt8) (buffer : Chars) (pOut : Nat) : Option (Chars × Nat) :=
  if c = 38 then emit buffer pOut ampRef 5
  else if c = 60 then emit buffer pOut ltRef 4
  else if c = 62 then emit buffer pOut gtRef 4
  else if c = 34 then emit buffer pOut doubleRef.bytes 5
  else if c = 39 then emit buffer pOut singleRef.bytes 5
  else if c = 32 then emit buffer pOut nbspRef 6
  else if 0 ≤ c.toInt8 ∧ c.toInt8 ≤ 31 then emit buffer pOut (numberRef 2 c.toNat) 5
  else if c = 39 ∨ c = 47 ∨ c = 59 ∨ c = 92 then emit buffer pOut (numberRef 2 c.toNat) 5
  else if 127 ≤ c.toInt8 then emit buffer pOut (numberRef 3 c.toNat) 6
  else (store buffer pOut [c]).map fun buffer => (buffer, pOut + 1)

def displayLoop : List UInt8 → Chars → Nat → Option (Chars × Nat)
  | [], buffer, pOut => some (buffer, pOut)
  | c :: str, buffer, pOut => do
    let (buffer, pOut) ← displayTurn c buffer pOut
    displayLoop str buffer pOut

def displayBuffer (str : Chars) : Option Chars := do
  let s ← strAt str 0
  let (buffer, pOut) ← displayLoop s.bytes (List.replicate 193 0) 0
  store buffer pOut [0]

def ConverterStringToDisplay (str : Chars) : Option Chars := do
  let buffer ← displayBuffer str
  strcpy str buffer

/-- The character of a reference by what stands between `&` and `;`. -/
def reference (body : List UInt8) : Option UInt8 :=
  if body = [97, 109, 112] then some 38
  else if body = [108, 116] then some 60
  else if body = [103, 116] then some 62
  else if body = [110, 98, 115, 112] then some 32
  else if body.head? = some 35 ∧ body.tail ≠ [] ∧ body.tail.all (fun d => 48 ≤ d ∧ d ≤ 57) then
    some (UInt8.ofNat (body.tail.foldl (fun n d => 10 * n + (d.toNat - 48)) 0))
  else none

/-- A text with its references decoded; `body` is what was read of a reference. There is no result
where `&` and `;` do not make up a reference. -/
def decodeLoop : List UInt8 → Option (List UInt8) → Option (List UInt8)
  | [], none => some []
  | [], some _ => none
  | c :: text, none =>
    if c = ampersand then decodeLoop text (some [])
    else if c = semicolon then none
    else (decodeLoop text none).map (c :: ·)
  | c :: text, some body =>
    if c = ampersand then none
    else if c = semicolon then do
      let b ← reference body
      (decodeLoop text none).map (b :: ·)
    else decodeLoop text (some (body ++ [c]))

def decode (text : List UInt8) : Option (List UInt8) := decodeLoop text none

/-- The characters that may not be in a page as they are, but for `&` and `;`. -/
def Raw (c : UInt8) : Prop :=
  c ∈ ([60, 62, 34, 39, 47, 92] : List UInt8) ∨ c < 32 ∨ c = 127

instance (c : UInt8) : Decidable (Raw c) := inferInstanceAs (Decidable (_ ∨ _))

def displayed (c : UInt8) : List UInt8 :=
  if c = 38 then ampRef
  else if c = 60 then ltRef
  else if c = 62 then gtRef
  else if c = 34 then doubleRef.bytes
  else if c = 39 then singleRef.bytes
  else if c = 32 then nbspRef
  else if 0 ≤ c.toInt8 ∧ c.toInt8 ≤ 31 then numberRef 2 c.toNat
  else if c = 47 ∨ c = 59 ∨ c = 92 then numberRef 2 c.toNat
  else if 127 ≤ c.toInt8 then numberRef 3 c.toNat
  else [c]

section Display

variable {c : UInt8} {bs out text : List UInt8} {buffer str : Chars} {pOut n : Nat} {s t : CStr}

theorem forall_byte {P : UInt8 → Prop} (h : ∀ n < 256, P (UInt8.ofNat n)) (c : UInt8) : P c := by
  have hc := h c.toNat c.toNat_lt
  rwa [UInt8.ofNat_toNat] at hc

def bodyOf (text : List UInt8) : List UInt8 := text.tail.dropLast

theorem displayed_spec (c : UInt8) :
    ((displayed c).length ≤ 6 ∧ ∀ b ∈ displayed c, ¬ Raw b) ∧
      ((displayed c = [c] ∧ c ≠ ampersand ∧ c ≠ semicolon) ∨
        displayed c = ampersand :: (bodyOf (displayed c) ++ [semicolon]) ∧
          ampersand ∉ bodyOf (displayed c) ∧ semicolon ∉ bodyOf (displayed c) ∧
            reference (bodyOf (displayed c)) = some c) := by
  revert c
  exact forall_byte (by decide +kernel)

theorem length_displayed_le (c : UInt8) : (displayed c).length ≤ 6 := (displayed_spec c).1.1

theorem displayed_not_raw (c : UInt8) : ∀ b ∈ displayed c, ¬ Raw b := (displayed_spec c).1.2

theorem displayed_cases (c : UInt8) :
    (displayed c = [c] ∧ c ≠ ampersand ∧ c ≠ semicolon) ∨
      displayed c = ampersand :: (bodyOf (displayed c) ++ [semicolon]) ∧
        ampersand ∉ bodyOf (displayed c) ∧ semicolon ∉ bodyOf (displayed c) ∧
          reference (bodyOf (displayed c)) = some c := (displayed_spec c).2

theorem length_numberRef (c : UInt8) : (0 ≤ c.toInt8 ∧ c.toInt8 ≤ 31 → (numberRef 2 c.toNat).length = 5) ∧
    (c = 47 ∨ c = 59 ∨ c = 92 → (numberRef 2 c.toNat).length = 5) ∧
      (127 ≤ c.toInt8 → (numberRef 3 c.toNat).length = 6) := by
  revert c
  exact forall_byte (by decide +kernel)

theorem store_behind (hfront : out <+: buffer) (hroom : out.length + bs.length ≤ buffer.length) :
    ∃ buffer', store buffer out.length bs = some buffer' ∧ out ++ bs <+: buffer' ∧
      buffer'.length = buffer.length := by
  obtain ⟨rest, rfl⟩ := hfront
  refine ⟨_, store_eq hroom, ⟨rest.drop bs.length, ?_⟩, length_store (store_eq hroom)⟩
  rw [List.take_left, List.drop_length_add_append]

theorem emit_behind (hfront : out <+: buffer) (hroom : out.length + text.length < buffer.length)
    (hn : text.length = n) :
    ∃ buffer', emit buffer out.length text n = some (buffer', (out ++ text).length) ∧
      out ++ text <+: buffer' ∧ buffer'.length = buffer.length := by
  obtain ⟨buffer', hstore, hbehind, hlen⟩ := @store_behind (text ++ [0]) out buffer hfront (by
    rw [List.length_append, List.length_singleton]
    exact hroom)
  refine ⟨buffer', ?_, ?_, hlen⟩
  · rw [emit, hstore, ← hn, List.length_append]
    rfl
  · rw [← List.append_assoc] at hbehind
    exact (List.prefix_append _ _).trans hbehind

theorem displayTurn_behind (hfront : out <+: buffer) (hroom : out.length + 6 < buffer.length) :
    ∃ buffer', displayTurn c buffer out.length = some (buffer', (out ++ displayed c).length) ∧
      out ++ displayed c <+: buffer' ∧ buffer'.length = buffer.length := by
  have hroom' : out.length + (displayed c).length < buffer.length := by
    have hle := length_displayed_le c
    omega
  obtain ⟨hcontrol, hmark, hdelete⟩ := length_numberRef c
  rw [displayed] at hroom' ⊢
  unfold displayTurn
  by_cases h38 : c = 38
  · simp only [if_pos h38] at hroom' ⊢
    exact emit_behind hfront hroom' rfl
  by_cases h60 : c = 60
  · simp only [if_neg h38, if_pos h60] at hroom' ⊢
    exact emit_behind hfront hroom' rfl
  by_cases h62 : c = 62
  · simp only [if_neg h38, if_neg h60, if_pos h62] at hroom' ⊢
    exact emit_behind hfront hroom' rfl
  by_cases h34 : c = 34
  · simp only [if_neg h38, if_neg h60, if_neg h62, if_pos h34] at hroom' ⊢
    exact emit_behind hfront hroom' rfl
  by_cases h39 : c = 39
  · simp only [if_neg h38, if_neg h60, if_neg h62, if_neg h34, if_pos h39] at hroom' ⊢
    exact emit_behind hfront hroom' rfl
  simp only [h38, h60, h62, h34, h39, if_false, false_or] at hroom' ⊢
  split
  · next h32 =>
    rw [if_pos h32] at hroom'
    exact emit_behind hfront hroom' rfl
  · next h32 =>
    rw [if_neg h32] at hroom'
    split
    · next hrange =>
      rw [if_pos hrange] at hroom'
      exact emit_behind hfront hroom' (hcontrol hrange)
    · next hrange =>
      rw [if_neg hrange] at hroom'
      split
      · next hchar =>
        rw [if_pos hchar] at hroom'
        exact emit_behind hfront hroom' (hmark hchar)
      · next hchar =>
        rw [if_neg hchar] at hroom'
        split
        · next hlast =>
          rw [if_pos hlast] at hroom'
          exact emit_behind hfront hroom' (hdelete hlast)
        · next hlast =>
          rw [if_neg hlast] at hroom'
          obtain ⟨buffer', hstore, hbehind, hlen⟩ := store_behind hfront hroom'.le
          refine ⟨buffer', ?_, hbehind, hlen⟩
          rw [hstore, List.length_append]
          rfl

theorem displayLoop_behind (hfront : out <+: buffer)
    (hroom : out.length + 6 * bs.length < buffer.length) :
    ∃ buffer', displayLoop bs buffer out.length =
        some (buffer', (out ++ bs.flatMap displayed).length) ∧
      out ++ bs.flatMap displayed <+: buffer' ∧ buffer'.length = buffer.length := by
  induction bs generalizing out buffer with
  | nil =>
    refine ⟨buffer, ?_, ?_, rfl⟩
    · rw [List.flatMap_nil, List.append_nil]
      rfl
    · rwa [List.flatMap_nil, List.append_nil]
  | cons c bs ih =>
    rw [List.length_cons] at hroom
    obtain ⟨buffer₁, hturn, hfront₁, hlen₁⟩ := @displayTurn_behind c out buffer hfront (by omega)
    have hle := length_displayed_le c
    have hroom₁ : (out ++ displayed c).length + 6 * bs.length < buffer₁.length := by
      rw [List.length_append, hlen₁]
      omega
    obtain ⟨buffer₂, hloop, hfront₂, hlen₂⟩ := ih hfront₁ hroom₁
    rw [List.append_assoc, ← List.flatMap_cons] at hloop hfront₂
    refine ⟨buffer₂, ?_, hfront₂, hlen₂.trans hlen₁⟩
    simp only [displayLoop, hturn, Option.bind_eq_bind, Option.bind_some]
    exact hloop

theorem holds_of_prefix (h : s.bytes ++ [0] <+: buffer) : Holds buffer s := by
  obtain ⟨rest, rfl⟩ := h
  exact ⟨rest, List.append_assoc _ _ _⟩

def shownName (s : CStr) : CStr where
  bytes := s.bytes.flatMap displayed
  noNul := by
    intro h
    obtain ⟨c, -, h0⟩ := List.mem_flatMap.mp h
    exact displayed_not_raw c 0 h0 (by decide)

theorem length_shownName_le (s : CStr) : (shownName s).length ≤ 6 * s.length := by
  have hsum : ∀ bs : List UInt8, (bs.flatMap displayed).length ≤ 6 * bs.length := by
    intro bs
    induction bs with
    | nil => exact le_refl _
    | cons c bs ih =>
      have hle := length_displayed_le c
      rw [List.flatMap_cons, List.length_append, List.length_cons]
      omega
  exact hsum s.bytes

theorem displayBuffer_eq (hstr : Holds str s) (hlen : s.length ≤ 32) :
    ∃ buffer, displayBuffer str = some buffer ∧ Holds buffer (shownName s) ∧ buffer.length = 193 := by
  have hzero : ([] : List UInt8) <+: List.replicate 193 0 := List.nil_prefix
  have hbytes : s.bytes.length = s.length := rfl
  obtain ⟨buffer, hloop, hfront, hsize⟩ := @displayLoop_behind s.bytes [] _ hzero (by
    rw [List.length_nil, List.length_replicate]
    omega)
  rw [List.nil_append] at hloop hfront
  rw [List.length_replicate] at hsize
  have hle := length_shownName_le s
  have hout : (s.bytes.flatMap displayed).length = (shownName s).length := rfl
  obtain ⟨buffer', hstore, hbehind, hsize'⟩ := @store_behind [0] _ buffer hfront (by
    rw [List.length_singleton]
    omega)
  refine ⟨buffer', ?_, holds_of_prefix hbehind, hsize'.trans hsize⟩
  simp only [displayBuffer, hstr.strAt_eq, Option.bind_eq_bind, Option.bind_some]
  rw [List.length_nil] at hloop
  rw [hloop]
  exact hstore

theorem decodeLoop_body {body read : List UInt8} (hamp : ampersand ∉ body) (hsemi : semicolon ∉ body) :
    decodeLoop (body ++ semicolon :: text) (some read) =
      (reference (read ++ body)).bind fun b => (decodeLoop text none).map (b :: ·) := by
  induction body generalizing read with
  | nil =>
    have hne : semicolon ≠ ampersand := by decide
    rw [List.nil_append, List.append_nil, decodeLoop, if_neg hne, if_pos rfl]
    rfl
  | cons d body ih =>
    obtain ⟨hd, hamp⟩ := List.ne_and_not_mem_of_not_mem_cons hamp
    obtain ⟨hd', hsemi⟩ := List.ne_and_not_mem_of_not_mem_cons hsemi
    rw [List.cons_append, decodeLoop, if_neg hd.symm, if_neg hd'.symm, ih hamp hsemi,
      List.append_assoc]
    rfl

theorem decode_displayed (c : UInt8) (text : List UInt8) :
    decode (displayed c ++ text) = (decode text).map (c :: ·) := by
  unfold decode
  rcases displayed_cases c with ⟨hc, hamp, hsemi⟩ | ⟨hc, hamp, hsemi, href⟩
  · rw [hc, List.singleton_append, decodeLoop, if_neg hamp, if_neg hsemi]
  · rw [hc, List.cons_append, decodeLoop, if_pos rfl, List.append_assoc, List.singleton_append,
      decodeLoop_body hamp hsemi, List.nil_append, href]
    rfl

theorem decode_flatMap (bs : List UInt8) : decode (bs.flatMap displayed) = some bs := by
  induction bs with
  | nil => rfl
  | cons c bs ih =>
    rw [List.flatMap_cons, decode_displayed, ih]
    rfl

/-- The buffer is long enough, what is in it can stand in a page, and a browser shows the string.
No other string looks like it. -/
theorem converterStringToDisplay_escapes (s : CStr) (hlen : s.length ≤ 32) :
    ∃ out : CStr,
      (∀ str, Holds str s → ∃ buffer, displayBuffer str = some buffer ∧ buffer.length = 193 ∧
        Holds buffer out ∧ (out.length < str.length →
          ∃ str', ConverterStringToDisplay str = some str' ∧ Holds str' out)) ∧
      (∀ b ∈ out.bytes, ¬ Raw b) ∧ decode out.bytes = some s.bytes ∧
      ∀ str' s' buffer', Holds str' s' → s'.length ≤ 32 → displayBuffer str' = some buffer' →
        Holds buffer' out → s' = s := by
  refine ⟨shownName s, ?_, ?_, decode_flatMap s.bytes, ?_⟩
  · intro str hstr
    obtain ⟨buffer, hbuffer, hholds, hsize⟩ := displayBuffer_eq hstr hlen
    refine ⟨buffer, hbuffer, hsize, hholds, fun hroom => ?_⟩
    obtain ⟨str', hstore, hfront, -⟩ := @store_behind ((shownName s).bytes ++ [0]) [] str
      List.nil_prefix (by
        rw [List.length_nil, List.length_append, List.length_singleton, CStr.length_bytes]
        omega)
    refine ⟨str', ?_, holds_of_prefix hfront⟩
    simp only [ConverterStringToDisplay, hbuffer, Option.bind_eq_bind, Option.bind_some, strcpy,
      hholds.strAt_eq]
    exact hstore
  · intro b hb
    obtain ⟨c, -, hbc⟩ := List.mem_flatMap.mp hb
    exact displayed_not_raw c b hbc
  · intro str' s' buffer' hstr' hlen' hbuffer' hholds'
    obtain ⟨buffer, hbuffer, hholds, -⟩ := displayBuffer_eq hstr' hlen'
    rw [hbuffer] at hbuffer'
    cases hbuffer'
    have hsame : shownName s' = shownName s :=
      Option.some.inj (hholds.strAt_eq.symm.trans hholds'.strAt_eq)
    have hdecode := decode_flatMap s'.bytes
    have hbytes : s'.bytes.flatMap displayed = s.bytes.flatMap displayed := congrArg CStr.bytes hsame
    rw [hbytes, decode_flatMap] at hdecode
    exact CStr.ext (Option.some.inj hdecode).symm

/-- `<b>` -/
theorem converterStringToDisplay_tag :
    ∃ buffer out, displayBuffer [60, 98, 62, 0] = some buffer ∧ Holds buffer out ∧
      (∀ b ∈ out.bytes, ¬ Raw b) ∧ decode out.bytes = some [60, 98, 62] := by
  obtain ⟨out, hout, hraw, hdecode, -⟩ :=
    converterStringToDisplay_escapes ⟨[60, 98, 62], by decide⟩ (by decide)
  obtain ⟨buffer, hbuffer, -, hholds, -⟩ := hout [60, 98, 62, 0] ⟨[], rfl⟩
  exact ⟨buffer, out, hbuffer, hholds, hraw, hdecode⟩

end Display

end Ralink.Goahead
