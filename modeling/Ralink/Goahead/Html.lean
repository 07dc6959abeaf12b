import Ralink.Lib.CString

/-! A setting is shown with its quotes as character references. They are put into a buffer that is
as long as the longest setting. -/
namespace Ralink.Goahead
open CString CArray

def doubleQuote : UInt8 := 34
def singleQuote : UInt8 := 39

/-- `&#34;` -/
def doubleRef : CStr := ⟨[38, 35, 51, 52, 59], by decide⟩

/-- `&#39;` -/
def singleRef : CStr := ⟨[38, 35, 51, 57, 59], by decide⟩

/-- The bytes from `head` to `tok` and the reference are appended; `head` goes behind the quote. -/
def appendRef (head rest ret : Chars) (ref : CStr) : Option (Chars × Chars) := do
  let ret ← strncat ret head (head.length - (rest.length + 1))
  let ret ← strcat ret (literal ref)
  some (rest, ret)

/-- What a turn does with `head` and `ret`. -/
def turnOf (c : UInt8) (head rest ret : Chars) : Option (Chars × Chars) :=
  if c = doubleQuote then appendRef head rest ret doubleRef
  else if c = singleQuote then appendRef head rest ret singleRef
  else some (head, ret)

/-- The loop of `getCfgToHTML` and what is appended after it. The pointers `tok` and `head` are what
they point to, to the end of the setting. -/
def quoteLoop : (tok : Chars) → (head ret : Chars) → Option Chars
  | [], _, _ => none
  | c :: rest, head, ret => do
    let (head, ret) ← turnOf c head rest ret
    match rest with
    | [] => none
    | d :: rest' => if d = 0 then strcat ret head else quoteLoop (d :: rest') head ret

def getCfgToHTML (value : Chars) : Option Chars := quoteLoop value value (List.replicate 33 0)

def shownByte (c : UInt8) : List UInt8 :=
  if c = doubleQuote then doubleRef.bytes else if c = singleQuote then singleRef.bytes else [c]

def shown (v : List UInt8) : List UInt8 := v.flatMap shownByte

def quotes (v : List UInt8) : Nat := v.countP fun c => c = doubleQuote ∨ c = singleQuote

section Html

variable {v s : CStr} {bs : List UInt8} {c : UInt8} {head rest ret : Chars}

theorem length_shown (v : List UInt8) : (shown v).length = v.length + 4 * quotes v := by
  induction v with
  | nil => rfl
  | cons c v ih =>
    have hcons : shown (c :: v) = shownByte c ++ shown v := List.flatMap_cons
    have hdouble : doubleRef.bytes.length = 5 := rfl
    have hsingle : singleRef.bytes.length = 5 := rfl
    have hquotes : quotes (c :: v) =
        quotes v + if c = doubleQuote ∨ c = singleQuote then 1 else 0 := by
      simp [quotes, List.countP_cons]
    rw [hcons, List.length_append, ih, hquotes, shownByte, List.length_cons]
    by_cases hd : c = doubleQuote
    · rw [if_pos hd, if_pos (.inl hd), hdouble]
      omega
    · by_cases hs : c = singleQuote
      · rw [if_neg hd, if_pos hs, if_pos (.inr hs), hsingle]
        omega
      · rw [if_neg hd, if_neg hs, if_neg (not_or_intro hd hs), List.length_singleton]
        omega

theorem appendRef_room {pending ref : CStr} (h : Holds ret s)
    (hroom : s.length + pending.length + ref.length < ret.length) :
    ∃ ret', appendRef (pending.bytes ++ c :: rest) rest ret ref = some (rest, ret') ∧
      Holds ret' ((s.append pending).append ref) ∧ ret'.length = ret.length := by
  have hcount : (pending.bytes ++ c :: rest).length - (rest.length + 1) = pending.length := by
    rw [List.length_append, List.length_cons, Nat.add_sub_cancel, CStr.length_bytes]
  have hread := readN_string pending (c :: rest) (le_refl _) fun hlt => absurd hlt (lt_irrefl _)
  have hlen : (s.append pending).length = s.length + pending.length := List.length_append
  obtain ⟨ret₁, hstore₁, hholds₁, hlen₁⟩ := h.append_room pending (by omega)
  obtain ⟨ret₂, hstore₂, hholds₂, hlen₂⟩ := hholds₁.append_room ref (by omega)
  refine ⟨ret₂, ?_, hholds₂, hlen₂.trans hlen₁⟩
  simp only [appendRef, hcount, strncat_eq h hread, hstore₁, strcat_eq hholds₁ (strAt_literal ref),
    hstore₂, Option.bind_eq_bind, Option.bind_some]

theorem appendRef_full {pending ref : CStr} (h : Holds ret s)
    (hfull : ret.length ≤ s.length + pending.length + ref.length) :
    appendRef (pending.bytes ++ c :: rest) rest ret ref = none := by
  have hcount : (pending.bytes ++ c :: rest).length - (rest.length + 1) = pending.length := by
    rw [List.length_append, List.length_cons, Nat.add_sub_cancel, CStr.length_bytes]
  have hread := readN_string pending (c :: rest) (le_refl _) fun hlt => absurd hlt (lt_irrefl _)
  have hlen : (s.append pending).length = s.length + pending.length := List.length_append
  simp only [appendRef, hcount, strncat_eq h hread]
  by_cases hroom : s.length + pending.length < ret.length
  · obtain ⟨ret₁, hstore₁, hholds₁, hlen₁⟩ := h.append_room pending hroom
    have hnone : store ret₁ (s.append pending).length (ref.bytes ++ [0]) = none :=
      append_full (by omega)
    simp only [hstore₁, strcat_eq hholds₁ (strAt_literal ref), hnone, Option.bind_eq_bind,
      Option.bind_some, Option.bind_none]
  · rw [append_full (not_lt.mp hroom)]
    rfl

theorem turnOf_room {pending : CStr} (h : Holds ret s) (hc : c ≠ 0)
    (hroom : s.length + pending.length + (shownByte c).length < ret.length) :
    ∃ ret' s' pending', turnOf c (pending.bytes ++ c :: rest) rest ret =
        some (CStr.bytes pending' ++ rest, ret') ∧ Holds ret' s' ∧ ret'.length = ret.length ∧
      s'.bytes ++ pending'.bytes = s.bytes ++ pending.bytes ++ shownByte c := by
  rw [shownByte] at hroom ⊢
  rw [turnOf]
  by_cases hd : c = doubleQuote
  · simp only [if_pos hd] at hroom ⊢
    obtain ⟨ret', happ, hholds, hlen⟩ := @appendRef_room _ c rest ret pending doubleRef h hroom
    exact ⟨ret', _, .empty, by rw [happ]; rfl, hholds, hlen, by simp⟩
  · by_cases hs : c = singleQuote
    · simp only [if_neg hd, if_pos hs] at hroom ⊢
      obtain ⟨ret', happ, hholds, hlen⟩ := @appendRef_room _ c rest ret pending singleRef h hroom
      exact ⟨ret', _, .empty, by rw [happ]; rfl, hholds, hlen, by simp⟩
    · simp only [if_neg hd, if_neg hs]
      refine ⟨ret, s, pending.append (CStr.empty.cons c hc), ?_, h, rfl, ?_⟩
      · simp
      · simp

theorem turnOf_full {pending : CStr} (h : Holds ret s) (hc : c ≠ 0)
    (hfull : ret.length ≤ s.length + pending.length + (shownByte c).length) :
    turnOf c (pending.bytes ++ c :: rest) rest ret = none ∨
      turnOf c (pending.bytes ++ c :: rest) rest ret =
          some ((pending.append (CStr.empty.cons c hc)).bytes ++ rest, ret) ∧
        ret.length ≤ s.length + (pending.append (CStr.empty.cons c hc)).length := by
  rw [shownByte] at hfull
  rw [turnOf]
  by_cases hd : c = doubleQuote
  · simp only [if_pos hd] at hfull ⊢
    exact .inl (appendRef_full h hfull)
  · by_cases hs : c = singleQuote
    · simp only [if_neg hd, if_pos hs] at hfull ⊢
      exact .inl (appendRef_full h hfull)
    · simp only [if_neg hd, if_neg hs] at hfull ⊢
      refine .inr ⟨by simp, ?_⟩
      have hlen : (pending.append (CStr.empty.cons c hc)).length = pending.length + 1 := by
        rw [CStr.length, CStr.bytes_append, List.length_append]
        rfl
      rw [hlen]
      exact hfull

theorem quoteLoop_cons (c d : UInt8) (rest head ret : Chars) :
    quoteLoop (c :: d :: rest) head ret = (turnOf c head (d :: rest) ret).bind fun next =>
      if d = 0 then strcat next.2 next.1 else quoteLoop (d :: rest) next.1 next.2 := rfl

theorem quoteLoop_room {pending : CStr} (hbs : 0 ∉ c :: bs) (h : Holds ret s)
    (hroom : s.length + pending.length + (shown (c :: bs)).length < ret.length) :
    ∃ ret' r, quoteLoop (c :: (bs ++ [0])) (pending.bytes ++ c :: (bs ++ [0])) ret = some ret' ∧
      Holds ret' r ∧ r.bytes = s.bytes ++ pending.bytes ++ shown (c :: bs) := by
  induction bs generalizing c s ret pending with
  | nil =>
    have hc : c ≠ 0 := fun h0 => hbs (h0 ▸ List.mem_cons_self)
    have hone : shown [c] = shownByte c := List.append_nil _
    rw [hone] at hroom ⊢
    obtain ⟨ret₁, s₁, pending₁, hturn, hholds, hlen, hbytes⟩ := @turnOf_room s c [0] ret pending h hc
      hroom
    have htotal := congrArg List.length hbytes
    simp only [List.length_append, CStr.length_bytes] at htotal
    obtain ⟨ret', hstore, hholds', -⟩ := hholds.append_room pending₁ (by omega)
    refine ⟨ret', _, ?_, hholds', by rw [CStr.bytes_append, hbytes]⟩
    have hcat := strcat_eq hholds (strAt_literal pending₁)
    rw [literal] at hcat
    rw [List.nil_append, quoteLoop_cons, hturn, Option.bind_some, if_pos rfl, hcat, hstore]
  | cons d bs ih =>
    have hc : c ≠ 0 := fun h0 => hbs (h0 ▸ List.mem_cons_self)
    have hrest : 0 ∉ d :: bs := fun h0 => hbs (List.mem_cons_of_mem c h0)
    have hd : d ≠ 0 := fun h0 => hrest (h0 ▸ List.mem_cons_self)
    have hcons : shown (c :: d :: bs) = shownByte c ++ shown (d :: bs) := List.flatMap_cons
    rw [hcons, List.length_append] at hroom
    obtain ⟨ret₁, s₁, pending₁, hturn, hholds, hlen, hbytes⟩ :=
      @turnOf_room s c (d :: (bs ++ [0])) ret pending h hc (by omega)
    have htotal := congrArg List.length hbytes
    simp only [List.length_append, CStr.length_bytes] at htotal
    obtain ⟨ret', r, hloop, hholds', hr⟩ := @ih s₁ d ret₁ pending₁ hrest hholds (by omega)
    refine ⟨ret', r, ?_, hholds', ?_⟩
    · rw [List.cons_append, quoteLoop_cons, hturn, Option.bind_some, if_neg hd]
      exact hloop
    · rw [hr, hbytes, hcons, List.append_assoc]

theorem quoteLoop_full {pending : CStr} (hbs : 0 ∉ c :: bs) (h : Holds ret s)
    (hfull : ret.length ≤ s.length + pending.length + (shown (c :: bs)).length) :
    quoteLoop (c :: (bs ++ [0])) (pending.bytes ++ c :: (bs ++ [0])) ret = none := by
  -- a turn leaves what does not fit yet to the turns behind it
  have hturn (rest : Chars) (ret : Chars) (s pending : CStr) (c : UInt8) (hc : c ≠ 0) (n : Nat)
      (h : Holds ret s)
      (hfull : ret.length ≤ s.length + pending.length + ((shownByte c).length + n)) :
      turnOf c (pending.bytes ++ c :: rest) rest ret = none ∨
        ∃ ret' s' pending', turnOf c (pending.bytes ++ c :: rest) rest ret =
            some (CStr.bytes pending' ++ rest, ret') ∧ Holds ret' s' ∧
          ret'.length ≤ s'.length + pending'.length + n := by
    by_cases hroom : s.length + pending.length + (shownByte c).length < ret.length
    · obtain ⟨ret', s', pending', hturn, hholds, hlen, hbytes⟩ := @turnOf_room s c rest ret pending h hc
        hroom
      have htotal := congrArg List.length hbytes
      simp only [List.length_append, CStr.length_bytes] at htotal
      exact .inr ⟨ret', s', pending', hturn, hholds, by omega⟩
    · rcases @turnOf_full s c rest ret pending h hc (not_lt.mp hroom) with hnone | ⟨hturn, hlen⟩
      · exact .inl hnone
      · exact .inr ⟨ret, s, _, hturn, h, le_trans hlen (Nat.le_add_right _ n)⟩
  induction bs generalizing c s ret pending with
  | nil =>
    have hc : c ≠ 0 := fun h0 => hbs (h0 ▸ List.mem_cons_self)
    have hone : shown [c] = shownByte c := List.append_nil _
    rw [hone] at hfull
    rw [List.nil_append, quoteLoop_cons]
    rcases hturn [0] ret s pending c hc 0 h hfull with hnone | ⟨ret₁, s₁, pending₁, hsome, hholds, hlen⟩
    · rw [hnone, Option.bind_none]
    · have hcat := strcat_eq hholds (strAt_literal pending₁)
      rw [literal] at hcat
      rw [hsome, Option.bind_some, if_pos rfl, hcat]
      exact append_full hlen
  | cons d bs ih =>
    have hc : c ≠ 0 := fun h0 => hbs (h0 ▸ List.mem_cons_self)
    have hrest : 0 ∉ d :: bs := fun h0 => hbs (List.mem_cons_of_mem c h0)
    have hd : d ≠ 0 := fun h0 => hrest (h0 ▸ List.mem_cons_self)
    have hcons : shown (c :: d :: bs) = shownByte c ++ shown (d :: bs) := List.flatMap_cons
    rw [hcons, List.length_append] at hfull
    rw [List.cons_append, quoteLoop_cons]
    rcases hturn (d :: (bs ++ [0])) ret s pending c hc _ h hfull with
      hnone | ⟨ret₁, s₁, pending₁, hsome, hholds, hlen⟩
    · rw [hnone, Option.bind_none]
    · rw [hsome, Option.bind_some, if_neg hd]
      exact ih hrest hholds hlen

/-- A setting is shown as it is meant to, without an access outside of it or of the buffer, exactly
when it is not empty and the references leave room for it. -/
theorem getCfgToHTML_iff (v : CStr) :
    (∃ ret r, getCfgToHTML (literal v) = some ret ∧ strAt ret 0 = some r ∧ r.bytes = shown v.bytes) ↔
      v.bytes ≠ [] ∧ v.length + 4 * quotes v.bytes ≤ 32 := by
  obtain ⟨bytes, hnul⟩ := v
  cases bytes with
  | nil =>
    apply iff_of_false
    · rintro ⟨ret, r, hsome, -⟩
      have hnone : getCfgToHTML (literal ⟨[], hnul⟩) = none := rfl
      rw [hnone] at hsome
      exact absurd hsome nofun
    · exact fun hne => hne.1 rfl
  | cons c bs =>
    have hlen := length_shown (c :: bs)
    have hzero : (List.replicate 33 (0 : UInt8)).length = 33 := List.length_replicate
    have hempty : Holds (List.replicate 33 0) .empty := ⟨List.replicate 32 0, rfl⟩
    have hnone : CStr.empty.length + CStr.empty.length = 0 := rfl
    have hmem : getCfgToHTML (literal ⟨c :: bs, hnul⟩) =
        quoteLoop (c :: (bs ++ [0])) (CStr.empty.bytes ++ c :: (bs ++ [0])) (List.replicate 33 0) := rfl
    rw [hmem, and_iff_right (List.cons_ne_nil c bs)]
    change _ ↔ (c :: bs).length + 4 * quotes (c :: bs) ≤ 32
    constructor
    · rintro ⟨ret, r, hsome, -⟩
      by_contra hover
      rw [quoteLoop_full hnul hempty (by omega)] at hsome
      exact absurd hsome nofun
    · intro hroom
      obtain ⟨ret, r, hsome, hholds, hr⟩ := @quoteLoop_room .empty bs c (List.replicate 33 0) .empty hnul hempty
        (by omega)
      exact ⟨ret, r, hsome, hholds.strAt_eq, hr⟩

/-- An empty setting is read past its end, and seven quotes are more than the buffer takes. -/
theorem getCfgToHTML_outside :
    getCfgToHTML (literal .empty) = none ∧
      getCfgToHTML (literal ⟨List.replicate 7 doubleQuote, by decide⟩) = none := by
  decide +kernel

end Html

end Ralink.Goahead
