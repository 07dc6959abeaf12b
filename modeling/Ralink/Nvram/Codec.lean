import Ralink.Nvram.Env

/-! `nvram_commit` writes entries one behind the other, `nvram_init` parses them. What the parser
returns is in front of the memory it was given; what fits is parsed back whatever stands behind the
buffer. -/
namespace Ralink.Nvram
open Assoc ByteStore CString Function

def encode (es : List Entry) : List UInt8 := es.flatMap fun e => entryBytes e.1 e.2

/-- The parser of `nvram_init` as a function to lists of entries. -/
def parseEntries (len : Nat) : Nat → Nat → List UInt8 → List Entry
  | 0, _, _ => []
  | turns + 1, p, mem =>
    match strchr eqSign mem with
    | .found name mem =>
      match strchr 0 mem with
      | .found value mem =>
        let p := p + name.length + 1 + value.length + 1
        (name, value) ::
          if p + 1 ≥ len ∨ mem.head? = some 0 then [] else parseEntries len turns p mem
      | _ => []
    | _ => []

variable {es : List Entry} {len turns p i : Nat} {mem tail : List UInt8} (e : Entry) (name : CStr)
  {pre : List UInt8} {cache : Cache} {k : Nat} (value : CStr)

@[simp] theorem encode_nil : encode [] = [] := rfl
@[simp] theorem encode_cons (es : List Entry) :
    encode (e :: es) = entryBytes e.1 e.2 ++ encode es := rfl

theorem length_entryBytes :
    (entryBytes name value).length = name.length + 1 + value.length + 1 := by
  simp [entryBytes]
  omega

theorem terminated_suffix {mem : List UInt8} {b : UInt8} (h : ∃ m, pre ++ b :: mem = m ++ [0])
    (hb : b ≠ 0 ∨ mem ≠ []) : ∃ m, mem = m ++ [0] := by
  obtain ⟨m, hm⟩ := h
  rcases List.eq_nil_or_concat mem with rfl | ⟨mem', x, rfl⟩
  · have hlast := congrArg List.getLast? hm
    simp only [List.getLast?_append, List.getLast?_singleton, Option.some_or, Option.some.injEq]
      at hlast
    exact (hb.elim (fun h => h hlast) fun h => h rfl).elim
  · refine ⟨mem', ?_⟩
    have hlast := congrArg List.getLast? hm
    simp only [List.concat_eq_append, ← List.cons_append, ← List.append_assoc, List.getLast?_append,
      List.getLast?_singleton, Option.some_or, Option.some.injEq] at hlast
    rw [List.concat_eq_append, hlast]

theorem strchr_nul_of_terminated (h : ∃ m, mem = m ++ [0]) :
    ∃ value rest, strchr 0 mem = .found value rest ∧ mem = value.bytes ++ 0 :: rest := by
  have hcase := strchr_cases 0 mem
  generalize strchr 0 mem = scan at hcase
  cases hcase with
  | found free split => exact ⟨_, _, rfl, split⟩
  | absent free nonNul split => exact absurd rfl nonNul
  | overrun free split =>
    obtain ⟨m, hm⟩ := h
    exact absurd (by rw [← split, hm]; simp) free

theorem parseLoop_rooms (es : List Entry) (hm : ∃ m, mem = m ++ [0]) (hp : len < p + mem.length) :
    parseLoop len turns es.length p mem (rooms es) =
      ⟨rooms (es ++ parseEntries len turns p mem), false⟩ := by
  induction turns generalizing p mem es with
  | zero => simp [parseLoop, parseEntries]
  | succ turns ih =>
    unfold parseLoop parseEntries
    have hcase := strchr_cases eqSign mem
    generalize strchr eqSign mem = scan at hcase
    cases hcase with
    | absent free nonNul split => simp
    | overrun free split =>
      next all =>
      obtain ⟨m, hm⟩ := hm
      exact absurd (by rw [← split, hm]; simp) all.noNul
    | found free split =>
      next name mem1 =>
      have hterm : ∃ m, mem1 = m ++ [0] :=
        terminated_suffix (split ▸ hm) (Or.inl (by decide))
      obtain ⟨value, mem2, hvalue, hsplit⟩ := strchr_nul_of_terminated hterm
      have hlen : mem.length = name.length + 1 + value.length + 1 + mem2.length := by
        simp only [split, hsplit, List.length_append, List.length_cons, CStr.length_bytes]
        omega
      dsimp only
      rw [hvalue]
      dsimp only
      rw [update_rooms_twice]
      by_cases hstop : p + name.length + 1 + value.length + 1 + 1 ≥ len
      · rw [if_pos hstop, if_pos (Or.inl hstop)]
      · rw [if_neg hstop]
        cases hmem : mem2 with
        | nil =>
          simp only [hmem, List.length_nil] at hlen
          omega
        | cons b rest =>
          dsimp only
          by_cases hb : b = 0
          · subst hb
            simp
          · have hterm2 : ∃ m, b :: rest = m ++ [0] := by
              rw [← hmem]
              exact terminated_suffix (hsplit ▸ hterm) (Or.inr (by simp [hmem]))
            rw [hmem] at hlen
            have hrec := ih (es ++ [(name, value)]) hterm2
              (p := p + name.length + 1 + value.length + 1) (by omega)
            rw [List.length_append, List.length_singleton] at hrec
            rw [if_neg hb, if_neg (by simp [hb]; omega), hrec, List.append_assoc]
            rfl

theorem length_parseEntries_le (len turns p : Nat) (mem : List UInt8) :
    (parseEntries len turns p mem).length ≤ turns := by
  induction turns generalizing p mem with
  | zero => exact Nat.le_refl 0
  | succ turns ih =>
    unfold parseEntries
    split
    · split
      · dsimp only
        split
        · exact Nat.succ_le_succ (Nat.zero_le _)
        · exact Nat.succ_le_succ (ih _ _)
      · exact Nat.zero_le _
    · exact Nat.zero_le _

theorem parseEntries_sound (len turns p : Nat) (mem : List UInt8) :
    (∀ e ∈ parseEntries len turns p mem, eqSign ∉ e.1.bytes) ∧
      ∃ rest, mem = encode (parseEntries len turns p mem) ++ rest := by
  induction turns generalizing p mem with
  | zero => exact ⟨by simp [parseEntries], mem, rfl⟩
  | succ turns ih =>
    unfold parseEntries
    have hcase := strchr_cases eqSign mem
    generalize strchr eqSign mem = scan at hcase
    cases hcase with
    | absent free nonNul split => exact ⟨by simp, mem, rfl⟩
    | overrun free split => exact ⟨by simp, mem, rfl⟩
    | found free split =>
      next name mem1 =>
      have hcase1 := strchr_cases 0 mem1
      dsimp only
      generalize strchr 0 mem1 = scan1 at hcase1
      cases hcase1 with
      | absent free1 nonNul split1 => exact ⟨by simp, mem, rfl⟩
      | overrun free1 split1 => exact ⟨by simp, mem, rfl⟩
      | found free1 split1 =>
        next value mem2 =>
        have hfront : mem = entryBytes name value ++ mem2 := by
          rw [split, split1]
          simp [entryBytes]
        dsimp only
        split
        · exact ⟨by simpa using free, mem2, by simpa using hfront⟩
        · obtain ⟨hnames, rest, hrest⟩ := ih (p + name.length + 1 + value.length + 1) mem2
          refine ⟨?_, rest, ?_⟩
          · intro e he
            rcases List.mem_cons.mp he with rfl | he
            · exact free
            · exact hnames e he
          · rw [encode_cons, List.append_assoc, ← hrest]
            exact hfront

theorem entryBytes_head (rest : List UInt8) : (entryBytes name value ++ rest).head? ≠ some 0 := by
  obtain ⟨bytes, hnul⟩ := name
  cases bytes with
  | nil => simp [entryBytes, eqSign]
  | cons b bytes =>
    have hb : b ≠ 0 := fun h => hnul (h ▸ List.mem_cons_self)
    simp [entryBytes, hb]

theorem parseEntries_entry {name : CStr} (hname : eqSign ∉ name.bytes) (value : CStr) (mem : List UInt8) :
    parseEntries len (turns + 1) p (entryBytes name value ++ mem) =
      (name, value) ::
        if p + (entryBytes name value).length + 1 ≥ len ∨ mem.head? = some 0 then []
        else parseEntries len turns (p + (entryBytes name value).length) mem := by
  have hfound : strchr eqSign (entryBytes name value ++ mem) = .found name (value.bytes ++ 0 :: mem) := by
    rw [← strchr_append hname]
    simp [entryBytes]
  have hlen : p + name.length + 1 + value.length + 1 = p + (entryBytes name value).length := by
    rw [length_entryBytes]
    omega
  rw [parseEntries, hfound]
  dsimp only
  rw [strchr_nul]
  dsimp only
  rw [hlen]

theorem parseEntries_encode (hnames : ∀ x ∈ e :: es, eqSign ∉ x.1.bytes)
    (hturns : es.length < turns) (hlen : p + (encode (e :: es)).length + k = len) :
    parseEntries len turns p (encode (e :: es) ++ (List.replicate k 0 ++ tail)) = e :: es := by
  induction es generalizing e turns p with
  | nil =>
    obtain ⟨turns, rfl⟩ : ∃ n, turns = n + 1 := ⟨turns - 1, by omega⟩
    rw [encode_cons, encode_nil, List.append_nil] at hlen ⊢
    rw [parseEntries_entry (hnames e List.mem_cons_self), if_pos]
    cases k with
    | zero => exact Or.inl (by omega)
    | succ k => exact Or.inr rfl
  | cons e' es ih =>
    obtain ⟨turns, rfl⟩ : ∃ n, turns = n + 1 := ⟨turns - 1, by omega⟩
    rw [encode_cons, List.length_append] at hlen
    have h2 : 2 ≤ (encode (e' :: es)).length := by
      rw [encode_cons, List.length_append, length_entryBytes]
      omega
    have hhead : (encode (e' :: es) ++ (List.replicate k 0 ++ tail)).head? ≠ some 0 := by
      rw [encode_cons, List.append_assoc]
      exact entryBytes_head _ _ _
    rw [encode_cons, List.append_assoc, parseEntries_entry (hnames e List.mem_cons_self),
      if_neg (not_or.mpr ⟨by omega, hhead⟩), ih e' (fun x hx => hnames x (List.mem_cons_of_mem _ hx))
        (by simpa using hturns) (by omega)]

theorem parseEntries_zeros (hk : 0 < k) :
    parseEntries len turns p (List.replicate k 0 ++ tail) = [] := by
  cases turns with
  | zero => rfl
  | succ turns =>
    obtain ⟨k, rfl⟩ : ∃ n, k = n + 1 := ⟨k - 1, by omega⟩
    have h : strchr eqSign (List.replicate (k + 1) 0 ++ tail) = .absent :=
      strchr_absent (s := .empty) List.not_mem_nil (by decide) _
    rw [parseEntries, h]

theorem parseEntries_noEq (hpre : eqSign ∉ pre) (hlen : len ≤ p + pre.length) (rest : List UInt8) :
    (parseEntries len turns p (pre ++ rest)).length ≤ 1 := by
  cases turns with
  | zero => exact Nat.zero_le _
  | succ turns =>
    unfold parseEntries
    have hcase := strchr_cases eqSign (pre ++ rest)
    generalize strchr eqSign (pre ++ rest) = scan at hcase ⊢
    cases hcase with
    | found free split =>
      next name mem =>
      have hname : pre.length ≤ name.length := by
        by_contra hlt
        rw [not_le] at hlt
        have hget : (pre ++ rest)[name.length]? = _ := congrArg (fun l => l[name.length]?) split
        rw [List.getElem?_append_left hlt,
          List.getElem?_append_right (show name.bytes.length ≤ name.length from le_rfl),
          CStr.length_bytes, Nat.sub_self] at hget
        exact hpre (List.mem_of_getElem? hget)
      dsimp only
      split
      · rw [if_pos (Or.inl (by omega))]
        exact Nat.le_refl 1
      · exact Nat.zero_le _
    | absent free nonNul split => exact Nat.zero_le _
    | overrun free split => exact Nat.zero_le _

theorem parseEntries_inside (h : (parseLoop len turns i p mem cache).overrun = false)
    (ext : List UInt8) : parseEntries len turns p (mem ++ ext) = parseEntries len turns p mem := by
  induction turns generalizing i p mem cache with
  | zero => rfl
  | succ turns ih =>
    unfold parseLoop at h
    unfold parseEntries
    cases hname : strchr eqSign mem with
    | overrun => simp [hname] at h
    | absent => rw [strchr_absent_append hname]
    | found name mem1 =>
      rw [strchr_found_append hname]
      simp only [hname] at h
      dsimp only
      cases hvalue : strchr 0 mem1 with
      | overrun => simp [hvalue] at h
      | absent => rw [strchr_absent_append hvalue]
      | found value mem2 =>
        rw [strchr_found_append hvalue]
        simp only [hvalue] at h
        dsimp only
        by_cases hstop : p + name.length + 1 + value.length + 1 + 1 ≥ len
        · rw [if_pos (Or.inl hstop), if_pos (Or.inl hstop)]
        · rw [if_neg hstop] at h
          cases hmem : mem2 with
          | nil => simp [hmem] at h
          | cons b rest =>
            simp only [hmem] at h
            by_cases hb : b = 0
            · subst hb
              simp
            · rw [if_neg hb] at h
              rw [if_neg (by simp [hb]; omega), if_neg (by simp [hb]; omega), ih h]

theorem parseEntries_overrun (h : (parseLoop len turns i p mem cache).overrun = true)
    (hp : p + mem.length = len) :
    parseEntries len turns p (mem ++ [0]) ≠ parseEntries len turns p (mem ++ [eqSign, 0]) := by
  induction turns generalizing i p mem cache with
  | zero => simp [parseLoop] at h
  | succ turns ih =>
    unfold parseLoop at h
    unfold parseEntries
    have hcase := strchr_cases eqSign mem
    cases hname : strchr eqSign mem with
    | absent => simp [hname] at h
    | overrun =>
      rw [hname] at hcase
      cases hcase with
      | overrun free split =>
        next all =>
        have h0 : strchr eqSign (mem ++ [0]) = .absent := by
          rw [split]
          exact strchr_absent free (by decide) _
        have h1 : strchr eqSign (mem ++ [eqSign, 0]) = .found all [0] := by
          rw [split]
          exact strchr_append free _
        have h2 : strchr 0 [0] = .found .empty [] := strchr_nul .empty []
        rw [h0, h1]
        dsimp only
        rw [h2]
        exact (List.cons_ne_nil _ _).symm
    | found name mem1 =>
      rw [hname] at hcase
      cases hcase with
      | found free split =>
      rw [strchr_found_append hname, strchr_found_append hname]
      simp only [hname] at h
      dsimp only
      have hcase1 := strchr_cases 0 mem1
      cases hvalue : strchr 0 mem1 with
      | absent => simp [hvalue] at h
      | overrun =>
        rw [hvalue] at hcase1
        cases hcase1 with
        | overrun free1 split1 =>
          next all =>
          have h0 : strchr 0 (mem1 ++ [0]) = .found all [] := by
            rw [split1]
            exact strchr_nul all []
          have h1 : strchr 0 (mem1 ++ [eqSign, 0]) =
              .found (all.append (CStr.empty.cons eqSign (by decide))) [] := by
            rw [split1, ← strchr_nul]
            simp
          rw [h0, h1]
          dsimp only
          intro he
          have hvalues := congrArg CStr.bytes (congrArg Prod.snd (List.cons.inj he).1)
          simp at hvalues
      | found value mem2 =>
        rw [hvalue] at hcase1
        cases hcase1 with
        | found free1 split1 =>
        have hlen : mem.length = name.length + 1 + value.length + 1 + mem2.length := by
          simp only [split, split1, List.length_append, List.length_cons, CStr.length_bytes]
          omega
        rw [strchr_found_append hvalue, strchr_found_append hvalue]
        simp only [hvalue] at h
        dsimp only
        by_cases hstop : p + name.length + 1 + value.length + 1 + 1 ≥ len
        · simp [hstop] at h
        · rw [if_neg hstop] at h
          cases hmem : mem2 with
          | nil =>
            simp only [hmem, List.length_nil] at hlen
            omega
          | cons b rest =>
            simp only [hmem] at h
            by_cases hb : b = 0
            · simp [hb] at h
            · rw [if_neg hb] at h
              rw [hmem] at hlen
              rw [if_neg (by simp [hb]; omega), if_neg (by simp [hb]; omega)]
              exact fun he => ih h (by omega) (List.cons.inj he).2

end Ralink.Nvram
