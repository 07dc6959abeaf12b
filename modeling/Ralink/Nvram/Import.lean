import Ralink.Nvram.Model

/-! `renew_nvram`. The buffers it writes to are arrays; a write outside of one gives no result. -/
namespace Ralink.Nvram
open Assoc ByteStore CArray CString

def BUFSZ : Nat := 1024

/-- `'\n'`. -/
def newline : UInt8 := 10

/-- `'#'`. -/
def hash : UInt8 := 35

/-- The bytes up to the end of a line, `n` of them at most, and those behind. -/
def readLine : Nat → List UInt8 → Chars × List UInt8
  | 0, file => ([], file)
  | _ + 1, [] => ([], [])
  | n + 1, b :: file =>
    if b = newline then ([b], file)
    else
      let (line, rest) := readLine n file
      (b :: line, rest)

/-- `fgets`; the buffer holds the line and a NUL then. -/
def fgets (size : Nat) (file : List UInt8) : Option (Chars × List UInt8) :=
  if file = [] then none else some (readLine (size - 1) file)

/-- What one `fgets` after the other reads. -/
def linesOf (size : Nat) : Nat → List UInt8 → List Chars
  | 0, _ => []
  | turns + 1, file =>
    match fgets size file with
    | none => []
    | some (line, rest) => line :: linesOf size turns rest

def fileLines (file : List UInt8) : List Chars := linesOf BUFSZ file.length file

def isSkipped (buf : Chars) : Bool := buf.head? = some newline || buf.head? = some hash

/-- `"Default"`. -/
def defaultText : List UInt8 := [68, 101, 102, 97, 117, 108, 116]

/-- The loop that finds `"Default\n"`; what is left are the lines behind it. -/
def findDefault : List Chars → Option (List Chars)
  | [] => none
  | buf :: lines =>
    if isSkipped buf then findDefault lines
    else if (defaultText ++ [newline]).isPrefixOf buf then some lines
    else findDefault lines

/-- The MAC addresses in the flash, by offset, and the contents of `/tmp/wlancryptfile`, if there is
such a file. -/
structure Sources where
  flashReadFlag : Int
  macBuf : Nat → UInt8
  wanMac : Nat → UInt8
  wlancryptfile : Option (List UInt8)

def hexDigit (n : Nat) : UInt8 := UInt8.ofNat (if n < 10 then 48 + n else 55 + n)

/-- `%02X`. -/
def hex02 (b : UInt8) : List UInt8 := [hexDigit (b.toNat / 16), hexDigit (b.toNat % 16)]

/-- `%0X`. -/
def hex0 (b : UInt8) : List UInt8 := if b.toNat < 16 then [hexDigit b.toNat] else hex02 b

theorem hexDigit_ne_zero : ∀ n < 16, hexDigit n ≠ 0 := by decide

theorem zero_notMem_hex02 (b : UInt8) : 0 ∉ hex02 b := by
  have hb := b.toNat_lt
  have hhigh := hexDigit_ne_zero (b.toNat / 16) (by omega)
  have hlow := hexDigit_ne_zero (b.toNat % 16) (by omega)
  simp [hex02, hhigh.symm, hlow.symm]

theorem zero_notMem_hex0 (b : UInt8) : 0 ∉ hex0 b := by
  unfold hex0
  split
  · next h => simp [(hexDigit_ne_zero _ h).symm]
  · exact zero_notMem_hex02 b

/-- `" %02X%02X"`. -/
def macText (src : Sources) : CStr :=
  ⟨32 :: (hex02 (src.macBuf 4) ++ hex02 (src.macBuf 5)), by
    simp [zero_notMem_hex02]⟩

/-- `"%0X:%0X:%0X:%0X:%0X:%0X\n"`. -/
def wanMacText (src : Sources) : CStr :=
  ⟨hex0 (src.wanMac 0) ++ 58 :: hex0 (src.wanMac 1) ++ 58 :: hex0 (src.wanMac 2) ++
      58 :: hex0 (src.wanMac 3) ++ 58 :: hex0 (src.wanMac 4) ++ 58 :: hex0 (src.wanMac 5) ++ [newline], by
    simp [zero_notMem_hex0, newline]⟩

/-- `nvbuf`, with `nvflag == 0`. -/
def wlancrypt (src : Sources) : Option CStr := do
  let file ← src.wlancryptfile
  let (line, _) ← fgets 64 file
  let nvbuf ← strAt (line ++ [0]) 0
  if nvbuf = .empty then none else some nvbuf

def sprintf (size : Nat) (text : CStr) : Option Chars := store (List.replicate size 0) 0 (literal text)

def SSID1 : CStr := ⟨[83, 83, 73, 68, 49], by decide⟩

def WAN_MAC_ADDR : CStr := ⟨[87, 65, 78, 95, 77, 65, 67, 95, 65, 68, 68, 82], by decide⟩

def wlancryptluotao : CStr :=
  ⟨[119, 108, 97, 110, 99, 114, 121, 112, 116, 108, 117, 111, 116, 97, 111], by decide⟩

/-- The name and the value in a line with an `=` at the place `eq`. -/
def splitLine (buf : Chars) (eq : Nat) : Option (CStr × CStr) := do
  let line ← strAt buf 0
  let buf ← store buf (line.length - 1) [0]
  let buf ← store buf eq [0]
  let name ← strAt buf 0
  let p ← strAt buf (eq + 1)
  return (name, p)

/-- What `p` points to once the suffix is appended in `new_ssid`. -/
def newSsid (src : Sources) (p : CStr) : Option CStr := do
  let new_ssid ← strcpy (List.replicate 30 0) (literal p)
  let new_ssid ←
    if src.flashReadFlag ≠ 0 then do
      let mac_6 ← sprintf 10 (macText src)
      strcat new_ssid mac_6
    else some new_ssid
  strAt new_ssid 0

/-- How the second loop ends. -/
inductive LoopEnd where
  | formatError (s : NvState) (need_commit : Bool)
  | eof (s : NvState)

structure Renewed where
  ret : Int
  state : NvState

section Renew
variable (dualImage : Bool)

def RT2860_NVRAM : Int := if dualImage then 1 else 0

variable (heap : CStr) (src : Sources) (mode : Int)

def renewLoop : List Chars → Bool → NvState → Option LoopEnd
  | [], _, s => some (.eof s)
  | buf :: lines, need_commit, s =>
    if isSkipped buf then renewLoop lines need_commit s
    else
      match strchr eqSign (buf ++ [0]) with
      | .found before _ => do
        let (name, p) ← splitLine (buf ++ [0]) before.length
        let p ← if name = SSID1 then newSsid src p else some p
        renewLoop lines true (nvramBufset dualImage heap s mode name p).2
      | .absent | .overrun => some (.formatError s need_commit)

def setOwn (s : NvState) : Option NvState := do
  let wan_mac ← sprintf 32 (wanMacText src)
  let wan_mac ← strAt wan_mac 0
  let s := (nvramBufset dualImage heap s (RT2860_NVRAM dualImage) WAN_MAC_ADDR wan_mac).2
  return match wlancrypt src with
    | some nvbuf => (nvramBufset dualImage heap s (RT2860_NVRAM dualImage) wlancryptluotao nvbuf).2
    | none => s

/-- `renew_nvram`; `file` is there if it can be opened. -/
def renewNvram (s : NvState) (file : Option (List UInt8)) : Option Renewed :=
  match file with
  | none => some ⟨-1, s⟩
  | some file =>
    match findDefault (fileLines file) with
    | none => some ⟨-1, s⟩
    | some lines => do
      match ← renewLoop dualImage heap src mode lines false (nvramInit dualImage heap s mode) with
      | .formatError s need_commit =>
        return ⟨-1, if need_commit then (nvramCommit dualImage heap s mode).state else s⟩
      | .eof s =>
        let s ← setOwn dualImage heap src s
        return ⟨0, nvramClose dualImage (nvramCommit dualImage heap s mode).state mode⟩

end Renew

/-- A line without its end. -/
inductive Line where
  | setting (name value : CStr)
  | comment (text : CStr)
  | blank
  | malformed (text : CStr)

namespace Line

def text : Line → List UInt8
  | setting name value => name.bytes ++ eqSign :: value.bytes
  | comment text => hash :: text.bytes
  | blank => []
  | malformed text => text.bytes

def OfKind : Line → Prop
  | setting name _ => eqSign ∉ name.bytes ∧ name.bytes.head? ≠ some hash
  | comment _ | blank => True
  | malformed text => eqSign ∉ text.bytes ∧ text.bytes.head? ≠ some hash ∧ text ≠ .empty

/-- One line, shorter than the buffer. -/
structure Plain (l : Line) : Prop where
  kind : l.OfKind
  oneLine : newline ∉ l.text
  short : l.text.length < BUFSZ

end Line

/-- A line as it is read: whole, or without the newline at its end. -/
abbrev Reading := Line × Bool

def Reading.chars (x : Reading) : Chars := x.1.text ++ if x.2 then [newline] else []

/-- A line of 1023 bytes fills the buffer, and its newline is read as a line of its own. -/
def Line.readings (l : Line) : List Reading :=
  if l.text.length + 1 < BUFSZ then [(l, true)] else [(l, false), (.blank, true)]

/-- Some lines, the line `Default`, and the lines of settings. The last one may lack its newline. -/
structure SettingsFile where
  header : List (List UInt8)
  lines : List Line
  last : Option Line
  headerPlain : ∀ text ∈ header, newline ∉ text ∧ text.length < BUFSZ ∧ text ≠ defaultText
  plain : ∀ l ∈ lines ++ last.toList, l.Plain
  lastThere : last ≠ some .blank

namespace SettingsFile

def bytes (f : SettingsFile) : List UInt8 :=
  f.header.flatMap (· ++ [newline]) ++ (defaultText ++ [newline]) ++
    f.lines.flatMap (·.text ++ [newline]) ++ f.last.toList.flatMap Line.text

def readings (f : SettingsFile) : List Reading :=
  f.lines.flatMap Line.readings ++ f.last.toList.map fun l => (l, false)

end SettingsFile

variable {line rest text : List UInt8} {file : List UInt8} {n turns size : Nat}

theorem readLine_newline (h : newline ∉ text) (hn : text.length < n) (rest : List UInt8) :
    readLine n (text ++ newline :: rest) = (text ++ [newline], rest) := by
  induction text generalizing n with
  | nil =>
    obtain ⟨n, rfl⟩ := Nat.exists_eq_add_of_le' hn
    exact if_pos rfl
  | cons b text ih =>
    obtain ⟨n, rfl⟩ := Nat.exists_eq_add_one.mpr (Nat.zero_lt_of_lt hn)
    have hb : b ≠ newline := fun he => h (he ▸ List.mem_cons_self)
    have htail := ih (fun hm => h (List.mem_cons_of_mem b hm)) (Nat.lt_of_succ_lt_succ hn)
    rw [List.cons_append, readLine, if_neg hb, htail]
    rfl

theorem readLine_stop (h : newline ∉ text) (hn : text.length ≤ n) (hend : text.length = n ∨ rest = []) :
    readLine n (text ++ rest) = (text, rest) := by
  induction text generalizing n with
  | nil =>
    cases n with
    | zero => rfl
    | succ n =>
      obtain rfl := hend.resolve_left (Nat.succ_ne_zero n).symm
      rfl
  | cons b text ih =>
    obtain ⟨n, rfl⟩ := Nat.exists_eq_add_one.mpr (Nat.lt_of_lt_of_le (Nat.succ_pos _) hn)
    have hb : b ≠ newline := fun he => h (he ▸ List.mem_cons_self)
    have htail := ih (fun hm => h (List.mem_cons_of_mem b hm)) (Nat.le_of_succ_le_succ hn)
      (hend.imp_left Nat.succ.inj)
    rw [List.cons_append, readLine, if_neg hb, htail]

theorem length_readLine (n : Nat) (file : List UInt8) : (readLine n file).2.length ≤ file.length := by
  induction n generalizing file with
  | zero => exact Nat.le_refl _
  | succ n ih =>
    cases file with
    | nil => exact Nat.le_refl _
    | cons b file =>
      rw [readLine]
      split
      · exact Nat.le_succ _
      · exact Nat.le_succ_of_le (ih file)

theorem length_fgets (hsize : 2 ≤ size) (h : fgets size file = some (line, rest)) :
    rest.length < file.length := by
  obtain ⟨n, rfl⟩ := Nat.exists_eq_add_of_le' hsize
  cases file with
  | nil => cases h
  | cons b file =>
    rw [fgets, if_neg (List.cons_ne_nil b file), Option.some_inj] at h
    have hrest : (readLine (n + 1) (b :: file)).2 = rest := congrArg Prod.snd h
    rw [← hrest, readLine]
    split
    · exact Nat.lt_succ_self _
    · exact Nat.lt_succ_of_le (length_readLine n file)

theorem linesOf_turns (hsize : 2 ≤ size) (h : file.length ≤ turns) :
    linesOf size turns file = linesOf size file.length file := by
  induction hlen : file.length using Nat.strong_induction_on generalizing file turns with
  | h k ih =>
    cases k with
    | zero =>
      obtain rfl := List.eq_nil_of_length_eq_zero hlen
      cases turns with
      | zero => rfl
      | succ turns => rfl
    | succ k =>
      obtain ⟨turns, rfl⟩ := Nat.exists_eq_add_one.mpr (Nat.lt_of_lt_of_le (Nat.succ_pos k) (hlen ▸ h))
      rw [linesOf, linesOf]
      cases hget : fgets size file with
      | none => rfl
      | some read =>
        obtain ⟨line, rest⟩ := read
        have hless := length_fgets hsize hget
        have hleft : rest.length ≤ k := by omega
        dsimp only
        rw [ih rest.length (by omega) (by omega) rfl, ih rest.length (by omega) hleft rfl]

theorem fileLines_cons (h : fgets BUFSZ file = some (line, rest)) :
    fileLines file = line :: fileLines rest := by
  have hless := length_fgets (by decide) h
  obtain ⟨k, hk⟩ := Nat.exists_eq_add_one.mpr (Nat.zero_lt_of_lt hless)
  rw [fileLines, hk, linesOf, h]
  dsimp only
  rw [linesOf_turns (by decide) (by omega)]
  rfl

theorem fileLines_line (h : newline ∉ text) (hshort : text.length < BUFSZ) (rest : List UInt8) :
    fileLines (text ++ newline :: rest) =
      (if text.length + 1 < BUFSZ then [text ++ [newline]] else [text, [newline]]) ++ fileLines rest := by
  have hsome (t r : List UInt8) (ht : t ≠ []) : fgets BUFSZ (t ++ r) = some (readLine (BUFSZ - 1) (t ++ r)) :=
    if_neg (by simp [ht])
  split
  · next hroom =>
    refine fileLines_cons ?_
    rw [fgets, if_neg (by simp), readLine_newline h (by omega)]
  · next hfull =>
    have hlen : text.length = BUFSZ - 1 := by omega
    have hne : text ≠ [] := List.ne_nil_of_length_pos (by rw [hlen]; decide)
    have hfirst : fgets BUFSZ (text ++ newline :: rest) = some (text, newline :: rest) := by
      rw [hsome _ _ hne, readLine_stop h hlen.le (.inl hlen)]
    have hsecond : fgets BUFSZ (newline :: rest) = some ([newline], rest) := by
      rw [fgets, if_neg (List.cons_ne_nil _ _), ← List.nil_append (newline :: rest),
        readLine_newline List.not_mem_nil (by decide)]
      rfl
    rw [fileLines_cons hfirst, fileLines_cons hsecond]
    rfl

theorem fileLines_last (h : newline ∉ text) (hshort : text.length < BUFSZ) (hne : text ≠ []) :
    fileLines text = [text] := by
  have hget : fgets BUFSZ text = some (text, []) := by
    have hread : readLine (BUFSZ - 1) (text ++ []) = (text, []) :=
      readLine_stop h (Nat.le_sub_one_of_lt hshort) (.inr rfl)
    rw [List.append_nil] at hread
    rw [fgets, if_neg hne, hread]
  rw [fileLines_cons hget]
  rfl

theorem fileLines_lines {texts : List (List UInt8)}
    (h : ∀ text ∈ texts, newline ∉ text ∧ text.length < BUFSZ) (rest : List UInt8) :
    fileLines (texts.flatMap (· ++ [newline]) ++ rest) =
      texts.flatMap (fun text => if text.length + 1 < BUFSZ then [text ++ [newline]] else [text, [newline]]) ++
        fileLines rest := by
  induction texts with
  | nil => rfl
  | cons text texts ih =>
    obtain ⟨hline, hshort⟩ := h text List.mem_cons_self
    rw [List.flatMap_cons, List.flatMap_cons, List.append_assoc, List.append_assoc, List.singleton_append,
      fileLines_line hline hshort, ih fun t ht => h t (List.mem_cons_of_mem text ht), List.append_assoc]

theorem chars_readings (l : Line) :
    l.readings.map Reading.chars =
      if l.text.length + 1 < BUFSZ then [l.text ++ [newline]] else [l.text, [newline]] := by
  unfold Line.readings
  split
  · rfl
  · simp [Reading.chars, Line.text]

theorem findDefault_header {header : List (List UInt8)}
    (h : ∀ text ∈ header, newline ∉ text ∧ text.length < BUFSZ ∧ text ≠ defaultText) (lines : List Chars) :
    findDefault (header.flatMap
        (fun text => if text.length + 1 < BUFSZ then [text ++ [newline]] else [text, [newline]]) ++
      (defaultText ++ [newline]) :: lines) = some lines := by
  induction header with
  | nil => rfl
  | cons text header ih =>
    obtain ⟨hline, -, hne⟩ := h text List.mem_cons_self
    have htail := ih fun t ht => h t (List.mem_cons_of_mem text ht)
    have hother (buf : Chars) (rest : List Chars) (hbuf : ¬ defaultText ++ [newline] <+: buf) :
        findDefault (buf :: rest) = findDefault rest := by
      rw [findDefault, if_neg (fun hp => hbuf (List.isPrefixOf_iff_prefix.mp hp)), ite_self]
    rw [List.flatMap_cons, List.append_assoc]
    split
    · rw [List.singleton_append, hother, htail]
      intro hp
      obtain ⟨rest, hrest⟩ := hp
      rw [List.append_assoc, List.singleton_append] at hrest
      exact hne ((List.append_cons_inj_of_notMem hline List.not_mem_nil).mp hrest.symm).1
    · rw [List.cons_append, List.singleton_append, hother, findDefault, if_pos (by decide), htail]
      intro hp
      exact hline (hp.subset (by decide))

theorem findDefault_bytes (f : SettingsFile) :
    findDefault (fileLines f.bytes) = some (f.readings.map Reading.chars) := by
  have hlines : ∀ text ∈ f.lines.map Line.text, newline ∉ text ∧ text.length < BUFSZ := by
    intro text ht
    obtain ⟨l, hl, rfl⟩ := List.mem_map.mp ht
    have hplain := f.plain l (List.mem_append_left _ hl)
    exact ⟨hplain.oneLine, hplain.short⟩
  have hlast : fileLines (f.last.toList.flatMap Line.text) = f.last.toList.map Line.text := by
    cases hl : f.last with
    | none => rfl
    | some l =>
      have hplain := f.plain l (List.mem_append_right _ (by rw [hl]; exact List.mem_singleton_self l))
      have hne : l.text ≠ [] := by
        cases l with
        | setting name value => exact List.append_ne_nil_of_right_ne_nil _ (List.cons_ne_nil _ _)
        | comment text => exact List.cons_ne_nil _ _
        | blank => exact absurd hl f.lastThere
        | malformed text => exact fun he => hplain.kind.2.2 (CStr.ext he)
      simpa using fileLines_last hplain.oneLine hplain.short hne
  have hdefault : defaultText ++ [newline] = [defaultText].flatMap (· ++ [newline]) := rfl
  have hbody : f.lines.flatMap (·.text ++ [newline]) = (f.lines.map Line.text).flatMap (· ++ [newline]) := by
    rw [List.flatMap_map]
  rw [SettingsFile.bytes, List.append_assoc, List.append_assoc,
    fileLines_lines fun t ht => ⟨(f.headerPlain t ht).1, (f.headerPlain t ht).2.1⟩, hdefault,
    fileLines_lines (by decide), hbody, fileLines_lines hlines, hlast, List.flatMap_singleton,
    if_pos (by decide), List.singleton_append, findDefault_header f.headerPlain, SettingsFile.readings,
    List.map_append, List.map_flatMap, List.flatMap_map, List.map_map]
  congr 2
  · exact List.flatMap_congr fun l _ => (chars_readings l).symm
  · exact List.map_congr_left fun l _ => (List.append_nil l.text).symm

def suffix (src : Sources) : CStr := if src.flashReadFlag ≠ 0 then macText src else .empty

/-- A setting of a file; `whole` unless its newline was not read with it. -/
structure Setting where
  name : CStr
  value : CStr
  whole : Bool
  deriving DecidableEq

namespace Setting

/-- The value as it is read. Without a newline its last byte is dropped. -/
def read (x : Setting) : CStr :=
  if x.whole then x.value else ⟨x.value.bytes.dropLast, fun h => x.value.noNul (List.mem_of_mem_dropLast h)⟩

def wanted (src : Sources) (x : Setting) : CStr :=
  if x.name = SSID1 then x.value.append (suffix src) else x.value

def stored (src : Sources) (x : Setting) : CStr :=
  if x.name = SSID1 then x.read.append (suffix src) else x.read

/-- The value and its suffix fit in `new_ssid`. -/
def FitsSsid (src : Sources) (x : Setting) : Prop :=
  x.name = SSID1 → x.read.length + (suffix src).length < 30

instance (src : Sources) (x : Setting) : Decidable (x.FitsSsid src) := inferInstanceAs (Decidable (_ → _))

end Setting

/-- The settings before the first malformed line. -/
def settingsOf : List Reading → List Setting
  | [] => []
  | (.setting name value, whole) :: xs => ⟨name, value, whole⟩ :: settingsOf xs
  | (.malformed _, _) :: _ => []
  | (.comment _, _) :: xs | (.blank, _) :: xs => settingsOf xs

def hasMalformed : List Reading → Bool
  | [] => false
  | (.malformed _, _) :: _ => true
  | (.setting _ _, _) :: xs | (.comment _, _) :: xs | (.blank, _) :: xs => hasMalformed xs

variable {src : Sources} {name value : CStr}

theorem append_left_cancel_iff {s t u : CStr} : s.append u = t.append u ↔ s = t := by
  constructor
  · intro h
    exact CStr.ext (List.append_cancel_right (congrArg CStr.bytes h))
  · rintro rfl
    rfl

theorem Setting.read_eq_iff (x : Setting) : x.read = x.value ↔ x.whole = true ∨ x.value = .empty := by
  unfold Setting.read
  cases hw : x.whole with
  | true => simp
  | false =>
    rw [if_neg Bool.false_ne_true, or_iff_right Bool.false_ne_true]
    constructor
    · intro h
      refine CStr.ext (List.eq_nil_of_length_eq_zero ?_)
      have hlen := congrArg (fun s => s.bytes.length) h
      rw [List.length_dropLast] at hlen
      omega
    · intro h
      refine CStr.ext ?_
      change x.value.bytes.dropLast = x.value.bytes
      rw [h]
      rfl

theorem Setting.stored_eq_iff (src : Sources) (x : Setting) :
    x.stored src = x.wanted src ↔ x.whole = true ∨ x.value = .empty := by
  rw [← x.read_eq_iff, Setting.stored, Setting.wanted]
  split
  · exact append_left_cancel_iff
  · rfl

theorem splitLine_of {line : CStr} {front : List UInt8} {b c : UInt8} {more : List UInt8}
    (hline : line.bytes = front ++ [b]) (hsplit : front ++ [0, 0] = name.bytes ++ c :: (value.bytes ++ 0 :: more)) :
    splitLine (line.bytes ++ [0]) name.length = some (name, value) := by
  have hlast : line.length - 1 = front.length := by
    rw [← CStr.length_bytes, hline, List.length_append, List.length_singleton, Nat.add_sub_cancel]
  have hstrip : store (line.bytes ++ [0]) (line.length - 1) [0] = some (front ++ [0, 0]) := by
    have hone : [b].length = [(0 : UInt8)].length := rfl
    rw [hlast, hline, store_append hone, List.append_assoc]
    rfl
  have hcut : store (front ++ [0, 0]) name.length [0] =
      some (name.bytes ++ 0 :: (value.bytes ++ 0 :: more)) := by
    have hone : [c].length = [(0 : UInt8)].length := rfl
    have hmiddle : name.bytes ++ c :: (value.bytes ++ 0 :: more) =
        name.bytes ++ [c] ++ (value.bytes ++ 0 :: more) := by simp
    rw [hsplit, hmiddle, ← CStr.length_bytes, store_append hone]
    simp
  have hvalue : strAt (name.bytes ++ 0 :: (value.bytes ++ 0 :: more)) (name.length + 1) = some value := by
    apply strAt_of_drop
    rw [← CStr.length_bytes, List.drop_length_add_append, List.drop_succ_cons, List.drop_zero]
  simp only [splitLine, strAt_append, hstrip, hcut, hvalue, Option.bind_eq_bind, Option.bind_some]
  rfl

theorem splitLine_setting (hkind : (Line.setting name value).OfKind) (whole : Bool) :
    (∃ rest, strchr eqSign (Reading.chars (.setting name value, whole) ++ [0]) = .found name rest) ∧
      splitLine (Reading.chars (.setting name value, whole) ++ [0]) name.length =
        some (name, (Setting.mk name value whole).read) := by
  have hnul : 0 ∉ Reading.chars (.setting name value, whole) := by
    have h1 := name.noNul
    have h2 := value.noNul
    cases whole
    · simp [Reading.chars, Line.text, h1, h2, eqSign]
    · simp [Reading.chars, Line.text, h1, h2, eqSign, newline]
  refine ⟨⟨value.bytes ++ (if whole then [newline] else []) ++ [0], ?_⟩, ?_⟩
  · rw [← strchr_append hkind.1]
    simp [Reading.chars, Line.text]
  · let line : CStr := ⟨_, hnul⟩
    change splitLine (line.bytes ++ [0]) name.length = _
    cases whole with
    | true =>
      have hline : line.bytes = (Line.setting name value).text ++ [newline] := rfl
      have hsplit : (Line.setting name value).text ++ [0, 0] =
          name.bytes ++ eqSign :: ((Setting.mk name value true).read.bytes ++ 0 :: [0]) := by
        simp [Line.text, Setting.read]
      exact splitLine_of hline hsplit
    | false =>
      rcases List.eq_nil_or_concat value.bytes with hv | ⟨v, b, hv⟩
      · have hline : line.bytes = name.bytes ++ [eqSign] := by simp [line, Reading.chars, Line.text, hv]
        have hsplit : name.bytes ++ [0, 0] =
            name.bytes ++ 0 :: ((Setting.mk name value false).read.bytes ++ 0 :: []) := by
          simp [Setting.read, hv]
        exact splitLine_of hline hsplit
      · have hline : line.bytes = name.bytes ++ eqSign :: v ++ [b] := by
          simp [line, Reading.chars, Line.text, hv]
        have hsplit : name.bytes ++ eqSign :: v ++ [0, 0] =
            name.bytes ++ eqSign :: ((Setting.mk name value false).read.bytes ++ 0 :: [0]) := by
          simp [Setting.read, hv]
        exact splitLine_of hline hsplit

theorem holds_sprintf {size : Nat} (s : CStr) (h : s.length < size) :
    ∃ m, sprintf size s = some m ∧ Holds m s ∧ m.length = size := by
  have hlen : 0 + (literal s).length ≤ (List.replicate size (0 : UInt8)).length := by
    simp [literal]
    omega
  refine ⟨_, store_eq hlen, ⟨(List.replicate size 0).drop (literal s).length, ?_⟩, ?_⟩
  · simp [literal]
  · rw [length_store (store_eq hlen), List.length_replicate]

theorem sprintf_full {size : Nat} {s : CStr} (h : size ≤ s.length) : sprintf size s = none := by
  refine store_none ?_
  simp [literal]
  omega

theorem length_macText (src : Sources) : (macText src).length = 5 := rfl

theorem length_hex0 (b : UInt8) : (hex0 b).length ≤ 2 := by
  unfold hex0
  split
  · exact Nat.le_succ 1
  · exact Nat.le_refl 2

theorem length_wanMacText (src : Sources) : (wanMacText src).length < 32 := by
  have h := length_hex0
  have h0 := h (src.wanMac 0)
  have h1 := h (src.wanMac 1)
  have h2 := h (src.wanMac 2)
  have h3 := h (src.wanMac 3)
  have h4 := h (src.wanMac 4)
  have h5 := h (src.wanMac 5)
  simp only [wanMacText, CStr.length, List.length_append, List.length_cons, List.length_nil]
  omega

theorem newSsid_eq (src : Sources) (p : CStr) :
    newSsid src p = if p.length + (suffix src).length < 30 then some (p.append (suffix src)) else none := by
  have hcpy : strcpy (List.replicate 30 0) (literal p) = sprintf 30 p := by
    simp only [strcpy, strAt_literal, Option.bind_eq_bind, Option.bind_some]
    rfl
  have hroom : (macText src).length < 10 := by
    rw [length_macText]
    decide
  obtain ⟨mac, hmac, hholds, -⟩ := holds_sprintf (macText src) hroom
  rw [newSsid, hcpy]
  rcases Nat.lt_or_ge p.length 30 with hp | hp
  · obtain ⟨m, hm, hh, hlen⟩ := holds_sprintf p hp
    rw [hm]
    unfold suffix
    by_cases hflag : src.flashReadFlag ≠ 0
    · simp only [if_pos hflag, hmac, Option.bind_eq_bind, Option.bind_some, strcat_eq hh hholds.strAt_eq]
      split
      · next hroom =>
        obtain ⟨m', hm', hh', -⟩ := hh.append_room (macText src) (hlen ▸ hroom)
        rw [hm', Option.bind_some, hh'.strAt_eq]
      · next hfull =>
        rw [append_full (by rw [hlen]; exact Nat.not_lt.mp hfull), Option.bind_none]
    · have hempty : p.append .empty = p := CStr.ext (List.append_nil p.bytes)
      simp only [if_neg hflag, Option.bind_eq_bind, Option.bind_some, hh.strAt_eq, hempty]
      exact (if_pos hp).symm
  · rw [sprintf_full hp, if_neg (by omega)]
    rfl

def BlockView.edits (a : BlockView) (sets : List Entry) : BlockView :=
  sets.foldl (fun a e => a.edit e.1 e.2) a

def storedSets (src : Sources) (xs : List Setting) : List Entry := xs.map fun x => (x.name, x.stored src)

structure Readable (x : Reading) : Prop where
  plain : x.1.Plain
  there : x ≠ (.blank, false)

variable {dualImage : Bool} {heap : CStr} {mode : Int} {s : NvState} {i : Nat} {a : BlockView}
  {x : Reading} {xs : List Reading} {buf : Chars} {lines : List Chars} {need_commit : Bool}

theorem renewLoop_skipped (h : isSkipped buf = true) :
    renewLoop dualImage heap src mode (buf :: lines) need_commit s =
      renewLoop dualImage heap src mode lines need_commit s := if_pos h

theorem isSkipped_chars (h : Readable x) :
    isSkipped x.chars = match x.1 with
      | .comment _ | .blank => true
      | .setting _ _ | .malformed _ => false := by
  obtain ⟨l, whole⟩ := x
  have hkind := h.plain.kind
  have hone := h.plain.oneLine
  cases l with
  | comment text => rfl
  | blank =>
    cases whole with
    | true => rfl
    | false => exact absurd rfl h.there
  | setting name value =>
    cases hn : name.bytes with
    | nil => simp [isSkipped, Reading.chars, Line.text, hn, eqSign, newline, hash]
    | cons b bytes =>
      have hb : b ≠ hash := by simpa [Line.OfKind, hn] using hkind.2
      have hb' : b ≠ newline := fun he => hone (by simp [Line.text, hn, he])
      simp [isSkipped, Reading.chars, Line.text, hn, hb, hb']
  | malformed text =>
    cases hn : text.bytes with
    | nil => exact absurd (CStr.ext hn) hkind.2.2
    | cons b bytes =>
      have hb : b ≠ hash := by simpa [Line.OfKind, hn] using hkind.2.1
      have hb' : b ≠ newline := fun he => hone (by simp [Line.text, hn, he])
      simp [isSkipped, Reading.chars, Line.text, hn, hb, hb']

theorem renewLoop_setting {whole : Bool} (h : Readable (.setting name value, whole)) :
    renewLoop dualImage heap src mode (Reading.chars (.setting name value, whole) :: lines) need_commit s =
      if (Setting.mk name value whole).FitsSsid src then
        renewLoop dualImage heap src mode lines true
          (nvramBufset dualImage heap s mode name ((Setting.mk name value whole).stored src)).2
      else none := by
  obtain ⟨⟨rest, hfound⟩, hsplit⟩ := splitLine_setting h.plain.kind whole
  have hskip := isSkipped_chars h
  dsimp only at hskip
  rw [renewLoop, hskip, if_neg Bool.false_ne_true, hfound]
  simp only [hsplit, Option.bind_eq_bind, Option.bind_some, Setting.FitsSsid, Setting.stored]
  by_cases hn : name = SSID1
  · simp only [hn, if_true, forall_const, newSsid_eq]
    split
    · rfl
    · rfl
  · simp only [hn, if_false, false_imp_iff, if_true]

theorem renewLoop_malformed {text : CStr} {whole : Bool} (h : Readable (.malformed text, whole)) :
    renewLoop dualImage heap src mode (Reading.chars (.malformed text, whole) :: lines) need_commit s =
      some (.formatError s need_commit) := by
  have hskip := isSkipped_chars h
  have hnul : 0 ∉ Reading.chars (.malformed text, whole) := by
    have h1 := text.noNul
    cases whole
    · simp [Reading.chars, Line.text, h1]
    · simp [Reading.chars, Line.text, h1, newline]
  have hfree : eqSign ∉ Reading.chars (.malformed text, whole) := by
    have h1 := h.plain.kind.1
    cases whole
    · simpa [Reading.chars, Line.text] using h1
    · simpa [Reading.chars, Line.text, newline, eqSign] using h1
  have habsent := strchr_absent (s := ⟨_, hnul⟩) hfree (by decide) []
  dsimp only at hskip habsent
  rw [renewLoop, hskip, if_neg Bool.false_ne_true, habsent]

theorem renewLoop_models (hindex : checkIndex dualImage mode = some (i, info)) (hxs : ∀ x ∈ xs, Readable x)
    (hm : Models info s i a) (hv : a.valid = true) (need_commit : Bool)
    (hfits : ∀ x ∈ settingsOf xs, x.FitsSsid src) :
    ∃ s', renewLoop dualImage heap src mode (xs.map Reading.chars) need_commit s =
        some (if hasMalformed xs then .formatError s' (need_commit || !(settingsOf xs).isEmpty) else .eof s') ∧
      Models info s' i (a.edits (storedSets src (settingsOf xs))) := by
  induction xs generalizing s a need_commit with
  | nil => exact ⟨s, rfl, hm⟩
  | cons x xs ih =>
    have hx := hxs x List.mem_cons_self
    have htail := fun y hy => hxs y (List.mem_cons_of_mem x hy)
    obtain ⟨l, whole⟩ := x
    rw [List.map_cons]
    cases l with
    | comment | blank =>
      rw [renewLoop_skipped (isSkipped_chars hx)]
      exact ih htail hm hv need_commit hfits
    | malformed text =>
      refine ⟨s, ?_, hm⟩
      rw [renewLoop_malformed hx, hasMalformed, if_pos rfl, settingsOf, List.isEmpty_nil, Bool.not_true,
        Bool.or_false]
    | setting name value =>
      have hhead := hfits ⟨name, value, whole⟩ List.mem_cons_self
      obtain ⟨hm', -, -⟩ := nvramBufset_models hindex hm heap name ((Setting.mk name value whole).stored src)
      have hload : a.load heap = a := if_pos hv
      rw [hload] at hm'
      obtain ⟨s', hs', hmodels⟩ := ih htail hm' (by rw [BlockView.edit_valid, hv]) true
        fun y hy => hfits y (List.mem_cons_of_mem _ hy)
      refine ⟨s', ?_, hmodels⟩
      rw [renewLoop_setting hx, if_pos hhead, hs', settingsOf, hasMalformed, List.isEmpty_cons,
        Bool.true_or, Bool.not_false, Bool.or_true]

theorem renewLoop_overflow (hxs : ∀ x ∈ xs, Readable x) (s : NvState) (need_commit : Bool)
    (hover : ∃ x ∈ settingsOf xs, ¬ x.FitsSsid src) :
    renewLoop dualImage heap src mode (xs.map Reading.chars) need_commit s = none := by
  induction xs generalizing s need_commit with
  | nil =>
    obtain ⟨x, hx, -⟩ := hover
    cases hx
  | cons x xs ih =>
    have hx := hxs x List.mem_cons_self
    have htail := fun y hy => hxs y (List.mem_cons_of_mem x hy)
    obtain ⟨l, whole⟩ := x
    rw [List.map_cons]
    cases l with
    | comment | blank =>
      rw [renewLoop_skipped (isSkipped_chars hx)]
      exact ih htail s need_commit hover
    | malformed text =>
      obtain ⟨y, hy, -⟩ := hover
      cases hy
    | setting name value =>
      rw [renewLoop_setting hx]
      split
      · next hhead =>
        obtain ⟨y, hy, hnot⟩ := hover
        rcases List.mem_cons.mp hy with rfl | hy
        · exact absurd hhead hnot
        · exact ih htail _ _ ⟨y, hy, hnot⟩
      · rfl

/-- The entries with the settings made, as far as there is room. -/
def merged (es sets : List Entry) : List Entry := fillWithin MAX_CACHE_ENTRY es sets

/-- The names there is room for: those of the entries, and the first new ones. -/
def roomFor (es sets : List Entry) : List CStr := (addKeys (keys es) (keys sets)).take MAX_CACHE_ENTRY

variable {sets : List Entry} {flash : Store}

theorem keys_merged (h : es.length ≤ MAX_CACHE_ENTRY) (sets : List Entry) :
    keys (merged es sets) = roomFor es sets := keys_fillWithin h sets

theorem BlockView.edit_entries (name value : CStr) (a : BlockView) :
    (a.edit name value).entries = setWithin MAX_CACHE_ENTRY a.entries (name, value) := by
  unfold edit setWithin
  by_cases hroom : hasRoom a.entries name
  · rw [if_pos hroom]
    exact (if_pos hroom).symm
  · rw [if_neg hroom]
    exact (if_neg hroom).symm

theorem BlockView.edits_append (a : BlockView) (sets : List Entry) (e : Entry) :
    a.edits (sets ++ [e]) = (a.edits sets).edit e.1 e.2 := List.foldl_append

theorem BlockView.edits_edits (a : BlockView) (sets more : List Entry) :
    (a.edits sets).edits more = a.edits (sets ++ more) := List.foldl_append.symm

@[simp] theorem BlockView.edit_stored (name value : CStr) (a : BlockView) :
    (a.edit name value).stored = a.stored := by
  unfold edit
  split
  · rfl
  · rfl

theorem BlockView.edits_same (a : BlockView) (sets : List Entry) :
    (a.edits sets).valid = a.valid ∧ (a.edits sets).stored = a.stored ∧
      (a.edits sets).entries = merged a.entries sets := by
  induction sets using List.reverseRecOn with
  | nil => exact ⟨rfl, rfl, rfl⟩
  | append_singleton sets e ih =>
    obtain ⟨hvalid, hstored, hentries⟩ := ih
    rw [edits_append, edit_valid, edit_stored, edit_entries, hentries]
    exact ⟨hvalid, hstored, (fillWithin_append _ _ _ _).symm⟩

theorem BlockView.edits_dirty (hd : a.dirty = false) (sets : List Entry) :
    (a.edits sets).dirty = true ↔ ∃ n ∈ keys sets, n ∈ keys (merged a.entries sets) := by
  induction sets using List.reverseRecOn with
  | nil => simp [edits, hd]
  | append_singleton sets e ih =>
    rw [edits_append, merged, fillWithin_append, edit, (a.edits_same sets).2.2]
    by_cases hroom : hasRoom (merged a.entries sets) e.1
    · rw [if_pos hroom]
      exact iff_of_true rfl ⟨e.1, by simp [keys], mem_keys_setWithin.mpr (.inr ⟨rfl, hroom⟩)⟩
    · have hsame : setWithin MAX_CACHE_ENTRY (merged a.entries sets) e = merged a.entries sets := if_neg hroom
      have hnot : e.1 ∉ keys (merged a.entries sets) := fun h => hroom (.inl h)
      rw [if_neg hroom, ih]
      change _ ↔ ∃ n ∈ keys (sets ++ [e]), n ∈ keys (setWithin MAX_CACHE_ENTRY (merged a.entries sets) e)
      rw [hsame]
      constructor
      · rintro ⟨n, hn, hmem⟩
        exact ⟨n, by rw [keys_append]; exact List.mem_append_left _ hn, hmem⟩
      · rintro ⟨n, hn, hmem⟩
        rw [keys_append, List.mem_append] at hn
        refine ⟨n, hn.resolve_right fun he => ?_, hmem⟩
        obtain rfl : n = e.1 := List.mem_singleton.mp he
        exact hnot hmem

theorem BlockView.save_stored (info : BlockInfo) (a : BlockView) :
    ((a.save info).save info).stored = (a.save info).stored := by
  by_cases h : a.dirty && !refused info.flashMaxLen 0 a.entries
  · have hs : a.save info = { a with
        dirty := false, stored := parsedFrom info (envData info (encode a.entries)) } := if_pos h
    rw [hs, save, if_neg (by simp)]
  · have hs : a.save info = a := if_neg h
    rw [hs, hs]

theorem BlockView.close_save_stored (info : BlockInfo) (a : BlockView) :
    ((a.save info).close info).stored = (a.save info).stored := by
  unfold close
  split
  · exact a.save_stored info
  · rfl

/-- The block `"2860"`. -/
def rt2860 : BlockInfo := ⟨0x2000, ENV_BLK_SIZE * 4⟩

theorem checkIndex_rt2860 (dualImage : Bool) :
    checkIndex dualImage (RT2860_NVRAM dualImage) = some (if dualImage then 1 else 0, rt2860) := by
  cases dualImage
  · rfl
  · rfl

/-- The two names that are set behind the file. -/
def ownSets (src : Sources) : List Entry :=
  (WAN_MAC_ADDR, wanMacText src) :: (wlancrypt src).toList.map fun nvbuf => (wlancryptluotao, nvbuf)

namespace SettingsFile

def settings (f : SettingsFile) : List Setting := settingsOf f.readings

def malformed (f : SettingsFile) : Bool := hasMalformed f.readings

def allSets (f : SettingsFile) (src : Sources) : List Entry :=
  storedSets src f.settings ++ if f.malformed then [] else ownSets src

theorem readable (f : SettingsFile) : ∀ x ∈ f.readings, Readable x := by
  intro x hx
  rcases List.mem_append.mp hx with hx | hx
  · obtain ⟨l, hl, hx⟩ := List.mem_flatMap.mp hx
    have hplain := f.plain l (List.mem_append_left _ hl)
    unfold Line.readings at hx
    split at hx
    · obtain rfl := List.mem_singleton.mp hx
      exact ⟨hplain, by simp⟩
    · next hfull =>
      rcases List.mem_cons.mp hx with rfl | hx
      · refine ⟨hplain, fun h => hfull ?_⟩
        obtain rfl : l = .blank := congrArg Prod.fst h
        decide
      · obtain rfl := List.mem_singleton.mp hx
        exact ⟨⟨trivial, List.not_mem_nil, by decide⟩, by simp⟩
  · obtain ⟨l, hl, rfl⟩ := List.mem_map.mp hx
    refine ⟨f.plain l (List.mem_append_right _ hl), fun h => f.lastThere ?_⟩
    obtain rfl : l = .blank := congrArg Prod.fst h
    simpa using hl

end SettingsFile

def loaded (heap : CStr) (flash : Store) : BlockView :=
  ⟨true, false, loadEntries heap rt2860 flash, fun heap => loadEntries heap rt2860 flash⟩

theorem setOwn_models (hindex : checkIndex dualImage (RT2860_NVRAM dualImage) = some (i, info))
    (hm : Models info s i a) (hv : a.valid = true) :
    ∃ s', setOwn dualImage heap src s = some s' ∧ Models info s' i (a.edits (ownSets src)) := by
  obtain ⟨mac, hmac, hholds, -⟩ := holds_sprintf (wanMacText src) (length_wanMacText src)
  obtain ⟨hm', -, -⟩ := nvramBufset_models hindex hm heap WAN_MAC_ADDR (wanMacText src)
  have hload : a.load heap = a := if_pos hv
  rw [hload] at hm'
  simp only [setOwn, hmac, Option.bind_eq_bind, Option.bind_some, hholds.strAt_eq]
  refine ⟨_, rfl, ?_⟩
  unfold ownSets
  cases wlancrypt src with
  | none => exact hm'
  | some nvbuf =>
    obtain ⟨hm'', -, -⟩ := nvramBufset_models hindex hm' heap wlancryptluotao nvbuf
    have hload' : (a.edit WAN_MAC_ADDR (wanMacText src)).load heap = a.edit WAN_MAC_ADDR (wanMacText src) :=
      if_pos (by rw [BlockView.edit_valid, hv])
    rw [hload'] at hm''
    exact hm''

theorem renewNvram_models (dualImage : Bool) (heap : CStr) (flash : Store) (f : SettingsFile)
    (hfits : ∀ x ∈ f.settings, x.FitsSsid src) :
    ∃ s', renewNvram dualImage heap src (RT2860_NVRAM dualImage) { flash } (some f.bytes) =
        some ⟨if f.malformed then -1 else 0, s'⟩ ∧
      ∀ heap', loadEntries heap' rt2860 s'.flash =
        (((loaded heap flash).edits (f.allSets src)).save rt2860).stored heap' := by
  have hindex := checkIndex_rt2860 dualImage
  have hload (b : BlockView) (hb : b.valid = true) : b.load heap = b := if_pos hb
  have hm : Models rt2860 (nvramInit dualImage heap { flash } (RT2860_NVRAM dualImage))
      (if dualImage then 1 else 0) (loaded heap flash) :=
    (nvramInit_models hindex (models_unloaded rt2860 rfl) heap).1
  obtain ⟨s', hloop, hm'⟩ := renewLoop_models hindex f.readable hm rfl false hfits
  have hvalid : ((loaded heap flash).edits (storedSets src f.settings)).valid = true :=
    ((loaded heap flash).edits_same (storedSets src f.settings)).1
  rw [renewNvram, findDefault_bytes]
  dsimp only
  rw [hloop, SettingsFile.allSets, SettingsFile.malformed]
  change Models rt2860 s' _ ((loaded heap flash).edits (storedSets src f.settings)) at hm'
  cases hbad : hasMalformed f.readings with
  | true =>
    rw [if_pos rfl, if_pos rfl, if_pos rfl, List.append_nil, Bool.false_or]
    obtain ⟨hcommit, -⟩ := nvramCommit_models hindex hm' heap
    refine ⟨_, rfl, fun heap' => ?_⟩
    cases hnone : (settingsOf f.readings).isEmpty with
    | true =>
      have hnil : f.settings = [] := List.isEmpty_iff.mp hnone
      rw [Bool.not_true, if_neg Bool.false_ne_true, hm'.stored, hnil]
      rfl
    | false => rw [Bool.not_false, if_pos rfl, hcommit.stored, hload _ hvalid]
  | false =>
    rw [if_neg Bool.false_ne_true, if_neg Bool.false_ne_true, if_neg Bool.false_ne_true]
    obtain ⟨s'', hown, hm''⟩ := setOwn_models hindex hm' hvalid
    have hvalid' : ((loaded heap flash).edits (storedSets src f.settings ++ ownSets src)).valid = true :=
      ((loaded heap flash).edits_same _).1
    rw [BlockView.edits_edits] at hm''
    obtain ⟨hcommit, -⟩ := nvramCommit_models hindex hm'' heap
    rw [hload _ hvalid'] at hcommit
    obtain ⟨hclose, -⟩ := nvramClose_models hindex hcommit
    refine ⟨nvramClose dualImage (nvramCommit dualImage heap s'' (RT2860_NVRAM dualImage)).state
      (RT2860_NVRAM dualImage), ?_, fun heap' => ?_⟩
    · simp only [Option.bind_eq_bind, Option.bind_some]
      rw [hown]
      rfl
    · rw [hclose.stored, BlockView.close_save_stored]

theorem renewNvram_overflow (f : SettingsFile) (hover : ∃ x ∈ f.settings, ¬ x.FitsSsid src) :
    renewNvram dualImage heap src mode s (some f.bytes) = none := by
  rw [renewNvram, findDefault_bytes]
  dsimp only
  rw [renewLoop_overflow f.readable _ _ hover]
  rfl

/-- The block maps the name to the value, whatever follows the buffer of a load. -/
def Maps (flash : Store) (name value : CStr) : Prop :=
  ∀ heap, (loadEntries heap rt2860 flash).lookup name = some value

def SettingsFile.lastSetting (f : SettingsFile) (name : CStr) : Option Setting :=
  lastOf (f.settings.map fun x => (x.name, x)) name

/-- The import returns 0 and the block maps every name of the file to what its last line says, except
the two names that are set behind it; or it returns -1 at a malformed line, and every name that was in
the block is mapped to what it was. Nothing is written outside of an array. -/
def ImportKeeps (dualImage : Bool) (heap : CStr) (src : Sources) (flash : Store) (f : SettingsFile) : Prop :=
  ∃ r, renewNvram dualImage heap src (RT2860_NVRAM dualImage) { flash } (some f.bytes) = some r ∧
    (r.ret = 0 → ∀ name x, f.lastSetting name = some x → name ≠ WAN_MAC_ADDR → name ≠ wlancryptluotao →
      Maps r.state.flash name (x.wanted src)) ∧
    (f.malformed = true → r.ret = -1 ∧ ∀ name value, Maps flash name value → Maps r.state.flash name value)

/-- One of the names finds room, and the entries are not so many that their commit is refused. -/
def WritesOut (es sets : List Entry) : Prop :=
  (∃ n ∈ keys sets, n ∈ roomFor es sets) ∧ refused rt2860.flashMaxLen 0 (merged es sets) = false

/-- The files that can be imported to a block with the entries `es`: no SSID is too long for its array.
If all lines are well formed, the last line of each name is read whole or has no value, there is room
for the name, and its entry ends inside the block; a block that is not written out at all has its
values before. If a line is malformed, the lines before it set no name of the block to something else
and push none out of the block. -/
structure Importable (src : Sources) (flash : Store) (es : List Entry) (f : SettingsFile) : Prop where
  ssid : ∀ x ∈ f.settings, x.FitsSsid src
  written : f.malformed = false → WritesOut es (f.allSets src) → ∀ name x, f.lastSetting name = some x →
    name ≠ WAN_MAC_ADDR → name ≠ wlancryptluotao →
      (x.whole = true ∨ x.value = .empty) ∧ name ∈ roomFor es (f.allSets src) ∧
        endOf name (merged es (f.allSets src)) ≤ dataLen rt2860
  unwritten : f.malformed = false → ¬ WritesOut es (f.allSets src) → ∀ name x,
    f.lastSetting name = some x → name ≠ WAN_MAC_ADDR → name ≠ wlancryptluotao →
      Maps flash name (x.wanted src)
  undisturbed : f.malformed = true → WritesOut es (f.allSets src) → ∀ name value, Maps flash name value →
    (∀ x, f.lastSetting name = some x → x.stored src = value) ∧
      endOf name (merged es (f.allSets src)) ≤ dataLen rt2860

theorem lastOf_storedSets (src : Sources) (f : SettingsFile) (name : CStr) :
    lastOf (storedSets src f.settings) name = (f.lastSetting name).map (Setting.stored src) := by
  rw [SettingsFile.lastSetting, ← lastOf_map, storedSets, List.map_map]
  rfl

theorem lastOf_ownSets (src : Sources) {name : CStr} (hwan : name ≠ WAN_MAC_ADDR)
    (hcrypt : name ≠ wlancryptluotao) : lastOf (ownSets src) name = none := by
  refine lastOf_eq_none ?_
  unfold ownSets
  cases wlancrypt src with
  | none => simpa using hwan
  | some nvbuf => simpa using ⟨hwan, hcrypt⟩

theorem merged_names (heap : CStr) (flash : Store) (src : Sources) (f : SettingsFile) :
    ∀ e ∈ merged (loadEntries heap rt2860 flash) (f.allSets src), eqSign ∉ e.1.bytes := by
  have hsettings : ∀ xs : List Reading, (∀ x ∈ xs, Readable x) → ∀ x ∈ settingsOf xs, eqSign ∉ x.name.bytes := by
    intro xs
    induction xs with
    | nil => exact fun _ x hx => absurd hx List.not_mem_nil
    | cons y xs ih =>
      intro hxs x hx
      have htail := ih fun z hz => hxs z (List.mem_cons_of_mem y hz)
      have hy := (hxs y List.mem_cons_self).plain.kind
      obtain ⟨l, whole⟩ := y
      cases l with
      | comment text => exact htail x hx
      | blank => exact htail x hx
      | malformed text => exact absurd hx List.not_mem_nil
      | setting name value =>
        rcases List.mem_cons.mp hx with rfl | hx
        · exact hy.1
        · exact htail x hx
  intro e he
  rcases mem_keys_fillWithin (mem_keys_of_mem he) with h | h
  · obtain ⟨e', he', hk⟩ := List.mem_map.mp h
    rw [← hk]
    exact loadEntries_names heap rt2860 flash e' he'
  · rw [SettingsFile.allSets, keys_append, List.mem_append] at h
    rcases h with h | h
    · obtain ⟨e', he', hk⟩ := List.mem_map.mp h
      obtain ⟨x, hx, rfl⟩ := List.mem_map.mp he'
      rw [← hk]
      exact hsettings f.readings f.readable x hx
    · split at h
      · cases h
      · rcases List.mem_cons.mp h with h | h
        · rw [h]
          exact (by decide : eqSign ∉ WAN_MAC_ADDR.bytes)
        · obtain ⟨e', he', hk⟩ := List.mem_map.mp h
          obtain ⟨nvbuf, -, rfl⟩ := List.mem_map.mp he'
          rw [← hk]
          exact (by decide : eqSign ∉ wlancryptluotao.bytes)

theorem maps_imported_iff {s' : NvState} (f : SettingsFile)
    (hs' : ∀ heap', loadEntries heap' rt2860 s'.flash =
      (((loaded heap flash).edits (f.allSets src)).save rt2860).stored heap') :
    (WritesOut (loadEntries heap rt2860 flash) (f.allSets src) → ∀ name value,
        (Maps s'.flash name value ↔
          (merged (loadEntries heap rt2860 flash) (f.allSets src)).lookup name = some value ∧
            endOf name (merged (loadEntries heap rt2860 flash) (f.allSets src)) ≤ dataLen rt2860)) ∧
      (¬ WritesOut (loadEntries heap rt2860 flash) (f.allSets src) → ∀ name value,
        (Maps s'.flash name value ↔ Maps flash name value)) := by
  have hcount := length_loadEntries heap rt2860 flash
  obtain ⟨-, hstored, hentries⟩ := (loaded heap flash).edits_same (f.allSets src)
  have hdirty := (loaded heap flash).edits_dirty rfl (f.allSets src)
  change ((loaded heap flash).edits (f.allSets src)).entries = merged (loadEntries heap rt2860 flash) _ at hentries
  change _ ↔ ∃ n ∈ _, n ∈ keys (merged (loadEntries heap rt2860 flash) _) at hdirty
  rw [keys_merged hcount] at hdirty
  unfold Maps
  simp only [hs', BlockView.save]
  constructor
  · intro ⟨hroom, hok⟩ name value
    rw [if_pos (by rw [hdirty.mpr hroom, hentries, hok]; rfl)]
    dsimp only
    rw [hentries]
    exact parsedFrom_lookup_iff (by decide) (merged_names heap flash src f) (length_fillWithin hcount _)
  · intro hnot name value
    rw [if_neg, hstored]
    · rfl
    · intro hsave
      rw [Bool.and_eq_true, Bool.not_eq_true', hentries] at hsave
      exact hnot ⟨hdirty.mp hsave.1, hsave.2⟩

theorem lookup_merged {f : SettingsFile} {name : CStr} (hroom : name ∈ keys (merged es (f.allSets src)))
    (hown : f.malformed = true ∨ name ≠ WAN_MAC_ADDR ∧ name ≠ wlancryptluotao) :
    (merged es (f.allSets src)).lookup name =
      ((f.lastSetting name).map (Setting.stored src)).or (es.lookup name) := by
  have hnone : lastOf (if f.malformed then [] else ownSets src) name = none := by
    rcases hown with hbad | ⟨hwan, hcrypt⟩
    · rw [if_pos hbad, lastOf_nil]
    · split
      · exact lastOf_nil name
      · exact lastOf_ownSets src hwan hcrypt
  rw [merged, lookup_fillWithin hroom, SettingsFile.allSets, lastOf_append, hnone, Option.none_or,
    lastOf_storedSets]

/-- `renew_nvram` keeps every line of a settings file exactly when the file can be imported. -/
theorem renewNvram_keeps_iff (dualImage : Bool) (heap : CStr) (src : Sources) (flash : Store)
    (f : SettingsFile) :
    ImportKeeps dualImage heap src flash f ↔ Importable src flash (loadEntries heap rt2860 flash) f := by
  have hcount := length_loadEntries heap rt2860 flash
  by_cases hfits : ∀ x ∈ f.settings, x.FitsSsid src
  · obtain ⟨s', hrenew, hs'⟩ := renewNvram_models dualImage heap flash f hfits
    obtain ⟨hwritten, hunwritten⟩ := maps_imported_iff f hs'
    constructor
    · rintro ⟨r, hr, hkept, hbad⟩
      obtain rfl := Option.some.inj (hrenew.symm.trans hr)
      refine ⟨hfits, fun hmal hout name x hx hwan hcrypt => ?_, fun hmal hout name x hx hwan hcrypt => ?_,
        fun hmal hout name value hmaps => ?_⟩
      · have hmaps := hkept (by rw [hmal]; rfl) name x hx hwan hcrypt
        obtain ⟨hlookup, hend⟩ := (hwritten hout name _).mp hmaps
        have hroom := mem_keys_of_lookup hlookup
        rw [lookup_merged hroom (.inr ⟨hwan, hcrypt⟩), hx, Option.map_some, Option.some_or] at hlookup
        exact ⟨(x.stored_eq_iff src).mp (Option.some.inj hlookup), keys_merged hcount _ ▸ hroom, hend⟩
      · exact (hunwritten hout name _).mp (hkept (by rw [hmal]; rfl) name x hx hwan hcrypt)
      · obtain ⟨hlookup, hend⟩ := (hwritten hout name value).mp ((hbad hmal).2 name value hmaps)
        rw [lookup_merged (mem_keys_of_lookup hlookup) (.inl hmal)] at hlookup
        refine ⟨fun x hx => ?_, hend⟩
        rw [hx, Option.map_some, Option.some_or] at hlookup
        exact Option.some.inj hlookup
    · intro h
      refine ⟨_, hrenew, fun hret name x hx hwan hcrypt => ?_, fun hmal => ⟨by rw [hmal]; rfl, ?_⟩⟩
      · have hmal : f.malformed = false := by
          cases hm : f.malformed with
          | false => rfl
          | true => rw [hm] at hret; cases hret
        by_cases hout : WritesOut (loadEntries heap rt2860 flash) (f.allSets src)
        · obtain ⟨hvalue, hroom, hend⟩ := h.written hmal hout name x hx hwan hcrypt
          refine (hwritten hout name _).mpr ⟨?_, hend⟩
          rw [lookup_merged (keys_merged hcount _ ▸ hroom) (.inr ⟨hwan, hcrypt⟩), hx, Option.map_some,
            Option.some_or, (x.stored_eq_iff src).mpr hvalue]
        · exact (hunwritten hout name _).mpr (h.unwritten hmal hout name x hx hwan hcrypt)
      · intro name value hmaps
        by_cases hout : WritesOut (loadEntries heap rt2860 flash) (f.allSets src)
        · obtain ⟨hvalue, hend⟩ := h.undisturbed hmal hout name value hmaps
          have hkeys : name ∈ keys (loadEntries heap rt2860 flash) := mem_keys_of_lookup (hmaps heap)
          refine (hwritten hout name value).mpr ⟨?_, hend⟩
          rw [lookup_merged (keys_subset_fillWithin _ _ _ hkeys) (.inl hmal), hmaps heap]
          cases hx : f.lastSetting name with
          | none => rfl
          | some x => rw [Option.map_some, Option.some_or, hvalue x hx]
        · exact (hunwritten hout name value).mpr hmaps
  · have hover : ∃ x ∈ f.settings, ¬ x.FitsSsid src := by simpa using hfits
    refine iff_of_false ?_ fun h => hfits h.ssid
    rintro ⟨r, hr, -⟩
    rw [renewNvram_overflow f hover] at hr
    cases hr

/-! The value `bc` in a last line that does not end. -/

def valueBC : CStr := ⟨[98, 99], by decide⟩

def unendedFile : SettingsFile where
  header := []
  lines := []
  last := some (.setting nameA valueBC)
  headerPlain := by simp
  plain := by
    intro l hl
    obtain rfl : l = .setting nameA valueBC := by simpa using hl
    exact ⟨⟨by decide, by decide⟩, by decide, by decide⟩
  lastThere := by simp

def someSources : Sources := ⟨6, fun _ => 0, fun _ => 0, none⟩

example : fileLines unendedFile.bytes = [defaultText ++ [newline], [97, 61, 98, 99]] := by decide

/-- Its last byte is lost. -/
theorem unendedLine_cut : ¬ ImportKeeps false .empty someSources zeroFlash unendedFile := by
  have hfits : ∀ x ∈ unendedFile.settings, x.FitsSsid someSources := by decide
  have hlast : unendedFile.lastSetting nameA = some ⟨nameA, valueBC, false⟩ := by decide
  have hwan : nameA ≠ WAN_MAC_ADDR := by decide
  have hcrypt : nameA ≠ wlancryptluotao := by decide
  obtain ⟨s', hrenew, hs'⟩ := renewNvram_models false .empty zeroFlash unendedFile hfits
  obtain ⟨hwritten, hunwritten⟩ := maps_imported_iff unendedFile hs'
  rintro ⟨r, hr, hkept, -⟩
  obtain rfl := Option.some.inj (hrenew.symm.trans hr)
  have hmaps := hkept rfl nameA _ hlast hwan hcrypt
  by_cases hout : WritesOut (loadEntries .empty rt2860 zeroFlash) (unendedFile.allSets someSources)
  · obtain ⟨hlookup, -⟩ := (hwritten hout _ _).mp hmaps
    rw [lookup_merged (mem_keys_of_lookup hlookup) (.inr ⟨hwan, hcrypt⟩), hlast] at hlookup
    exact absurd hlookup (by decide)
  · have hzero := (hunwritten hout _ _).mp hmaps .empty
    rw [loadEntries_zeroFlash (by decide)] at hzero
    cases hzero

end Ralink.Nvram
