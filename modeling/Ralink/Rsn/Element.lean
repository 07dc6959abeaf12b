import Mathlib.Tactic

/-! The grammar of the element that tells the ciphers and the key management of a station: a header,
the version, the group suite, the counted lists of pairwise and AKM suites and, in an RSN element,
the capabilities and a counted list of PMKIDs. An element may end behind each of its parts. -/
namespace Ralink.Rsn

def IE_WPA : UInt8 := 221
def IE_RSN : UInt8 := 48

/-- The fields with suites, capabilities or PMKIDs. -/
inductive Field
  | GROUP_SUITE
  | PAIRWISE_SUITE
  | AKM_SUITE
  | RSN_CAP_INFO
  | PMKID_LIST
  deriving DecidableEq

namespace Field

def code : Field → UInt8
  | GROUP_SUITE => 0
  | PAIRWISE_SUITE => 1
  | AKM_SUITE => 2
  | RSN_CAP_INFO => 3
  | PMKID_LIST => 4

/-- The bytes of a suite, of the capabilities and of a PMKID. -/
def length : Field → Nat
  | GROUP_SUITE => 4
  | PAIRWISE_SUITE => 4
  | AKM_SUITE => 4
  | RSN_CAP_INFO => 2
  | PMKID_LIST => 16

end Field

def le16 (b0 b1 : UInt8) : UInt16 := b0.toUInt16 ||| (b1.toUInt16 <<< 8)

/-- Entries of `w` bytes behind their number. -/
structure Counted (w : Nat) where
  b0 : UInt8
  b1 : UInt8
  entries : List UInt8
  length_entries : entries.length = w * (le16 b0 b1).toNat

namespace Counted

variable {w : Nat}

def count (l : Counted w) : Nat := (le16 l.b0 l.b1).toNat

def encode (l : Counted w) : List UInt8 := l.b0 :: l.b1 :: l.entries

theorem length_encode (l : Counted w) : l.encode.length = 2 + w * l.count := by
  rw [encode, List.length_cons, List.length_cons, l.length_entries, count]
  omega

theorem encode_inj {l l' : Counted w} {rest rest' : List UInt8}
    (h : l.encode ++ rest = l'.encode ++ rest') : l = l' ∧ rest = rest' := by
  obtain ⟨b0, b1, entries, hlen⟩ := l
  obtain ⟨b0', b1', entries', hlen'⟩ := l'
  simp only [encode, List.cons_append, List.cons.injEq] at h
  obtain ⟨rfl, rfl, happ⟩ := h
  obtain ⟨rfl, rfl⟩ := List.append_inj happ (hlen.trans hlen'.symm)
  exact ⟨rfl, rfl⟩

end Counted

/-- The OUI and the version of a WPA element, the version of an RSN element. -/
def versionLength (Eid : UInt8) : Option Nat :=
  if Eid = IE_WPA then some 6 else if Eid = IE_RSN then some 2 else none

inductive Part
  | header
  | version
  | group
  | pairwise
  | akm
  | caps

/-- What is left of an element behind one of its parts. -/
inductive Behind (Eid : UInt8) (bytes : List UInt8) : Part → List UInt8 → Prop
  | header {Len rest} : bytes = Eid :: Len :: rest → Len.toNat = rest.length →
      Behind Eid bytes .header rest
  | version {version rest} : Behind Eid bytes .header (version ++ rest) →
      versionLength Eid = some version.length → Behind Eid bytes .version rest
  | group {group rest} : Behind Eid bytes .version (group ++ rest) → group.length = 4 →
      Behind Eid bytes .group rest
  | pairwise {l : Counted 4} {rest} : Behind Eid bytes .group (l.encode ++ rest) →
      Behind Eid bytes .pairwise rest
  | akm {l : Counted 4} {rest} : Behind Eid bytes .pairwise (l.encode ++ rest) →
      Behind Eid bytes .akm rest
  | caps {caps rest} : Behind Eid bytes .akm (caps ++ rest) → caps.length = 2 → Eid = IE_RSN →
      Behind Eid bytes .caps rest

/-- The grammar places `count` suites at `off` in the element. -/
inductive Places (Eid : UInt8) (bytes : List UInt8) : Field → Nat → Nat → List UInt8 → Prop
  | group {group rest off} : Behind Eid bytes .version (group ++ rest) → group.length = 4 →
      bytes.length = off + (group ++ rest).length → Places Eid bytes .GROUP_SUITE off 1 group
  | pairwise {l : Counted 4} {rest off} : Behind Eid bytes .group (l.encode ++ rest) →
      bytes.length = off + (l.entries ++ rest).length →
      Places Eid bytes .PAIRWISE_SUITE off l.count l.entries
  | akm {l : Counted 4} {rest off} : Behind Eid bytes .pairwise (l.encode ++ rest) →
      bytes.length = off + (l.entries ++ rest).length →
      Places Eid bytes .AKM_SUITE off l.count l.entries
  | caps {caps rest off} : Behind Eid bytes .akm (caps ++ rest) → caps.length = 2 → Eid = IE_RSN →
      bytes.length = off + (caps ++ rest).length → Places Eid bytes .RSN_CAP_INFO off 1 caps
  | pmkids {l : Counted 16} {rest off} : Behind Eid bytes .caps (l.encode ++ rest) → 0 < l.count →
      bytes.length = off + (l.entries ++ rest).length →
      Places Eid bytes .PMKID_LIST off l.count l.entries

section Grammar

variable {Eid : UInt8} {bytes rest rest' suites suites' : List UInt8} {part : Part} {field : Field}
  {off off' count count' : Nat}

theorem Behind.suffix (h : Behind Eid bytes part rest) : rest <:+ bytes := by
  induction h with
  | header hbytes hlen =>
    rw [hbytes]
    exact ⟨[_, _], rfl⟩
  | version _ _ ih => exact (List.suffix_append _ _).trans ih
  | group _ _ ih => exact (List.suffix_append _ _).trans ih
  | pairwise _ ih => exact (List.suffix_append _ _).trans ih
  | akm _ ih => exact (List.suffix_append _ _).trans ih
  | caps _ _ _ ih => exact (List.suffix_append _ _).trans ih

theorem Behind.header_bytes (h : Behind Eid bytes part rest) :
    ∃ Len body, bytes = Eid :: Len :: body ∧ Len.toNat = body.length := by
  induction h with
  | header hbytes hlen => exact ⟨_, _, hbytes, hlen⟩
  | version _ _ ih => exact ih
  | group _ _ ih => exact ih
  | pairwise _ ih => exact ih
  | akm _ ih => exact ih
  | caps _ _ _ ih => exact ih

theorem Behind.unique (h : Behind Eid bytes part rest) (h' : Behind Eid bytes part rest') : rest = rest' := by
  induction h generalizing rest' with
  | header hbytes _ =>
    cases h' with
    | header hbytes' _ =>
      rw [hbytes] at hbytes'
      exact (List.cons.inj (List.cons.inj hbytes').2).2
  | version _ hlen ih =>
    cases h' with
    | version h' hlen' =>
      rw [hlen] at hlen'
      exact (List.append_inj (ih h') (Option.some.inj hlen')).2
  | group _ hlen ih =>
    cases h' with
    | group h' hlen' => exact (List.append_inj (ih h') (hlen.trans hlen'.symm)).2
  | pairwise _ ih =>
    cases h' with
    | pairwise h' => exact (Counted.encode_inj (ih h')).2
  | akm _ ih =>
    cases h' with
    | akm h' => exact (Counted.encode_inj (ih h')).2
  | caps _ hlen _ ih =>
    cases h' with
    | caps h' hlen' _ => exact (List.append_inj (ih h') (hlen.trans hlen'.symm)).2

theorem drop_of_suffix (h : rest <:+ bytes) (hlen : bytes.length = off + rest.length) :
    bytes.drop off = rest := by
  obtain ⟨front, rfl⟩ := h
  rw [List.length_append] at hlen
  rw [List.drop_append_of_le_length (by omega), List.drop_of_length_le (by omega), List.nil_append]

theorem Places.stands (h : Places Eid bytes field off count suites) :
    suites.length = field.length * count ∧ off + suites.length ≤ bytes.length ∧
      (bytes.drop off).take suites.length = suites := by
  have hall : ∀ {part : List UInt8}, suites ++ part <:+ bytes →
      bytes.length = off + (suites ++ part).length →
      off + suites.length ≤ bytes.length ∧ (bytes.drop off).take suites.length = suites := by
    intro part hsuffix hlen
    rw [drop_of_suffix hsuffix hlen]
    refine ⟨?_, List.take_left⟩
    rw [List.length_append] at hlen
    omega
  cases h with
  | group h hlen hoff => exact ⟨hlen, hall h.suffix hoff⟩
  | @pairwise l rest _ h hoff | @akm l rest _ h hoff | @pmkids l rest _ h _ hoff =>
    have hpart : l.entries ++ rest <:+ bytes := (List.suffix_append [l.b0, l.b1] _).trans h.suffix
    exact ⟨l.length_entries, hall hpart hoff⟩
  | caps h hlen _ hoff => exact ⟨hlen, hall h.suffix hoff⟩

theorem Places.count_lt (h : Places Eid bytes field off count suites) : count < 2 ^ 8 := by
  obtain ⟨hlen, hinside, -⟩ := h.stands
  obtain ⟨Len, body, hbytes, hbody⟩ : ∃ Len body, bytes = Eid :: Len :: body ∧ Len.toNat = body.length := by
    cases h with
    | group h _ _ => exact h.header_bytes
    | pairwise h _ => exact h.header_bytes
    | akm h _ => exact h.header_bytes
    | caps h _ _ _ => exact h.header_bytes
    | pmkids h _ _ => exact h.header_bytes
  have hLt := Len.toNat_lt
  have hfield : 2 ≤ field.length := by cases field <;> decide
  have hcount : 2 * count ≤ field.length * count := Nat.mul_le_mul_right _ hfield
  rw [hbytes, List.length_cons, List.length_cons] at hinside
  omega

end Grammar

end Ralink.Rsn
