import Ralink.Lib.Run

/-! A message is a list of attributes: a type and a length of two bytes each, the high one first,
and a value. A walk goes on as long as more than a header is left, and nothing says that the value
of an attribute is there in full. -/
namespace Tlv

/-- The type and the length of an attribute, and what the message holds from its value on. -/
structure Attr where
  type : Nat
  len : Nat
  rest : List UInt8
  deriving DecidableEq

def be16 (hi lo : UInt8) : Nat := hi.toNat * 256 + lo.toNat

def attr? : List UInt8 → Option Attr
  | t₁ :: t₀ :: l₁ :: l₀ :: b :: bs => some ⟨be16 t₁ t₀, be16 l₁ l₀, b :: bs⟩
  | _ => none

variable {bs : List UInt8} {a : Attr}

theorem attr?_eq_some (h : attr? bs = some a) :
    ∃ header, bs = header ++ a.rest ∧ header.length = 4 := by
  unfold attr? at h
  split at h
  · next t₁ t₀ l₁ l₀ b bs =>
    cases h
    exact ⟨[t₁, t₀, l₁, l₀], rfl, rfl⟩
  · exact (Option.not_mem_none _ h).elim

theorem length_drop_lt (h : attr? bs = some a) (n : Nat) :
    (a.rest.drop n).length < bs.length := by
  obtain ⟨header, rfl, hlen⟩ := attr?_eq_some h
  rw [List.length_drop, List.length_append, hlen]
  omega

section Walk

variable {σ : Type*} (span : Attr → Nat) (body : σ → Attr → Option σ)

/-- Attribute after attribute, each one stepped over by its span. -/
def walk (bs : List UInt8) (s : σ) : Option σ :=
  match _h : attr? bs with
  | none => some s
  | some a => (body s a).bind fun s => walk (a.rest.drop (span a)) s
termination_by bs.length
decreasing_by exact length_drop_lt _h _

def attrs (bs : List UInt8) : List Attr :=
  match _h : attr? bs with
  | none => []
  | some a => a :: attrs (a.rest.drop (span a))
termination_by bs.length
decreasing_by exact length_drop_lt _h _

variable {span body}

theorem attrs_of_none (h : attr? bs = none) : attrs span bs = [] := by
  unfold attrs
  split
  · rfl
  · next a ha => exact (Option.some_ne_none a (ha.symm.trans h)).elim

theorem attrs_of_some (h : attr? bs = some a) :
    attrs span bs = a :: attrs span (a.rest.drop (span a)) := by
  conv_lhs => unfold attrs
  split
  · next ha => exact (Option.some_ne_none a (h.symm.trans ha)).elim
  · next a' ha =>
    obtain rfl := Option.some.inj (h.symm.trans ha)
    rfl

theorem walk_eq (bs : List UInt8) (s : σ) :
    walk span body bs s = Run.tryExec body s (attrs span bs) := by
  fun_induction walk span body bs s with
  | case1 bs s h =>
    rw [attrs_of_none h]
    rfl
  | case2 bs s a h ih =>
    rw [attrs_of_some h, Run.tryExec_cons]
    exact congrArg _ (funext ih)

end Walk

/-- A type of two bytes, and a value whose length can be told in two. -/
structure Written where
  type : UInt16
  value : List UInt8
  length_lt : value.length < 65536

namespace Written

variable (x : Written)

def bytes : List UInt8 :=
  [UInt8.ofNat (x.type.toNat / 256), UInt8.ofNat x.type.toNat,
    UInt8.ofNat (x.value.length / 256), UInt8.ofNat x.value.length] ++ x.value

def attr (behind : List UInt8) : Attr := ⟨x.type.toNat, x.value.length, x.value ++ behind⟩

end Written

variable (x : Written) (xs : List Written)

theorem be16_split {n : Nat} (h : n < 65536) : be16 (UInt8.ofNat (n / 256)) (UInt8.ofNat n) = n := by
  rw [be16, UInt8.toNat_ofNat', UInt8.toNat_ofNat']
  omega

theorem attr?_bytes (behind : List UInt8) :
    attr? (x.bytes ++ behind) = if x.value ++ behind = [] then none else some (x.attr behind) := by
  rw [Written.bytes, List.append_assoc]
  cases hrest : x.value ++ behind with
  | nil => rfl
  | cons b bs =>
    rw [if_neg (List.cons_ne_nil b bs), Written.attr, hrest]
    simp only [List.cons_append, List.nil_append, attr?, be16_split x.length_lt,
      be16_split x.type.toNat_lt]

def encode (xs : List Written) : List UInt8 := xs.flatMap Written.bytes

theorem encode_cons : encode (x :: xs) = x.bytes ++ encode xs :=
  List.flatMap_cons

def seen : List Written → List Written
  | [] => []
  | [x] => if x.value = [] then [] else [x]
  | x :: y :: xs => x :: seen (y :: xs)

theorem attrs_encode :
    (attrs Attr.len (encode xs)).map (fun a => (a.type, a.len)) =
      (seen xs).map fun x => (x.type.toNat, x.value.length) := by
  have hdrop (x : Written) (bs : List UInt8) : (x.attr bs).rest.drop (x.attr bs).len = bs :=
    List.drop_left
  induction xs using seen.induct with
  | case1 => rw [encode, List.flatMap_nil, attrs_of_none rfl, seen, List.map_nil, List.map_nil]
  | case2 x hnil =>
    have hnone : attr? (x.bytes ++ []) = none := by
      rw [attr?_bytes, hnil]
      rfl
    rw [encode_cons, encode, List.flatMap_nil, attrs_of_none hnone, seen, if_pos hnil,
      List.map_nil, List.map_nil]
  | case3 x hne =>
    have hsome : attr? (x.bytes ++ []) = some (x.attr []) := by
      rw [attr?_bytes, List.append_nil, if_neg hne]
    rw [encode_cons, encode, List.flatMap_nil, attrs_of_some hsome, hdrop, attrs_of_none rfl, seen,
      if_neg hne]
    rfl
  | case4 x y xs ih =>
    have hsome : attr? (x.bytes ++ encode (y :: xs)) = some (x.attr (encode (y :: xs))) := by
      rw [attr?_bytes, if_neg]
      simp [encode_cons, Written.bytes]
    rw [encode_cons, attrs_of_some hsome, hdrop, seen, List.map_cons, List.map_cons, ih]
    rfl

end Tlv
