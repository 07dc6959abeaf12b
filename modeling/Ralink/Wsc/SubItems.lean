import Ralink.Lib.Elements
import Ralink.Wsc.Inside

/-! The vendor extension of version 2 is a list of sub-elements behind the identifier of the vendor,
up to the first one that is longer than what is left. -/
namespace Ralink.Wsc
open Elements (Element Written)
open Sized

variable (SubID : UInt8)

def WFA_EXT_ID_AUTHORIZEDMACS : UInt8 := 1

/-- What is moved to `pOutBuf`, with `*pOutBufLen`, which is held in one byte as well. There is
nothing when there is no memory. -/
def WscAppendV2SubItem (alloc : Bool) (SubID : UInt8) (pData : List UInt8) (DataLen : UInt8) :
    Option (Option (List UInt8 × UInt8)) :=
  if alloc then do
    let data ← slice pData DataLen.toNat
    let pOutBufLen := DataLen + 2
    return some ((SubID :: DataLen :: data).take pOutBufLen.toNat, pOutBufLen)
  else some none

def searchBody (SubID : UInt8) (_ : Unit) (e : Element) : Option (List UInt8 ⊕ Unit) :=
  if e.id = SubID then (slice e.rest e.len.toNat).map .inl else some (.inr ())

theorem WscParseV2SubItem_walk (limit : Int) (Length : Nat) (mem : List UInt8) :
    WscParseV2SubItem SubID limit Length mem =
      (Elements.walk (searchBody SubID) (limit - Length).toNat mem ()).map Sum.getLeft? := by
  fun_induction WscParseV2SubItem SubID limit Length mem with
  | case1 Length Len Octet hle =>
    rw [Elements.walk_some rfl, if_pos (by simp only [Element.size]; omega), searchBody,
      if_pos rfl]
    cases slice Octet Len.toNat <;> rfl
  | case2 Length Eid Len Octet hle hne ih =>
    rw [Elements.walk_some rfl, if_pos (by simp only [Element.size]; omega), searchBody,
      if_neg hne, ih]
    simp only [Element.size, Element.behind, Option.bind_some]
    rw [show (limit - Length).toNat - (2 + Len.toNat) =
      (limit - (Length + 2 + Len.toNat : Nat)).toNat by omega]
  | case3 Length Eid Len Octet hle =>
    rw [Elements.walk_some rfl, if_neg (by simp only [Element.size]; omega)]
    rfl
  | case4 Length mem h =>
    rw [Elements.walk_none]
    · rfl
    · cases mem with
      | nil => rfl
      | cons Eid rest =>
        cases rest with
        | nil => rfl
        | cons Len Octet => exact (h Eid Len Octet rfl).elim

theorem run_search (es : List Element) (hes : ∀ e ∈ es, e.len.toNat ≤ e.rest.length) :
    Elements.run (searchBody SubID) () es = some (match es.find? fun e => e.id = SubID with
      | some e => .inl e.data
      | none => .inr ()) := by
  induction es with
  | nil => rfl
  | cons e es ih =>
    obtain ⟨he, hes⟩ := List.forall_mem_cons.mp hes
    rw [Elements.run, searchBody]
    by_cases hid : e.id = SubID
    · rw [if_pos hid, List.find?_cons_of_pos (by simpa using hid), slice, if_pos he]
      rfl
    · rw [if_neg hid, List.find?_cons_of_neg (by simpa using hid), Option.bind_some]
      exact ih hes

theorem elements_inside {n : Nat} {mem : List UInt8} (hn : n ≤ mem.length) :
    ∀ e ∈ Elements.elements n mem, e.len.toNat ≤ e.rest.length := by
  intro e he
  obtain ⟨before, hmem, hlen⟩ := Elements.mem_elements he
  have := congrArg List.length hmem
  simp only [List.length_append, List.length_cons] at this
  unfold Element.size at hlen
  omega

/-- The bytes of the sub-elements, behind the identifier of the vendor. -/
def subElements (pData : List UInt8) : List Element :=
  Elements.elements (pData.drop 3).length (pData.drop 3)

/-- How many bytes are behind the last sub-element that is there in full. -/
def subLeft (pData : List UInt8) : Nat := Elements.left (pData.drop 3).length (pData.drop 3)

/-- `WscParseV2SubItem` as it is called. -/
def parseSubItem (SubID : UInt8) (pData : List UInt8) (DataLen : UInt16) :
    Option (Option (List UInt8)) :=
  WscParseV2SubItem SubID ((DataLen.toNat : Int) - 3) 0 (pData.drop 3)

theorem isSome_parseSubItem {pData : List UInt8} {DataLen : UInt16}
    (hlen : pData.length = DataLen.toNat) :
    (parseSubItem SubID pData DataLen).isSome ↔
      (∃ e ∈ subElements pData, e.id = SubID) ∨ 2 ≤ subLeft pData := by
  have hn : ((DataLen.toNat : Int) - 3 - (0 : Nat)).toNat = (pData.drop 3).length := by
    rw [List.length_drop, hlen]
    omega
  rw [parseSubItem, WscParseV2SubItem_walk, hn, Elements.walk_exact,
    run_search SubID _ (elements_inside (Nat.le_refl _)), Option.isSome_map, Option.bind_some]
  cases hfind : (Elements.elements (pData.drop 3).length (pData.drop 3)).find?
      fun e => e.id = SubID with
  | some e =>
    have hid : e.id = SubID := by simpa using List.find?_some hfind
    exact iff_of_true rfl (.inl ⟨e, List.mem_of_find?_eq_some hfind, hid⟩)
  | none =>
    have hnone : ¬ ∃ e ∈ subElements pData, e.id = SubID := by
      rintro ⟨e, he, hid⟩
      have := List.find?_eq_none.mp hfind e he
      simp [hid] at this
    rw [or_iff_right hnone]
    show (if 2 ≤ subLeft pData then some (Sum.inr ()) else none).isSome ↔ _
    by_cases h : 2 ≤ subLeft pData
    · rw [if_pos h]
      exact iff_of_true rfl h
    · rw [if_neg h]
      exact iff_of_false Bool.noConfusion h

/-- One sub-element behind the other, each where the one before it says that it ends. -/
def appendAll (out : List UInt8) : List Written → Option (List UInt8)
  | [] => some out
  | x :: xs => do
    let item ← WscAppendV2SubItem true x.id x.data (UInt8.ofNat x.data.length)
    let (bs, pOutBufLen) ← item
    appendAll ((out ++ bs).take (out.length + pOutBufLen.toNat)) xs

variable {x : Written} {xs : List Written}

theorem WscAppendV2SubItem_written (h : x.data.length ≤ 253) :
    WscAppendV2SubItem true x.id x.data (UInt8.ofNat x.data.length) =
      some (some (x.bytes, UInt8.ofNat (x.data.length + 2))) := by
  have hsum : UInt8.ofNat x.data.length + 2 = UInt8.ofNat (x.data.length + 2) := by
    rw [UInt8.ofNat_add]
    rfl
  have hlen : (UInt8.ofNat (x.data.length + 2)).toNat = x.data.length + 2 := by
    rw [UInt8.toNat_ofNat', Nat.mod_eq_of_lt (by omega)]
  simp only [WscAppendV2SubItem, if_true, x.toNat_len, slice, Nat.le_refl, List.take_length, hsum,
    hlen, Option.bind_eq_bind, Option.bind_some, Option.pure_def]
  rw [List.take_of_length_le (by simp)]
  rfl

theorem appendAll_eq (hxs : ∀ x ∈ xs, x.data.length ≤ 253) (out : List UInt8) :
    appendAll out xs = some (out ++ Elements.encode xs) := by
  induction xs generalizing out with
  | nil => simp [appendAll, Elements.encode]
  | cons x xs ih =>
    obtain ⟨hx, hxs⟩ := List.forall_mem_cons.mp hxs
    have hlen : (UInt8.ofNat (x.data.length + 2)).toNat = x.data.length + 2 := by
      rw [UInt8.toNat_ofNat', Nat.mod_eq_of_lt (by omega)]
    have hbytes : x.bytes.length = x.data.length + 2 := by
      rw [x.length_bytes, Nat.add_comm]
    simp only [appendAll, WscAppendV2SubItem_written hx, Option.bind_eq_bind, Option.bind_some, hlen]
    rw [List.take_of_length_le (by rw [List.length_append, hbytes]), ih hxs, Elements.encode_cons,
      List.append_assoc]

theorem find?_found (SubID : UInt8) (xs : List Written) (behind : List UInt8) :
    ((Elements.found xs behind).find? fun e => e.id = SubID).map Element.data =
      (xs.find? fun x => x.id = SubID).map Written.data := by
  induction xs with
  | nil => rfl
  | cons x xs ih =>
    rw [Elements.found]
    by_cases hid : x.id = SubID
    · simp [hid]
    · simpa [List.find?_cons, hid] using ih

theorem parseSubItem_encode (SubID : UInt8) {vendor behind : List UInt8} {DataLen : UInt16}
    (hvendor : vendor.length = 3)
    (hlen : (vendor ++ Elements.encode xs).length = DataLen.toNat) :
    parseSubItem SubID (vendor ++ Elements.encode xs ++ behind) DataLen =
        some ((xs.find? fun x => x.id = SubID).map Written.data) ↔
      (∃ x ∈ xs, x.id = SubID) ∨ 2 ≤ behind.length := by
  have hn : ((DataLen.toNat : Int) - 3 - (0 : Nat)).toNat = (Elements.encode xs).length + 0 := by
    rw [List.length_append] at hlen
    omega
  have hdrop : (vendor ++ Elements.encode xs ++ behind).drop 3 = Elements.encode xs ++ behind := by
    rw [List.append_assoc, ← hvendor, List.drop_left]
  have hnone : Elements.elements 0 behind = [] := by
    unfold Elements.elements
    split
    · rfl
    · exact if_neg (by unfold Element.size; omega)
  have hleft : Elements.left 0 behind = 0 := Nat.le_zero.mp (Elements.left_le 0 behind)
  have hinside : (Elements.encode xs).length + 0 ≤ (Elements.encode xs ++ behind).length := by
    rw [List.length_append]
    omega
  obtain ⟨helements, hend⟩ := Elements.elements_encode xs 0 behind
  rw [parseSubItem, WscParseV2SubItem_walk, hn, hdrop, Elements.walk_eq hinside,
    run_search SubID _ (elements_inside hinside), helements, hnone, List.append_nil,
    Option.bind_some, ← find?_found SubID xs behind]
  cases hfind : (Elements.found xs behind).find? fun e => e.id = SubID with
  | some e =>
    have hdata := find?_found SubID xs behind
    rw [hfind] at hdata
    obtain ⟨x, hx, -⟩ := Option.map_eq_some_iff.mp hdata.symm
    have hid : x.id = SubID := by simpa using List.find?_some hx
    exact iff_of_true rfl (.inl ⟨x, List.mem_of_find?_eq_some hx, hid⟩)
  | none =>
    have hdata := find?_found SubID xs behind
    rw [hfind] at hdata
    have habsent : ¬ ∃ x ∈ xs, x.id = SubID := by
      rintro ⟨x, hx, hid⟩
      have := List.find?_eq_none.mp (Option.map_eq_none_iff.mp hdata.symm) x hx
      simp [hid] at this
    rw [or_iff_right habsent, Elements.atEnd, hend, hleft, List.length_append]
    by_cases h : 2 ≤ behind.length
    · rw [if_pos (by omega)]
      exact iff_of_true rfl h
    · rw [if_neg (by omega)]
      exact iff_of_false (Option.some_ne_none _ ∘ Eq.symm) h

/-- What has been written behind the identifier of a vendor is found again, and the search stays in
the data that it is given exactly if it ends at a sub-element in them. -/
theorem WscParseV2SubItem_iff (SubID : UInt8) (vendor : Vector UInt8 3) (xs : List Written)
    (behind pData : List UInt8) (DataLen : UInt16) (hxs : ∀ x ∈ xs, x.data.length ≤ 253)
    (hlen : pData.length = DataLen.toNat) :
    (∃ out, appendAll vendor.toList xs = some out ∧ (out.length < 2 ^ 16 →
      (parseSubItem SubID (out ++ behind) (UInt16.ofNat out.length) =
          some ((xs.find? fun x => x.id = SubID).map Written.data) ↔
        (∃ x ∈ xs, x.id = SubID) ∨ 2 ≤ behind.length))) ∧
    ((parseSubItem SubID pData DataLen).isSome ↔
      (∃ e ∈ subElements pData, e.id = SubID) ∨ 2 ≤ subLeft pData) := by
  refine ⟨⟨_, appendAll_eq hxs _, ?_⟩, isSome_parseSubItem SubID hlen⟩
  intro hout
  refine parseSubItem_encode SubID vendor.length_toList ?_
  rw [UInt16.toNat_ofNat', Nat.mod_eq_of_lt hout]

def versionData : List UInt8 := [0x00, 0x37, 0x2a, 0, 1, 0x20]

/-- The version is there twice. -/
def subItems : List Written :=
  [⟨2, [1, 2], by decide⟩, ⟨0, [0x20], by decide⟩, ⟨0, [0x21], by decide⟩]

def subItemData : List UInt8 := [0x00, 0x37, 0x2a, 2, 2, 1, 2, 0, 1, 0x20, 0, 1, 0x21]

theorem WscParseV2SubItem_repeated :
    (parseSubItem 0 (subItemData ++ [0xff]) 13 = some (some [0x20]) ↔
      (∃ x ∈ subItems, x.id = 0) ∨ 2 ≤ 1) ∧
    ((parseSubItem 0 subItemData 13).isSome ↔
      (∃ e ∈ subElements subItemData, e.id = 0) ∨ 2 ≤ subLeft subItemData) := by
  obtain ⟨⟨out, hout, hfound⟩, hinside⟩ :=
    WscParseV2SubItem_iff 0 #v[0x00, 0x37, 0x2a] subItems [0xff] subItemData 13 (by decide) rfl
  have hwritten : appendAll [0x00, 0x37, 0x2a] subItems = some subItemData := by decide
  obtain rfl : subItemData = out := Option.some.inj (hwritten.symm.trans hout)
  exact ⟨hfound (by decide), hinside⟩

/-- The authorized addresses are looked for behind the end of the data. -/
theorem absent_outside : ¬ (parseSubItem WFA_EXT_ID_AUTHORIZEDMACS versionData 6).isSome := by
  simp [parseSubItem, versionData, WscParseV2SubItem, WFA_EXT_ID_AUTHORIZEDMACS]

end Ralink.Wsc
