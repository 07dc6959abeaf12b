import Mathlib.Data.List.GetD
import Mathlib.Tactic

/-! A store of bytes by address, reading and writing a range of it, and the frame rules. -/
namespace ByteStore

abbrev Store := Nat → UInt8

def readBytes (f : Store) (from_ len : Nat) : List UInt8 :=
  (List.range len).map fun i => f (from_ + i)

def writeBytes (f : Store) (to_ : Nat) (bs : List UInt8) : Store := fun a =>
  if to_ ≤ a then bs.getD (a - to_) (f a) else f a

variable {f g : Store} {o n a : Nat} {bs : List UInt8} {i o' : Nat} {cs : List UInt8}

@[simp] theorem length_readBytes (f : Store) (o n : Nat) : (readBytes f o n).length = n := by
  simp [readBytes]

theorem getElem?_readBytes (f : Store) (h : i < n) : (readBytes f o n)[i]? = some (f (o + i)) := by
  simp [readBytes, h]

theorem readBytes_congr (h : ∀ i < n, f (o + i) = g (o + i)) : readBytes f o n = readBytes g o n :=
  List.map_congr_left fun i hi => h i (List.mem_range.mp hi)

theorem readBytes_add (f : Store) (o n m : Nat) :
    readBytes f o (n + m) = readBytes f o n ++ readBytes f (o + n) m := by
  simp only [readBytes, List.range_add, List.map_append, List.map_map, Function.comp_def,
    Nat.add_assoc]

theorem readBytes_append_iff :
    readBytes f o (bs ++ cs).length = bs ++ cs ↔
      readBytes f o bs.length = bs ∧ readBytes f (o + bs.length) cs.length = cs := by
  rw [List.length_append, readBytes_add]
  constructor
  · exact fun h => List.append_inj h (length_readBytes f o bs.length)
  · rintro ⟨hbs, hcs⟩
    rw [hbs, hcs]

theorem writeBytes_inside (f : Store) (h : i < bs.length) : writeBytes f o bs (o + i) = bs[i] := by
  simp [writeBytes, h]

theorem writeBytes_outside (h : a < o ∨ o + bs.length ≤ a) : writeBytes f o bs a = f a := by
  unfold writeBytes
  split
  · next hle =>
    have hlen : bs.length ≤ a - o := by omega
    simp [List.getElem?_eq_none hlen]
  · rfl

theorem writeBytes_congr (h : f a = g a) : writeBytes f o bs a = writeBytes g o bs a := by
  unfold writeBytes
  rw [h]

@[simp] theorem writeBytes_nil (f : Store) (o : Nat) : writeBytes f o [] = f := by
  funext a
  exact writeBytes_outside (by simp; omega)

theorem readBytes_writeBytes (f : Store) (o : Nat) (bs : List UInt8) :
    readBytes (writeBytes f o bs) o bs.length = bs := by
  refine List.ext_getElem (by simp) fun i _ h => ?_
  have hi : i < bs.length := by simpa using h
  simp only [readBytes, List.getElem_map, List.getElem_range, writeBytes_inside f hi]

theorem readBytes_writeBytes_disjoint (h : o' + n ≤ o ∨ o + bs.length ≤ o') :
    readBytes (writeBytes f o bs) o' n = readBytes f o' n :=
  readBytes_congr fun i hi => writeBytes_outside (by omega)

theorem writeBytes_apply (f : Store) (o : Nat) (bs : List UInt8) (a : Nat) :
    writeBytes f o bs a = if o ≤ a ∧ a < o + bs.length then bs.getD (a - o) 0 else f a := by
  by_cases h : o ≤ a ∧ a < o + bs.length
  · rw [if_pos h]
    obtain ⟨i, rfl⟩ := Nat.exists_eq_add_of_le h.1
    have hi : i < bs.length := by omega
    rw [writeBytes_inside f hi]
    simp [hi]
  · rw [if_neg h, writeBytes_outside (by omega)]

theorem writeBytes_append (f : Store) (o : Nat) (bs cs : List UInt8) :
    writeBytes (writeBytes f o bs) (o + bs.length) cs = writeBytes f o (bs ++ cs) := by
  funext a
  simp only [writeBytes_apply, List.length_append]
  by_cases hb : o ≤ a ∧ a < o + bs.length
  · rw [if_neg (by omega), if_pos hb, if_pos (by omega), List.getD_append _ _ _ _ (by omega)]
  · by_cases hc : o + bs.length ≤ a ∧ a < o + bs.length + cs.length
    · rw [if_pos hc, if_pos (by omega), List.getD_append_right _ _ _ _ (by omega)]
      congr 1
      omega
    · rw [if_neg hc, if_neg hb, if_neg (by omega)]

theorem writeBytes_overwrite (h : o ≤ o') (h' : o' + cs.length ≤ o + bs.length) :
    writeBytes (writeBytes f o' cs) o bs = writeBytes f o bs := by
  funext a
  simp only [writeBytes_apply]
  by_cases hb : o ≤ a ∧ a < o + bs.length
  · rw [if_pos hb, if_pos hb]
  · rw [if_neg hb, if_neg hb, if_neg (by omega)]

theorem writeBytes_comm (h : o + bs.length ≤ o' ∨ o' + cs.length ≤ o) :
    writeBytes (writeBytes f o bs) o' cs = writeBytes (writeBytes f o' cs) o bs := by
  funext a
  simp only [writeBytes_apply]
  by_cases hb : o ≤ a ∧ a < o + bs.length
  · rw [if_neg (by omega), if_pos hb, if_pos hb]
  · rw [if_neg hb, if_neg hb]

def splice (bs : List UInt8) (i : Nat) (cs : List UInt8) : List UInt8 :=
  bs.take i ++ cs ++ bs.drop (i + cs.length)

theorem length_splice (h : i + cs.length ≤ bs.length) : (splice bs i cs).length = bs.length := by
  simp only [splice, List.length_append, List.length_take, List.length_drop]
  omega

theorem take_drop_splice {i : Nat} {cs : List UInt8} (h : i ≤ bs.length) :
    ((splice bs i cs).drop i).take cs.length = cs := by
  have hlen : (bs.take i).length = i := by rw [List.length_take, Nat.min_eq_left h]
  rw [splice, List.append_assoc, List.drop_append_of_le_length hlen.ge, List.drop_of_length_le hlen.le,
    List.nil_append, List.take_left]

theorem splice_splice (h : i + cs.length ≤ bs.length) :
    splice (splice bs i cs) i ((bs.drop i).take cs.length) = bs := by
  have hlen : (bs.take i).length = i := by rw [List.length_take, Nat.min_eq_left (by omega)]
  have hput : ((bs.drop i).take cs.length).length = cs.length := by
    rw [List.length_take, List.length_drop, Nat.min_eq_left (by omega)]
  have htake : (splice bs i cs).take i = bs.take i := by
    rw [splice, List.append_assoc, List.take_append_of_le_length hlen.ge, List.take_take,
      Nat.min_self]
  have hdrop : (splice bs i cs).drop (i + cs.length) = bs.drop (i + cs.length) := by
    have hfront : (bs.take i ++ cs).length = i + cs.length := by rw [List.length_append, hlen]
    rw [splice, ← hfront, List.drop_left]
  rw [splice, htake, hput, hdrop, ← List.drop_drop, List.append_assoc, List.take_append_drop,
    List.take_append_drop]

theorem writeBytes_splice (h : i + cs.length ≤ n) :
    writeBytes f o (splice (readBytes f o n) i cs) = writeBytes f (o + i) cs := by
  have hlen : (splice (readBytes f o n) i cs).length = n := by
    rw [length_splice (by simpa using h), length_readBytes]
  have hread : ∀ j < n, (readBytes f o n).getD j 0 = f (o + j) := fun j hj => by
    rw [List.getD_eq_getElem?_getD, getElem?_readBytes f hj, Option.getD_some]
  funext a
  rw [writeBytes_apply, writeBytes_apply, hlen]
  by_cases hin : o ≤ a ∧ a < o + n
  · rw [if_pos hin]
    obtain ⟨j, rfl⟩ := Nat.exists_eq_add_of_le hin.1
    have hj : j < n := by omega
    have hread' := hread j hj
    rw [Nat.add_sub_cancel_left, splice, List.append_assoc]
    rcases Nat.lt_or_ge j i with hji | hji
    · rw [if_neg (by omega), List.getD_append _ _ _ _ (by simp; omega), ← hread']
      simp [hji]
    · rw [List.getD_append_right _ _ _ _ (by simp; omega), List.length_take, length_readBytes,
        Nat.min_eq_left (by omega)]
      rcases Nat.lt_or_ge j (i + cs.length) with hjc | hjc
      · rw [if_pos (by omega), List.getD_append _ _ _ _ (by omega)]
        congr 1
        omega
      · rw [if_neg (by omega), List.getD_append_right _ _ _ _ (by omega), ← hread']
        simp only [List.getD_eq_getElem?_getD, List.getElem?_drop]
        congr 2
        omega
  · rw [if_neg hin, if_neg (by omega)]

end ByteStore
