import Ralink.Mat.Discovery

/-! Frames as their tags and addresses, and what the handlers find in their bytes. -/
namespace Ralink.Mat
open Function

structure Tag where
  id : Nat
  value : List UInt8
  id_lt : id < 2 ^ 16
  value_lt : value.length < 2 ^ 16

def Tag.bytes (t : Tag) : List UInt8 := htons t.id ++ htons t.value.length ++ t.value

def payload (tags : List Tag) : List UInt8 := tags.flatMap Tag.bytes

/-- A frame of the discovery stage, with what pads it. -/
structure Frame where
  dst : Mac
  src : Mac
  vlan : Option (UInt8 × UInt8)
  code : UInt8
  sesID : BitVec 16
  tags : List Tag
  pad : List UInt8
  fits : (payload tags).length < 2 ^ 16

namespace Frame

variable (f : Frame)

def head : List UInt8 :=
  f.dst.toList ++ f.src.toList ++
    (match f.vlan with
      | some (high, low) => htons 0x8100 ++ [high, low]
      | none => []) ++ htons ETH_P_PPP_DISC

def layer : List UInt8 :=
  [0x11, f.code] ++ htons f.sesID.toNat ++ htons (payload f.tags).length

def bytes : Packet := f.head ++ f.layer ++ payload f.tags ++ f.pad

end Frame

/-- Where the contents of the first tag of a kind are that is not empty, and what they are. -/
def locate (id : Nat) : Nat → List Tag → Option (Nat × List UInt8)
  | _, [] => none
  | at', t :: tags =>
    if t.id = id ∧ 0 < t.value.length then some (at' + 4, t.value)
    else locate id (at' + t.bytes.length) tags

section Bytes

variable {pre post : List UInt8} {n : Nat} {t : Tag} {tags : List Tag} {b : Packet} {k p : Nat}

@[simp] theorem length_htons (n : Nat) : (htons n).length = 2 := rfl

theorem length_tag (t : Tag) : t.bytes.length = 4 + t.value.length := by
  simp [Tag.bytes]
  omega

theorem length_writeAt {b : Packet} {bs : List UInt8} {i : Nat} (h : i + bs.length ≤ b.length) :
    (writeAt b i bs).length = b.length := by
  rw [writeAt, List.length_append, List.length_append, List.length_take, List.length_drop]
  omega

theorem getElem?_append_length (pre : List UInt8) (b : UInt8) (post : List UInt8) (k : Nat)
    (hk : k = pre.length) : (pre ++ b :: post)[k]? = some b := by
  subst hk
  simp

theorem ntohs_eq (hn : n < 2 ^ 16) {k : Nat} (hk : k = pre.length) :
    ntohs (pre ++ (htons n ++ post)) k = some n := by
  have hhigh : (pre ++ (htons n ++ post))[k]? = some (UInt8.ofNat (n / 256)) :=
    getElem?_append_length pre _ _ k hk
  have hlow : (pre ++ (htons n ++ post))[k + 1]? = some (UInt8.ofNat n) := by
    have := getElem?_append_length (pre ++ [UInt8.ofNat (n / 256)]) (UInt8.ofNat n) post (k + 1)
      (by simp [hk])
    simpa [htons] using this
  rw [ntohs, hhigh, Option.bind_eq_bind, Option.bind_some, hlow, Option.bind_some]
  simp only [UInt8.toNat_ofNat']
  congr 1
  omega

theorem ntohs_lt {pkt : Packet} {pos n : Nat} (h : ntohs pkt pos = some n) : n < 2 ^ 16 := by
  obtain ⟨high, -, h⟩ := Option.bind_eq_some_iff.mp h
  obtain ⟨low, -, h⟩ := Option.bind_eq_some_iff.mp h
  obtain rfl := Option.some.inj h
  have hhigh := high.toNat_lt
  have hlow := low.toNat_lt
  omega

theorem ntohs_inside (h : p + 2 ≤ b.length) : ∃ n, ntohs b p = some n := by
  have hhigh : b[p]? = some b[p] := List.getElem?_eq_getElem (by omega)
  have hlow : b[p + 1]? = some b[p + 1] := List.getElem?_eq_getElem (by omega)
  exact ⟨_, by rw [ntohs, hhigh, Option.bind_eq_bind, Option.bind_some, hlow]; rfl⟩

theorem ntohs_outside (h : ¬ p + 2 ≤ b.length) : ntohs b p = none := by
  have hlow : b[p + 1]? = none := List.getElem?_eq_none (by omega)
  rw [ntohs, hlow]
  cases b[p]? <;> rfl

theorem findTagLoop_eq (pre : List UInt8) (id : Nat) {turns : Nat} (hturns : tags.length < turns)
    (hfits : (payload tags).length < 2 ^ 16) :
    findTagLoop (pre ++ (payload tags ++ post)) id turns (payload tags).length pre.length =
      some ((locate id pre.length tags).map fun r => (r.1, r.2.length)) := by
  induction tags generalizing pre turns with
  | nil =>
    obtain ⟨turns, rfl⟩ := Nat.exists_eq_add_of_lt hturns
    rfl
  | cons t tags ih =>
    obtain ⟨turns, rfl⟩ := Nat.exists_eq_add_of_lt hturns
    have hlen : (payload (t :: tags)).length = 4 + t.value.length + (payload tags).length := by
      simp [payload, length_tag]
    have hsplit : pre ++ (payload (t :: tags) ++ post) =
        pre ++ (htons t.id ++ (htons t.value.length ++ (t.value ++ (payload tags ++ post)))) := by
      simp [payload, Tag.bytes]
    have hid : ntohs (pre ++ (payload (t :: tags) ++ post)) pre.length = some t.id := by
      rw [hsplit]
      exact ntohs_eq t.id_lt rfl
    have hval : ntohs (pre ++ (payload (t :: tags) ++ post)) (pre.length + 2) =
        some t.value.length := by
      rw [hsplit, ← List.append_assoc]
      exact ntohs_eq t.value_lt (by simp)
    have hne : (payload (t :: tags)).length ≠ 0 := by omega
    rw [findTagLoop, if_neg hne, hid, Option.bind_eq_bind, Option.bind_some, hval,
      Option.bind_some, locate]
    by_cases ht : t.id = id ∧ 0 < t.value.length
    · rw [if_pos ht, if_pos ht]
      rfl
    · rw [if_neg ht, if_neg ht]
      have hrest : (payload tags).length < 2 ^ 16 := by omega
      have hleft : ((payload (t :: tags)).length + 2 ^ 32 - (t.value.length + 4)) % 2 ^ 16 =
          (payload tags).length := by omega
      have hturns' : tags.length < (t :: tags).length + turns := by simp; omega
      have hnext := ih (pre ++ t.bytes) hturns' hrest
      have hpkt : pre ++ (payload (t :: tags) ++ post) =
          pre ++ t.bytes ++ (payload tags ++ post) := by simp [payload]
      rw [List.length_append, length_tag, Nat.add_comm 4] at hnext
      simp only [hleft]
      rw [hpkt, hnext, length_tag, Nat.add_comm 4]

theorem locate_bytes (pre post : List UInt8) {id : Nat} {r : Nat × List UInt8} (h : locate id pre.length tags = some r)
    {n : Nat} (hn : n ≤ r.2.length) :
    bytesAt (pre ++ (payload tags ++ post)) r.1 n = some (r.2.take n) ∧ 0 < r.2.length ∧
      4 + pre.length ≤ r.1 ∧ r.1 + r.2.length ≤ (pre ++ payload tags).length := by
  induction tags generalizing pre with
  | nil => exact absurd h.symm (Option.some_ne_none _)
  | cons t tags ih =>
    rw [locate] at h
    by_cases ht : t.id = id ∧ 0 < t.value.length
    · rw [if_pos ht] at h
      obtain rfl := Option.some.inj h
      have hpkt : pre ++ (payload (t :: tags) ++ post) =
          (pre ++ (htons t.id ++ htons t.value.length)) ++
            (t.value ++ (payload tags ++ post)) := by
        simp [payload, Tag.bytes]
      have hlen : (pre ++ (htons t.id ++ htons t.value.length)).length = pre.length + 4 := by
        simp
      refine ⟨?_, ht.2, by simp; omega, by simp [payload, length_tag]; omega⟩
      rw [bytesAt, hpkt, if_pos (by simp at hn ⊢; omega), ← hlen, List.drop_left,
        List.take_append_of_le_length hn]
    · rw [if_neg ht] at h
      have hpkt : pre ++ (payload (t :: tags) ++ post) =
          pre ++ t.bytes ++ (payload tags ++ post) := by simp [payload]
      obtain ⟨hb, hpos, hfrom, hto⟩ := ih (pre ++ t.bytes) (by simpa using h)
      rw [hpkt]
      refine ⟨hb, hpos, ?_, ?_⟩
      · rw [List.length_append] at hfrom
        omega
      · simpa [payload] using hto

theorem mac_cases (mac : Mac) : ∃ a b c d e f, mac = #v[a, b, c, d, e, f] := by
  obtain ⟨⟨l⟩, h⟩ := mac
  match l, h with
  | [a, b, c, d, e, f], h => exact ⟨a, b, c, d, e, f, rfl⟩

theorem macAt_eq (pre : List UInt8) (mac : Mac) (hk : k = pre.length) :
    macAt (pre ++ (mac.toList ++ post)) k = some mac := by
  obtain ⟨a, b, c, d, e, f, rfl⟩ := mac_cases mac
  subst hk
  rw [macAt, List.drop_left]
  rfl

end Bytes

namespace Frame

variable (f : Frame)

theorem length_layer : f.layer.length = 6 := rfl

theorem length_head : f.head.length = if f.vlan.isSome then 18 else 14 := by
  have hdst : f.dst.toList.length = 6 := f.dst.length_toList
  have hsrc : f.src.toList.length = 6 := f.src.length_toList
  cases hv : f.vlan <;> simp [head, hv, hdst, hsrc]

@[simp] theorem macAt_dst : macAt f.bytes 0 = some f.dst := by
  rw [bytes, head, List.append_assoc, List.append_assoc, List.append_assoc, List.append_assoc,
    List.append_assoc]
  exact macAt_eq [] f.dst rfl

@[simp] theorem macAt_src : macAt f.bytes 6 = some f.src := by
  rw [bytes, head, List.append_assoc, List.append_assoc, List.append_assoc, List.append_assoc,
    List.append_assoc]
  exact macAt_eq _ f.src f.dst.length_toList.symm

theorem type_eq (hv : f.vlan = none) : ntohs f.bytes 12 = some ETH_P_PPP_DISC := by
  have hpre : 12 = (f.dst.toList ++ f.src.toList).length := by simp
  rw [bytes, head, hv, List.append_nil, List.append_assoc, List.append_assoc, List.append_assoc]
  exact ntohs_eq (by decide) hpre

theorem vlan_eq {b : UInt8 × UInt8} (hv : f.vlan = some b) :
    ntohs f.bytes 12 = some 0x8100 ∧ ntohs f.bytes 16 = some ETH_P_PPP_DISC := by
  have hpre : 12 = (f.dst.toList ++ f.src.toList).length := by simp
  constructor
  · rw [bytes, head, hv, List.append_assoc, List.append_assoc, List.append_assoc]
    dsimp only
    rw [List.append_assoc (f.dst.toList ++ f.src.toList), List.append_assoc (htons 0x8100)]
    exact ntohs_eq (n := 0x8100) (by decide) hpre
  · have hpre' : 16 = (f.dst.toList ++ f.src.toList ++ (htons 0x8100 ++ [b.1, b.2])).length := by
      simp
    rw [bytes, head, hv, List.append_assoc, List.append_assoc, List.append_assoc]
    exact ntohs_eq (by decide) hpre'

theorem bytes_eq : f.bytes = f.head ++ (0x11 :: f.code :: (htons f.sesID.toNat ++
    (htons (payload f.tags).length ++ (payload f.tags ++ f.pad)))) := by
  simp [bytes, layer]

theorem version_eq : f.bytes[f.head.length]? = some 0x11 := by
  rw [bytes_eq]
  exact getElem?_append_length _ _ _ _ rfl

theorem code_eq : f.bytes[f.head.length + 1]? = some f.code := by
  rw [bytes_eq, List.append_cons]
  exact getElem?_append_length _ _ _ _ (by simp)

theorem sesID_eq : ntohs f.bytes (f.head.length + 2) = some f.sesID.toNat := by
  rw [bytes_eq, List.append_cons, List.append_cons]
  exact ntohs_eq f.sesID.isLt (by simp)

theorem payloadLen_eq : ntohs f.bytes (f.head.length + 4) = some (payload f.tags).length := by
  rw [bytes_eq, List.append_cons, List.append_cons, ← List.append_assoc]
  exact ntohs_eq f.fits (by simp)

def front : List UInt8 := f.head ++ f.layer

theorem length_front : f.front.length = f.head.length + 6 := by
  rw [front, List.length_append, length_layer]

theorem bytes_front : f.bytes = f.front ++ (payload f.tags ++ f.pad) := by
  simp [bytes, front]

theorem length_tags_le (tags : List Tag) : tags.length ≤ (payload tags).length := by
  induction tags with
  | nil => exact Nat.le_refl 0
  | cons t tags ih =>
    have hlen : (payload (t :: tags)).length = 4 + t.value.length + (payload tags).length := by
      simp [payload, length_tag]
    rw [hlen, List.length_cons]
    omega

theorem findTag_eq (id : Nat) :
    findTag f.bytes id (payload f.tags).length (f.head.length + 6) =
      some ((locate id (f.head.length + 6) f.tags).map fun r => (r.1, r.2.length)) := by
  have hturns : f.tags.length < f.bytes.length + 1 := by
    have := length_tags_le f.tags
    rw [bytes_front, List.length_append, List.length_append]
    omega
  rw [← length_front, findTag, bytes_front]
  rw [bytes_front] at hturns
  exact findTagLoop_eq f.front id hturns f.fits

/-- The contents of the first tag of a kind that is not empty. -/
def find (id : Nat) : Option (List UInt8) := (locate id (f.head.length + 6) f.tags).map Prod.snd

/-- How many bytes of the packet are behind what is read of the first tag of a kind. -/
def behind (id : Nat) : Nat :=
  match locate id (f.head.length + 6) f.tags with
  | some r => f.bytes.length - (r.1 + min r.2.length PPPOE_DIS_UID_LEN)
  | none => 0

theorem uidAt_eq (id : Nat) :
    uidAt f.bytes ((locate id (f.head.length + 6) f.tags).map fun r => (r.1, r.2.length)) =
      some ((f.find id).map fun v => v.take PPPOE_DIS_UID_LEN) := by
  unfold find
  cases h : locate id (f.head.length + 6) f.tags with
  | none => rfl
  | some r =>
    rw [← length_front] at h
    have hbytes := (locate_bytes f.front f.pad h
      (n := min r.2.length PPPOE_DIS_UID_LEN) (Nat.min_le_left _ _)).1
    rw [← bytes_front] at hbytes
    simp only [Option.map_some, uidAt, hbytes]
    rw [Nat.min_comm, List.take_eq_take_min]
    simp

theorem find_ne_nil {id : Nat} {v : List UInt8} (h : f.find id = some v) : v ≠ [] := by
  obtain ⟨r, hr, rfl⟩ := Option.map_eq_some_iff.mp h
  rw [← length_front] at hr
  have hpos := (locate_bytes f.front f.pad hr (Nat.zero_le _)).2.1
  exact List.ne_nil_of_length_pos hpos

end Frame

end Ralink.Mat
