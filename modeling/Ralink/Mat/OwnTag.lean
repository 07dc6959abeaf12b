import Ralink.Mat.TagScan

/-! The tag that the engine adds to a request without one, and takes out of the answer. It is put
two bytes in front of the end of the payload, and what is behind it in an answer is moved up without
its last four bytes. -/
namespace Ralink.Mat
open Function

theorem mac_fits (mac : Mac) : mac.toList.length < 2 ^ 16 := by
  rw [mac.length_toList]
  decide

def ownTag (host : Mac) : Tag := hostUniq host.toList (mac_fits host)

/-- The bytes of the frame with other tags and another padding. -/
def Frame.retagged (f : Frame) (tags : List Tag) (pad : List UInt8) : Packet :=
  f.head ++ ([0x11, f.code] ++ htons f.sesID.toNat ++ htons (payload tags).length) ++
    payload tags ++ pad

/-- A request without a tag of its host and without a cookie. -/
structure BareRequest extends Request where
  bare : ∀ t ∈ tags, t.id ≠ PPPOE_TAG_ID_HOST_UNIQ ∧ t.id ≠ PPPOE_TAG_ID_AC_COOKIE

/-- The frame goes out with one more tag, the host's, right behind its payload. -/
def BareRequest.Transparent (r : BareRequest) (HZ : BitVec 32) (m : MatStruct)
    (w : Surroundings) : Prop :=
  ∃ m' pad, MATProto_PPPoEDis_Tx m HZ r.bytes r.head.length w =
    some (m', r.retagged (r.tags ++ [ownTag r.src]) pad)

/-- An answer with the tag of the engine for a host among its tags. -/
structure OwnAnswer extends Answer where
  host : Mac
  before : List Tag
  after : List Tag
  tags_eq : tags = before ++ ownTag host :: after
  others : ∀ t ∈ before, t.id = PPPOE_TAG_ID_HOST_UNIQ → t.value = []
  length_lt : toFrame.bytes.length < 2 ^ 32

/-- The frame comes in with all tags but this one. -/
def OwnAnswer.Transparent (a : OwnAnswer) (m : MatStruct) (w : Surroundings) : Prop :=
  ∃ m' pad mac, MATProto_PPPoEDis_Rx m a.bytes a.head.length w =
    some (m', a.retagged (a.before ++ a.after) pad, mac)

/-- The entry that the tag finds is one whose tag the engine has added. -/
def OwnAnswer.Known (a : OwnAnswer) (m : MatStruct) : Prop :=
  ∃ e, a.entry m.entries = some (.uid e) ∧ e.uIDAddByUs = true

/-- Four bytes are behind the tag, and those of the last four of the packet that are not padding
are what stands there before the tag is taken out. -/
def OwnAnswer.TailKept (a : OwnAnswer) : Prop :=
  4 ≤ (payload a.after ++ a.pad).length ∧
    ∀ p, a.bytes.length - 14 ≤ p → p < a.bytes.length - 10 - a.pad.length →
      a.bytes[p]? = a.bytes[p + 10]?

section Bytes

variable {b bs : Packet} {i p k : Nat}

theorem getElem?_writeAt_before (hi : i ≤ b.length) (hp : p < i) :
    (writeAt b i bs)[p]? = b[p]? := by
  have hlen : (b.take i).length = i := List.length_take_of_le hi
  rw [writeAt, List.append_assoc, List.getElem?_append_left (by omega), List.getElem?_take_of_lt hp]

theorem getElem?_writeAt_inside (bs : List UInt8) (hi : i ≤ b.length) (hk : k < bs.length) :
    (writeAt b i bs)[i + k]? = bs[k]? := by
  have hlen : (b.take i).length = i := List.length_take_of_le hi
  rw [writeAt, List.append_assoc, List.getElem?_append_right (by omega), hlen,
    Nat.add_sub_cancel_left, List.getElem?_append_left hk]

theorem getElem?_writeAt_behind (hi : i ≤ b.length) (hp : i + bs.length ≤ p) :
    (writeAt b i bs)[p]? = b[p]? := by
  have hlen : (b.take i ++ bs).length = i + bs.length := by
    rw [List.length_append, List.length_take_of_le hi]
  rw [writeAt, List.getElem?_append_right (by omega), hlen, List.getElem?_drop,
    Nat.add_sub_cancel' hp]

theorem le_length_writeAt (bs : List UInt8) (hi : i ≤ b.length) : i + bs.length ≤ (writeAt b i bs).length := by
  rw [writeAt, List.length_append, List.length_append, List.length_take_of_le hi]
  exact Nat.le_add_right _ _

theorem htons_inj {n n' : Nat} (h : htons n = htons n') : n % 2 ^ 16 = n' % 2 ^ 16 := by
  obtain ⟨hhigh, hrest⟩ := List.cons.inj h
  have hhigh' := congrArg UInt8.toNat hhigh
  have hlow' := congrArg UInt8.toNat (List.cons.inj hrest).1
  simp only [UInt8.toNat_ofNat'] at hhigh' hlow'
  omega

theorem payload_append (tags tags' : List Tag) :
    payload (tags ++ tags') = payload tags ++ payload tags' := List.flatMap_append

theorem length_ownTag (host : Mac) : (ownTag host).bytes.length = 10 := by
  have hvalue : (ownTag host).value.length = 6 := host.length_toList
  rw [length_tag, hvalue]

end Bytes

section Tx

variable {HZ : BitVec 32} {m : MatStruct} {w : Surroundings} (f : Frame) {tags : List Tag}

theorem locate_none {id pos : Nat} (h : ∀ t ∈ tags, t.id = id → t.value = []) :
    locate id pos tags = none := by
  induction tags generalizing pos with
  | nil => rfl
  | cons t tags ih =>
    have hno : ¬ (t.id = id ∧ 0 < t.value.length) := by
      rintro ⟨hid, hpos⟩
      rw [h t List.mem_cons_self hid] at hpos
      exact Nat.lt_irrefl 0 hpos
    rw [locate, if_neg hno]
    exact ih fun t ht => h t (List.mem_cons_of_mem _ ht)

theorem Frame.retagged_eq (tags : List Tag) (pad : List UInt8) :
    f.retagged tags pad = f.head ++ (0x11 :: f.code :: (htons f.sesID.toNat ++
      (htons (payload tags).length ++ (payload tags ++ pad)))) := by
  simp [Frame.retagged]

theorem payload_ownTag (tags : List Tag) (host : Mac) :
    payload (tags ++ [ownTag host]) = payload tags ++ (ownTag host).bytes := by
  rw [payload_append, payload, payload, List.flatMap_singleton]

theorem retagged_ne {f : Frame} {pad : List UInt8}
    (hlen : (payload f.tags).length % 2 ^ 16 ≠ (payload tags).length % 2 ^ 16) :
    f.bytes ≠ f.retagged tags pad := by
  intro heq
  rw [f.bytes_eq, f.retagged_eq] at heq
  have hlayer := (List.cons.inj (List.cons.inj (List.append_cancel_left heq)).2).2
  exact hlen (htons_inj (List.append_inj_left (List.append_cancel_left hlayer) rfl))

theorem retagged_ne_appendTag (host : Mac) (pad room s : List UInt8) (tagID : Nat) :
    appendTag f.bytes room (f.head.length + 4) (payload f.tags).length tagID s ≠
      f.retagged (f.tags ++ [ownTag host]) pad := by
  intro heq
  have hfront := f.length_front
  have hlen : f.bytes.length = f.head.length + 6 + (payload f.tags).length + f.pad.length := by
    rw [f.bytes_front, List.length_append, List.length_append, hfront]
    omega
  have hright : (f.retagged (f.tags ++ [ownTag host]) pad)[f.head.length + 6 +
      (payload f.tags).length]? = some 0x01 := by
    have hpre : (f.head ++ (0x11 :: f.code :: (htons f.sesID.toNat ++ (htons
        (payload (f.tags ++ [ownTag host])).length ++ payload f.tags)))).length =
          f.head.length + 6 + (payload f.tags).length := by
      simp
      omega
    have hsplit : f.retagged (f.tags ++ [ownTag host]) pad =
        (f.head ++ (0x11 :: f.code :: (htons f.sesID.toNat ++ (htons
          (payload (f.tags ++ [ownTag host])).length ++ payload f.tags)))) ++
          (0x01 :: (0x03 :: (htons host.toList.length ++ (host.toList ++ pad)))) := by
      rw [f.retagged_eq, payload_ownTag, Tag.bytes]
      simp [ownTag, hostUniq, htons, PPPOE_TAG_ID_HOST_UNIQ]
    rw [hsplit]
    exact getElem?_append_length _ _ _ _ hpre.symm
  have hleft : (appendTag f.bytes room (f.head.length + 4) (payload f.tags).length tagID s)[
      f.head.length + 6 + (payload f.tags).length]? = some 0x00 := by
    have hhead : f.head.length + 4 + (payload f.tags).length < f.bytes.length := by omega
    rw [appendTag, if_pos hhead]
    generalize hbig : f.bytes ++ (room ++ List.replicate 10 0).take (PPPOE_DIS_UID_LEN + 4) = big
    have hle : f.bytes.length ≤ big.length := by
      rw [← hbig, List.length_append]
      exact Nat.le_add_right _ _
    have hinside := getElem?_writeAt_inside (htons tagID ++ htons PPPOE_DIS_UID_LEN ++ s) (b := big)
      (i := f.head.length + 4 + (payload f.tags).length) (k := 2) (by omega) (by simp)
    have hwritten := le_length_writeAt (htons tagID ++ htons PPPOE_DIS_UID_LEN ++ s) (b := big)
      (i := f.head.length + 4 + (payload f.tags).length) (by omega)
    rw [getElem?_writeAt_behind (by omega) (by rw [length_htons]; omega),
      show f.head.length + 6 + (payload f.tags).length =
        f.head.length + 4 + (payload f.tags).length + 2 by omega, hinside]
    rfl
  rw [heq, hright] at hleft
  cases hleft

theorem tx_never (r : BareRequest) : ¬ r.Transparent HZ m w := by
  rintro ⟨m', pad, hrun⟩
  have hloc : locate PPPOE_TAG_ID_HOST_UNIQ (r.head.length + 6) r.tags = none :=
    locate_none fun t ht hid => absurd hid (r.bare t ht).1
  have hsame : r.bytes ≠ r.retagged (r.tags ++ [ownTag r.src]) pad := by
    refine retagged_ne ?_
    rw [payload_ownTag, List.length_append, length_ownTag]
    omega
  have hmore := retagged_ne_appendTag r.toFrame r.src pad w.room
  simp only [MATProto_PPPoEDis_Tx, Frame.macAt_dst, Frame.macAt_src, r.version_eq, r.code_eq,
    r.txCode_eq, r.sesID_eq, r.payloadLen_eq, r.findTag_eq, hloc, Option.map_none, uidAt, ne_eq,
    not_true, if_false, Option.bind_eq_bind, Option.bind_some, Bool.false_eq_true] at hrun
  obtain ⟨⟨m₁, p⟩, -, hrun⟩ := Option.bind_eq_some_iff.mp hrun
  cases p with
  | none => exact hsame (Prod.mk.inj (Option.some.inj hrun)).2
  | some p =>
    cases hcopied : w.copied with
    | false =>
      simp only [hcopied, Bool.false_eq_true, if_false] at hrun
      exact hsame (Prod.mk.inj (Option.some.inj hrun)).2
    | true =>
      simp only [hcopied, if_true] at hrun
      obtain ⟨node, -, hrun⟩ := Option.bind_eq_some_iff.mp hrun
      cases hd : node.data with
      | ip e => simp [hd] at hrun
      | uid e =>
        simp only [hd] at hrun
        exact hmore _ _ (Prod.mk.inj (Option.some.inj hrun)).2
      | ses e => simp [hd] at hrun

end Tx

section Rx

variable {HZ : BitVec 32} {m : MatStruct} {lists : Lists} {w : Surroundings} {pkt : Packet}
  {c t : Nat}

def cut (pkt : Packet) (i n : Nat) : Packet := pkt.take i ++ pkt.drop (i + n)

theorem getElem?_cut_before {i n p : Nat} (hi : i ≤ pkt.length) (hp : p < i) :
    (cut pkt i n)[p]? = pkt[p]? := by
  have hlen : (pkt.take i).length = i := List.length_take_of_le hi
  rw [cut, List.getElem?_append_left (by omega), List.getElem?_take_of_lt hp]

theorem getElem?_cut_behind {i n p : Nat} (hi : i ≤ pkt.length) (hp : i ≤ p) :
    (cut pkt i n)[p]? = pkt[p + n]? := by
  have hlen : (pkt.take i).length = i := List.length_take_of_le hi
  rw [cut, List.getElem?_append_right (by omega), hlen, List.getElem?_drop]
  congr 1
  omega

theorem htons_sub {n k : Nat} (h : k ≤ n) : htons (n + 2 ^ 16 - k) = htons (n - k) := by
  have hlow : UInt8.ofNat (n + 2 ^ 16 - k) = UInt8.ofNat (n - k) := by
    refine UInt8.toNat_inj.mp ?_
    simp only [UInt8.toNat_ofNat']
    omega
  have hhigh : UInt8.ofNat ((n + 2 ^ 16 - k) / 256) = UInt8.ofNat ((n - k) / 256) := by
    refine UInt8.toNat_inj.mp ?_
    simp only [UInt8.toNat_ofNat']
    omega
  rw [htons, htons, hlow, hhigh]

def moved (pkt : Packet) (c t : Nat) : Packet :=
  (writeAt pkt (c - 4) ((pkt.drop (c + t)).take (pkt.length - c - (4 + t)))).take
    (pkt.length - (4 + t))

theorem removeTag_eq {i n : Nat} (hroom : c + t + 4 ≤ pkt.length) (hn : 4 + t ≤ n)
    (hlen : pkt.length < 2 ^ 32) (hc : 4 ≤ c) :
    removeTag pkt i n c t = some (writeAt (moved pkt c t) i (htons (n - (4 + t)))) := by
  have htail : (pkt.length + 2 ^ 32 - c - (4 + t)) % 2 ^ 32 = pkt.length - c - (4 + t) := by omega
  have htake : ((pkt.drop (c + t)).take (pkt.length - c - (4 + t))).length =
      pkt.length - c - (4 + t) := by
    rw [List.length_take, List.length_drop]
    omega
  have hsame : (writeAt pkt (c - 4) ((pkt.drop (c + t)).take (pkt.length - c - (4 + t)))).length =
      pkt.length := length_writeAt (by omega)
  simp only [removeTag, htail]
  rw [if_pos (by omega), hsame, htons_sub hn]
  rfl

section Moved

variable {p : Nat} (hc : 4 ≤ c) (hroom : c + t + 4 ≤ pkt.length)

include hc hroom

theorem length_moved : (moved pkt c t).length = pkt.length - (4 + t) := by
  have hsame : (writeAt pkt (c - 4) ((pkt.drop (c + t)).take (pkt.length - c - (4 + t)))).length =
      pkt.length := by
    refine length_writeAt ?_
    rw [List.length_take, List.length_drop]
    omega
  rw [moved, List.length_take, hsame]
  exact Nat.min_eq_left (Nat.sub_le _ _)

theorem getElem?_moved_before (hp : p < c - 4) : (moved pkt c t)[p]? = pkt[p]? := by
  rw [moved, List.getElem?_take_of_lt (by omega), getElem?_writeAt_before (by omega) hp]

theorem getElem?_moved_up (hp : c - 4 ≤ p) (hend : p + (8 + t) < pkt.length) :
    (moved pkt c t)[p]? = pkt[p + (4 + t)]? := by
  obtain ⟨k, rfl⟩ := Nat.exists_eq_add_of_le hp
  have htake : k < ((pkt.drop (c + t)).take (pkt.length - c - (4 + t))).length := by
    rw [List.length_take, List.length_drop]
    omega
  rw [moved, List.getElem?_take_of_lt (by omega), getElem?_writeAt_inside _ (by omega) htake,
    List.getElem?_take_of_lt (by omega), List.getElem?_drop]
  congr 1
  omega

theorem getElem?_moved_last (hp : pkt.length ≤ p + (8 + t)) (hend : p + (4 + t) < pkt.length) :
    (moved pkt c t)[p]? = pkt[p]? := by
  have htake : ((pkt.drop (c + t)).take (pkt.length - c - (4 + t))).length =
      pkt.length - c - (4 + t) := by
    rw [List.length_take, List.length_drop]
    omega
  rw [moved, List.getElem?_take_of_lt (by omega), getElem?_writeAt_behind (by omega) (by omega)]

end Moved

theorem removeTag_cut_iff {i n : Nat} {base pad : Packet} (hi : i + 6 ≤ c) (hn : 4 + t ≤ n)
    (hin : c + t ≤ pkt.length) (hlen : pkt.length < 2 ^ 32)
    (hbase : writeAt (cut pkt (c - 4) (4 + t)) i (htons (n - (4 + t))) = base ++ pad) :
    (∃ pad', removeTag pkt i n c t = some (base ++ pad')) ↔
      c + t + 4 ≤ pkt.length ∧ ∀ p, pkt.length - (8 + t) ≤ p →
        p < pkt.length - (4 + t) - pad.length → pkt[p]? = pkt[p + (4 + t)]? := by
  have hcut : (cut pkt (c - 4) (4 + t)).length = pkt.length - (4 + t) := by
    rw [cut, List.length_append, List.length_take, List.length_drop]
    omega
  have hwhole : base.length + pad.length = pkt.length - (4 + t) := by
    rw [← List.length_append, ← hbase, length_writeAt (by rw [hcut, length_htons]; omega), hcut]
  have hkept {p : Nat} (behind : List UInt8) (hlt : p < base.length) :
      base[p]? = (base ++ behind)[p]? := (List.getElem?_append_left hlt).symm
  have hright : ∀ p, i + 2 ≤ p → p < base.length → base[p]? = (cut pkt (c - 4) (4 + t))[p]? := by
    intro p hp hlt
    rw [hkept pad hlt, ← hbase,
      getElem?_writeAt_behind (by omega) (by rw [length_htons]; omega)]
  constructor
  · rintro ⟨pad', hrun⟩
    have hroom := room_of_removeTag hin hrun
    refine ⟨hroom, fun p hp hlt => ?_⟩
    rw [removeTag_eq hroom hn hlen (by omega)] at hrun
    have hout := Option.some.inj hrun
    have hlt' : p < base.length := by omega
    have hleft : base[p]? = (moved pkt c t)[p]? := by
      rw [hkept pad' hlt', ← hout, getElem?_writeAt_behind
        (by rw [length_moved (by omega) hroom]; omega) (by rw [length_htons]; omega)]
    rw [hright p (by omega) hlt', getElem?_cut_behind (by omega) (by omega),
      getElem?_moved_last (by omega) hroom (by omega) (by omega)] at hleft
    exact hleft.symm
  · rintro ⟨hroom, htail⟩
    have hmoved : (moved pkt c t).length = pkt.length - (4 + t) := length_moved (by omega) hroom
    have hprefix : base <+: writeAt (moved pkt c t) i (htons (n - (4 + t))) := by
      refine List.prefix_iff_getElem?.mpr fun p hlt => ?_
      rw [← List.getElem?_eq_getElem hlt]
      rcases Nat.lt_or_ge p (i + 2) with hp | hp
      · have hboth : base[p]? = (writeAt (cut pkt (c - 4) (4 + t)) i (htons (n - (4 + t))))[p]? := by
          rw [hbase, List.getElem?_append_left hlt]
        rw [hboth]
        rcases Nat.lt_or_ge p i with hlow | hlow
        · rw [getElem?_writeAt_before (by omega) hlow, getElem?_writeAt_before (by omega) hlow,
            getElem?_moved_before (by omega) hroom (by omega),
            getElem?_cut_before (by omega) (by omega)]
        · obtain ⟨k, rfl⟩ := Nat.exists_eq_add_of_le hlow
          have hk : k < (htons (n - (4 + t))).length := by rw [length_htons]; omega
          rw [getElem?_writeAt_inside _ (by omega) hk, getElem?_writeAt_inside _ (by omega) hk]
      · rw [hright p hp hlt, getElem?_writeAt_behind (by omega) (by rw [length_htons]; omega)]
        rcases Nat.lt_or_ge p (c - 4) with hlow | hlow
        · rw [getElem?_moved_before (by omega) hroom hlow, getElem?_cut_before (by omega) hlow]
        · rw [getElem?_cut_behind (by omega) hlow]
          rcases Nat.lt_or_ge (p + (8 + t)) pkt.length with hend | hend
          · rw [getElem?_moved_up (by omega) hroom hlow hend]
          · rw [getElem?_moved_last (by omega) hroom hend (by omega),
              htail p (by omega) (by omega)]
    obtain ⟨pad', hout⟩ := hprefix
    exact ⟨pad', by rw [removeTag_eq hroom hn hlen (by omega), hout]⟩

theorem locate_behind {id pos : Nat} {before after : List Tag} {t : Tag}
    (h : ∀ t ∈ before, t.id = id → t.value = []) (hid : t.id = id) (hpos : 0 < t.value.length) :
    locate id pos (before ++ t :: after) = some (pos + (payload before).length + 4, t.value) := by
  induction before generalizing pos with
  | nil => exact if_pos ⟨hid, hpos⟩
  | cons t' before ih =>
    have hno : ¬ (t'.id = id ∧ 0 < t'.value.length) := by
      rintro ⟨hid', hpos'⟩
      rw [h t' List.mem_cons_self hid'] at hpos'
      exact Nat.lt_irrefl 0 hpos'
    have hlen : (payload (t' :: before)).length = t'.bytes.length + (payload before).length :=
      List.length_append
    rw [List.cons_append, locate, if_neg hno, ih fun t ht => h t (List.mem_cons_of_mem _ ht), hlen,
      Nat.add_assoc pos]

namespace OwnAnswer

variable (a : OwnAnswer)

def content : Nat := a.head.length + 6 + (payload a.before).length + 4

theorem locate_eq : locate PPPOE_TAG_ID_HOST_UNIQ (a.head.length + 6) a.tags =
    some (a.content, a.host.toList) := by
  have hpos : 0 < (ownTag a.host).value.length := by
    rw [show (ownTag a.host).value = a.host.toList from rfl, a.host.length_toList]
    decide
  rw [a.tags_eq]
  exact locate_behind a.others rfl hpos

theorem payload_tags : payload a.tags =
    payload a.before ++ ((ownTag a.host).bytes ++ payload a.after) := by
  rw [a.tags_eq, payload_append]
  rfl

theorem length_payload :
    (payload a.tags).length = (payload a.before).length + 10 + (payload a.after).length := by
  rw [a.payload_tags, List.length_append, List.length_append, length_ownTag, Nat.add_assoc]

theorem length_bytes :
    a.bytes.length = a.content + 6 + (payload a.after).length + a.pad.length := by
  rw [a.bytes_front, List.length_append, List.length_append, a.length_front, a.length_payload,
    content]
  omega

theorem cut_eq : writeAt (cut a.bytes (a.content - 4) 10) (a.head.length + 4)
    (htons ((payload a.tags).length - 10)) = a.retagged (a.before ++ a.after) [] ++ a.pad := by
  have hn : (payload a.tags).length - 10 = (payload (a.before ++ a.after)).length := by
    rw [a.length_payload, payload_append, List.length_append]
    omega
  obtain ⟨A, hA, hbytes, hretag⟩ : ∃ A : Packet, A.length = a.head.length + 4 ∧
      a.bytes = A ++ (htons (payload a.tags).length ++
        (payload a.before ++ ((ownTag a.host).bytes ++ (payload a.after ++ a.pad)))) ∧
      a.retagged (a.before ++ a.after) [] ++ a.pad = A ++
        (htons (payload (a.before ++ a.after)).length ++
          (payload a.before ++ (payload a.after ++ a.pad))) := by
    refine ⟨a.head ++ (0x11 :: a.code :: htons a.sesID.toNat), by simp, ?_, ?_⟩
    · rw [a.bytes_eq, a.payload_tags]
      simp
    · rw [Frame.retagged_eq, payload_append]
      simp
  have hfront : (A ++ (htons (payload a.tags).length ++ payload a.before)).length =
      a.content - 4 := by
    rw [List.length_append, List.length_append, hA, length_htons, content]
    omega
  have hbehind : (A ++ (htons (payload a.tags).length ++ payload a.before) ++
      (ownTag a.host).bytes).length = a.content - 4 + 10 := by
    rw [List.length_append, hfront, length_ownTag]
  have hcut : cut a.bytes (a.content - 4) 10 = A ++ (htons (payload a.tags).length ++
      (payload a.before ++ (payload a.after ++ a.pad))) := by
    have hsplit : a.bytes = (A ++ (htons (payload a.tags).length ++ payload a.before)) ++
        ((ownTag a.host).bytes ++ (payload a.after ++ a.pad)) := by
      rw [hbytes]
      simp
    have hsplit' : a.bytes = (A ++ (htons (payload a.tags).length ++ payload a.before) ++
        (ownTag a.host).bytes) ++ (payload a.after ++ a.pad) := by
      rw [hbytes]
      simp
    have htake : a.bytes.take (a.content - 4) =
        A ++ (htons (payload a.tags).length ++ payload a.before) := by
      rw [hsplit, ← hfront, List.take_left]
    have hdrop : a.bytes.drop (a.content - 4 + 10) = payload a.after ++ a.pad := by
      rw [hsplit', ← hbehind, List.drop_left]
    rw [cut, htake, hdrop]
    simp
  rw [hcut, hretag, hn, ← hA, writeAt, List.take_left, List.append_assoc, length_htons]
  congr 2
  rw [← List.drop_drop, List.drop_left]
  rfl

theorem rx_iff (h : Holds m lists) (out : Packet) :
    (∃ m' mac, MATProto_PPPoEDis_Rx m a.bytes a.head.length w = some (m', out, mac)) ↔
      a.Known m ∧ removeTag a.bytes (a.head.length + 4) (payload a.tags).length a.content 6 =
        some out ∨ ¬ a.Known m ∧ out = a.bytes := by
  obtain ⟨ses, hcode, hpadt⟩ := a.rxCode_eq
  have hmin : min a.host.toList.length PPPOE_DIS_UID_LEN = 6 := by
    rw [a.host.length_toList]
    rfl
  have hloc := a.locate_eq
  rw [← a.length_front] at hloc
  have hbytes := (locate_bytes a.front a.pad hloc (n := 6) (Nat.le_of_eq a.host.length_toList.symm)).1
  rw [← a.bytes_front, List.take_of_length_le (Nat.le_of_eq a.host.length_toList)] at hbytes
  have huid? : a.uid? = some (Uid.ofTag a.host.toList) := by
    rw [Answer.uid?, Frame.find, a.locate_eq]
    rfl
  obtain ⟨m₁, hlook, h₁, -⟩ := tableLookUp_spec h (Query.uid (.ofTag a.host.toList)).slot
    (Data.isUid (.ofTag a.host.toList)) (w.now 0)
  have hlook' : UidMacTableLookUp m (.ofTag a.host.toList) (w.now 0) =
      some (m₁, a.entry lists) := by
    rw [UidMacTableLookUp, h.valid, if_pos rfl, Answer.entry, huid?]
    exact hlook
  simp only [MATProto_PPPoEDis_Rx, Frame.macAt_src, a.version_eq, a.code_eq, hcode, hpadt,
    a.sesID_eq, a.payloadLen_eq, a.findTag_eq, a.locate_eq, hmin, hbytes, hlook', ne_eq, not_true,
    if_false, Option.map_some, Option.bind_eq_bind, Option.bind_some, OwnAnswer.Known, h.entries_eq]
  have hstay : (∀ e, a.entry lists = some (.uid e) → ¬ e.uIDAddByUs = true) →
      ∀ (m' : MatStruct) (mac : Option Mac), ((∃ m'' mac', some (m', a.bytes, mac) = some (m'', out, mac')) ↔
        (∃ e, a.entry lists = some (.uid e) ∧ e.uIDAddByUs = true) ∧
          removeTag a.bytes (a.head.length + 4) (payload a.tags).length a.content 6 = some out ∨
        (¬ ∃ e, a.entry lists = some (.uid e) ∧ e.uIDAddByUs = true) ∧ out = a.bytes) := by
    intro hno m' mac
    constructor
    · rintro ⟨m'', mac', heq⟩
      have hout := (Prod.mk.inj (Prod.mk.inj (Option.some.inj heq)).2).1
      refine .inr ⟨?_, hout.symm⟩
      rintro ⟨e, he, hadd⟩
      exact hno e he hadd
    · rintro (⟨⟨e, he, hadd⟩, -⟩ | ⟨-, rfl⟩)
      · exact absurd hadd (hno e he)
      · exact ⟨m', mac, rfl⟩
  cases hentry : a.entry lists with
  | none =>
    rw [hentry] at hstay
    exact hstay (fun e he => absurd he.symm (Option.some_ne_none _)) m₁ none
  | some d =>
    rw [hentry] at hstay
    cases d with
    | ip e => exact hstay (fun e he => by cases he) m₁ none
    | ses e => exact hstay (fun e he => by cases he) m₁ none
    | uid e =>
      have hses : ∀ pkt : Packet, ∃ m', (if ses = true then
          (Option.map Prod.fst (SesMacTableUpdate m₁ e.macAddr (BitVec.ofNat 16 a.sesID.toNat)
            a.src w.sesNow w.sesAddr)).bind fun m => some (m, pkt, some e.macAddr)
          else some (m₁, pkt, some e.macAddr)) = some (m', pkt, some e.macAddr) := by
        intro pkt
        cases ses with
        | false => exact ⟨m₁, rfl⟩
        | true =>
          obtain ⟨m₂, b, lists₂, hupdate, -, -⟩ := sesUpdate_spec (w := w) h₁ e.macAddr
            a.src (BitVec.ofNat 16 a.sesID.toNat)
          exact ⟨m₂, by rw [hupdate]; rfl⟩
      by_cases hadd : e.uIDAddByUs = true
      · have hknown : ∃ e', some (Data.uid e) = some (.uid e') ∧ e'.uIDAddByUs = true :=
          ⟨e, rfl, hadd⟩
        simp only [if_pos hadd, hknown, true_and, not_true, false_and, or_false]
        constructor
        · rintro ⟨m', mac, hrun⟩
          obtain ⟨pkt, hpkt, hrun⟩ := Option.bind_eq_some_iff.mp hrun
          obtain ⟨m'', hses'⟩ := hses pkt
          rw [hses'] at hrun
          rw [hpkt, (Prod.mk.inj (Prod.mk.inj (Option.some.inj hrun)).2).1]
        · intro hpkt
          obtain ⟨m', hses'⟩ := hses out
          exact ⟨m', some e.macAddr, by rw [hpkt, Option.bind_some, hses']⟩
      · obtain ⟨m', hrun⟩ := hses a.bytes
        simp only [if_neg hadd, hrun]
        exact hstay (fun e' he => by obtain rfl := Data.uid.inj (Option.some.inj he); exact hadd)
          m' (some e.macAddr)

theorem transparent_iff (h : Holds m lists) : a.Transparent m w ↔ a.Known m ∧ a.TailKept := by
  have hcut := removeTag_cut_iff (t := 6) (n := (payload a.tags).length)
    (show a.head.length + 4 + 6 ≤ a.content by rw [content]; omega)
    (by rw [a.length_payload]; omega) (by rw [a.length_bytes]; omega) a.length_lt a.cut_eq
  have hpad : ∀ pad, a.retagged (a.before ++ a.after) pad =
      a.retagged (a.before ++ a.after) [] ++ pad := by
    intro pad
    rw [Frame.retagged, Frame.retagged, List.append_nil]
  have hne : ∀ pad, a.bytes ≠ a.retagged (a.before ++ a.after) pad := by
    intro pad
    have hfits := a.fits
    refine retagged_ne ?_
    rw [a.length_payload] at hfits ⊢
    rw [payload_append, List.length_append]
    omega
  have htail : a.TailKept ↔ a.content + 6 + 4 ≤ a.bytes.length ∧
      ∀ p, a.bytes.length - (8 + 6) ≤ p → p < a.bytes.length - (4 + 6) - a.pad.length →
        a.bytes[p]? = a.bytes[p + (4 + 6)]? := by
    have hroom : 4 ≤ (payload a.after ++ a.pad).length ↔ a.content + 6 + 4 ≤ a.bytes.length := by
      rw [List.length_append, a.length_bytes]
      omega
    rw [TailKept, hroom]
  rw [htail, ← hcut]
  constructor
  · rintro ⟨m', pad, mac, hrun⟩
    rcases (a.rx_iff h _).mp ⟨m', mac, hrun⟩ with ⟨hknown, hout⟩ | ⟨-, hout⟩
    · exact ⟨hknown, pad, by rw [hout, hpad]⟩
    · exact absurd hout.symm (hne pad)
  · rintro ⟨hknown, pad, hout⟩
    rw [← hpad] at hout
    obtain ⟨m', mac, hrun⟩ := (a.rx_iff h _).mpr (.inl ⟨hknown, hout⟩)
    exact ⟨m', pad, mac, hrun⟩

end OwnAnswer

/-- After any run of the tables no request goes out with the tag behind its payload, and an
answer comes in without it just when its entry is known and the end of the packet is kept. -/
theorem ownTag_transparent_iff {m₀ : MatStruct} {b : Ptr} (hinit : MATEngineInit b = some m₀)
    (es : List Event) (hrun : Run.tryExec (step HZ) m₀ es = some m) :
    (∀ (r : BareRequest) (w : Surroundings), ¬ r.Transparent HZ m w) ∧
      ∀ (a : OwnAnswer) (w : Surroundings), a.Transparent m w ↔ a.Known m ∧ a.TailKept := by
  obtain ⟨lists, h, -⟩ := run_filled hinit hrun
  exact ⟨fun r w => tx_never r, fun a w => a.transparent_iff h⟩

end Rx

theorem serviceName_id : 0x0101 < 2 ^ 16 := by decide

theorem serviceName_value : ([] : List UInt8).length < 2 ^ 16 := by decide

def serviceName : Tag := ⟨0x0101, [], serviceName_id, serviceName_value⟩

theorem discover_bare : ∀ t ∈ (padi (.replicate 6 2) serviceName (by decide)).tags,
    t.id ≠ PPPOE_TAG_ID_HOST_UNIQ ∧ t.id ≠ PPPOE_TAG_ID_AC_COOKIE := by
  intro t ht
  obtain rfl := List.mem_singleton.mp ht
  decide

def discover : BareRequest := ⟨padi (.replicate 6 2) serviceName (by decide), discover_bare⟩

theorem offer_tags : [ownTag (.replicate 6 2), serviceName] =
    [] ++ ownTag (.replicate 6 2) :: [serviceName] := rfl

theorem offer_fits : (payload [ownTag (.replicate 6 2), serviceName]).length < 2 ^ 16 := by decide

theorem offer_isAnswer : PPPOE_CODE_PADO = PPPOE_CODE_PADO ∨ PPPOE_CODE_PADO = PPPOE_CODE_PADS :=
  .inl rfl

theorem offer_untagged : (none : Option (UInt8 × UInt8)) = none := rfl

theorem offer_unicast : Mac.isGroup (.replicate 6 2) = false := rfl

theorem offer_others : ∀ t ∈ ([] : List Tag), t.id = PPPOE_TAG_ID_HOST_UNIQ → t.value = [] :=
  fun _ ht => absurd ht List.not_mem_nil

def offer : OwnAnswer :=
  { dst := .replicate 6 2, src := .replicate 6 4, vlan := none, code := PPPOE_CODE_PADO, sesID := 0
    tags := [ownTag (.replicate 6 2), serviceName], pad := [], fits := offer_fits
    isAnswer := offer_isAnswer, untagged := offer_untagged, unicast := offer_unicast
    host := .replicate 6 2, before := [], after := [serviceName], tags_eq := offer_tags
    others := offer_others, length_lt := by decide }

theorem ownTag_transparent_offer : ∃ m₀, MATEngineInit 1 = some m₀ ∧ ∃ m,
    Run.tryExec (step 250) m₀
      [.uidUpdate (.replicate 6 2) BROADCAST_ADDR none false (fun _ => 5) 2] = some m ∧
    (∀ (r : BareRequest) (w : Surroundings), ¬ r.Transparent 250 m w) ∧
      ∀ (a : OwnAnswer) (w : Surroundings), a.Transparent m w ↔ a.Known m ∧ a.TailKept := by
  obtain ⟨m, hrun, -⟩ := run_holds 250 (holds_init (b := 1) rfl)
    [.uidUpdate (.replicate 6 2) BROADCAST_ADDR none false (fun _ => 5) 2]
  exact ⟨_, rfl, m, hrun, ownTag_transparent_iff (b := 1) rfl _ hrun⟩

/-- The tag goes over the length of the service name of the request, and what was the header of
the tag stays at the end of the answer, where the service name should be. -/
theorem serviceName_spoiled : ∃ m₀, MATEngineInit 1 = some m₀ ∧
    ¬ discover.Transparent 250 m₀ (quiet 2) ∧
    (MATProto_PPPoEDis_Tx m₀ 250 discover.bytes 14 (quiet 2)).map (fun r => r.2.drop 18) =
      some (htons 14 ++ [0x01, 0x01, 0x01, 0x03, 0x00, 0x06, 2, 2, 2, 2, 2, 2, 0, 0]) ∧
    ∃ m, Run.tryExec (step 250) m₀
      [.uidUpdate (.replicate 6 2) BROADCAST_ADDR none false (fun _ => 5) 2] = some m ∧
    offer.Known m ∧ ¬ offer.Transparent m (quiet 3) := by
  have hentry : ((MATEngineInit 1).bind fun m => (Run.tryExec (step 250) m
      [.uidUpdate (.replicate 6 2) BROADCAST_ADDR none false (fun _ => 5) 2]).bind fun m =>
        offer.entry m.entries) = some (.uid ⟨false, true, [2, 2, 2, 2, 2, 2], .replicate 6 2⟩) := by
    decide +kernel
  have hsent : ((MATEngineInit 1).bind fun m =>
      (MATProto_PPPoEDis_Tx m 250 discover.bytes 14 (quiet 2)).map fun r => r.2.drop 18) =
        some (htons 14 ++ [0x01, 0x01, 0x01, 0x03, 0x00, 0x06, 2, 2, 2, 2, 2, 2, 0, 0]) := by
    decide +kernel
  obtain ⟨m₀, hinit⟩ : ∃ m₀, MATEngineInit 1 = some m₀ := ⟨_, rfl⟩
  obtain ⟨m, hrun, lists, h⟩ := run_holds 250 (holds_init hinit)
    [.uidUpdate (.replicate 6 2) BROADCAST_ADDR none false (fun _ => 5) 2]
  rw [hinit, Option.bind_some] at hentry hsent
  rw [hrun, Option.bind_some] at hentry
  refine ⟨m₀, hinit, tx_never discover, hsent, m, hrun, ⟨_, hentry, rfl⟩, fun htransparent => ?_⟩
  obtain ⟨-, -, hkept⟩ := (offer.transparent_iff h).mp htransparent
  exact absurd (hkept 21 (by decide) (by decide)) (by decide)

end Ralink.Mat
