import Ralink.Crypt.Tkip
import Ralink.Lib.Sized
import Ralink.Lib.Tlv

/-! The driver mixes a word whenever it has four bytes. Over a text that is filled up to whole words
this is a fold over the words, in whatever parts the text is handed over, so that the receiver
computes what the sender did. -/
namespace Ralink.Crypt

open Sized (slice isSome_slice slice_eq_some)

variable (key : List UInt8) (a : UInt32) (s : UInt32 × UInt32) (p : TKIP_KEY_INFO)
  (pDA pSA bs : List UInt8) (UserPriority : UInt8) (pMICKey : List UInt8)

def rotl (a : UInt32) (n : Nat) : UInt32 := ⟨a.toBitVec.rotateLeft n⟩

def rotr (a : UInt32) (n : Nat) : UInt32 := ⟨a.toBitVec.rotateRight n⟩

def xswap (a : UInt32) : UInt32 :=
  RTMPTkipGetUInt32 [(a >>> 8).toUInt8, a.toUInt8, (a >>> 24).toUInt8, (a >>> 16).toUInt8]

def michaelBlock (s : UInt32 × UInt32) (w : UInt32) : UInt32 × UInt32 :=
  let l := s.1 ^^^ w
  let r := s.2 ^^^ rotl l 17
  let l := l + r
  let r := r ^^^ xswap l
  let l := l + r
  let r := r ^^^ rotl l 3
  let l := l + r
  let r := r ^^^ rotr l 2
  (l + r, r)

def words : List UInt8 → List UInt32
  | a :: b :: c :: d :: bs => RTMPTkipGetUInt32 [a, b, c, d] :: words bs
  | _ => []

/-- A byte of its own and from four to seven zeros fill up the last word. -/
def padded (bs : List UInt8) : List UInt8 :=
  bs ++ 0x5a :: List.replicate (7 - bs.length % 4) 0

def michaelKey (key : List UInt8) : UInt32 × UInt32 :=
  (RTMPTkipGetUInt32 (key.take 4), RTMPTkipGetUInt32 (key.drop 4))

def michael (key bs : List UInt8) : List UInt8 :=
  let s := (words (padded bs)).foldl michaelBlock (michaelKey key)
  RTMPTkipPutUInt32 s.1 ++ RTMPTkipPutUInt32 s.2

theorem length_michael : (michael key bs).length = 8 := rfl

example : michael (List.replicate 8 0) [] = [0x82, 0x92, 0x5c, 0x1c, 0xa1, 0xd1, 0x30, 0xb8] := by
  decide

theorem ROL32_eq : ROL32 a 17 = rotl a 17 ∧ ROL32 a 3 = rotl a 3 := ⟨rfl, rfl⟩

theorem ROR32_eq : ROR32 a 2 = rotr a 2 := by
  apply UInt32.toBitVec_inj.mp
  simp [ROR32, ROL32, rotr, BitVec.rotateRight, BitVec.rotateRightAux, BitVec.or_comm]

theorem mask_swap_eq : ((a &&& 0xff00ff00) >>> 8) ||| ((a &&& 0x00ff00ff) <<< 8) = xswap a := by
  apply UInt32.toBitVec_inj.mp
  refine BitVec.eq_of_getLsbD_eq fun i hi => ?_
  simp only [xswap, RTMPTkipGetUInt32, List.foldr, UInt32.toBitVec_or, UInt32.toBitVec_and,
    UInt32.toBitVec_shiftLeft, UInt32.toBitVec_shiftRight, UInt8.toBitVec_toUInt32,
    UInt32.toBitVec_toUInt8]
  interval_cases i <;> simp

theorem appendWord_eq (w : UInt32) : appendWord s.1 s.2 w = michaelBlock s w := by
  unfold appendWord michaelBlock
  simp only [(ROL32_eq _).1, (ROL32_eq _).2, ROR32_eq, mask_swap_eq]

theorem getUInt32_four (a b c d : UInt8) :
    0 ||| a.toUInt32 <<< UInt32.ofNat (8 * 0) ||| b.toUInt32 <<< UInt32.ofNat (8 * (0 + 1)) |||
        c.toUInt32 <<< UInt32.ofNat (8 * (0 + 1 + 1)) |||
        d.toUInt32 <<< UInt32.ofNat (8 * (0 + 1 + 1 + 1)) = RTMPTkipGetUInt32 [a, b, c, d] := by
  apply UInt32.toBitVec_inj.mp
  refine BitVec.eq_of_getLsbD_eq fun i hi => ?_
  simp only [RTMPTkipGetUInt32, List.foldr, UInt32.toBitVec_or, UInt32.toBitVec_shiftLeft,
    UInt8.toBitVec_toUInt32]
  interval_cases i <;> simp

def between (s : UInt32 × UInt32) : TKIP_KEY_INFO := ⟨s.1, s.2, 0, 0⟩

theorem append_four (a b c d : UInt8) :
    RTMPTkipAppend (between s) [a, b, c, d] =
      between (michaelBlock s (RTMPTkipGetUInt32 [a, b, c, d])) := by
  rw [← getUInt32_four, ← appendWord_eq]
  rfl

theorem append_append (as bs : List UInt8) :
    RTMPTkipAppend p (as ++ bs) = RTMPTkipAppend (RTMPTkipAppend p as) bs := List.foldl_append

theorem append_parts (parts : List (List UInt8)) :
    parts.foldl RTMPTkipAppend p = RTMPTkipAppend p parts.flatten := by
  induction parts generalizing p with
  | nil => rfl
  | cons part parts ih => rw [List.foldl_cons, ih, List.flatten_cons, append_append]

theorem append_words {bs : List UInt8} (h : bs.length % 4 = 0) :
    RTMPTkipAppend (between s) bs = between ((words bs).foldl michaelBlock s) := by
  induction bs using words.induct generalizing s with
  | case1 a b c d bs ih =>
    have hrest : bs.length % 4 = 0 := by
      simp only [List.length_cons] at h
      omega
    have hsplit : a :: b :: c :: d :: bs = [a, b, c, d] ++ bs := rfl
    rw [words, List.foldl_cons, ← ih _ hrest, ← append_four, hsplit, append_append]
  | case2 bs hshort =>
    match bs, hshort, h with
    | [], _, _ => rfl
    | a :: b :: c :: d :: bs, hshort, _ => exact (hshort a b c d bs rfl).elim

theorem nBytesInM_append (h : p.nBytesInM < 4) (bs : List UInt8) :
    (RTMPTkipAppend p bs).nBytesInM = (p.nBytesInM + bs.length) % 4 := by
  induction bs generalizing p with
  | nil => exact (Nat.mod_eq_of_lt h).symm
  | cons b bs ih =>
    have hstep : (RTMPTkipAppendByte p b).nBytesInM = (p.nBytesInM + 1) % 4 := by
      unfold RTMPTkipAppendByte
      split
      · show 0 = _
        omega
      · show p.nBytesInM + 1 = _
        omega
    have hlt : (RTMPTkipAppendByte p b).nBytesInM < 4 := by omega
    show (RTMPTkipAppend (RTMPTkipAppendByte p b) bs).nBytesInM = _
    rw [ih _ hlt, hstep, List.length_cons]
    omega

def RTMPTkipSetMICKey (pMICKey : List UInt8) : TKIP_KEY_INFO :=
  ⟨RTMPTkipGetUInt32 (pMICKey.take 4), RTMPTkipGetUInt32 (pMICKey.drop 4), 0, 0⟩

theorem getMIC_append :
    RTMPTkipGetMIC (RTMPTkipAppend (RTMPTkipSetMICKey key) bs) = michael key bs := by
  have hset : RTMPTkipSetMICKey key = between (michaelKey key) := rfl
  have hlen : (RTMPTkipAppend (between (michaelKey key)) (bs ++ [0x5a, 0, 0, 0, 0])).nBytesInM =
      (bs.length + 5) % 4 := by
    have hempty : (between (michaelKey key)).nBytesInM < 4 := Nat.zero_lt_succ 3
    rw [nBytesInM_append _ hempty, List.length_append]
    show (0 + (bs.length + 5)) % 4 = _
    rw [Nat.zero_add]
  have hpad : bs ++ [0x5a, 0, 0, 0, 0] ++ List.replicate ((4 - (bs.length + 5) % 4) % 4) 0 =
      padded bs := by
    have hzeros : 7 - bs.length % 4 = 4 + (4 - (bs.length + 5) % 4) % 4 := by omega
    rw [padded, hzeros, List.replicate_add, List.append_assoc]
    rfl
  have hwhole : (padded bs).length % 4 = 0 := by
    rw [padded, List.length_append, List.length_cons, List.length_replicate]
    omega
  unfold RTMPTkipGetMIC michael
  simp only [hset, ← append_append, hlen, hpad, append_words _ hwhole]
  rfl

theorem initMICEngine_eq :
    RTMPInitMICEngine pDA pSA UserPriority pMICKey =
      RTMPTkipAppend (RTMPTkipSetMICKey pMICKey) (pDA ++ pSA ++ [UserPriority, 0, 0, 0]) := by
  rw [append_append, append_append]
  rfl

/-- What the MIC of a message is the Michael value of. -/
def authenticated (pDA pSA : List UInt8) (UserPriority : UInt8) (msg : List UInt8) : List UInt8 :=
  pDA ++ pSA ++ [UserPriority, 0, 0, 0] ++ msg

theorem getMIC_parts (parts : List (List UInt8)) :
    RTMPTkipGetMIC (parts.foldl RTMPTkipAppend (RTMPInitMICEngine pDA pSA UserPriority pMICKey)) =
      michael pMICKey (authenticated pDA pSA UserPriority parts.flatten) := by
  rw [append_parts, initMICEngine_eq, ← append_append, getMIC_append]
  rfl

def RTMPTkipCompareMICValue (pSrc pDA pSA pMICKey : List UInt8) (UserPriority : UInt8) (Len : Nat) :
    Option Bool := do
  let data ← slice pSrc Len
  let OldMic ← slice (pSrc.drop Len) 8
  return RTMPTkipGetMIC (RTMPTkipAppend (RTMPInitMICEngine pDA pSA UserPriority pMICKey) data) =
    OldMic

theorem compare_eq {pDA pSA pMICKey body mic : List UInt8} {UserPriority : UInt8}
    (h : mic.length = 8) :
    RTMPTkipCompareMICValue (body ++ mic) pDA pSA pMICKey UserPriority body.length =
      some (decide (michael pMICKey (authenticated pDA pSA UserPriority body) = mic)) := by
  have hdata : slice (body ++ mic) body.length = some body := by
    unfold slice
    rw [if_pos (by rw [List.length_append]; omega), List.take_left]
  have hmic : slice ((body ++ mic).drop body.length) 8 = some mic := by
    unfold slice
    rw [List.drop_left, if_pos h.ge, ← h, List.take_length]
  have hvalue := getMIC_parts pDA pSA UserPriority pMICKey [body]
  rw [List.flatten_singleton] at hvalue
  unfold RTMPTkipCompareMICValue
  rw [hdata, hmic, ← hvalue]
  rfl

def MIN_NET_DEVICE_FOR_APCLI : Nat := 0x20
def MAX_APCLI_NUM : Nat := 1
def MCAST_WCID : UInt8 := 0

/-- What the addresses of a packet depend on. -/
structure TxPath where
  CONFIG_AP_SUPPORT : Bool
  APCLI_SUPPORT : Bool
  IGMP_SNOOP_SUPPORT : Bool
  OPMODE_AP : Bool
  apidx : UInt8
  wcid : UInt8
  /-- The `CurrentAddress` of the interfaces. -/
  ApCliTab : Nat → Vector UInt8 6
  /-- The addresses of the stations. -/
  Content : UInt8 → Vector UInt8 6

namespace TxPath

variable (t : TxPath)

def apCli : Bool :=
  t.CONFIG_AP_SUPPORT && t.APCLI_SUPPORT && decide (MIN_NET_DEVICE_FOR_APCLI ≤ t.apidx.toNat) &&
    decide (t.apidx.toNat - MIN_NET_DEVICE_FOR_APCLI < MAX_APCLI_NUM) && t.OPMODE_AP

def snooped (first : UInt8) : Bool :=
  t.CONFIG_AP_SUPPORT && t.IGMP_SNOOP_SUPPORT && t.wcid != MCAST_WCID && first &&& 0x01 != 0 &&
    t.OPMODE_AP

/-- The destination and the source that the MIC is computed over. -/
def addresses (pSrc : List UInt8) : Option (List UInt8 × List UInt8) := do
  let first ← slice pSrc 1
  let DA ← slice pSrc 6
  let SA ← slice (pSrc.drop 6) 6
  if t.apCli then
    return (DA, (t.ApCliTab (t.apidx.toNat - MIN_NET_DEVICE_FOR_APCLI)).toList)
  else if t.snooped (first.headD 0) then return ((t.Content t.wcid).toList, SA)
  else return (DA, SA)

end TxPath

/-- The data of a packet, whose length is held in 32 bits. -/
structure Packet where
  pSrc : List UInt8
  length_lt : pSrc.length < 2 ^ 32

def isVlan (pSrc : List UInt8) : Prop :=
  Tlv.be16 (pSrc.getD 12 0) (pSrc.getD 13 0) = 0x8100

instance (pSrc : List UInt8) : Decidable (isVlan pSrc) :=
  inferInstanceAs (Decidable (_ = 0x8100))

def vlan_offset (pSrc : List UInt8) : Nat := if isVlan pSrc then 4 else 0

/-- The type goes behind the encapsulation, and without one it is left out. -/
def appendEncap (pSrc : List UInt8) (Tx : TKIP_KEY_INFO) :
    Option (Vector UInt8 6) → Option TKIP_KEY_INFO
  | some encap => do
    let type ← slice (pSrc.drop (12 + vlan_offset pSrc)) 2
    return RTMPTkipAppend (RTMPTkipAppend Tx encap.toList) type
  | none => some Tx

def RTMPCalculateMICValue (t : TxPath) (pPacket : Packet) (pEncap : Option (Vector UInt8 6))
    (TxMic : List UInt8) (UserPriority : UInt8) : Option (List UInt8) := do
  let pSrc := pPacket.pSrc
  let _ ← slice (pSrc.drop 12) 2
  let (DA, SA) ← t.addresses pSrc
  let Tx ← appendEncap pSrc (RTMPInitMICEngine DA SA UserPriority TxMic) pEncap
  let SrcBufLen := UInt32.ofNat pSrc.length - UInt32.ofNat (14 + vlan_offset pSrc)
  let data ← slice (pSrc.drop (14 + vlan_offset pSrc)) SrcBufLen.toNat
  return RTMPTkipGetMIC (RTMPTkipAppend Tx data)

def encapsulated (pEncap : Option (Vector UInt8 6)) (pSrc : List UInt8) : List UInt8 :=
  (match pEncap with
    | some encap => encap.toList ++ (pSrc.drop (12 + vlan_offset pSrc)).take 2
    | none => []) ++ pSrc.drop (14 + vlan_offset pSrc)

/-- A packet with a whole header, in which a tag takes four bytes more. -/
structure Frame extends Packet where
  whole : 14 + vlan_offset pSrc ≤ pSrc.length

namespace Frame

variable (f : Frame) (t : TxPath)

theorem fourteen_le : 14 ≤ f.pSrc.length := (Nat.le_add_right 14 _).trans f.whole

theorem slice_drop {i n : Nat} (h : i + n ≤ f.pSrc.length) :
    slice (f.pSrc.drop i) n = some ((f.pSrc.drop i).take n) :=
  if_pos (by rw [List.length_drop]; omega)

theorem exists_addresses : ∃ DA SA, t.addresses f.pSrc = some (DA, SA) := by
  have hlen := f.fourteen_le
  have hfirst := f.slice_drop (i := 0) (n := 1) (by omega)
  have hDA := f.slice_drop (i := 0) (n := 6) (by omega)
  have hSA := f.slice_drop (i := 6) (n := 6) (by omega)
  rw [List.drop_zero] at hfirst hDA
  unfold TxPath.addresses
  rw [hfirst, hDA, hSA]
  simp only [Option.bind_eq_bind, Option.bind_some]
  split
  · exact ⟨_, _, rfl⟩
  · split
    · exact ⟨_, _, rfl⟩
    · exact ⟨_, _, rfl⟩

theorem srcBufLen_eq :
    (UInt32.ofNat f.pSrc.length - UInt32.ofNat (14 + vlan_offset f.pSrc)).toNat =
      f.pSrc.length - (14 + vlan_offset f.pSrc) := by
  have hlt := f.length_lt
  have hwhole := f.whole
  have hlen : (UInt32.ofNat f.pSrc.length).toNat = f.pSrc.length := UInt32.toNat_ofNat_of_lt' hlt
  have hoff : (UInt32.ofNat (14 + vlan_offset f.pSrc)).toNat = 14 + vlan_offset f.pSrc :=
    UInt32.toNat_ofNat_of_lt' (hwhole.trans_lt hlt)
  rw [UInt32.toNat_sub_of_le, hlen, hoff]
  rw [UInt32.le_iff_toNat_le, hlen, hoff]
  exact hwhole

theorem calculate_eq (pEncap : Option (Vector UInt8 6)) (TxMic : List UInt8) (UserPriority : UInt8)
    {DA SA : List UInt8} (haddr : t.addresses f.pSrc = some (DA, SA)) :
    RTMPCalculateMICValue t f.toPacket pEncap TxMic UserPriority =
      some (michael TxMic (authenticated DA SA UserPriority (encapsulated pEncap f.pSrc))) := by
  have hwhole := f.whole
  have htag := f.slice_drop (i := 12) (n := 2) f.fourteen_le
  have htype := f.slice_drop (i := 12 + vlan_offset f.pSrc) (n := 2) (by omega)
  have hdata : slice (f.pSrc.drop (14 + vlan_offset f.pSrc))
      (UInt32.ofNat f.pSrc.length - UInt32.ofNat (14 + vlan_offset f.pSrc)).toNat =
      some (f.pSrc.drop (14 + vlan_offset f.pSrc)) := by
    rw [f.srcBufLen_eq, ← List.length_drop, slice, if_pos le_rfl, List.take_length]
  unfold RTMPCalculateMICValue
  simp only [htag, haddr, hdata, Option.bind_eq_bind, Option.bind_some]
  cases pEncap with
  | none =>
    have hvalue := getMIC_parts DA SA UserPriority TxMic [f.pSrc.drop (14 + vlan_offset f.pSrc)]
    rw [List.flatten_singleton] at hvalue
    exact congrArg some hvalue
  | some encap =>
    have hvalue := getMIC_parts DA SA UserPriority TxMic
      [encap.toList, (f.pSrc.drop (12 + vlan_offset f.pSrc)).take 2,
        f.pSrc.drop (14 + vlan_offset f.pSrc)]
    have hsent : [encap.toList, (f.pSrc.drop (12 + vlan_offset f.pSrc)).take 2,
        f.pSrc.drop (14 + vlan_offset f.pSrc)].flatten = encapsulated (some encap) f.pSrc := by
      simp [encapsulated]
    rw [hsent] at hvalue
    simp only [appendEncap, htype, Option.bind_eq_bind, Option.bind_some]
    exact congrArg some hvalue

end Frame

/-- The MIC is the Michael value of the bytes that were appended, however they were split, and the
receiver finds the one that the sender computed to be right. -/
theorem michael_alike :
    (∀ pMICKey (parts : List (List UInt8)),
      RTMPTkipGetMIC (parts.foldl RTMPTkipAppend (RTMPTkipSetMICKey pMICKey)) =
        michael pMICKey parts.flatten) ∧
    (∀ pDA pSA UserPriority pMICKey (parts : List (List UInt8)),
      RTMPTkipGetMIC (parts.foldl RTMPTkipAppend
        (RTMPInitMICEngine pDA pSA UserPriority pMICKey)) =
          michael pMICKey (authenticated pDA pSA UserPriority parts.flatten)) ∧
    ∀ (t : TxPath) (f : Frame) pEncap key UserPriority, ∃ DA SA mic,
      t.addresses f.pSrc = some (DA, SA) ∧
        RTMPCalculateMICValue t f.toPacket pEncap key UserPriority = some mic ∧
        RTMPTkipCompareMICValue (encapsulated pEncap f.pSrc ++ mic) DA SA key UserPriority
          (encapsulated pEncap f.pSrc).length = some true := by
  refine ⟨fun pMICKey parts => ?_, getMIC_parts, fun t f pEncap key UserPriority => ?_⟩
  · rw [append_parts, getMIC_append]
  · obtain ⟨DA, SA, haddr⟩ := f.exists_addresses t
    refine ⟨DA, SA, _, haddr, f.calculate_eq t pEncap key UserPriority haddr, ?_⟩
    rw [compare_eq (length_michael key _), decide_eq_true rfl]

/-- A multicast frame that is sent to one station which has joined the group. -/
def snoopedPath : TxPath :=
  ⟨true, true, true, true, 0, 5, fun _ => .replicate 6 0, fun _ => .replicate 6 8⟩

def untagged : Frame :=
  ⟨⟨[1, 0, 0x5e, 0, 0, 1, 2, 2, 2, 2, 2, 2, 0x08, 0x00, 7, 8, 9], by decide⟩, by decide⟩

def tagged : Frame :=
  ⟨⟨[1, 0, 0x5e, 0, 0, 1, 2, 2, 2, 2, 2, 2, 0x81, 0x00, 0x20, 5, 0x08, 0x00, 7, 8, 9], by decide⟩,
    by decide⟩

/-- The tag is not sent: both frames are the same text. -/
theorem michael_alike_tagged : ∀ f ∈ [untagged, tagged], ∃ DA SA mic,
    snoopedPath.addresses f.pSrc = some (DA, SA) ∧
      RTMPCalculateMICValue snoopedPath f.toPacket (some #v[0xaa, 0xaa, 3, 0, 0, 0])
        (List.replicate 8 1) 5 = some mic ∧
      RTMPTkipCompareMICValue ([0xaa, 0xaa, 3, 0, 0, 0, 0x08, 0x00, 7, 8, 9] ++ mic) DA SA
        (List.replicate 8 1) 5 11 = some true := by
  obtain ⟨-, -, hframes⟩ := michael_alike
  intro f hf
  obtain rfl | rfl := List.mem_pair.mp hf
  · exact hframes snoopedPath untagged (some #v[0xaa, 0xaa, 3, 0, 0, 0]) _ 5
  · exact hframes snoopedPath tagged (some #v[0xaa, 0xaa, 3, 0, 0, 0]) _ 5

end Ralink.Crypt
