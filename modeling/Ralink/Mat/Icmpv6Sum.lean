import Ralink.Mat.Frames
import Ralink.Mat.Ipv6

/-! What a receiver sums up of an ICMPv6 message, and that `icmpv6_csum` gives the checksum with
which it verifies, where the length of the message is a multiple of four. -/
namespace Ralink.Mat
open Sized (slice)
open CArray (store)
open OnesSum (loads netWords total Verifies)

/-- The addresses of the packet, the length of the message and its protocol. -/
def pseudoHdr (b : List UInt8) (len : Nat) : List UInt8 :=
  (b.drop 8).take 32 ++ ([0, 0] ++ htons len) ++ [0, 0, 0, IPV6_NEXT_HEADER_ICMPV6]

/-- The message from `o` on verifies. -/
def Checked (b : List UInt8) (o : Nat) : Prop :=
  Verifies (netWords (pseudoHdr b (b.length - o) ++ b.drop o))

def wordBytes (x : BitVec 16) : List UInt8 := [⟨x.extractLsb' 0 8⟩, ⟨x.extractLsb' 8 8⟩]

/-- The packet with the link-layer address of the option at `c` and the checksum of the message at
`o` written over. -/
def readdressed (b : List UInt8) (o c : Nat) (mac : Mac) (chksum : BitVec 16) : List UInt8 :=
  writeAt (writeAt b (o + c + 2) mac.toList) (o + 2) (wordBytes chksum)

/-- The checksum and the address that were there come to the address that is put in. -/
def Balanced (b : List UInt8) (o c : Nat) (mac : Mac) : Prop :=
  total (netWords ((b.drop (o + 2)).take 2)) + total (netWords ((b.drop (o + c + 2)).take 6)) ≡
    total (netWords mac.toList) [MOD 2 ^ 16 - 1]

section Sums

variable {saddr daddr msg : List UInt8} {len : UInt16} {proto : UInt8}

theorem addWord_eq (a b : BitVec 32) : addWord a b = OnesSum.addC a b := by
  have ha := a.isLt
  have hb := b.isLt
  have hadd := BitVec.toNat_add a b
  unfold addWord OnesSum.addC
  by_cases h : a.toNat + b.toNat < 2 ^ 32
  · rw [Nat.mod_eq_of_lt h] at hadd
    have hge : ¬ a + b < b := by
      rw [BitVec.lt_def, hadd]
      omega
    simp only [if_neg hge, if_pos h]
    exact BitVec.add_zero (a + b)
  · have hlt : a + b < b := by
      rw [BitVec.lt_def, hadd]
      omega
    simp only [if_pos hlt, if_neg h]

theorem foldl_addWord (init : BitVec 32) (l : List (BitVec 32)) :
    l.foldl addWord init = OnesSum.sum init l := by
  have hadd : addWord = OnesSum.addC := by
    funext a b
    exact addWord_eq a b
  rw [hadd]
  rfl

theorem foldCsum_spec (csum : BitVec 32) :
    (foldCsum csum).toNat ≡ csum.toNat [MOD 2 ^ 16 - 1] ∧ (foldCsum csum).toNat < 2 ^ 16 := by
  induction csum using foldCsum.induct with
  | case1 csum h ih =>
    have hlow : (csum &&& 0xffff#32).toNat = csum.toNat % 2 ^ 16 := by
      rw [BitVec.toNat_and]
      exact Nat.and_two_pow_sub_one_eq_mod csum.toNat 16
    have hhigh : (csum >>> 16).toNat = csum.toNat / 2 ^ 16 := by
      rw [BitVec.toNat_ushiftRight, Nat.shiftRight_eq_div_pow]
    have hsum : ((csum &&& 0xffff#32) + (csum >>> 16)).toNat =
        csum.toNat % 2 ^ 16 + csum.toNat / 2 ^ 16 := by
      have hlt := csum.isLt
      rw [BitVec.toNat_add, hlow, hhigh, Nat.mod_eq_of_lt (by omega)]
    rw [foldCsum, if_pos h]
    refine ⟨ih.1.trans ?_, ih.2⟩
    rw [hsum, Nat.ModEq]
    omega
  | case2 csum h =>
    rw [foldCsum, if_neg h]
    refine ⟨Nat.ModEq.refl _, ?_⟩
    have hhigh := congrArg BitVec.toNat (not_not.mp h)
    rw [BitVec.toNat_ushiftRight, Nat.shiftRight_eq_div_pow] at hhigh
    change csum.toNat / 2 ^ 16 = 0 at hhigh
    omega

theorem extract_setWidth {w n : Nat} {x : BitVec w} (hx : x.toNat = n) (hn : n < 2 ^ 32) (i : Nat) :
    (x.setWidth 32).extractLsb' i 8 = (UInt8.ofNat (n / 2 ^ i)).toBitVec := by
  apply BitVec.eq_of_toNat_eq
  rw [BitVec.extractLsb'_toNat, BitVec.toNat_setWidth, hx, Nat.mod_eq_of_lt hn,
    Nat.shiftRight_eq_div_pow]
  rfl

theorem loads_tail (len : UInt16) (proto : UInt8) :
    loads ([0, 0] ++ htons len.toNat ++ [0, 0, 0, proto]) =
      [OS_HTONL (len.toBitVec.setWidth 32), OS_HTONL (proto.toBitVec.setWidth 32)] := by
  have hlen : len.toNat < 2 ^ 16 := UInt16.toNat_lt len
  have hproto : proto.toNat < 2 ^ 8 := UInt8.toNat_lt proto
  have hl (i : Nat) := @extract_setWidth 16 len.toNat len.toBitVec rfl (by omega) i
  have hp (i : Nat) := @extract_setWidth 8 proto.toNat proto.toBitVec rfl (by omega) i
  have hzero {n : Nat} (k : Nat) (hn : n < 2 ^ k) : n / 2 ^ k = 0 := Nat.div_eq_of_lt hn
  unfold OS_HTONL
  rw [hl, hl, hl, hl, hp, hp, hp, hp, hzero 16 hlen, hzero 24 (by omega), hzero 8 hproto,
    hzero 16 (by omega), hzero 24 (by omega), Nat.pow_zero, Nat.div_one, Nat.div_one,
    UInt8.ofNat_toNat]
  rfl

theorem icmpv6_csum_spec (hsrc : saddr.length = 16) (hdst : daddr.length = 16)
    (hfour : 4 ∣ len.toNat) (hmsg : msg.length = len.toNat) :
    ∃ chksum, icmpv6_csum saddr daddr len proto msg = some chksum ∧
      chksum.toNat +
          total (loads (saddr ++ daddr ++ ([0, 0] ++ htons len.toNat ++ [0, 0, 0, proto]) ++ msg)) ≡
        0 [MOD 2 ^ 16 - 1] := by
  have hslice : slice msg len.toNat = some msg := by
    rw [slice, if_pos hmsg.ge, List.take_of_length_le hmsg.le]
  have hwords : loads (saddr ++ daddr ++ ([0, 0] ++ htons len.toNat ++ [0, 0, 0, proto]) ++ msg) =
      loads saddr ++ loads daddr ++
        [OS_HTONL (len.toBitVec.setWidth 32), OS_HTONL (proto.toBitVec.setWidth 32)] ++
          loads msg := by
    have hsd : (saddr ++ daddr).length = 32 := by rw [List.length_append, hsrc, hdst]
    have htail : ([0, 0] ++ htons len.toNat ++ [0, 0, 0, proto]).length = 8 := rfl
    rw [OnesSum.loads_append (by rw [List.length_append, hsd, htail]; decide),
      OnesSum.loads_append (by rw [hsd]; decide), OnesSum.loads_append (by rw [hsrc]; decide),
      loads_tail]
  have hfold (W : List (BitVec 32)) :
      ((~~~(foldCsum (W.foldl addWord 0))).setWidth 16).toNat + total W ≡ 0 [MOD 2 ^ 16 - 1] := by
    have hsum := (OnesSum.sum_modEq 0 W).of_dvd (OnesSum.dvd_double 16)
    rw [← foldl_addWord] at hsum
    obtain ⟨hkept, hlt⟩ := foldCsum_spec (W.foldl addWord 0)
    have hnot := OnesSum.toNat_complement (foldCsum (W.foldl addWord 0))
    rw [BitVec.toNat_setWidth]
    rw [Nat.ModEq] at hkept hsum ⊢
    change _ = (0 + total W) % _ at hsum
    omega
  unfold icmpv6_csum
  rw [if_neg (not_not_intro (Nat.mod_eq_zero_of_dvd hfour)), hslice, Option.bind_eq_bind,
    Option.bind_some]
  refine ⟨_, rfl, ?_⟩
  have h := hfold (loads (saddr ++ daddr ++ ([0, 0] ++ htons len.toNat ++ [0, 0, 0, proto]) ++ msg))
  conv at h => lhs; rw [hwords, List.foldl_append, List.foldl_append, List.foldl_append]
  rw [hwords]
  exact h

end Sums

section Writes

variable {head b bs bs' : List UInt8} {i o c : Nat} {mac : Mac}

theorem drop_writeAt (h : o + i + bs.length ≤ b.length) :
    (writeAt b (o + i) bs).drop o = writeAt (b.drop o) i bs := by
  have hhead : (b.take (o + i)).length = o + i := List.length_take_of_le (by omega)
  rw [writeAt, writeAt, List.append_assoc, List.drop_append_of_le_length (by omega), List.drop_take,
    List.drop_drop, Nat.add_sub_cancel_left, List.append_assoc, Nat.add_assoc]

theorem take_writeAt (h : o ≤ i) (hi : i ≤ b.length) : (writeAt b i bs).take o = b.take o := by
  have hhead : (b.take i).length = i := List.length_take_of_le hi
  rw [writeAt, List.append_assoc, List.take_append_of_le_length (by omega), List.take_take,
    Nat.min_eq_left h]

theorem writeAt_writeAt (hlen : bs.length = bs'.length) (h : i + bs.length ≤ b.length) :
    writeAt (writeAt b i bs) i bs' = writeAt b i bs' := by
  have hhead : (b.take i).length = i := List.length_take_of_le (by omega)
  have hfront : (b.take i ++ bs).length = i + bs'.length := by rw [List.length_append, hhead, hlen]
  have htail : (writeAt b i bs).drop (i + bs'.length) = b.drop (i + bs'.length) := by
    rw [writeAt, ← hfront, List.drop_left, hfront, hlen]
  rw [writeAt, take_writeAt (le_refl i) (by omega), htail]
  rfl

theorem store_behind (head : List UInt8) (h : i + bs.length ≤ b.length) :
    store (head ++ b) (head.length + i) bs = some (head ++ writeAt b i bs) := by
  rw [store, if_pos (by rw [List.length_append]; omega), writeAt, Nat.add_assoc,
    List.drop_length_add_append, List.take_length_add_append, List.append_assoc, List.append_assoc,
    List.append_assoc]

theorem store_past (head : List UInt8) (h : b.length < i + bs.length) :
    store (head ++ b) (head.length + i) bs = none := by
  apply CArray.store_none
  rw [List.length_append]
  omega

theorem slice_behind (head : List UInt8) {n : Nat} (h : i + n ≤ b.length) :
    slice ((head ++ b).drop (head.length + i)) n = some ((b.drop i).take n) := by
  rw [List.drop_length_add_append, slice, if_pos]
  rw [List.length_drop]
  omega

end Writes

section Readdressed

variable {head b : List UInt8} {i o c : Nat} {mac : Mac} {bs : List UInt8}

theorem length_pseudoHdr (hb : 40 ≤ b.length) (len : Nat) : (pseudoHdr b len).length = 40 := by
  simp only [pseudoHdr, List.length_append, List.length_take, List.length_drop, length_htons,
    List.length_cons, List.length_nil]
  omega

theorem pseudoHdr_congr {b' : List UInt8} (h : b'.take 40 = b.take 40) (len : Nat) :
    pseudoHdr b' len = pseudoHdr b len := by
  have hdrop (l : List UInt8) : (l.drop 8).take 32 = (l.take 40).drop 8 := by
    rw [List.drop_take]
  rw [pseudoHdr, pseudoHdr, hdrop, hdrop, h]

theorem checked_iff (hb : 40 ≤ b.length) : Checked b o ↔
    2 ^ 16 - 1 ∣ total (netWords (pseudoHdr b (b.length - o))) + total (netWords (b.drop o)) := by
  have heven : 2 ∣ (pseudoHdr b (b.length - o)).length := by
    rw [length_pseudoHdr hb]
    decide
  rw [Checked, OnesSum.verifies_iff (by decide), OnesSum.netWords_append heven,
    OnesSum.total_append, and_iff_left]
  refine ⟨0#8 ++ IPV6_NEXT_HEADER_ICMPV6.toBitVec, ?_, by decide⟩
  have hfront : 2 ∣ ((b.drop 8).take 32 ++ ([0, 0] ++ htons (b.length - o))).length := by
    simp only [List.length_append, List.length_take, List.length_drop, length_htons,
      List.length_cons, List.length_nil]
    omega
  apply List.mem_append_left
  rw [pseudoHdr, OnesSum.netWords_append hfront]
  apply List.mem_append_right
  decide

theorem length_mac (mac : Mac) : mac.toList.length = 6 := mac.length_toList

theorem length_readdressed (h : o + c + 8 ≤ b.length) (chksum : BitVec 16) :
    (readdressed b o c mac chksum).length = b.length := by
  have hmac := length_mac mac
  have hlen := @length_writeAt b mac.toList (o + c + 2) (by omega)
  rw [readdressed, length_writeAt, hlen]
  rw [hlen]
  change o + 2 + 2 ≤ b.length
  omega

theorem total_readdressed (hc : 2 ≤ c) (heven : 2 ∣ c) (h : o + c + 8 ≤ b.length)
    (chksum : BitVec 16) :
    total (netWords ((readdressed b o c mac chksum).drop o)) +
        (total (netWords ((b.drop (o + 2)).take 2)) +
          total (netWords ((b.drop (o + c + 2)).take 6))) =
      total (netWords (b.drop o)) +
        (total (netWords mac.toList) + total (netWords (wordBytes chksum))) := by
  have hmac := length_mac mac
  have hbytes : (wordBytes chksum).length = 2 := rfl
  have hlen : (b.drop o).length = b.length - o := List.length_drop
  have haddr := @OnesSum.total_overwrite mac.toList (b.drop o) (c + 2) (by omega)
    (by rw [hmac]; decide) (by omega)
  change total (netWords (writeAt (b.drop o) (c + 2) mac.toList)) + _ = _ at haddr
  have hlen' : (writeAt (b.drop o) (c + 2) mac.toList).length = b.length - o := by
    rw [length_writeAt (by omega), hlen]
  have hchk := @OnesSum.total_overwrite (wordBytes chksum) (writeAt (b.drop o) (c + 2) mac.toList) 2
    (by decide) (by rw [hbytes]) (by omega)
  change total (netWords (writeAt (writeAt (b.drop o) (c + 2) mac.toList) 2 (wordBytes chksum))) + _ =
    _ at hchk
  have hold : ((writeAt (b.drop o) (c + 2) mac.toList).drop 2).take (wordBytes chksum).length =
      (b.drop (o + 2)).take 2 := by
    have hmid (l : List UInt8) : (l.drop 2).take 2 = (l.take 4).drop 2 := by
      rw [List.drop_take]
    rw [hbytes, hmid, take_writeAt (by omega) (by omega), ← hmid, List.drop_drop]
  have hdrop : (readdressed b o c mac chksum).drop o =
      writeAt (writeAt (b.drop o) (c + 2) mac.toList) 2 (wordBytes chksum) := by
    have hlen₁ := @length_writeAt b mac.toList (o + c + 2) (by omega)
    rw [readdressed, drop_writeAt (by omega), Nat.add_assoc, drop_writeAt (by omega)]
  rw [hdrop]
  rw [hold] at hchk
  rw [hmac, List.drop_drop, ← Nat.add_assoc] at haddr
  omega

theorem take_readdressed (ho : 40 ≤ o) (h : o + c + 8 ≤ b.length) (chksum : BitVec 16) :
    (readdressed b o c mac chksum).take 40 = b.take 40 := by
  have hlen := @length_writeAt b mac.toList (o + c + 2) (by rw [length_mac]; omega)
  rw [readdressed, take_writeAt (by omega) (by omega), take_writeAt (by omega) (by omega)]

theorem total_wordBytes (chksum : BitVec 16) :
    total (netWords (wordBytes chksum)) ≡ 2 ^ 8 * chksum.toNat [MOD 2 ^ 16 - 1] :=
  OnesSum.swap_modEq (w := 8) chksum

theorem checked_readdressed_iff (ho : 40 ≤ o) (h : o + c + 8 ≤ b.length) (chksum : BitVec 16) :
    Checked (readdressed b o c mac chksum) o ↔
      2 ^ 16 - 1 ∣ total (netWords (pseudoHdr b (b.length - o))) +
        total (netWords ((readdressed b o c mac chksum).drop o)) := by
  rw [checked_iff (by rw [length_readdressed h]; omega), length_readdressed h,
    pseudoHdr_congr (take_readdressed ho h chksum)]

theorem checked_zero_iff (ho : 40 ≤ o) (hc : 2 ≤ c) (heven : 2 ∣ c) (h : o + c + 8 ≤ b.length)
    (hchecked : Checked b o) :
    Checked (readdressed b o c mac 0) o ↔ Balanced b o c mac := by
  have htotal := @total_readdressed b o c mac hc heven h 0
  have hzero : total (netWords (wordBytes 0)) = 0 := by decide
  have hold := (checked_iff (by omega)).mp hchecked
  rw [checked_readdressed_iff ho h, Balanced, Nat.ModEq]
  omega

theorem pseudoHdr_eq (b : List UInt8) (len : Nat) : pseudoHdr b len =
    (b.drop 8).take 16 ++ (b.drop 24).take 16 ++
      ([0, 0] ++ htons len ++ [0, 0, 0, IPV6_NEXT_HEADER_ICMPV6]) := by
  have haddrs : (b.drop 8).take 32 = (b.drop 8).take 16 ++ (b.drop 24).take 16 := by
    rw [show 32 = 16 + 16 from rfl, List.take_add, List.drop_drop]
  rw [pseudoHdr, haddrs, List.append_assoc _ _ [0, 0, 0, IPV6_NEXT_HEADER_ICMPV6]]

theorem checked_of_csum (ho : 40 ≤ o) (hc : 2 ≤ c) (heven : 2 ∣ c) (h : o + c + 8 ≤ b.length)
    (hfour : 4 ∣ b.length - o) {chksum : BitVec 16}
    (hsum : chksum.toNat + total (loads (pseudoHdr b (b.length - o) ++
      (readdressed b o c mac 0).drop o)) ≡ 0 [MOD 2 ^ 16 - 1]) :
    Checked (readdressed b o c mac chksum) o := by
  have hpseudo : (pseudoHdr b (b.length - o)).length = 40 := length_pseudoHdr (by omega) _
  have hlen : ((readdressed b o c mac 0).drop o).length = b.length - o := by
    rw [List.length_drop, length_readdressed h]
  have hwords := @OnesSum.total_netWords
    (pseudoHdr b (b.length - o) ++ (readdressed b o c mac 0).drop o)
    (by rw [List.length_append, hpseudo, hlen]; omega)
  rw [OnesSum.netWords_append (by rw [hpseudo]; decide), OnesSum.total_append] at hwords
  have hzero : total (netWords (wordBytes 0)) = 0 := by decide
  have hold := @total_readdressed b o c mac hc heven h 0
  have hnew := @total_readdressed b o c mac hc heven h chksum
  have hbytes := total_wordBytes chksum
  rw [checked_readdressed_iff ho h]
  rw [Nat.ModEq] at hsum hwords hbytes
  omega

theorem setLinkAddr_eq (head : List UInt8) (ho : 40 ≤ o) (hc : 2 ≤ c) (heven : 2 ∣ c)
    (h : o + c + 8 ≤ b.length) {len : UInt32} (hlen : len.toUInt16.toNat = b.length - o) :
    ∃ chksum, setLinkAddr (head ++ b) head.length mac o (o + c + 2) len =
        some (head ++ readdressed b o c mac chksum) ∧
      (4 ∣ b.length - o → Checked (readdressed b o c mac chksum) o) ∧
        (¬ 4 ∣ b.length - o → chksum = 0) := by
  have hmac := length_mac mac
  have hlen₁ := @length_writeAt b mac.toList (o + c + 2) (by omega)
  have hlen₂ : (readdressed b o c mac 0).length = b.length := length_readdressed h 0
  have haddr : store (head ++ b) (head.length + (o + c + 2)) mac.toList =
      some (head ++ writeAt b (o + c + 2) mac.toList) := store_behind head (by omega)
  have hclear : store (head ++ writeAt b (o + c + 2) mac.toList) (head.length + o + 2) [0, 0] =
      some (head ++ readdressed b o c mac 0) := by
    have hfits : o + 2 + (wordBytes 0).length ≤ (writeAt b (o + c + 2) mac.toList).length := by
      rw [hlen₁]
      change o + 2 + 2 ≤ b.length
      omega
    rw [Nat.add_assoc]
    exact store_behind head hfits
  have hsrc : slice ((head ++ readdressed b o c mac 0).drop (head.length + 8)) 16 =
      some (((readdressed b o c mac 0).drop 8).take 16) := slice_behind head (by omega)
  have hdst : slice ((head ++ readdressed b o c mac 0).drop (head.length + 24)) 16 =
      some (((readdressed b o c mac 0).drop 24).take 16) := slice_behind head (by omega)
  have hput (chksum : BitVec 16) :
      store (head ++ readdressed b o c mac 0) (head.length + o + 2) (wordBytes chksum) =
        some (head ++ readdressed b o c mac chksum) := by
    have hover : writeAt (readdressed b o c mac 0) (o + 2) (wordBytes chksum) =
        readdressed b o c mac chksum := by
      have hfits : o + 2 + (wordBytes 0).length ≤ (writeAt b (o + c + 2) mac.toList).length := by
        rw [hlen₁]
        change o + 2 + 2 ≤ b.length
        omega
      exact writeAt_writeAt rfl hfits
    have hfits : o + 2 + (wordBytes chksum).length ≤ (readdressed b o c mac 0).length := by
      rw [hlen₂]
      change o + 2 + 2 ≤ b.length
      omega
    rw [Nat.add_assoc, store_behind head hfits, hover]
  have hrun {chksum : BitVec 16}
      (hcsum : icmpv6_csum (((readdressed b o c mac 0).drop 8).take 16)
        (((readdressed b o c mac 0).drop 24).take 16) len.toUInt16 IPV6_NEXT_HEADER_ICMPV6
        ((readdressed b o c mac 0).drop o) = some chksum) :
      setLinkAddr (head ++ b) head.length mac o (o + c + 2) len =
        some (head ++ readdressed b o c mac chksum) := by
    have hmsg : (head ++ readdressed b o c mac 0).drop (head.length + o) =
        (readdressed b o c mac 0).drop o := List.drop_length_add_append _
    simp only [setLinkAddr, haddr, hclear, hsrc, hdst, hmsg, hcsum, Option.bind_eq_bind,
      Option.bind_some]
    exact hput chksum
  by_cases hfour : 4 ∣ b.length - o
  · obtain ⟨chksum, hcsum, hsum⟩ := @icmpv6_csum_spec (((readdressed b o c mac 0).drop 8).take 16)
      (((readdressed b o c mac 0).drop 24).take 16) ((readdressed b o c mac 0).drop o) len.toUInt16
      IPV6_NEXT_HEADER_ICMPV6 (by rw [List.length_take, List.length_drop]; omega)
      (by rw [List.length_take, List.length_drop]; omega) (by rw [hlen]; exact hfour)
      (by rw [List.length_drop, hlen₂, hlen])
    refine ⟨chksum, hrun hcsum, fun _ => ?_, fun h4 => absurd hfour h4⟩
    apply checked_of_csum ho hc heven h hfour
    rw [← pseudoHdr_congr (take_readdressed ho h 0), pseudoHdr_eq, ← hlen]
    exact hsum
  · refine ⟨0, hrun ?_, fun h4 => absurd h4 hfour, fun _ => rfl⟩
    rw [icmpv6_csum, if_pos]
    rw [hlen]
    omega

theorem setLinkAddr_past (head : List UInt8) (h : b.length < o + c + 8) (len : UInt32) :
    setLinkAddr (head ++ b) head.length mac o (o + c + 2) len = none := by
  have hmac := length_mac mac
  rw [setLinkAddr, store_past head (by omega)]
  rfl

end Readdressed

end Ralink.Mat
