import Ralink.HwNat.KeepAlive

/-! The hardware puts an IPv4 header before each packet of a 6RD flow. It is given the sum of the
header without the length, which differs from packet to packet, and adds the length. -/
namespace Ralink.HwNat

open OnesSum (total halves swap Verifies addC)

def ntohs (x : BitVec 16) : BitVec 16 := htons x

/-- The carry is brought round as one, however much it is: `&&` is not `&`. -/
def foldCarry (tmp : BitVec 32) : BitVec 32 :=
  (if tmp >>> 16 ≠ 0 then 1 else 0) + (tmp &&& 0xFFFF)

def PpeGetChkBase (iph : IpHdr) : BitVec 16 :=
  let org_chksum := ntohs iph.check
  let org_tot_len := ntohs iph.tot_len
  let tmp : BitVec 32 := ~~~(org_chksum.setWidth 32) + ~~~(org_tot_len.setWidth 32)
  let tmp := foldCarry tmp
  let tmp := foldCarry tmp
  tmp.setWidth 16

/-- The header with a length, before its checksum is put in. -/
def IpHdr.withLength (iph : IpHdr) (tot_len : BitVec 16) : IpHdr :=
  { iph with tot_len := htons tot_len, check := 0 }

def IpHdr.checksum (iph : IpHdr) (tot_len : BitVec 16) : BitVec 16 :=
  ntohs (ipFastCsum (iph.withLength tot_len).words iph.ihl)

/-- The sum of the header without its length and its checksum. -/
def IpHdr.restSum (iph : IpHdr) : Nat :=
  total (((iph.withLength 0).words.flatMap (halves (w := 16))).map ntohs)

/-- The base is the sum of the rest of the header, and with any length gives the checksum. -/
def IpHdr.ExactBase (iph : IpHdr) (base : BitVec 16) : Prop :=
  base.toNat ≡ iph.restSum [MOD 2 ^ 16 - 1] ∧
    ∀ tot_len : BitVec 16, ~~~addC base tot_len = iph.checksum tot_len

section Base

variable {iph : IpHdr}

theorem toNat_foldCarry (tmp : BitVec 32) :
    (foldCarry tmp).toNat = (if 2 ^ 16 ≤ tmp.toNat then 1 else 0) + tmp.toNat % 2 ^ 16 := by
  have hlow : (tmp &&& 0xFFFF).toNat = tmp.toNat % 2 ^ 16 := by
    rw [BitVec.toNat_and]
    exact Nat.and_two_pow_sub_one_eq_mod tmp.toNat 16
  have hhigh : tmp >>> 16 ≠ 0 ↔ 2 ^ 16 ≤ tmp.toNat := by
    rw [ne_eq, ← BitVec.toNat_inj, BitVec.toNat_ushiftRight, Nat.shiftRight_eq_div_pow]
    have hzero : (0 : BitVec 32).toNat = 0 := rfl
    omega
  have hbound := Nat.mod_lt tmp.toNat (show 0 < 2 ^ 16 by decide)
  have hone : (1 : BitVec 32).toNat = 1 := rfl
  have hzero : (0 : BitVec 32).toNat = 0 := rfl
  rw [foldCarry, BitVec.toNat_add, hlow]
  simp only [hhigh]
  split
  · rw [hone, Nat.mod_eq_of_lt (by omega)]
  · rw [hzero, Nat.mod_eq_of_lt (by omega)]

theorem toNat_chkBase (iph : IpHdr) {added : Nat}
    (h : added = (ntohs iph.check).toNat + (ntohs iph.tot_len).toNat) :
    (PpeGetChkBase iph).toNat =
      if added < 0xFFFF then 0xFFFF - added else if added = 0xFFFF then 1 else 0x1FFFF - added := by
  have hc := (ntohs iph.check).isLt
  have ht := (ntohs iph.tot_len).isLt
  have hcomplement (x : BitVec 16) : (~~~(x.setWidth 32)).toNat = 2 ^ 32 - 1 - x.toNat := by
    rw [BitVec.toNat_not, BitVec.toNat_setWidth, Nat.mod_eq_of_lt (by have := x.isLt; omega)]
  have hraw : (~~~((ntohs iph.check).setWidth 32) + ~~~((ntohs iph.tot_len).setWidth 32) :
      BitVec 32).toNat = 2 ^ 32 - 2 - added := by
    rw [BitVec.toNat_add, hcomplement, hcomplement]
    omega
  have hbase : (PpeGetChkBase iph).toNat = (foldCarry (foldCarry (~~~((ntohs iph.check).setWidth 32) +
      ~~~((ntohs iph.tot_len).setWidth 32)))).toNat % 2 ^ 16 := BitVec.toNat_setWidth _ _
  have hfirst := toNat_foldCarry
    (~~~((ntohs iph.check).setWidth 32) + ~~~((ntohs iph.tot_len).setWidth 32))
  rw [hraw, if_pos (by omega)] at hfirst
  rw [hbase, toNat_foldCarry, hfirst]
  by_cases hlow : added < 0xFFFF
  · rw [if_pos hlow, if_neg (by omega)]
    omega
  · rw [if_neg hlow]
    by_cases heq : added = 0xFFFF
    · rw [if_pos heq, if_pos (by omega)]
      omega
    · rw [if_neg heq, if_neg (by omega)]
      omega

theorem total_map_ntohs (l : List (BitVec 16)) :
    total (l.map ntohs) ≡ 2 ^ 8 * total l [MOD 2 ^ 16 - 1] := OnesSum.total_map_swap (w := 8) l

theorem ntohs_modEq (x : BitVec 16) : (ntohs x).toNat ≡ 2 ^ 8 * x.toNat [MOD 2 ^ 16 - 1] :=
  OnesSum.swap_modEq (w := 8) x

theorem htons_htons (x : BitVec 16) : htons (htons x) = x := OnesSum.swap_swap (w := 8) x

theorem total_words_length (iph : IpHdr) (tot_len check : BitVec 16) :
    total ({ iph with tot_len := tot_len, check := check } : IpHdr).words ≡
      total (iph.withLength 0).words + tot_len.toNat + check.toNat [MOD 2 ^ 16 - 1] := by
  have hhalves (x y : BitVec 16) : (x ++ y : BitVec 32).toNat = 2 ^ 16 * x.toNat + y.toNat := by
    rw [BitVec.toNat_append, ← Nat.shiftLeft_add_eq_or_of_lt y.isLt, Nat.shiftLeft_eq, Nat.mul_comm]
  have hword := hhalves tot_len (iph.tos ++ iph.version ++ iph.ihl)
  have hword0 := hhalves 0 (iph.tos ++ iph.version ++ iph.ihl)
  have hcheck := hhalves check (iph.protocol ++ iph.ttl)
  have hcheck0 := hhalves 0 (iph.protocol ++ iph.ttl)
  have hzero : (0 : BitVec 16).toNat = 0 := rfl
  have hnone : htons 0 = 0 := rfl
  simp only [IpHdr.withLength, IpHdr.words, OnesSum.total_append, OnesSum.total_cons,
    OnesSum.total_nil, hnone]
  rw [Nat.ModEq]
  omega

theorem restSum_modEq (iph : IpHdr) :
    iph.restSum ≡ 2 ^ 8 * total (iph.withLength 0).words [MOD 2 ^ 16 - 1] :=
  (total_map_ntohs _).trans ((OnesSum.total_flatMap_halves (w := 16) _).mul_left _)

theorem verifies_added (h : iph.Verifies) :
    iph.restSum + (ntohs iph.tot_len).toNat + (ntohs iph.check).toNat ≡ 0 [MOD 2 ^ 16 - 1] := by
  have hwords := (total_words_length iph iph.tot_len iph.check).mul_left (2 ^ 8)
  have hhalves := (OnesSum.total_flatMap_halves (w := 16) iph.words).mul_left (2 ^ 8)
  calc iph.restSum + (ntohs iph.tot_len).toNat + (ntohs iph.check).toNat
      ≡ 2 ^ 8 * total (iph.withLength 0).words + 2 ^ 8 * iph.tot_len.toNat +
        2 ^ 8 * iph.check.toNat [MOD 2 ^ 16 - 1] :=
          ((restSum_modEq iph).add (ntohs_modEq _)).add (ntohs_modEq _)
    _ = 2 ^ 8 * (total (iph.withLength 0).words + iph.tot_len.toNat + iph.check.toNat) := by ring
    _ ≡ 2 ^ 8 * total iph.words [MOD 2 ^ 16 - 1] := hwords.symm
    _ ≡ 2 ^ 8 * total (iph.words.flatMap (halves (w := 16))) [MOD 2 ^ 16 - 1] := hhalves.symm
    _ ≡ 0 [MOD 2 ^ 16 - 1] := ((netVerifies_iff.mp h).1.mul_left (2 ^ 8)).modEq_zero_nat

theorem checksum_modEq (iph : IpHdr) (tot_len : BitVec 16) :
    (iph.checksum tot_len).toNat + iph.restSum + tot_len.toNat ≡ 0 [MOD 2 ^ 16 - 1] := by
  have hwords := (total_words_length iph (htons tot_len) 0).mul_left (2 ^ 8)
  have hsum := (ipFastCsum_modEq (iph.withLength tot_len)).mul_left (2 ^ 8)
  have hlen := ntohs_modEq (htons tot_len)
  rw [ntohs, htons_htons] at hlen
  have hzero : (0 : BitVec 16).toNat = 0 := rfl
  rw [hzero, Nat.add_zero] at hwords
  calc (iph.checksum tot_len).toNat + iph.restSum + tot_len.toNat
      ≡ 2 ^ 8 * (ipFastCsum (iph.withLength tot_len).words iph.ihl).toNat +
        2 ^ 8 * total (iph.withLength 0).words + 2 ^ 8 * (htons tot_len).toNat
          [MOD 2 ^ 16 - 1] := ((ntohs_modEq _).add (restSum_modEq iph)).add hlen
    _ = 2 ^ 8 * (ipFastCsum (iph.withLength tot_len).words iph.ihl).toNat +
        2 ^ 8 * (total (iph.withLength 0).words + (htons tot_len).toNat) := by ring
    _ ≡ 2 ^ 8 * (ipFastCsum (iph.withLength tot_len).words iph.ihl).toNat +
        2 ^ 8 * total (iph.withLength tot_len).words [MOD 2 ^ 16 - 1] := hwords.symm.add_left _
    _ = 2 ^ 8 * ((ipFastCsum (iph.withLength tot_len).words iph.ihl).toNat +
        total (iph.withLength tot_len).words) := by ring
    _ ≡ 0 [MOD 2 ^ 16 - 1] := hsum

theorem checksum_ne_allOnes (iph : IpHdr) (tot_len : BitVec 16) :
    iph.checksum tot_len ≠ 0xFFFF := by
  intro hall
  have hback : ipFastCsum (iph.withLength tot_len).words iph.ihl = 0xFFFF := by
    rw [← htons_htons (ipFastCsum _ _)]
    exact congrArg htons hall
  have hzero := csumFold_eq_allOnes.mp hback
  have hfirst := (OnesSum.sum_eq_zero.mp hzero).2
    (htons tot_len ++ (iph.tos ++ iph.version ++ iph.ihl)) (by
      have hlen := iph.whole
      obtain ⟨n, hn⟩ : ∃ n, iph.ihl.toNat = n + 1 := ⟨iph.options.length + 4, by omega⟩
      rw [hn]
      exact List.mem_cons_self)
  have hnum := congrArg BitVec.toNat hfirst
  have hnone : (0 : BitVec 32).toNat = 0 := rfl
  simp only [BitVec.toNat_append, hnone, Nat.or_eq_zero_iff] at hnum
  have hlen := iph.whole
  omega

theorem exactBase_of_modEq {base : BitVec 16} (hne : base ≠ 0)
    (h : base.toNat ≡ iph.restSum [MOD 2 ^ 16 - 1]) : iph.ExactBase base := by
  refine ⟨h, ?_⟩
  intro tot_len
  have hsum := OnesSum.addC_modEq base tot_len
  have hneg := OnesSum.toNat_complement (addC base tot_len)
  have hcheck := checksum_modEq iph tot_len
  have hones : (~~~addC base tot_len).toNat ≠ 2 ^ 16 - 1 := by
    intro hall
    apply hne
    have hzero : addC base tot_len = 0 := by
      apply BitVec.eq_of_toNat_eq
      have hnone : (0 : BitVec 16).toNat = 0 := rfl
      omega
    exact (OnesSum.addC_eq_zero.mp hzero).1
  have hones' : (iph.checksum tot_len).toNat ≠ 2 ^ 16 - 1 := by
    intro hall
    exact checksum_ne_allOnes iph tot_len (BitVec.eq_of_toNat_eq hall)
  have hbound := (iph.checksum tot_len).isLt
  apply BitVec.eq_of_toNat_eq
  rw [Nat.ModEq] at h hsum hcheck
  omega

/-- The base is exact as long as the checksum and the length of the header at hand add up without a
carry. -/
theorem PpeGetChkBase_exact_iff (iph : IpHdr) (h : iph.Verifies) :
    iph.ExactBase (PpeGetChkBase iph) ↔
      (ntohs iph.check).toNat + (ntohs iph.tot_len).toNat < 0xFFFF := by
  have hbase := toNat_chkBase iph rfl
  have hadded := verifies_added h
  have hc := (ntohs iph.check).isLt
  have ht := (ntohs iph.tot_len).isLt
  constructor
  · rintro ⟨hmod, -⟩
    by_contra hcarry
    rw [if_neg hcarry] at hbase
    rw [Nat.ModEq] at hmod hadded
    split at hbase <;> omega
  · intro hlow
    rw [if_pos hlow] at hbase
    apply exactBase_of_modEq
    · intro hzero
      rw [hzero] at hbase
      have hnone : (0 : BitVec 16).toNat = 0 := rfl
      omega
    · rw [Nat.ModEq] at hadded ⊢
      omega

/-- The header of a tunnelled packet of 60 bytes from 10.0.0.1 to 10.0.0.2. -/
def sampleTunnelHdr (id check : BitVec 16) : IpHdr :=
  { sampleIpHdr 41 60 with id := htons id, check := htons check }

theorem PpeGetChkBase_exact_sample :
    (sampleTunnelHdr 0 0x6697).Verifies ∧
      (sampleTunnelHdr 0 0x6697).ExactBase (PpeGetChkBase (sampleTunnelHdr 0 0x6697)) :=
  ⟨by decide +kernel, (PpeGetChkBase_exact_iff (sampleTunnelHdr 0 0x6697) (by decide +kernel)).mpr
    (by decide)⟩

/-- With another identification the sum has a carry, and the base is one too large. -/
theorem PpeGetChkBase_off_by_one :
    (sampleTunnelHdr 0x66C4 0xFFD2).Verifies ∧
      PpeGetChkBase (sampleTunnelHdr 0x66C4 0xFFD2) = 0xFFF1 ∧
      (sampleTunnelHdr 0x66C4 0xFFD2).restSum % (2 ^ 16 - 1) = 0xFFF0 ∧
      (sampleTunnelHdr 0x66C4 0xFFD2).checksum 60 = 0xFFD2 ∧
      ~~~addC (PpeGetChkBase (sampleTunnelHdr 0x66C4 0xFFD2)) 60 = 0xFFD1 ∧
      ¬ (sampleTunnelHdr 0x66C4 0xFFD2).ExactBase
        (PpeGetChkBase (sampleTunnelHdr 0x66C4 0xFFD2)) := by
  refine ⟨by decide +kernel, by decide +kernel, by decide +kernel, by decide +kernel,
    by decide +kernel, ?_⟩
  rintro ⟨-, hall⟩
  exact absurd (hall 60) (by decide +kernel)

end Base

end Ralink.HwNat
