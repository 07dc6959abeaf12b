import Ralink.Lib.OnesSum

/-! A packet that the hardware has rewritten comes back to keep the flow alive, and gets the
addresses and ports of the flow again. The checksums are brought up to date word by word. -/
namespace Ralink.HwNat

open OnesSum (total halves swap Verifies)

/-- Words are as the little-endian processor loads them from the packet. -/
def htons (x : BitVec 16) : BitVec 16 := swap (w := 8) x

def htonl (x : BitVec 32) : BitVec 32 :=
  htons (x.extractLsb' 0 16) ++ htons (x.extractLsb' 16 16)

def csumPartial (buff : List (BitVec 32)) (sum : BitVec 32) : BitVec 32 := OnesSum.sum sum buff

def csumFold (sum : BitVec 32) : BitVec 16 := ~~~ OnesSum.fold (w := 16) sum

def ipFastCsum (iph : List (BitVec 32)) (ihl : BitVec 4) : BitVec 16 :=
  csumFold (OnesSum.sum 0 (iph.take ihl.toNat))

def csumPart (o n : BitVec 32) (old : BitVec 16) : BitVec 16 :=
  csumFold (csumPartial [o, n] ((old ^^^ 0xFFFF).setWidth 32))

/-- The part of `ipv4_hnapt` that names the flow. -/
structure FoeEntry where
  sip : BitVec 32
  dip : BitVec 32
  dport : BitVec 16
  sport : BitVec 16
  deriving DecidableEq

/-- `struct iphdr`, with as many words of options as `ihl` says. -/
structure IpHdr where
  version : BitVec 4
  ihl : BitVec 4
  tos : BitVec 8
  tot_len : BitVec 16
  id : BitVec 16
  frag_off : BitVec 16
  ttl : BitVec 8
  protocol : BitVec 8
  check : BitVec 16
  saddr : BitVec 32
  daddr : BitVec 32
  options : List (BitVec 32)
  whole : options.length + 5 = ihl.toNat

structure TcpHdr where
  source : BitVec 16
  dest : BitVec 16
  seq : BitVec 32
  ack_seq : BitVec 32
  doffFlags : BitVec 16
  window : BitVec 16
  check : BitVec 16
  urg_ptr : BitVec 16
  deriving DecidableEq

structure UdpHdr where
  source : BitVec 16
  dest : BitVec 16
  len : BitVec 16
  check : BitVec 16
  deriving DecidableEq

def IPPROTO_TCP : BitVec 8 := 6
def IPPROTO_UDP : BitVec 8 := 17

def IpHdr.words (iph : IpHdr) : List (BitVec 32) :=
  [iph.tot_len ++ (iph.tos ++ iph.version ++ iph.ihl), iph.frag_off ++ iph.id,
    iph.check ++ (iph.protocol ++ iph.ttl), iph.saddr, iph.daddr] ++ iph.options

def TcpHdr.words (th : TcpHdr) : List (BitVec 16) :=
  [th.source, th.dest] ++ halves (w := 16) th.seq ++ halves (w := 16) th.ack_seq ++
    [th.doffFlags, th.window, th.check, th.urg_ptr]

def UdpHdr.words (uh : UdpHdr) : List (BitVec 16) := [uh.source, uh.dest, uh.len, uh.check]

/-- What follows a header, an odd byte with a zero behind it. -/
def dataWords : List (BitVec 8) → List (BitVec 16)
  | [] => []
  | [a] => [0#8 ++ a]
  | a :: b :: l => (b ++ a) :: dataWords l

/-- The words of the pseudo-header for a segment of `len` bytes. -/
def IpHdr.pseudo (iph : IpHdr) (len : Nat) : List (BitVec 16) :=
  halves (w := 16) iph.saddr ++ halves (w := 16) iph.daddr ++
    [htons (0#8 ++ iph.protocol), htons (BitVec.ofNat 16 len)]

def IpHdr.Verifies (iph : IpHdr) : Prop :=
  OnesSum.Verifies ((iph.words.flatMap (halves (w := 16))).map htons)

/-- The segment with `data` behind the header. -/
def TcpHdr.Verifies (iph : IpHdr) (th : TcpHdr) (data : List (BitVec 8)) : Prop :=
  OnesSum.Verifies ((iph.pseudo (20 + data.length) ++ th.words ++ dataWords data).map htons)

def UdpHdr.Verifies (iph : IpHdr) (uh : UdpHdr) (data : List (BitVec 8)) : Prop :=
  OnesSum.Verifies ((iph.pseudo (8 + data.length) ++ uh.words ++ dataWords data).map htons)

/-- A receiver takes a datagram without a checksum. -/
def UdpHdr.Accepted (iph : IpHdr) (uh : UdpHdr) (data : List (BitVec 8)) : Prop :=
  uh.check = 0 ∨ uh.Verifies iph data

instance (iph : IpHdr) : Decidable iph.Verifies := inferInstanceAs (Decidable (Verifies _))

instance (iph : IpHdr) (th : TcpHdr) (data : List (BitVec 8)) : Decidable (th.Verifies iph data) :=
  inferInstanceAs (Decidable (Verifies _))

instance (iph : IpHdr) (uh : UdpHdr) (data : List (BitVec 8)) : Decidable (uh.Verifies iph data) :=
  inferInstanceAs (Decidable (Verifies _))

instance (iph : IpHdr) (uh : UdpHdr) (data : List (BitVec 8)) : Decidable (uh.Accepted iph data) :=
  inferInstanceAs (Decidable (_ ∨ _))

variable (foe_entry : FoeEntry) (iph : IpHdr)

/-- The four updates that both functions make of the checksum. -/
def orgCheck (source dest check : BitVec 16) : BitVec 16 :=
  let check := csumPart ((source ^^^ 0xFFFF).setWidth 32)
    ((htons foe_entry.sport).setWidth 32) check
  let check := csumPart ((dest ^^^ 0xFFFF).setWidth 32) ((htons foe_entry.dport).setWidth 32) check
  let check := csumPart (~~~iph.saddr) (htonl foe_entry.sip) check
  csumPart (~~~iph.daddr) (htonl foe_entry.dip) check

def foeToOrgTcpHdr (th : TcpHdr) : TcpHdr :=
  { th with
    check := orgCheck foe_entry iph th.source th.dest th.check
    source := htons foe_entry.sport
    dest := htons foe_entry.dport }

def foeToOrgUdpHdr (uh : UdpHdr) : UdpHdr :=
  { uh with
    check := orgCheck foe_entry iph uh.source uh.dest uh.check
    source := htons foe_entry.sport
    dest := htons foe_entry.dport }

def foeToOrgIpHdr : IpHdr :=
  let iph := { iph with saddr := htonl foe_entry.sip, daddr := htonl foe_entry.dip, check := 0 }
  { iph with check := ipFastCsum iph.words iph.ihl }

section Updates

variable {foe_entry : FoeEntry} {iph : IpHdr} {o n : BitVec 32} {old : BitVec 16}

theorem csumFold_modEq (sum : BitVec 32) :
    (csumFold sum).toNat + sum.toNat ≡ 0 [MOD 2 ^ 16 - 1] := by
  have hfold := OnesSum.fold_modEq (w := 16) sum
  have hneg := OnesSum.toNat_complement (OnesSum.fold (w := 16) sum)
  rw [Nat.ModEq] at hfold ⊢
  rw [csumFold]
  omega

theorem csumFold_eq_allOnes {sum : BitVec 32} : csumFold sum = 0xFFFF ↔ sum = 0 := by
  rw [← OnesSum.fold_eq_zero (w := 16), csumFold]
  constructor
  · intro h
    have hfold := congrArg (~~~ ·) h
    simpa using hfold
  · intro h
    rw [h]
    rfl

theorem toNat_flip (x : BitVec 16) : ((x ^^^ 0xFFFF).setWidth 32).toNat + x.toNat = 2 ^ 16 - 1 := by
  have hflip : x ^^^ 0xFFFF = ~~~x := BitVec.xor_allOnes
  have hneg := OnesSum.toNat_complement x
  have hbound := (~~~x).isLt
  rw [hflip, BitVec.toNat_setWidth, Nat.mod_eq_of_lt (by omega)]
  exact hneg

theorem csumPart_modEq (o n : BitVec 32) (old : BitVec 16) :
    (csumPart o n old).toNat + o.toNat + n.toNat ≡ old.toNat [MOD 2 ^ 16 - 1] := by
  have hfold := csumFold_modEq (csumPartial [o, n] ((old ^^^ 0xFFFF).setWidth 32))
  have hsum := (OnesSum.sum_modEq ((old ^^^ 0xFFFF).setWidth 32) [o, n]).of_dvd
    (OnesSum.dvd_double 16)
  have hflip := toNat_flip old
  have htotal : total [o, n] = o.toNat + (n.toNat + 0) := rfl
  rw [htotal] at hsum
  rw [Nat.ModEq] at hfold hsum ⊢
  rw [csumPart]
  rw [csumPartial] at hfold ⊢
  omega

theorem flip_eq_zero {x : BitVec 16} : (x ^^^ 0xFFFF).setWidth 32 = (0 : BitVec 32) ↔ x = 0xFFFF := by
  have hflip := toNat_flip x
  constructor
  · intro h
    rw [h] at hflip
    apply BitVec.eq_of_toNat_eq
    simpa using hflip
  · rintro rfl
    rfl

theorem csumPart_eq_allOnes : csumPart o n old = 0xFFFF ↔ o = 0 ∧ n = 0 ∧ old = 0xFFFF := by
  rw [csumPart, csumFold_eq_allOnes, csumPartial, OnesSum.sum_eq_zero, flip_eq_zero]
  simp only [List.forall_mem_cons, List.not_mem_nil, false_implies, implies_true, and_true]
  tauto

theorem csumPart_replaces {x : Nat} (h : o.toNat + x ≡ 0 [MOD 2 ^ 16 - 1]) :
    (csumPart o n old).toNat + n.toNat ≡ old.toNat + x [MOD 2 ^ 16 - 1] := by
  have hpart := csumPart_modEq o n old
  rw [Nat.ModEq] at h hpart ⊢
  omega

theorem csumPart_port (x n : BitVec 16) :
    (csumPart ((x ^^^ 0xFFFF).setWidth 32) (n.setWidth 32) old).toNat + n.toNat ≡
      old.toNat + x.toNat [MOD 2 ^ 16 - 1] := by
  have hn : (n.setWidth 32).toNat = n.toNat := by
    rw [BitVec.toNat_setWidth, Nat.mod_eq_of_lt (by have := n.isLt; omega)]
  have hpart := @csumPart_replaces ((x ^^^ 0xFFFF).setWidth 32) (n.setWidth 32) old x.toNat
  rw [hn] at hpart
  apply hpart
  rw [toNat_flip]
  exact Nat.modEq_zero_iff_dvd.mpr (dvd_refl _)

theorem csumPart_addr (x n : BitVec 32) :
    (csumPart (~~~x) n old).toNat + n.toNat ≡ old.toNat + x.toNat [MOD 2 ^ 16 - 1] := by
  apply csumPart_replaces
  rw [OnesSum.toNat_complement]
  exact Nat.modEq_zero_iff_dvd.mpr (OnesSum.dvd_double 16)

/-- What the addresses and ports of the packet add to the sum. -/
def current (iph : IpHdr) (source dest : BitVec 16) : Nat :=
  source.toNat + dest.toNat + iph.saddr.toNat + iph.daddr.toNat

def original (foe_entry : FoeEntry) : Nat :=
  (htons foe_entry.sport).toNat + (htons foe_entry.dport).toNat + (htonl foe_entry.sip).toNat +
    (htonl foe_entry.dip).toNat

theorem orgCheck_modEq (source dest check : BitVec 16) :
    (orgCheck foe_entry iph source dest check).toNat + original foe_entry ≡
      check.toNat + current iph source dest [MOD 2 ^ 16 - 1] := by
  rw [orgCheck]
  have h₁ := @csumPart_port check source (htons foe_entry.sport)
  generalize csumPart ((source ^^^ 0xFFFF).setWidth 32) ((htons foe_entry.sport).setWidth 32) check =
    check₁ at h₁ ⊢
  have h₂ := @csumPart_port check₁ dest (htons foe_entry.dport)
  generalize csumPart ((dest ^^^ 0xFFFF).setWidth 32) ((htons foe_entry.dport).setWidth 32) check₁ =
    check₂ at h₂ ⊢
  have h₃ := @csumPart_addr check₂ iph.saddr (htonl foe_entry.sip)
  generalize csumPart (~~~iph.saddr) (htonl foe_entry.sip) check₂ = check₃ at h₃ ⊢
  have h₄ := @csumPart_addr check₃ iph.daddr (htonl foe_entry.dip)
  rw [original, current]
  rw [Nat.ModEq] at h₁ h₂ h₃ h₄ ⊢
  omega

/-- Ports and addresses of ones give way to ones of zeroes under a checksum of ones. -/
def Degenerate (foe_entry : FoeEntry) (iph : IpHdr) (source dest check : BitVec 16) : Prop :=
  check = 0xFFFF ∧ source = 0xFFFF ∧ dest = 0xFFFF ∧ iph.saddr = BitVec.allOnes 32 ∧
    iph.daddr = BitVec.allOnes 32 ∧ htons foe_entry.sport = 0 ∧ htons foe_entry.dport = 0 ∧
    htonl foe_entry.sip = 0 ∧ htonl foe_entry.dip = 0

theorem not_eq_zero {x : BitVec 32} : ~~~x = 0 ↔ x = BitVec.allOnes 32 := by
  have hneg := OnesSum.toNat_complement x
  rw [← BitVec.toNat_inj, ← BitVec.toNat_inj, BitVec.toNat_allOnes]
  change (~~~x).toNat = 0 ↔ _
  omega

theorem setWidth_eq_zero {x : BitVec 16} : x.setWidth 32 = 0 ↔ x = 0 := by
  have hx := x.isLt
  rw [← BitVec.toNat_inj, ← BitVec.toNat_inj, BitVec.toNat_setWidth, Nat.mod_eq_of_lt (by omega)]
  rfl

theorem orgCheck_eq_allOnes {source dest check : BitVec 16} :
    orgCheck foe_entry iph source dest check = 0xFFFF ↔
      Degenerate foe_entry iph source dest check := by
  rw [orgCheck, csumPart_eq_allOnes, csumPart_eq_allOnes, csumPart_eq_allOnes, csumPart_eq_allOnes,
    not_eq_zero, not_eq_zero, flip_eq_zero, flip_eq_zero, setWidth_eq_zero, setWidth_eq_zero,
    Degenerate]
  constructor
  · rintro ⟨hd, hdip, hs, hsip, hdest, hdport, hsource, hsport, hcheck⟩
    exact ⟨hcheck, hsource, hdest, hs, hd, hsport, hdport, hsip, hdip⟩
  · rintro ⟨hcheck, hsource, hdest, hs, hd, hsport, hdport, hsip, hdip⟩
    exact ⟨hd, hdip, hs, hsip, hdest, hdport, hsource, hsport, hcheck⟩

end Updates

section Segments

variable {foe_entry : FoeEntry} {iph : IpHdr} {len : Nat} {data : List (BitVec 8)}
  {l : List (BitVec 16)}

theorem netVerifies_iff : Verifies (l.map htons) ↔ 2 ^ 16 - 1 ∣ total l ∧ ∃ x ∈ l, x ≠ 0 :=
  (OnesSum.verifies_map_swap (w := 8) (by decide)).trans (OnesSum.verifies_iff (by decide))

theorem total_pseudo (iph : IpHdr) (len : Nat) : total (iph.pseudo len) ≡
    iph.saddr.toNat + iph.daddr.toNat + (htons (0#8 ++ iph.protocol)).toNat +
      (htons (BitVec.ofNat 16 len)).toNat [MOD 2 ^ 16 - 1] := by
  have hs := OnesSum.total_halves (w := 16) iph.saddr
  have hd := OnesSum.total_halves (w := 16) iph.daddr
  rw [IpHdr.pseudo, OnesSum.total_append, OnesSum.total_append, OnesSum.total_cons,
    OnesSum.total_cons, OnesSum.total_nil]
  rw [Nat.ModEq] at hs hd ⊢
  omega

theorem pseudo_verifies_iff (h : iph.protocol ≠ 0) :
    Verifies ((iph.pseudo len ++ l).map htons) ↔ 2 ^ 16 - 1 ∣ total (iph.pseudo len ++ l) := by
  rw [netVerifies_iff, and_iff_left]
  refine ⟨htons (0#8 ++ iph.protocol), by simp [IpHdr.pseudo], ?_⟩
  intro hzero
  have hword := OnesSum.swap_eq_zero.mp hzero
  apply h
  have hnum := congrArg BitVec.toNat hword
  apply BitVec.eq_of_toNat_eq
  rw [BitVec.toNat_append] at hnum
  simpa using hnum

theorem segment_dvd_iff {len rest : Nat} {source dest check : BitVec 16} {l l' : List (BitVec 16)}
    (hl : total l ≡ source.toNat + dest.toNat + check.toNat + rest [MOD 2 ^ 16 - 1])
    (hl' : total l' ≡ (htons foe_entry.sport).toNat + (htons foe_entry.dport).toNat +
      (orgCheck foe_entry iph source dest check).toNat + rest [MOD 2 ^ 16 - 1]) :
    2 ^ 16 - 1 ∣ total ((foeToOrgIpHdr foe_entry iph).pseudo len ++ l') ↔
      2 ^ 16 - 1 ∣ total (iph.pseudo len ++ l) := by
  have hcheck := @orgCheck_modEq foe_entry iph source dest check
  have hpseudo := total_pseudo iph len
  have hpseudo' : total ((foeToOrgIpHdr foe_entry iph).pseudo len) ≡
      (htonl foe_entry.sip).toNat + (htonl foe_entry.dip).toNat +
        (htons (0#8 ++ iph.protocol)).toNat + (htons (BitVec.ofNat 16 len)).toNat
      [MOD 2 ^ 16 - 1] := total_pseudo (foeToOrgIpHdr foe_entry iph) len
  rw [OnesSum.total_append, OnesSum.total_append]
  rw [original, current] at hcheck
  rw [Nat.ModEq] at hl hl' hcheck hpseudo hpseudo'
  omega

theorem total_words_tcp (th : TcpHdr) : total th.words = th.source.toNat + th.dest.toNat +
    th.check.toNat + (total (halves (w := 16) th.seq) + total (halves (w := 16) th.ack_seq) +
      th.doffFlags.toNat + th.window.toNat + th.urg_ptr.toNat) := by
  simp only [TcpHdr.words, OnesSum.total_append, OnesSum.total_cons, OnesSum.total_nil]
  omega

theorem foeToOrgTcpHdr_verifies_iff {th : TcpHdr} (h : iph.protocol ≠ 0) :
    (foeToOrgTcpHdr foe_entry iph th).Verifies (foeToOrgIpHdr foe_entry iph) data ↔
      th.Verifies iph data := by
  rw [TcpHdr.Verifies, TcpHdr.Verifies, List.append_assoc, List.append_assoc,
    pseudo_verifies_iff h, pseudo_verifies_iff (show (foeToOrgIpHdr foe_entry iph).protocol ≠ 0 from h)]
  apply segment_dvd_iff
  · rw [OnesSum.total_append, total_words_tcp, Nat.add_assoc]
  · rw [OnesSum.total_append, total_words_tcp, Nat.add_assoc]
    rfl

theorem total_words_udp (uh : UdpHdr) : total uh.words = uh.source.toNat + uh.dest.toNat +
    uh.check.toNat + uh.len.toNat := by
  simp only [UdpHdr.words, OnesSum.total_cons, OnesSum.total_nil]
  omega

theorem foeToOrgUdpHdr_verifies_iff {uh : UdpHdr} (h : iph.protocol ≠ 0) :
    (foeToOrgUdpHdr foe_entry iph uh).Verifies (foeToOrgIpHdr foe_entry iph) data ↔
      uh.Verifies iph data := by
  rw [UdpHdr.Verifies, UdpHdr.Verifies, List.append_assoc, List.append_assoc,
    pseudo_verifies_iff h, pseudo_verifies_iff (show (foeToOrgIpHdr foe_entry iph).protocol ≠ 0 from h)]
  apply segment_dvd_iff
  · rw [OnesSum.total_append, total_words_udp, Nat.add_assoc]
  · rw [OnesSum.total_append, total_words_udp, Nat.add_assoc]
    rfl

end Segments

section Header

variable {foe_entry : FoeEntry} {iph : IpHdr}

theorem length_words (iph : IpHdr) : iph.words.length = iph.ihl.toNat := by
  rw [← iph.whole, IpHdr.words, List.length_append, Nat.add_comm]
  rfl

theorem total_words_ip (iph : IpHdr) : total iph.words ≡
    total ({ iph with check := 0 } : IpHdr).words + iph.check.toNat [MOD 2 ^ 16 - 1] := by
  have hhalves (x y : BitVec 16) : (x ++ y : BitVec 32).toNat = 2 ^ 16 * x.toNat + y.toNat := by
    rw [BitVec.toNat_append, ← Nat.shiftLeft_add_eq_or_of_lt y.isLt, Nat.shiftLeft_eq, Nat.mul_comm]
  have hword := hhalves iph.check (iph.protocol ++ iph.ttl)
  have hword0 := hhalves 0 (iph.protocol ++ iph.ttl)
  simp only [IpHdr.words, OnesSum.total_append, OnesSum.total_cons, OnesSum.total_nil]
  have hzero : (0 : BitVec 16).toNat = 0 := rfl
  rw [Nat.ModEq]
  omega

theorem ipFastCsum_modEq (iph : IpHdr) :
    (ipFastCsum iph.words iph.ihl).toNat + total iph.words ≡ 0 [MOD 2 ^ 16 - 1] := by
  have hfold := csumFold_modEq (OnesSum.sum 0 iph.words)
  have hsum := (OnesSum.sum_modEq 0 iph.words).of_dvd (OnesSum.dvd_double 16)
  have hzero : (0 : BitVec 32).toNat = 0 := rfl
  rw [ipFastCsum, ← length_words iph, List.take_length]
  rw [Nat.ModEq] at hfold hsum ⊢
  omega

theorem foeToOrgIpHdr_verifies : (foeToOrgIpHdr foe_entry iph).Verifies := by
  apply netVerifies_iff.mpr
  constructor
  · have hhalves := OnesSum.total_flatMap_halves (w := 16) (foeToOrgIpHdr foe_entry iph).words
    have hcheck := total_words_ip (foeToOrgIpHdr foe_entry iph)
    have hsum := ipFastCsum_modEq
      { iph with saddr := htonl foe_entry.sip, daddr := htonl foe_entry.dip, check := 0 }
    apply (Nat.modEq_zero_iff_dvd).mp
    calc total ((foeToOrgIpHdr foe_entry iph).words.flatMap (halves (w := 16)))
        ≡ total (foeToOrgIpHdr foe_entry iph).words [MOD 2 ^ 16 - 1] := hhalves
      _ ≡ _ + (foeToOrgIpHdr foe_entry iph).check.toNat [MOD 2 ^ 16 - 1] := hcheck
      _ ≡ 0 [MOD 2 ^ 16 - 1] := by
          rw [Nat.add_comm]
          exact hsum
  · by_contra hall
    have hlen := iph.whole
    have hword : iph.tot_len ++ (iph.tos ++ iph.version ++ iph.ihl) = (0 : BitVec 32) := by
      apply (OnesSum.halves_eq_zero (w := 16)).mp
      intro y hy
      by_contra hne
      apply hall
      refine ⟨y, ?_, hne⟩
      exact List.mem_flatMap.mpr ⟨_, List.mem_cons_self, hy⟩
    have hnum := congrArg BitVec.toNat hword
    have hzero : (0 : BitVec 32).toNat = 0 := rfl
    simp only [BitVec.toNat_append, hzero, Nat.or_eq_zero_iff] at hnum
    omega

/-- The header of a packet from 10.0.0.1 to 10.0.0.2. -/
def sampleIpHdr (protocol : BitVec 8) (tot_len : BitVec 16) : IpHdr where
  version := 4
  ihl := 5
  tos := 0
  tot_len := htons tot_len
  id := 0
  frag_off := 0
  ttl := 64
  protocol := protocol
  check := 0
  saddr := htonl 0x0A000001
  daddr := htonl 0x0A000002
  options := []
  whole := rfl

def sampleFoeEntry : FoeEntry := { sip := 0xC0A80102, dip := 0x0A000002, dport := 80, sport := 4000 }

/-- The packet has the addresses and ports of the flow, and both checksums are right for it. -/
theorem foeToOrgTcpHdr_restores (foe_entry : FoeEntry) (iph : IpHdr) (th : TcpHdr)
    (data : List (BitVec 8)) (hproto : iph.protocol = IPPROTO_TCP) (h : th.Verifies iph data) :
    (foeToOrgTcpHdr foe_entry iph th).source = htons foe_entry.sport ∧
      (foeToOrgTcpHdr foe_entry iph th).dest = htons foe_entry.dport ∧
      (foeToOrgIpHdr foe_entry iph).saddr = htonl foe_entry.sip ∧
      (foeToOrgIpHdr foe_entry iph).daddr = htonl foe_entry.dip ∧
      (foeToOrgTcpHdr foe_entry iph th).Verifies (foeToOrgIpHdr foe_entry iph) data ∧
      (foeToOrgIpHdr foe_entry iph).Verifies := by
  refine ⟨rfl, rfl, rfl, rfl, ?_, foeToOrgIpHdr_verifies⟩
  apply (foeToOrgTcpHdr_verifies_iff _).mpr h
  rw [hproto]
  decide

/-- An acknowledgement that the hardware has rewritten. -/
def sampleTcpHdr : TcpHdr where
  source := htons 4000
  dest := htons 80
  seq := 0
  ack_seq := 0
  doffFlags := htons 0x5010
  window := 0
  check := htons 35810
  urg_ptr := 0

theorem foeToOrgTcpHdr_restores_sample :
    sampleTcpHdr.Verifies (sampleIpHdr IPPROTO_TCP 40) [] ∧
      (foeToOrgTcpHdr sampleFoeEntry (sampleIpHdr IPPROTO_TCP 40) sampleTcpHdr).Verifies
        (foeToOrgIpHdr sampleFoeEntry (sampleIpHdr IPPROTO_TCP 40)) [] :=
  ⟨by decide +kernel, (foeToOrgTcpHdr_restores sampleFoeEntry (sampleIpHdr IPPROTO_TCP 40)
    sampleTcpHdr [] rfl (by decide +kernel)).2.2.2.2.1⟩

theorem orgCheck_eq_zero {source dest check : BitVec 16} :
    orgCheck foe_entry iph source dest check = 0 ↔
      check.toNat + current iph source dest ≡ original foe_entry [MOD 2 ^ 16 - 1] ∧
        ¬ Degenerate foe_entry iph source dest check := by
  have hcheck := @orgCheck_modEq foe_entry iph source dest check
  rw [← orgCheck_eq_allOnes]
  generalize orgCheck foe_entry iph source dest check = check' at hcheck ⊢
  have hbound := check'.isLt
  rw [← BitVec.toNat_inj, ← BitVec.toNat_inj]
  have hzero : (0 : BitVec 16).toNat = 0 := rfl
  have hones : (0xFFFF : BitVec 16).toNat = 2 ^ 16 - 1 := rfl
  rw [Nat.ModEq] at hcheck ⊢
  omega

/-- A datagram that is accepted stays so, with a checksum or without, exactly when: without one, the
addresses and ports of the packet add up to those of the flow; with one, the rest of the datagram
does not add up to zero. -/
theorem foeToOrgUdpHdr_accepted_iff (foe_entry : FoeEntry) (iph : IpHdr) (uh : UdpHdr)
    (data : List (BitVec 8)) (hproto : iph.protocol = IPPROTO_UDP) (h : uh.Accepted iph data) :
    ((uh.check = 0 → (foeToOrgUdpHdr foe_entry iph uh).check = 0) ∧
        (uh.check ≠ 0 →
          (foeToOrgUdpHdr foe_entry iph uh).Verifies (foeToOrgIpHdr foe_entry iph) data ∧
            (foeToOrgUdpHdr foe_entry iph uh).check ≠ 0)) ↔
      (uh.check = 0 →
        current iph uh.source uh.dest ≡ original foe_entry [MOD 2 ^ 16 - 1]) ∧
      (uh.check ≠ 0 →
        uh.check.toNat + current iph uh.source uh.dest ≡ original foe_entry [MOD 2 ^ 16 - 1] →
          Degenerate foe_entry iph uh.source uh.dest uh.check) := by
  have hzero : (foeToOrgUdpHdr foe_entry iph uh).check = 0 ↔ _ := orgCheck_eq_zero
  have hverifies : uh.check ≠ 0 →
      (foeToOrgUdpHdr foe_entry iph uh).Verifies (foeToOrgIpHdr foe_entry iph) data := by
    intro hne
    apply (foeToOrgUdpHdr_verifies_iff _).mpr (h.resolve_left hne)
    rw [hproto]
    decide
  have hnum : (0 : BitVec 16).toNat = 0 := rfl
  constructor
  · rintro ⟨hnone, hsome⟩
    refine ⟨?_, ?_⟩
    · intro h0
      have hsum := (hzero.mp (hnone h0)).1
      rwa [h0, hnum, Nat.zero_add] at hsum
    · intro hne hsum
      by_contra hdegenerate
      exact (hsome hne).2 (hzero.mpr ⟨hsum, hdegenerate⟩)
  · rintro ⟨hnone, hsome⟩
    refine ⟨?_, ?_⟩
    · intro h0
      apply hzero.mpr
      refine ⟨?_, ?_⟩
      · rw [h0, hnum, Nat.zero_add]
        exact hnone h0
      · intro hdegenerate
        exact absurd (h0.symm.trans hdegenerate.1) (by decide)
    · intro hne
      refine ⟨hverifies hne, ?_⟩
      intro h0
      have hsum := hzero.mp h0
      exact hsum.2 (hsome hne hsum.1)

def sampleUdpHdr (check : BitVec 16) : UdpHdr where
  source := htons 4000
  dest := htons 80
  len := htons 8
  check := check

theorem foeToOrgUdpHdr_accepted_sample :
    (sampleUdpHdr (htons 56299)).Verifies (sampleIpHdr IPPROTO_UDP 28) [] ∧
      (foeToOrgUdpHdr sampleFoeEntry (sampleIpHdr IPPROTO_UDP 28)
        (sampleUdpHdr (htons 56299))).check ≠ 0 :=
  ⟨by decide +kernel, (((foeToOrgUdpHdr_accepted_iff sampleFoeEntry (sampleIpHdr IPPROTO_UDP 28)
    (sampleUdpHdr (htons 56299)) [] rfl (by decide +kernel)).mpr
      ⟨by decide +kernel, fun _ hsum => absurd hsum (by decide +kernel)⟩).2 (by decide +kernel)).2⟩

/-- A datagram without a checksum gets one, and it is wrong. -/
theorem foeToOrgUdpHdr_no_checksum :
    (sampleUdpHdr 0).Accepted (sampleIpHdr IPPROTO_UDP 28) [] ∧
      (foeToOrgUdpHdr sampleFoeEntry (sampleIpHdr IPPROTO_UDP 28) (sampleUdpHdr 0)).check ≠ 0 ∧
      ¬ (foeToOrgUdpHdr sampleFoeEntry (sampleIpHdr IPPROTO_UDP 28) (sampleUdpHdr 0)).Accepted
        (foeToOrgIpHdr sampleFoeEntry (sampleIpHdr IPPROTO_UDP 28)) [] := by
  decide +kernel

end Header

end Ralink.HwNat
