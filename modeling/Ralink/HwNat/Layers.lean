import Ralink.HwNat.Parse

/-! Which frames `PpeParseLayerInfo` understands, and what it finds in them. A frame is built from
its headers, so that where each of them lies is known without the parser. -/
namespace Ralink.HwNat
open ByteStore

/-- Two bytes in network order. -/
structure Be16 where
  hi : UInt8
  lo : UInt8
  deriving DecidableEq

def Be16.toNat (x : Be16) : Nat := x.hi.toNat * 256 + x.lo.toNat

def Be16.bytes (x : Be16) : List UInt8 := [x.hi, x.lo]

structure PppoeHdr where
  verType : UInt8
  code : UInt8
  sid : Be16
  length : Be16

structure Ipv4Hdr where
  bytes : List UInt8
  options : List UInt8
  fixed : bytes.length = sizeofIphdr
  ihl : (bytes.headD 0 &&& 0x0F).toNat * 4 = sizeofIphdr + options.length

def Ipv4Hdr.protocol (h : Ipv4Hdr) : UInt8 := h.bytes.getD 9 0

def Ipv4Hdr.fragOff (h : Ipv4Hdr) : Nat := (⟨h.bytes.getD 6 0, h.bytes.getD 7 0⟩ : Be16).toNat

structure Ipv6Hdr where
  bytes : List UInt8
  fixed : bytes.length = sizeofIpv6hdr

def Ipv6Hdr.nexthdr (h : Ipv6Hdr) : UInt8 := h.bytes.getD 6 0

inductive Layer4 where
  | tcp (th : List UInt8) (fixed : th.length = sizeofTcphdr)
  | udp (uh : List UInt8) (fixed : uh.length = sizeofUdphdr)

def Layer4.protocol : Layer4 → UInt8
  | .tcp _ _ => PROTO_TCP
  | .udp _ _ => PROTO_UDP

def Layer4.bytes : Layer4 → List UInt8
  | .tcp th _ => th
  | .udp uh _ => uh

/-- The headers that follow the tags and the session. A packet inside of IPv4 may be of any kind, one
inside of IPv6 is of TCP or UDP. -/
inductive Layer3 where
  | ipv4 (iph : Ipv4Hdr) (l4 : Layer4) (proto : iph.protocol = l4.protocol)
  | ipv6 (ip6h : Ipv6Hdr) (l4 : Layer4) (next : ip6h.nexthdr = l4.protocol)
  | sixRd (iph : Ipv4Hdr) (ip6h : Ipv6Hdr) (l4 : Option Layer4) (proto : iph.protocol = PROTO_IPV6)
      (next : ∀ x ∈ l4, ip6h.nexthdr = x.protocol)
      (none : l4 = none → ip6h.nexthdr ≠ PROTO_TCP ∧ ip6h.nexthdr ≠ PROTO_UDP)
  | dsLite (ip6h : Ipv6Hdr) (iph : Ipv4Hdr) (l4 : Layer4) (next : ip6h.nexthdr = PROTO_IPIP)
      (proto : iph.protocol = l4.protocol)

def Layer3.bytes : Layer3 → List UInt8
  | .ipv4 iph l4 _ => iph.bytes ++ (iph.options ++ l4.bytes)
  | .ipv6 ip6h l4 _ => ip6h.bytes ++ l4.bytes
  | .sixRd iph ip6h l4 _ _ _ =>
    iph.bytes ++ (iph.options ++ (ip6h.bytes ++ (l4.map Layer4.bytes).getD []))
  | .dsLite ip6h iph l4 _ _ => ip6h.bytes ++ (iph.bytes ++ (iph.options ++ l4.bytes))

def Layer3.overIpv6 : Layer3 → Bool
  | .ipv4 _ _ _ | .sixRd _ _ _ _ _ _ => false
  | .ipv6 _ _ _ | .dsLite _ _ _ _ _ => true

structure EthFrame where
  dmac : List UInt8
  smac : List UInt8
  tags : List Be16
  pppoe : Option PppoeHdr
  l3 : Layer3
  rest : List UInt8
  hdmac : dmac.length = ETH_ALEN
  hsmac : smac.length = ETH_ALEN
  htags : tags.length ≤ 2

namespace EthFrame

variable (f : EthFrame)

def etherType : Be16 :=
  if f.pppoe.isSome then ⟨0x88, 0x64⟩ else if f.l3.overIpv6 then ⟨0x86, 0xDD⟩ else ⟨0x08, 0x00⟩

def pppoeBytes : List UInt8 :=
  match f.pppoe with
  | none => []
  | some p => [p.verType, p.code] ++ p.sid.bytes ++ p.length.bytes ++
      [0x00, if f.l3.overIpv6 then 0x57 else 0x21]

/-- The tags, each behind its type, and the type of what follows. -/
def tagBytes : List Be16 → List UInt8
  | [] => f.etherType.bytes
  | tag :: tags => [0x81, 0x00] ++ tag.bytes ++ tagBytes tags

def bytes : List UInt8 :=
  f.dmac ++ (f.smac ++ (f.tagBytes f.tags ++ (f.pppoeBytes ++ (f.l3.bytes ++ f.rest))))

end EthFrame

section Found

variable (cfg : TxBuild) (skb : TxSkb)

/-- The tags of a frame as it is sent: the one that the hardware puts in stands in front. -/
def EthFrame.vids (f : EthFrame) : List Nat :=
  (if isHwVlanTx cfg skb then [skb.vlan_tx_tag_get] else []) ++ f.tags.map Be16.toNat

def Layer4.Parsed (r : PktParseResult) : Layer4 → Prop
  | .tcp th _ => r.th.take 4 = th.take 4
  | .udp uh _ => r.uh.take 4 = uh.take 4

def Layer3.Parsed (r : PktParseResult) : Layer3 → Prop
  | .ipv4 iph l4 _ => r.iph = iph.bytes ∧ l4.Parsed r
  | .ipv6 ip6h l4 _ => r.ip6h = ip6h.bytes ∧ l4.Parsed r
  | .sixRd iph ip6h l4 _ _ _ => r.iph = iph.bytes ∧ r.ip6h = ip6h.bytes ∧ ∀ x ∈ l4, x.Parsed r
  | .dsLite ip6h iph l4 _ _ => r.ip6h = ip6h.bytes ∧ r.iph = iph.bytes ∧ l4.Parsed r

structure EthFrame.Parsed (f : EthFrame) (r : PktParseResult) : Prop where
  dmac : r.dmac = f.dmac
  smac : r.smac = f.smac
  vlan1_gap : r.vlan1_gap = if isHwVlanTx cfg skb ∨ f.tags = [] then 0 else VLAN_HLEN
  vlan1 : r.vlan1 = (f.vids cfg skb).getD 0 0
  vlan2_gap : r.vlan2_gap = if 2 ≤ (f.vids cfg skb).length then VLAN_HLEN else 0
  vlan2 : r.vlan2 = (f.vids cfg skb).getD 1 0
  pppoe_gap : r.pppoe_gap = if f.pppoe.isSome then 8 else 0
  pppoe_sid : r.pppoe_sid = (f.pppoe.map fun p => p.sid.toNat).getD 0
  l3 : f.l3.Parsed r

def Layer3.Refused : Layer3 → Prop
  | .ipv4 iph _ _ => iph.fragOff &&& FRAGMENT ≠ 0
  | .sixRd _ _ _ _ _ _ => ¬ (cfg.hnatV2 ∧ cfg.ipv6)
  | .ipv6 _ _ _ | .dsLite _ _ _ _ _ => False

def EthFrame.PppoeRefused (f : EthFrame) : Prop :=
  f.pppoe.any (fun p => p.verType != 0x11 || (f.l3.overIpv6 && !cfg.ipv6)) = true

instance (f : EthFrame) : Decidable (f.PppoeRefused cfg) := inferInstanceAs (Decidable (_ = true))

def EthFrame.Refused (f : EthFrame) : Prop :=
  (f.dmac.headD 0 &&& 1 ≠ 0 ∧ cfg.chip ≠ .MT7620) ∨ (cfg.hwVlanTx ∧ 2 ≤ f.tags.length) ∨
    f.PppoeRefused cfg ∨ f.l3.Refused cfg

def EthFrame.l3At (f : EthFrame) : Nat :=
  skb.data + ETH_HLEN + VLAN_HLEN * f.tags.length + if f.pppoe.isSome then 8 else 0

/-- The header inside of a DS-Lite packet is looked for 1600 bytes behind the outer one, and its
ports are not looked for. -/
def EthFrame.InnerFound (f : EthFrame) : Prop :=
  match f.l3 with
  | .dsLite _ iph l4 _ _ =>
    readBytes skb.mem (f.l3At skb + sizeofIpv6hdr * sizeofIpv6hdr) sizeofIphdr = iph.bytes ∧
      l4.bytes.take 4 = List.replicate 4 0
  | _ => True

/-- There is a tag in the frame where the hardware is to put in the first one, and has none. -/
def EthFrame.TagMistaken (f : EthFrame) : Prop :=
  cfg.hwVlanTx ∧ ¬ skb.vlan_tx_tag_present ∧ f.tags ≠ []

end Found

section Bytes

variable {mem : Store} {a i : Nat} {bs cs : List UInt8}

def Lies (mem : Store) (a : Nat) (bs : List UInt8) : Prop := readBytes mem a bs.length = bs

theorem lies_append : Lies mem a (bs ++ cs) ↔ Lies mem a bs ∧ Lies mem (a + bs.length) cs :=
  readBytes_append_iff

theorem Lies.byte (h : Lies mem a bs) (hi : i < bs.length) : mem (a + i) = bs.getD i 0 := by
  have hread := getElem?_readBytes (o := a) mem hi
  rw [h] at hread
  rw [List.getD_eq_getElem?_getD, hread, Option.getD_some]

theorem Lies.be16 (h : Lies mem a bs) (hi : i + 1 < bs.length) :
    be16 mem (a + i) = (⟨bs.getD i 0, bs.getD (i + 1) 0⟩ : Be16).toNat := by
  have hlow := h.byte hi
  rw [HwNat.be16, h.byte (Nat.lt_of_succ_lt hi), Nat.add_assoc, hlow]
  rfl

theorem Lies.take (h : Lies mem a bs) (hi : i ≤ bs.length) : readBytes mem a i = bs.take i := by
  have hlen : bs.length = i + (bs.length - i) := by omega
  have hread : readBytes mem a (i + (bs.length - i)) = bs := hlen ▸ h
  rw [readBytes_add] at hread
  rw [← hread, List.take_left' (length_readBytes mem a i)]

end Bytes

section Frames

variable {cfg : TxBuild} {skb : TxSkb} {f : EthFrame} {r : PktParseResult} {g : Nat} {a : Nat}
  {tag : Be16} {iph : Ipv4Hdr} {ip6h : Ipv6Hdr} {l4 : Layer4} {bs : List UInt8}
  {proto : iph.protocol = l4.protocol}

theorem length_tagBytes (tags : List Be16) : (f.tagBytes tags).length = 2 + VLAN_HLEN * tags.length := by
  induction tags with
  | nil => rfl
  | cons tag tags ih =>
    rw [EthFrame.tagBytes, List.length_append, ih, List.length_cons]
    have hfront : ([0x81, 0x00] ++ tag.bytes).length = 4 := rfl
    rw [hfront, VLAN_HLEN]
    omega

theorem length_pppoeBytes : f.pppoeBytes.length = if f.pppoe.isSome then 8 else 0 := by
  rw [EthFrame.pppoeBytes]
  cases f.pppoe <;> rfl

structure InMemory (skb : TxSkb) (f : EthFrame) : Prop where
  dmac : Lies skb.mem skb.data f.dmac
  smac : Lies skb.mem (skb.data + 6) f.smac
  tags : Lies skb.mem (skb.data + 12) (f.tagBytes f.tags)
  pppoe : Lies skb.mem (skb.data + ETH_HLEN + VLAN_HLEN * f.tags.length) f.pppoeBytes
  l3 : Lies skb.mem (f.l3At skb) f.l3.bytes

theorem inMemory (h : Lies skb.mem skb.data f.bytes) : InMemory skb f := by
  rw [EthFrame.bytes, lies_append, lies_append, lies_append, lies_append, lies_append, f.hdmac, f.hsmac,
    length_tagBytes, length_pppoeBytes] at h
  obtain ⟨hd, hs, ht, hp, h3, -⟩ := h
  have hbase : skb.data + ETH_ALEN + ETH_ALEN + (2 + VLAN_HLEN * f.tags.length) =
      skb.data + ETH_HLEN + VLAN_HLEN * f.tags.length := by
    rw [ETH_ALEN, ETH_HLEN]
    omega
  rw [hbase] at hp h3
  exact ⟨hd, hs, ht, hp, h3⟩

theorem tag_nil (h : Lies skb.mem a (f.tagBytes [])) : be16 skb.mem a = f.etherType.toNat := by
  have htype : Lies skb.mem a [f.etherType.hi, f.etherType.lo] := h
  exact htype.be16 (i := 0) (by simp)

theorem tag_cons {tags : List Be16} (h : Lies skb.mem a (f.tagBytes (tag :: tags))) :
    be16 skb.mem a = ETH_P_8021Q ∧ be16 skb.mem (a + 2) = tag.toNat ∧
      Lies skb.mem (a + VLAN_HLEN) (f.tagBytes tags) := by
  rw [EthFrame.tagBytes, lies_append] at h
  have hlen : ([0x81, 0x00] ++ tag.bytes).length = 4 := rfl
  have htype := h.1.be16 (i := 0) (by omega)
  have htci := h.1.be16 (i := 2) (by omega)
  have hvalue : (⟨0x81, 0x00⟩ : Be16).toNat = ETH_P_8021Q := by decide
  exact ⟨htype.trans hvalue, htci, h.2⟩

theorem etherType_cases (f : EthFrame) : is8021Q f.etherType.toNat = false ∧
    (f.etherType.toNat = ETH_P_PPP_SES ↔ f.pppoe.isSome) ∧
    (f.etherType.toNat = ETH_P_IP ↔ f.pppoe.isSome = false ∧ f.l3.overIpv6 = false) ∧
    (f.etherType.toNat = ETH_P_IPV6 ↔ f.pppoe.isSome = false ∧ f.l3.overIpv6 = true) := by
  rw [EthFrame.etherType]
  cases f.pppoe.isSome <;> cases f.l3.overIpv6 <;> decide

theorem isSpecialTag_eq (cfg : TxBuild) (eth_type : Nat) : isSpecialTag cfg eth_type = false := by
  rw [isSpecialTag]
  split <;> cases cfg.hnatV2 <;> rfl

theorem innerTag_eq (cfg : TxBuild) (eth_type : Nat) :
    innerTag cfg eth_type = if is8021Q eth_type then some eth_type else none := by
  rw [innerTag, isSpecialTag_eq]
  rfl

theorem verType_iff (b : UInt8) : (b &&& 0x0F ≠ 1 ∨ b >>> 4 ≠ 1) ↔ b ≠ 0x11 := by
  have hb := b.toNat_lt
  have hand : (b &&& 0x0F).toNat = b.toNat % 16 := by
    rw [UInt8.toNat_and]
    exact Nat.and_two_pow_sub_one_eq_mod b.toNat 4
  have hshift : (b >>> 4).toNat = b.toNat / 16 := by
    rw [UInt8.toNat_shiftRight]
    exact Nat.shiftRight_eq_div_pow b.toNat 4
  have h1 : (1 : UInt8).toNat = 1 := rfl
  have h11 : (0x11 : UInt8).toNat = 17 := rfl
  rw [ne_eq, ne_eq, ne_eq, ← UInt8.toNat_inj, ← UInt8.toNat_inj, ← UInt8.toNat_inj, hand, hshift, h1,
    h11]
  omega

def EthFrame.reached (f : EthFrame) (r : PktParseResult) : PktParseResult :=
  match f.pppoe with
  | none => { r with eth_type := f.etherType.toNat }
  | some p => { r with
      eth_type := f.etherType.toNat
      pppoe_gap := 8
      pppoe_sid := p.sid.toNat
      ppp_tag := if f.l3.overIpv6 then PPP_IPV6 else PPP_IP }

theorem parsePppoe_eq (hp : Lies skb.mem (skb.data + ETH_HLEN + g) f.pppoeBytes) {p : PppoeHdr}
    (hf : f.pppoe = some p) : (parsePppoe cfg skb g r).map
      ({ · with eth_type := f.etherType.toNat }) =
        if f.PppoeRefused cfg then none else some (f.reached r) := by
  have hbytes : f.pppoeBytes = [p.verType, p.code, p.sid.hi, p.sid.lo, p.length.hi, p.length.lo, 0x00,
      if f.l3.overIpv6 then 0x57 else 0x21] := by
    rw [EthFrame.pppoeBytes, hf]
    rfl
  rw [hbytes] at hp
  have hver : skb.mem (skb.data + ETH_HLEN + g) = p.verType := hp.byte (i := 0) (by simp)
  have hsid : be16 skb.mem (skb.data + ETH_HLEN + g + 2) = p.sid.toNat :=
    hp.be16 (i := 2) (by simp)
  have htag : be16 skb.mem (skb.data + ETH_HLEN + g + 6) =
      if f.l3.overIpv6 then PPP_IPV6 else PPP_IP := by
    have hvalue : (⟨0x00, if f.l3.overIpv6 then 0x57 else 0x21⟩ : Be16).toNat =
        if f.l3.overIpv6 then PPP_IPV6 else PPP_IP := by
      cases f.l3.overIpv6 <;> decide
    exact (hp.be16 (i := 6) (by simp)).trans hvalue
  have hrefused : f.PppoeRefused cfg ↔ p.verType ≠ 0x11 ∨ (f.l3.overIpv6 ∧ ¬ cfg.ipv6) := by
    rw [EthFrame.PppoeRefused, hf]
    simp
  have hproto : (if f.l3.overIpv6 then PPP_IPV6 else PPP_IP) ≠ PPP_IP ∧
      ¬ (cfg.ipv6 ∧ (if f.l3.overIpv6 then PPP_IPV6 else PPP_IP) = PPP_IPV6) ↔
        f.l3.overIpv6 ∧ ¬ cfg.ipv6 := by
    cases f.l3.overIpv6 <;> cases cfg.ipv6 <;> decide
  have hcond := or_congr (verType_iff p.verType) hproto
  rw [or_assoc] at hcond
  rw [parsePppoe, GetPppoeSid]
  simp only [hver, hsid, htag, hcond, hrefused]
  split
  · rfl
  · simp only [EthFrame.reached, hf, Option.map_some]

theorem reached_eq (hp : Lies skb.mem (skb.data + ETH_HLEN + g) f.pppoeBytes) :
    (if f.etherType.toNat = ETH_P_PPP_SES then
        (parsePppoe cfg skb g r).map ({ · with eth_type := f.etherType.toNat })
      else some { r with eth_type := f.etherType.toNat }) =
      if f.PppoeRefused cfg then none else some (f.reached r) := by
  have hses := (etherType_cases f).2.1
  cases hf : f.pppoe with
  | none =>
    have hrefused : ¬ f.PppoeRefused cfg := by
      rw [EthFrame.PppoeRefused, hf]
      simp
    rw [if_neg (by rw [hses, hf]; simp), if_neg hrefused, EthFrame.reached, hf]
  | some p =>
    rw [if_pos (by rw [hses, hf]; simp)]
    exact parsePppoe_eq hp hf

theorem parseVlan2_last (hgap : r.vlan1_gap = g)
    (htci : be16 skb.mem (skb.data + ETH_HLEN + g) = tag.toNat)
    (htype : be16 skb.mem (skb.data + ETH_HLEN + g + 2) = f.etherType.toNat)
    (hp : Lies skb.mem (skb.data + ETH_HLEN + (g + VLAN_HLEN)) f.pppoeBytes) :
    parseVlan2 cfg skb r = if f.PppoeRefused cfg then none else some (f.reached
      { r with vlan2_gap := VLAN_HLEN, vlan2 := tag.toNat, vlan_layer := r.vlan_layer + 1 }) := by
  have hlast := (etherType_cases f).1
  subst hgap
  rw [← reached_eq hp, parseVlan2]
  simp only [vlanHdrAt, htci, htype, hlast, Bool.false_eq_true, and_false, if_false]

theorem parseVlan2_more (hr : r.eth_type = ETH_P_8021Q)
    (htype : be16 skb.mem (skb.data + ETH_HLEN + r.vlan1_gap + 2) = ETH_P_8021Q) :
    ∃ r', parseVlan2 cfg skb r = some r' ∧ r'.eth_type = ETH_P_8021Q := by
  have hses : ETH_P_8021Q ≠ ETH_P_PPP_SES := by decide
  rw [parseVlan2]
  simp only [vlanHdrAt, htype, hses, if_false]
  split
  · split
    · exact ⟨_, rfl, hr⟩
    · exact ⟨_, rfl, hr⟩
  · exact ⟨_, rfl, rfl⟩

def EthFrame.tagged (cfg : TxBuild) (skb : TxSkb) (f : EthFrame) (r : PktParseResult) :
    PktParseResult :=
  if cfg.hwVlanTx then
    match f.tags with
    | [] =>
      if skb.vlan_tx_tag_present then { r with
        vlan_tag := ETH_P_8021Q
        vlan1_gap := 0
        vlan1 := skb.vlan_tx_tag_get
        vlan_layer := r.vlan_layer + 1 }
      else r
    | tag :: _ => { r with
        vlan_tag := ETH_P_8021Q
        vlan1_gap := 0
        vlan1 := skb.vlan_tx_tag_get
        vlan2_gap := VLAN_HLEN
        vlan2 := tag.toNat
        vlan_layer := r.vlan_layer + 1 + 1 }
  else
    match f.tags with
    | [] => r
    | [tag] => { r with
        vlan_tag := ETH_P_8021Q
        vlan1_gap := VLAN_HLEN
        vlan1 := tag.toNat
        vlan_layer := r.vlan_layer + 1 }
    | tag :: tag' :: _ => { r with
        vlan_tag := ETH_P_8021Q
        vlan1_gap := VLAN_HLEN
        vlan1 := tag.toNat
        vlan2_gap := VLAN_HLEN
        vlan2 := tag'.toNat
        vlan_layer := r.vlan_layer + 1 + 1 }

theorem tags_cases (f : EthFrame) : f.tags = [] ∨ (∃ tag, f.tags = [tag]) ∨
    ∃ tag tag', f.tags = [tag, tag'] := by
  have hlen := f.htags
  rcases htags : f.tags with _ | ⟨tag, _ | ⟨tag', _ | ⟨tag'', tags⟩⟩⟩
  · exact Or.inl rfl
  · exact Or.inr (Or.inl ⟨tag, rfl⟩)
  · exact Or.inr (Or.inr ⟨tag, tag', rfl⟩)
  · rw [htags] at hlen
    simp at hlen

theorem parsePppoe_type (cfg : TxBuild) (skb : TxSkb) (g : Nat) (r : PktParseResult) :
    parsePppoe cfg skb g r =
      (parsePppoe cfg skb g r).map ({ · with eth_type := r.eth_type }) := by
  rw [parsePppoe, Option.map_map]
  rfl

theorem parseLayer2_untagged (hm : InMemory skb f) (hr : r.eth_type = be16 skb.mem (skb.data + 12))
    (hgap : r.vlan1_gap = 0) (hhw : isHwVlanTx cfg skb = false) (htags : f.tags = []) :
    parseLayer2 cfg skb r = if f.PppoeRefused cfg then none else some (f.reached r) := by
  have hbytes := hm.tags
  have hp := hm.pppoe
  rw [htags] at hbytes hp
  have htype : r.eth_type = f.etherType.toNat := hr.trans (tag_nil hbytes)
  have hnone : outerTag cfg skb f.etherType.toNat = none := by
    rw [outerTag, (etherType_cases f).1, isSpecialTag_eq, hhw]
    rfl
  have hpgap : Lies skb.mem (skb.data + ETH_HLEN + r.vlan1_gap) f.pppoeBytes := by
    rw [hgap]
    exact hp
  rw [← reached_eq hpgap, parseLayer2, htype]
  simp only [hnone]
  split
  · rw [← htype]
    exact parsePppoe_type cfg skb r.vlan1_gap r
  · rw [← htype]

theorem parseLayer2_inBytes (hm : InMemory skb f) (hhw : cfg.hwVlanTx = false)
    (hr : r.eth_type = be16 skb.mem (skb.data + 12)) (hgap : r.vlan1_gap = 0) :
    parseLayer2 cfg skb r =
      if f.PppoeRefused cfg then none else some (f.reached (f.tagged cfg skb r)) := by
  have htx : isHwVlanTx cfg skb = false := by rw [isHwVlanTx, hhw, Bool.false_and]
  have hq : is8021Q ETH_P_8021Q = true := rfl
  have hses : ETH_P_8021Q ≠ ETH_P_PPP_SES := by decide
  have hlast := (etherType_cases f).1
  have hbytes := hm.tags
  have hp := hm.pppoe
  rcases tags_cases f with htags | ⟨tag, htags⟩ | ⟨tag, tag', htags⟩
  · rw [parseLayer2_untagged hm hr hgap htx htags, EthFrame.tagged, hhw, htags]
    rfl
  · rw [htags] at hbytes hp
    obtain ⟨htype, htci, hrest⟩ := tag_cons hbytes
    have hend := tag_nil hrest
    rw [parseLayer2, hr, htype, outerTag, hq]
    simp only [if_true, parseVlan1, hhw, Bool.false_eq_true, if_false, vlanHdrAt, innerTag_eq]
    rw [show skb.data + ETH_HLEN + 2 = skb.data + 12 + VLAN_HLEN from rfl, hend, hlast,
      show skb.data + ETH_HLEN = skb.data + 12 + 2 from rfl, htci]
    simp only [Bool.false_eq_true, if_false]
    refine (reached_eq (g := VLAN_HLEN) hp).trans ?_
    rw [EthFrame.tagged, hhw, htags]
    rfl
  · rw [htags] at hbytes hp
    obtain ⟨htype, htci, hrest⟩ := tag_cons hbytes
    obtain ⟨htype', htci', hrest'⟩ := tag_cons hrest
    have hend := tag_nil hrest'
    rw [parseLayer2, hr, htype, outerTag, hq]
    simp only [if_true, parseVlan1, hhw, Bool.false_eq_true, if_false, vlanHdrAt, innerTag_eq]
    rw [show skb.data + ETH_HLEN + 2 = skb.data + 12 + VLAN_HLEN from rfl, htype', hq,
      show skb.data + ETH_HLEN = skb.data + 12 + 2 from rfl, htci]
    simp only [if_true, hses, if_false]
    rw [parseVlan2_last (g := VLAN_HLEN) rfl htci' hend hp, EthFrame.tagged, hhw, htags]
    rfl

theorem parseLayer2_hwVlan (hm : InMemory skb f) (hhw : cfg.hwVlanTx = true)
    (hr : r.eth_type = be16 skb.mem (skb.data + 12)) (hgap : r.vlan1_gap = 0)
    (htags : f.tags.length < 2) : parseLayer2 cfg skb r =
      if f.PppoeRefused cfg then none else some (f.reached (f.tagged cfg skb r)) := by
  have hq : is8021Q ETH_P_8021Q = true := rfl
  have hses : ETH_P_8021Q ≠ ETH_P_PPP_SES := by decide
  have hlast := (etherType_cases f).1
  have hbytes := hm.tags
  have hp := hm.pppoe
  rcases tags_cases f with hnil | ⟨tag, hone⟩ | ⟨tag, tag', htwo⟩
  · cases hpresent : skb.vlan_tx_tag_present with
    | false =>
      have htx : isHwVlanTx cfg skb = false := by rw [isHwVlanTx, hpresent, Bool.and_false]
      rw [parseLayer2_untagged hm hr hgap htx hnil, EthFrame.tagged, hhw, hnil, hpresent]
      rfl
    | true =>
      have htx : isHwVlanTx cfg skb = true := by rw [isHwVlanTx, hhw, hpresent]; rfl
      rw [hnil] at hbytes hp
      have hend := tag_nil hbytes
      rw [parseLayer2, hr, hend, outerTag, hlast, isSpecialTag_eq, htx]
      simp only [if_true, parseVlan1, hhw, Bool.false_eq_true, if_false, innerTag_eq, hend, hlast]
      refine (reached_eq (g := 0) hp).trans ?_
      rw [EthFrame.tagged, hhw, hnil, hpresent]
      rfl
  · rw [hone] at hbytes hp
    obtain ⟨htype, htci, hrest⟩ := tag_cons hbytes
    have hend := tag_nil hrest
    rw [parseLayer2, hr, htype, outerTag, hq]
    simp only [if_true, parseVlan1, hhw, innerTag_eq, htype, hq, hses, if_false]
    rw [parseVlan2_last (g := 0) rfl htci hend hp, EthFrame.tagged, hhw, hone]
    rfl
  · rw [htwo] at htags
    exact absurd htags (Nat.lt_irrefl 2)

theorem parseLayer2_hwVlan_two (hm : InMemory skb f) (hhw : cfg.hwVlanTx = true)
    (hr : r.eth_type = be16 skb.mem (skb.data + 12)) (htags : 2 ≤ f.tags.length) :
    ∃ r', parseLayer2 cfg skb r = some r' ∧ r'.eth_type = ETH_P_8021Q := by
  have hq : is8021Q ETH_P_8021Q = true := rfl
  have hses : ETH_P_8021Q ≠ ETH_P_PPP_SES := by decide
  have hbytes := hm.tags
  rcases tags_cases f with hnil | ⟨tag, hone⟩ | ⟨tag, tag', htwo⟩
  · rw [hnil] at htags
    exact absurd htags (Nat.not_succ_le_zero 1)
  · rw [hone] at htags
    exact absurd htags (Nat.not_succ_le_self 1)
  · rw [htwo] at hbytes
    obtain ⟨htype, -, hrest⟩ := tag_cons hbytes
    obtain ⟨htype', -, -⟩ := tag_cons hrest
    rw [parseLayer2, hr, htype, outerTag, hq]
    simp only [if_true, parseVlan1, hhw, innerTag_eq, htype, hq, hses, if_false]
    exact parseVlan2_more (hr.trans htype) htype'

structure SameLayer2 (r r' : PktParseResult) : Prop where
  dmac : r'.dmac = r.dmac
  smac : r'.smac = r.smac
  vlan1_gap : r'.vlan1_gap = r.vlan1_gap
  vlan1 : r'.vlan1 = r.vlan1
  vlan2_gap : r'.vlan2_gap = r.vlan2_gap
  vlan2 : r'.vlan2 = r.vlan2
  pppoe_gap : r'.pppoe_gap = r.pppoe_gap
  pppoe_sid : r'.pppoe_sid = r.pppoe_sid

theorem ipv4_lies (h : Lies skb.mem a (iph.bytes ++ (iph.options ++ bs))) :
    readBytes skb.mem a sizeofIphdr = iph.bytes ∧ skb.mem (a + 9) = iph.protocol ∧
      be16 skb.mem (a + 6) = iph.fragOff ∧ Lies skb.mem (a + ihlBytes skb a) bs := by
  rw [lies_append, lies_append] at h
  obtain ⟨hfixed, -, hrest⟩ := h
  have hlen := iph.fixed
  rw [sizeofIphdr] at hlen
  have hfirst := hfixed.byte (i := 0) (by omega)
  have hhead : iph.bytes.getD 0 0 = iph.bytes.headD 0 := by cases iph.bytes <;> rfl
  have hihl : ihlBytes skb a = iph.bytes.length + iph.options.length := by
    rw [ihlBytes, ← Nat.add_zero a, hfirst, hhead, iph.fixed, ← iph.ihl]
  rw [hihl, ← Nat.add_assoc]
  have hread : readBytes skb.mem a iph.bytes.length = iph.bytes := hfixed
  rw [iph.fixed] at hread
  exact ⟨hread, hfixed.byte (by omega), hfixed.be16 (by omega), hrest⟩

theorem ipv6_lies (h : Lies skb.mem a (ip6h.bytes ++ bs)) :
    readBytes skb.mem a sizeofIpv6hdr = ip6h.bytes ∧ skb.mem (a + 6) = ip6h.nexthdr ∧
      Lies skb.mem (a + sizeofIpv6hdr) bs := by
  rw [lies_append] at h
  obtain ⟨hfixed, hrest⟩ := h
  have hlen := ip6h.fixed
  rw [sizeofIpv6hdr] at hlen
  have hread : readBytes skb.mem a ip6h.bytes.length = ip6h.bytes := hfixed
  rw [ip6h.fixed] at hread hrest
  exact ⟨hread, hfixed.byte (by omega), hrest⟩

theorem ports_lie (h : Lies skb.mem a l4.bytes) : readBytes skb.mem a 4 = l4.bytes.take 4 := by
  apply h.take
  cases l4 with
  | tcp th fixed =>
    rw [Layer4.bytes, fixed, sizeofTcphdr]
    decide
  | udp uh fixed =>
    rw [Layer4.bytes, fixed, sizeofUdphdr]
    decide

theorem parseIpv4_inner (cfg : TxBuild)
    (h : Lies skb.mem (layer3Header skb r) (Layer3.ipv4 iph l4 proto).bytes) :
    ((Layer3.ipv4 iph l4 proto).Refused cfg → parseIpv4 cfg skb r = none) ∧
      (¬ (Layer3.ipv4 iph l4 proto).Refused cfg → ∃ r', parseIpv4 cfg skb r = some r' ∧
        SameLayer2 r r' ∧ (Layer3.ipv4 iph l4 proto).Parsed r') := by
  obtain ⟨hread, hproto, hfrag, hl4⟩ := ipv4_lies h
  have hudp : PROTO_UDP ≠ PROTO_TCP := by decide
  rw [proto] at hproto
  rw [parseIpv4]
  simp only [hread, hproto, hfrag, Layer3.Refused]
  cases l4 with
  | tcp th fixed =>
    have hth : readBytes skb.mem (layer3Header skb r + ihlBytes skb (layer3Header skb r))
        th.length = th := hl4
    rw [fixed] at hth
    simp only [Layer4.protocol, if_true, hth]
    refine ⟨fun hne => if_pos hne, fun hne => ⟨_, if_neg hne, ?_, rfl, rfl⟩⟩
    constructor <;> rfl
  | udp uh fixed =>
    have huh : readBytes skb.mem (layer3Header skb r + ihlBytes skb (layer3Header skb r))
        uh.length = uh := hl4
    rw [fixed] at huh
    simp only [Layer4.protocol, hudp, if_false, if_true, huh]
    refine ⟨fun hne => if_pos hne, fun hne => ⟨_, if_neg hne, ?_, rfl, rfl⟩⟩
    constructor <;> rfl

theorem parseIpv6_inner (cfg : TxBuild) {next : ip6h.nexthdr = l4.protocol}
    (h : Lies skb.mem (layer3Header skb r) (Layer3.ipv6 ip6h l4 next).bytes) :
    ∃ r', parseIpv6 cfg skb r = some r' ∧ SameLayer2 r r' ∧
      (Layer3.ipv6 ip6h l4 next).Parsed r' := by
  obtain ⟨hread, hnext, hl4⟩ := ipv6_lies h
  have hudp : PROTO_UDP ≠ PROTO_TCP := by decide
  rw [next] at hnext
  rw [parseIpv6]
  simp only [hread, hnext]
  cases l4 with
  | tcp th fixed =>
    have hth : readBytes skb.mem (layer3Header skb r + sizeofIpv6hdr) th.length = th := hl4
    rw [fixed] at hth
    simp only [Layer4.protocol, if_true, hth]
    refine ⟨_, rfl, ?_, rfl, rfl⟩
    constructor <;> rfl
  | udp uh fixed =>
    have huh : readBytes skb.mem (layer3Header skb r + sizeofIpv6hdr) uh.length = uh := hl4
    rw [fixed] at huh
    simp only [Layer4.protocol, hudp, if_false, if_true, huh]
    refine ⟨_, rfl, ?_, rfl, rfl⟩
    constructor <;> rfl

theorem parseIpv4_sixRd (cfg : TxBuild) {l4 : Option Layer4} {proto : iph.protocol = PROTO_IPV6}
    {next : ∀ x ∈ l4, ip6h.nexthdr = x.protocol}
    {hnone : l4 = none → ip6h.nexthdr ≠ PROTO_TCP ∧ ip6h.nexthdr ≠ PROTO_UDP}
    (h : Lies skb.mem (layer3Header skb r) (Layer3.sixRd iph ip6h l4 proto next hnone).bytes) :
    ((Layer3.sixRd iph ip6h l4 proto next hnone).Refused cfg → parseIpv4 cfg skb r = none) ∧
      (¬ (Layer3.sixRd iph ip6h l4 proto next hnone).Refused cfg →
        ∃ r', parseIpv4 cfg skb r = some r' ∧ SameLayer2 r r' ∧
          (Layer3.sixRd iph ip6h l4 proto next hnone).Parsed r') := by
  obtain ⟨hread, hproto, -, hip6⟩ := ipv4_lies h
  obtain ⟨hread6, hnext, hl4⟩ := ipv6_lies hip6
  have htcp : PROTO_IPV6 ≠ PROTO_TCP := by decide
  have hudp : PROTO_IPV6 ≠ PROTO_UDP := by decide
  have hgre : PROTO_IPV6 ≠ PROTO_GRE := by decide
  have hother : PROTO_UDP ≠ PROTO_TCP := by decide
  rw [proto] at hproto
  rw [parseIpv4]
  simp only [hread, hproto, htcp, hudp, hgre, and_false, if_false, and_true, hread6, hnext,
    Layer3.Refused, not_not]
  refine ⟨fun hno => if_neg hno, fun hyes => ?_⟩
  rw [if_pos hyes]
  cases l4 with
  | none =>
    obtain ⟨hnt, hnu⟩ := hnone rfl
    simp only [hnt, hnu, if_false]
    refine ⟨_, rfl, ?_, rfl, rfl, by simp⟩
    constructor <;> rfl
  | some l4 =>
    have hports := ports_lie hl4
    have hproto6 := next l4 rfl
    have htake (x : List UInt8) : (l4.bytes.take 4 ++ x).take 4 = l4.bytes.take 4 := by
      rw [← hports, List.take_left' (length_readBytes _ _ _)]
    simp only [hproto6, hports]
    cases l4 with
    | tcp th fixed =>
      simp only [Layer4.protocol, if_true]
      refine ⟨_, rfl, ?_, rfl, rfl, ?_⟩
      · constructor <;> rfl
      · rintro x ⟨⟩
        exact htake _
    | udp uh fixed =>
      simp only [Layer4.protocol, hother, if_false, if_true]
      refine ⟨_, rfl, ?_, rfl, rfl, ?_⟩
      · constructor <;> rfl
      · rintro x ⟨⟩
        exact htake _

theorem parseIpv6_dsLite (cfg : TxBuild) {next : ip6h.nexthdr = PROTO_IPIP}
    (h : Lies skb.mem (layer3Header skb r) (Layer3.dsLite ip6h iph l4 next proto).bytes)
    (hth : r.th = List.replicate 20 0) (huh : r.uh = List.replicate 8 0) :
    ∃ r', parseIpv6 cfg skb r = some r' ∧ SameLayer2 r r' ∧
      ((Layer3.dsLite ip6h iph l4 next proto).Parsed r' ↔
        readBytes skb.mem (layer3Header skb r + sizeofIpv6hdr * sizeofIpv6hdr) sizeofIphdr =
            iph.bytes ∧ l4.bytes.take 4 = List.replicate 4 0) := by
  obtain ⟨hread, hnext, -⟩ := ipv6_lies h
  have htcp : PROTO_IPIP ≠ PROTO_TCP := by decide
  have hudp : PROTO_IPIP ≠ PROTO_UDP := by decide
  rw [next] at hnext
  rw [parseIpv6]
  simp only [hread, hnext, htcp, hudp, if_false, if_true]
  refine ⟨_, rfl, ?_, ?_⟩
  · constructor <;> rfl
  · simp only [Layer3.Parsed, true_and]
    apply and_congr_right'
    cases l4 with
    | tcp th fixed =>
      rw [Layer4.Parsed, hth, Layer4.bytes]
      exact eq_comm
    | udp uh fixed =>
      rw [Layer4.Parsed, huh, Layer4.bytes]
      exact eq_comm

def EthFrame.started (f : EthFrame) (eth_type : Nat) (is_mcast : Bool) : PktParseResult :=
  { dmac := f.dmac, smac := f.smac, eth_type := eth_type, is_mcast := is_mcast }

theorem parseLayer3_reached : parseLayer3 cfg skb (f.reached r) =
    if f.l3.overIpv6 then parseIpv6 cfg skb (f.reached r) else parseIpv4 cfg skb (f.reached r) := by
  obtain ⟨-, hses, hip, hip6⟩ := etherType_cases f
  have heth : (f.reached r).eth_type = f.etherType.toNat := by
    rw [EthFrame.reached]
    cases f.pppoe <;> rfl
  have htag : f.pppoe.isSome → (f.reached r).ppp_tag = if f.l3.overIpv6 then PPP_IPV6 else PPP_IP := by
    rw [EthFrame.reached]
    cases f.pppoe with
    | none => simp
    | some p => exact fun _ => rfl
  have hdiff : PPP_IPV6 ≠ PPP_IP := by decide
  simp only [parseLayer3, heth, hses, hip, hip6]
  cases hp : f.pppoe.isSome with
  | false => cases f.l3.overIpv6 <;> simp
  | true =>
    rw [htag hp]
    cases f.l3.overIpv6 <;> simp [hdiff]

theorem parseLayer3_spec (hm : InMemory skb f)
    (hheader : layer3Header skb (f.reached r) = f.l3At skb) (hth : r.th = List.replicate 20 0)
    (huh : r.uh = List.replicate 8 0) :
    (f.l3.Refused cfg → parseLayer3 cfg skb (f.reached r) = none) ∧
      (¬ f.l3.Refused cfg → ∃ r', parseLayer3 cfg skb (f.reached r) = some r' ∧
        SameLayer2 (f.reached r) r' ∧ (f.l3.Parsed r' ↔ f.InnerFound skb)) := by
  have hl3 := hm.l3
  have hth' : (f.reached r).th = List.replicate 20 0 := by
    rw [← hth, EthFrame.reached]
    cases f.pppoe <;> rfl
  have huh' : (f.reached r).uh = List.replicate 8 0 := by
    rw [← huh, EthFrame.reached]
    cases f.pppoe <;> rfl
  rw [← hheader] at hl3
  rw [parseLayer3_reached, EthFrame.InnerFound, ← hheader]
  generalize f.reached r = r₂ at hl3 hth' huh'
  cases hf : f.l3 with
  | ipv4 iph l4 proto =>
    rw [hf] at hl3
    obtain ⟨hno, hyes⟩ := parseIpv4_inner cfg hl3
    refine ⟨hno, fun h => ?_⟩
    obtain ⟨r', hr', hsame, hparsed⟩ := hyes h
    exact ⟨r', hr', hsame, iff_of_true hparsed trivial⟩
  | ipv6 ip6h l4 next =>
    rw [hf] at hl3
    obtain ⟨r', hr', hsame, hparsed⟩ := parseIpv6_inner cfg hl3
    exact ⟨False.elim, fun _ => ⟨r', hr', hsame, iff_of_true hparsed trivial⟩⟩
  | sixRd iph ip6h l4 proto next hnone =>
    rw [hf] at hl3
    obtain ⟨hno, hyes⟩ := parseIpv4_sixRd cfg hl3
    refine ⟨hno, fun h => ?_⟩
    obtain ⟨r', hr', hsame, hparsed⟩ := hyes h
    exact ⟨r', hr', hsame, iff_of_true hparsed trivial⟩
  | dsLite ip6h iph l4 next proto =>
    rw [hf] at hl3
    obtain ⟨r', hr', hsame, hparsed⟩ := parseIpv6_dsLite cfg hl3 hth' huh'
    exact ⟨False.elim, fun _ => ⟨r', hr', hsame, hparsed⟩⟩

section Tagged

variable {eth_type : Nat} {is_mcast : Bool}

theorem reached_tags (f : EthFrame) (r : PktParseResult) :
    (f.reached r).dmac = r.dmac ∧ (f.reached r).smac = r.smac ∧
      (f.reached r).vlan1_gap = r.vlan1_gap ∧ (f.reached r).vlan1 = r.vlan1 ∧
      (f.reached r).vlan2_gap = r.vlan2_gap ∧ (f.reached r).vlan2 = r.vlan2 := by
  rw [EthFrame.reached]
  cases f.pppoe <;> exact ⟨rfl, rfl, rfl, rfl, rfl, rfl⟩

theorem reached_session (f : EthFrame) {r : PktParseResult} (hgap : r.pppoe_gap = 0)
    (hsid : r.pppoe_sid = 0) : (f.reached r).pppoe_gap = (if f.pppoe.isSome then 8 else 0) ∧
      (f.reached r).pppoe_sid = (f.pppoe.map fun p => p.sid.toNat).getD 0 := by
  rw [EthFrame.reached]
  cases f.pppoe with
  | none => exact ⟨hgap, hsid⟩
  | some p => exact ⟨rfl, rfl⟩

theorem tagged_rest (cfg : TxBuild) (skb : TxSkb) (f : EthFrame) (r : PktParseResult) :
    (f.tagged cfg skb r).dmac = r.dmac ∧ (f.tagged cfg skb r).smac = r.smac ∧
      (f.tagged cfg skb r).pppoe_gap = r.pppoe_gap ∧ (f.tagged cfg skb r).pppoe_sid = r.pppoe_sid ∧
      (f.tagged cfg skb r).th = r.th ∧ (f.tagged cfg skb r).uh = r.uh := by
  rw [EthFrame.tagged]
  split
  · split
    · split <;> exact ⟨rfl, rfl, rfl, rfl, rfl, rfl⟩
    · exact ⟨rfl, rfl, rfl, rfl, rfl, rfl⟩
  · split <;> exact ⟨rfl, rfl, rfl, rfl, rfl, rfl⟩

theorem tagged_room (skb : TxSkb) (hlen : ¬ (cfg.hwVlanTx ∧ 2 ≤ f.tags.length)) (hgap : r.vlan1_gap = 0)
    (hgap' : r.vlan2_gap = 0) : (f.tagged cfg skb r).vlan1_gap + (f.tagged cfg skb r).vlan2_gap =
      VLAN_HLEN * f.tags.length := by
  rw [EthFrame.tagged]
  rcases tags_cases f with htags | ⟨tag, htags⟩ | ⟨tag, tag', htags⟩
  · rw [htags]
    cases cfg.hwVlanTx with
    | false => exact congrArg₂ (· + ·) hgap hgap'
    | true =>
      cases skb.vlan_tx_tag_present with
      | false => exact congrArg₂ (· + ·) hgap hgap'
      | true => exact congrArg (0 + ·) hgap'
  · rw [htags]
    cases cfg.hwVlanTx with
    | false => exact congrArg (VLAN_HLEN + ·) hgap'
    | true => rfl
  · rw [htags] at hlen ⊢
    rw [if_neg fun hhw => hlen ⟨hhw, le_refl 2⟩]
    rfl

theorem header_tagged (hlen : ¬ (cfg.hwVlanTx ∧ 2 ≤ f.tags.length)) :
    layer3Header skb (f.reached (f.tagged cfg skb (f.started eth_type is_mcast))) = f.l3At skb := by
  have hroom := tagged_room skb (r := f.started eth_type is_mcast) hlen rfl rfl
  obtain ⟨-, -, hgap, hsid, -, -⟩ := tagged_rest cfg skb f (f.started eth_type is_mcast)
  obtain ⟨-, -, h1, -, h2, -⟩ := reached_tags f (f.tagged cfg skb (f.started eth_type is_mcast))
  have hp := (reached_session f hgap hsid).1
  rw [layer3Header, EthFrame.l3At, h1, h2, hp, ← hroom]
  omega

theorem tagged_vids (hlen : ¬ (cfg.hwVlanTx ∧ 2 ≤ f.tags.length)) (hm : ¬ f.TagMistaken cfg skb)
    (hgap : r.vlan1_gap = 0) (hv : r.vlan1 = 0) (hgap' : r.vlan2_gap = 0) (hv' : r.vlan2 = 0) :
    (f.tagged cfg skb r).vlan1_gap =
        (if isHwVlanTx cfg skb ∨ f.tags = [] then 0 else VLAN_HLEN) ∧
      (f.tagged cfg skb r).vlan1 = (f.vids cfg skb).getD 0 0 ∧
      (f.tagged cfg skb r).vlan2_gap = (if 2 ≤ (f.vids cfg skb).length then VLAN_HLEN else 0) ∧
      (f.tagged cfg skb r).vlan2 = (f.vids cfg skb).getD 1 0 := by
  rw [EthFrame.tagged, EthFrame.vids, isHwVlanTx]
  rw [EthFrame.TagMistaken] at hm
  rcases tags_cases f with htags | ⟨tag, htags⟩ | ⟨tag, tag', htags⟩
  · rw [htags]
    cases cfg.hwVlanTx with
    | false => exact ⟨hgap, hv, hgap', hv'⟩
    | true =>
      cases skb.vlan_tx_tag_present with
      | false => exact ⟨hgap, hv, hgap', hv'⟩
      | true => exact ⟨rfl, rfl, hgap', hv'⟩
  · rw [htags] at hm ⊢
    cases hhw : cfg.hwVlanTx with
    | false => exact ⟨rfl, rfl, hgap', hv'⟩
    | true =>
      cases hpresent : skb.vlan_tx_tag_present with
      | false => exact absurd ⟨hhw, by simp [hpresent], by simp⟩ hm
      | true => exact ⟨rfl, rfl, rfl, rfl⟩
  · rw [htags] at hlen ⊢
    cases hhw : cfg.hwVlanTx with
    | false => exact ⟨rfl, rfl, rfl, rfl⟩
    | true => exact absurd ⟨hhw, le_refl 2⟩ hlen

theorem tagged_mistaken (hm : f.TagMistaken cfg skb) : (f.tagged cfg skb r).vlan1_gap = 0 ∧
    (if isHwVlanTx cfg skb ∨ f.tags = [] then 0 else VLAN_HLEN) = VLAN_HLEN := by
  obtain ⟨hhw, hpresent, htags⟩ := hm
  rw [EthFrame.tagged, if_pos hhw]
  refine ⟨?_, ?_⟩
  · cases hf : f.tags with
    | nil => exact absurd hf htags
    | cons tag tags => rfl
  · rw [isHwVlanTx, hhw]
    simp [hpresent, htags]

end Tagged

theorem PpeParseLayerInfo_eq (hm : InMemory skb f) : PpeParseLayerInfo cfg skb =
    if f.dmac.headD 0 &&& 1 ≠ 0 ∧ cfg.chip ≠ .MT7620 then none
    else (parseLayer2 cfg skb (f.started (be16 skb.mem (skb.data + 12))
      (f.dmac.headD 0 &&& 1 ≠ 0))).bind (parseLayer3 cfg skb) := by
  have hd : readBytes skb.mem skb.data f.dmac.length = f.dmac := hm.dmac
  have hs : readBytes skb.mem (skb.data + 6) f.smac.length = f.smac := hm.smac
  have hfirst := hm.dmac.byte (i := 0) (by rw [f.hdmac]; decide)
  have hhead : f.dmac.getD 0 0 = f.dmac.headD 0 := by cases f.dmac <;> rfl
  rw [f.hdmac] at hd
  rw [f.hsmac] at hs
  rw [Nat.add_zero, hhead] at hfirst
  rw [PpeParseLayerInfo, hd, show skb.data + ETH_ALEN = skb.data + 6 from rfl, hs, hfirst]
  rfl

theorem PpeParseLayerInfo_tagged (hm : InMemory skb f)
    (hmc : ¬ (f.dmac.headD 0 &&& 1 ≠ 0 ∧ cfg.chip ≠ .MT7620))
    (hlen : ¬ (cfg.hwVlanTx ∧ 2 ≤ f.tags.length)) (hp : ¬ f.PppoeRefused cfg) :
    ∃ eth_type is_mcast, PpeParseLayerInfo cfg skb =
      parseLayer3 cfg skb (f.reached (f.tagged cfg skb (f.started eth_type is_mcast))) := by
  refine ⟨be16 skb.mem (skb.data + 12), decide (f.dmac.headD 0 &&& 1 ≠ 0), ?_⟩
  rw [PpeParseLayerInfo_eq hm, if_neg hmc]
  cases hhw : cfg.hwVlanTx with
  | false => rw [parseLayer2_inBytes hm hhw rfl rfl, if_neg hp, Option.bind_some]
  | true =>
    have hroom : f.tags.length < 2 := Nat.lt_of_not_le fun h => hlen ⟨hhw, h⟩
    rw [parseLayer2_hwVlan hm hhw rfl rfl hroom, if_neg hp, Option.bind_some]

theorem PpeParseLayerInfo_refused (hm : InMemory skb f) (h : f.Refused cfg) :
    PpeParseLayerInfo cfg skb = none := by
  by_cases hmc : f.dmac.headD 0 &&& 1 ≠ 0 ∧ cfg.chip ≠ .MT7620
  · rw [PpeParseLayerInfo_eq hm, if_pos hmc]
  by_cases hlen : cfg.hwVlanTx ∧ 2 ≤ f.tags.length
  · obtain ⟨r', hr', htype⟩ := parseLayer2_hwVlan_two (r := f.started (be16 skb.mem (skb.data + 12))
      (f.dmac.headD 0 &&& 1 ≠ 0)) hm hlen.1 rfl hlen.2
    have hip : ETH_P_8021Q ≠ ETH_P_IP ∧ ETH_P_8021Q ≠ ETH_P_PPP_SES ∧ ETH_P_8021Q ≠ ETH_P_IPV6 := by
      decide
    rw [PpeParseLayerInfo_eq hm, if_neg hmc, hr', Option.bind_some, parseLayer3, htype]
    simp only [hip, false_and, or_self, if_false]
  by_cases hp : f.PppoeRefused cfg
  · rw [PpeParseLayerInfo_eq hm, if_neg hmc]
    cases hhw : cfg.hwVlanTx with
    | false => rw [parseLayer2_inBytes hm hhw rfl rfl, if_pos hp, Option.bind_none]
    | true =>
      have hroom : f.tags.length < 2 := Nat.lt_of_not_le fun h => hlen ⟨hhw, h⟩
      rw [parseLayer2_hwVlan hm hhw rfl rfl hroom, if_pos hp, Option.bind_none]
  · obtain ⟨eth_type, is_mcast, heq⟩ := PpeParseLayerInfo_tagged hm hmc hlen hp
    have hrest := tagged_rest cfg skb f (f.started eth_type is_mcast)
    have hl3 : f.l3.Refused cfg := by
      rcases h with h | h | h | h
      · exact absurd h hmc
      · exact absurd h hlen
      · exact absurd h hp
      · exact h
    rw [heq]
    exact (parseLayer3_spec hm (header_tagged hlen) hrest.2.2.2.2.1 hrest.2.2.2.2.2).1 hl3

theorem PpeParseLayerInfo_accepted (hm : InMemory skb f) (h : ¬ f.Refused cfg) :
    ∃ r, PpeParseLayerInfo cfg skb = some r ∧
      (f.Parsed cfg skb r ↔ ¬ f.TagMistaken cfg skb ∧ f.InnerFound skb) := by
  rw [EthFrame.Refused, not_or, not_or, not_or] at h
  obtain ⟨hmc, hlen, hp, hl3⟩ := h
  obtain ⟨eth_type, is_mcast, heq⟩ := PpeParseLayerInfo_tagged hm hmc hlen hp
  obtain ⟨hdmac, hsmac, hgap, hsid, hth, huh⟩ := tagged_rest cfg skb f (f.started eth_type is_mcast)
  obtain ⟨r, hr, hsame, hparsed⟩ := (parseLayer3_spec hm (header_tagged hlen) hth huh).2 hl3
  obtain ⟨h1, h2, h3, h4, h5, h6⟩ := reached_tags f (f.tagged cfg skb (f.started eth_type is_mcast))
  obtain ⟨hses, hses'⟩ := reached_session f hgap hsid
  refine ⟨r, heq.trans hr, ?_⟩
  constructor
  · intro hall
    refine ⟨?_, hparsed.mp hall.l3⟩
    intro hmis
    have hzero := tagged_mistaken (r := f.started eth_type is_mcast) hmis
    have hone := hall.vlan1_gap
    rw [hzero.2, hsame.vlan1_gap, h3, hzero.1] at hone
    exact absurd hone (by decide)
  · rintro ⟨hmis, hin⟩
    obtain ⟨v1, v2, v3, v4⟩ := tagged_vids (r := f.started eth_type is_mcast) hlen hmis rfl rfl rfl rfl
    exact {
      dmac := hsame.dmac.trans (h1.trans hdmac)
      smac := hsame.smac.trans (h2.trans hsmac)
      vlan1_gap := hsame.vlan1_gap.trans (h3.trans v1)
      vlan1 := hsame.vlan1.trans (h4.trans v2)
      vlan2_gap := hsame.vlan2_gap.trans (h5.trans v3)
      vlan2 := hsame.vlan2.trans (h6.trans v4)
      pppoe_gap := hsame.pppoe_gap.trans hses
      pppoe_sid := hsame.pppoe_sid.trans hses'
      l3 := hparsed.mpr hin }

/-- A frame is turned down, or what is found is what stands in it, exactly when the first tag is not
missing from the hardware and the header inside of a DS-Lite packet happens to be where it is looked
for. -/
theorem PpeParseLayerInfo_exact_iff (cfg : TxBuild) (skb : TxSkb) (f : EthFrame)
    (h : Lies skb.mem skb.data f.bytes) :
    (∀ r, PpeParseLayerInfo cfg skb = some r → f.Parsed cfg skb r) ↔
      f.Refused cfg ∨ (¬ f.TagMistaken cfg skb ∧ f.InnerFound skb) := by
  have hm := inMemory h
  by_cases href : f.Refused cfg
  · have hnone := PpeParseLayerInfo_refused hm href
    refine iff_of_true ?_ (Or.inl href)
    intro r hr
    rw [hnone] at hr
    cases hr
  · obtain ⟨r, hr, hiff⟩ := PpeParseLayerInfo_accepted hm href
    constructor
    · intro hall
      exact Or.inr (hiff.mp (hall r hr))
    · rintro (href' | hcond) r' hr'
      · exact absurd href' href
      · rw [hr] at hr'
        cases hr'
        exact hiff.mpr hcond

/-! A packet of the client 192.168.1.2, as it is and in a tunnel. -/

def sampleIpv4 : Ipv4Hdr where
  bytes := [0x45, 0, 0, 40, 0, 0, 0, 0, 64, 6, 0, 0, 192, 168, 1, 2, 10, 0, 0, 1]
  options := []
  fixed := rfl
  ihl := rfl

def sampleTcp : Layer4 := .tcp ([0x0F, 0xA0, 0, 80] ++ List.replicate 16 0) rfl

def sampleIpv6 : Ipv6Hdr where
  bytes := [0x60, 0, 0, 0, 0, 40, 4, 64] ++ List.replicate 16 0x20 ++ List.replicate 16 0x30
  fixed := rfl

def sampleEth (tags : List Be16) (htags : tags.length ≤ 2) (l3 : Layer3) : EthFrame where
  dmac := [0x00, 0x0C, 0x43, 0x00, 0x00, 0x01]
  smac := [0x00, 0x0C, 0x43, 0x00, 0x00, 0x02]
  tags := tags
  pppoe := none
  l3 := l3
  rest := []
  hdmac := rfl
  hsmac := rfl
  htags := htags

def sampleTx (f : EthFrame) : TxSkb where
  mem a := f.bytes.getD a 0
  data := 0
  vlan_tx_tag_present := false
  vlan_tx_tag_get := 0

def sampleTagged : EthFrame :=
  sampleEth [⟨0x00, 0x02⟩] (Nat.le_succ 1) (.ipv4 sampleIpv4 sampleTcp rfl)

def sampleDsLite : EthFrame :=
  sampleEth [] (Nat.zero_le 2) (.dsLite sampleIpv6 sampleIpv4 sampleTcp rfl rfl)

theorem PpeParseLayerInfo_exact_tagged :
    (PpeParseLayerInfo { chip := .MT7620 } (sampleTx sampleTagged)).isSome ∧
      ∀ r, PpeParseLayerInfo { chip := .MT7620 } (sampleTx sampleTagged) = some r →
        sampleTagged.Parsed { chip := .MT7620 } (sampleTx sampleTagged) r :=
  ⟨by decide +kernel, (PpeParseLayerInfo_exact_iff { chip := .MT7620 } (sampleTx sampleTagged)
    sampleTagged (by unfold Lies; decide +kernel)).mpr
      (Or.inr ⟨fun h => absurd h.1 (by decide), trivial⟩)⟩

/-- The inner header is read where there is nothing of the frame. -/
theorem PpeParseLayerInfo_dsLite_misread :
    Lies (sampleTx sampleDsLite).mem (sampleTx sampleDsLite).data sampleDsLite.bytes ∧
      (PpeParseLayerInfo { chip := .MT7620 } (sampleTx sampleDsLite)).map PktParseResult.iph =
        some (List.replicate 20 0) ∧
      ¬ ∀ r, PpeParseLayerInfo { chip := .MT7620 } (sampleTx sampleDsLite) = some r →
        sampleDsLite.Parsed { chip := .MT7620 } (sampleTx sampleDsLite) r := by
  have hzero : (PpeParseLayerInfo { chip := .MT7620 } (sampleTx sampleDsLite)).map
      PktParseResult.iph = some (List.replicate 20 0) := by decide +kernel
  refine ⟨by unfold Lies; decide +kernel, hzero, ?_⟩
  intro hall
  obtain ⟨r, hr, hiph⟩ := Option.map_eq_some_iff.mp hzero
  have hinner : r.iph = sampleIpv4.bytes := (hall r hr).l3.2.1
  rw [hiph] at hinner
  exact absurd hinner (by decide)

end Frames

end Ralink.HwNat
