import Ralink.Mat.Icmpv6Sum

/-! What a packet has to be for `MATProto_IPv6_Tx` to stay inside of it and to write nothing but the
link-layer address and a checksum that verifies: the headers are not compared with the length of the
payload, and the length that is left of the options is too great by the part in front of them. -/
namespace Ralink.Mat
open Sized (slice)

/-- Where the headers from one of the protocol `proto` at `offset` on lead: to a message, or to
something else. -/
inductive HeaderChain (b : List UInt8) : UInt8 → Nat → Option Nat → Prop
  | message {offset : Nat} : HeaderChain b IPV6_NEXT_HEADER_ICMPV6 offset (some offset)
  | other {proto : UInt8} {offset : Nat}
      (kind : proto ∉ [IPV6_NEXT_HEADER_ICMPV6, IPV6_NEXT_HEADER_HOP_BY_HOP,
        IPV6_NEXT_HEADER_DESTINATION, IPV6_NEXT_HEADER_ROUTING, IPV6_NEXT_HEADER_FRAGMENT]) :
      HeaderChain b proto offset none
  | sized {proto next len : UInt8} {offset : Nat} {r : Option Nat}
      (kind : proto ∈ [IPV6_NEXT_HEADER_HOP_BY_HOP, IPV6_NEXT_HEADER_DESTINATION,
        IPV6_NEXT_HEADER_ROUTING])
      (hnext : b[offset]? = some next) (hlen : b[offset + 1]? = some len)
      (rest : HeaderChain b next (offset + (len.toNat + 1) * 8) r) : HeaderChain b proto offset r
  | fragment {next : UInt8} {offset : Nat} {r : Option Nat} (hnext : b[offset]? = some next)
      (rest : HeaderChain b next (offset + 8) r) : HeaderChain b IPV6_NEXT_HEADER_FRAGMENT offset r

/-- What the options of a message from `c` on come to: the first one of the type, or none, where one
has the length zero or the lengths run over the end of the message by the part in front of the
options, up to three bytes less. -/
inductive Options (type : UInt8) (m : List UInt8) (fixedLen : Nat) : Nat → Option Nat → Prop
  | found {c : Nat} (hin : c + 1 < m.length) (hlen : m[c + 1] ≠ 0) (htype : m[c]? = some type) :
      Options type m fixedLen c (some c)
  | zero {c : Nat} (hin : c + 1 < m.length) (hlen : m[c + 1] = 0) : Options type m fixedLen c none
  | past {c : Nat} (hle : c ≤ m.length + fixedLen) (hge : m.length + fixedLen ≤ c + 3) :
      Options type m fixedLen c none
  | later {c : Nat} {r : Option Nat} (hin : c + 1 < m.length) (hlen : m[c + 1] ≠ 0)
      (htype : m[c]? ≠ some type) (rest : Options type m fixedLen (c + m[c + 1].toNat * 8) r) :
      Options type m fixedLen c r

/-- A frame with an IPv6 packet that is all there and has nothing behind it. -/
structure Ipv6Frame where
  head : List UInt8
  packet : List UInt8
  length_head : head.length = if IS_VLAN_PACKET (head.getD 12 0) (head.getD 13 0) then 18 else 14
  length_packet : IPV6_HDR_LEN ≤ packet.length
  payloadLen : ntohs packet 4 = some (packet.length - IPV6_HDR_LEN)

namespace Ipv6Frame

def bytes (f : Ipv6Frame) : Packet := f.head ++ f.packet

end Ipv6Frame

/-- The packet has a message at `o`. -/
def IsMessage (b : List UInt8) (o : Nat) : Prop :=
  ∃ first, b[6]? = some first ∧ HeaderChain b first IPV6_HDR_LEN (some o)

/-- The first link-layer option of the message at `o` that its type may have is at `c`. -/
def LinkOption (b : List UInt8) (o c : Nat) : Prop :=
  ∃ type fixedLen option, b[o]? = some type ∧ optionOf type = some (fixedLen, option) ∧
    Options option (b.drop o) fixedLen fixedLen (some c) ∧ o + c + 8 ≤ b.length

/-- What goes out is the packet, or the packet with the address in its link-layer option and another
checksum; a message that verifies does so afterwards. -/
def Forwarded (w : Sharing) (f : Ipv6Frame) (mac : Mac) : Prop :=
  ∃ r out, MATProto_IPv6_Tx w f.bytes f.head.length mac = some r ∧
    r.2.2.getD r.2.1 = f.head ++ out ∧
    (out = f.packet ∨ ∃ o c chksum, IsMessage f.packet o ∧ LinkOption f.packet o c ∧
      out = readdressed f.packet o c mac chksum) ∧
    ∀ o, IsMessage f.packet o → Checked f.packet o → Checked out o

/-- The type is inside, and so is what is looked at and written of the options. Where the length of
the message is not a multiple of four, the checksum becomes zero. -/
def MessageInside (b : List UInt8) (o : Nat) (mac : Mac) : Prop :=
  ∃ type, b[o]? = some type ∧ ∀ fixedLen option, optionOf type = some (fixedLen, option) →
    IS_UNSPECIFIED_IPV6_ADDR ((b.drop 8).take 16) = false →
      ∃ r, Options option (b.drop o) fixedLen fixedLen r ∧ ∀ c, r = some c →
        o + c + 8 ≤ b.length ∧ (4 ∣ b.length - o ∨ (Checked b o → Balanced b o c mac))

def Fine (b : List UInt8) (o : Nat) (mac : Mac) (out : List UInt8) : Prop :=
  (out = b ∨ ∃ c chksum, LinkOption b o c ∧ out = readdressed b o c mac chksum) ∧
    (Checked b o → Checked out o)

def PacketInside (b : List UInt8) (mac : Mac) : Prop :=
  ∃ first r, b[6]? = some first ∧ HeaderChain b first IPV6_HDR_LEN r ∧
    ∀ o, r = some o → MessageInside b o mac

section Walks

variable {b : List UInt8} {proto type : UInt8} {offset o c fixedLen : Nat} {r : Option Nat}
  {next : UInt8} {m : List UInt8} {leftLen : UInt32} {offset' : Nat}

def messageAt (next : UInt8 × Nat) : Option Nat :=
  if next.1 = IPV6_NEXT_HEADER_ICMPV6 then some next.2 else none

theorem extHdrHandle_sized {next len : UInt8}
    (kind : proto ∈ [IPV6_NEXT_HEADER_HOP_BY_HOP, IPV6_NEXT_HEADER_DESTINATION,
      IPV6_NEXT_HEADER_ROUTING])
    (hnext : b[offset]? = some next) (hlen : b[offset + 1]? = some len) :
    IPv6ExtHdrHandle (b.drop offset) proto offset =
      some (true, next, offset + (len.toNat + 1) * 8) := by
  have hkind : proto = IPV6_NEXT_HEADER_HOP_BY_HOP ∨ proto = IPV6_NEXT_HEADER_DESTINATION ∨
      proto = IPV6_NEXT_HEADER_ROUTING := by simpa using kind
  simp only [IPv6ExtHdrHandle, if_pos hkind, List.getElem?_drop, Nat.add_zero, hnext, hlen,
    Option.bind_eq_bind, Option.bind_some]

theorem extHdrHandle_fragment (hnext : b[offset]? = some next) :
    IPv6ExtHdrHandle (b.drop offset) IPV6_NEXT_HEADER_FRAGMENT offset =
      some (true, next, offset + 8) := by
  have hkind : ¬ (IPV6_NEXT_HEADER_FRAGMENT = IPV6_NEXT_HEADER_HOP_BY_HOP ∨
      IPV6_NEXT_HEADER_FRAGMENT = IPV6_NEXT_HEADER_DESTINATION ∨
        IPV6_NEXT_HEADER_FRAGMENT = IPV6_NEXT_HEADER_ROUTING) := by decide
  simp only [IPv6ExtHdrHandle, if_neg hkind, if_true, List.getElem?_drop, Nat.add_zero, hnext,
    Option.bind_eq_bind, Option.bind_some]

theorem chain_of_handle
    (h : IPv6ExtHdrHandle (b.drop offset) proto offset = some (true, next, offset'))
    (rest : HeaderChain b next offset' r) : HeaderChain b proto offset r := by
  unfold IPv6ExtHdrHandle at h
  split at h
  · next hkind =>
    obtain ⟨next', hnext, h⟩ := Option.bind_eq_some_iff.mp h
    obtain ⟨len, hlen, h⟩ := Option.bind_eq_some_iff.mp h
    cases h
    rw [List.getElem?_drop] at hnext hlen
    exact .sized (by simpa using hkind) hnext hlen rest
  · split at h
    · next hkind =>
      obtain ⟨next', hnext, h⟩ := Option.bind_eq_some_iff.mp h
      cases h
      rw [List.getElem?_drop] at hnext
      subst hkind
      exact .fragment hnext rest
    · cases h

theorem not_passed_of_handle
    (h : IPv6ExtHdrHandle (b.drop offset) proto offset = some (false, next, offset')) :
    next ≠ IPV6_NEXT_HEADER_ICMPV6 ∧ proto ∉ [IPV6_NEXT_HEADER_HOP_BY_HOP,
      IPV6_NEXT_HEADER_DESTINATION, IPV6_NEXT_HEADER_ROUTING, IPV6_NEXT_HEADER_FRAGMENT] := by
  unfold IPv6ExtHdrHandle at h
  split at h
  · obtain ⟨next', hnext, h⟩ := Option.bind_eq_some_iff.mp h
    obtain ⟨len, hlen, h⟩ := Option.bind_eq_some_iff.mp h
    cases h
  · next hsized =>
    split at h
    · obtain ⟨next', hnext, h⟩ := Option.bind_eq_some_iff.mp h
      cases h
    · next hfragment =>
      cases h
      refine ⟨by decide, fun hmem => ?_⟩
      rcases List.mem_append.mp (show proto ∈ [_, _, _] ++ [_] from hmem) with hkind | hkind
      · exact hsized (by simpa using hkind)
      · exact hfragment (List.mem_singleton.mp hkind)

theorem chain_of_extHdrLoop {next : UInt8 × Nat} (h : extHdrLoop b proto offset = some next) :
    HeaderChain b proto offset (messageAt next) := by
  induction proto, offset using extHdrLoop.induct b with
  | case1 proto offset hmore hnone =>
    rw [extHdrLoop, if_pos hmore] at h
    split at h
    · cases h
    · next hstep => exact absurd (hstep.symm.trans hnone) nofun
    · next hstep => exact absurd (hstep.symm.trans hnone) nofun
  | case2 proto offset hmore next' offset' hstop =>
    rw [extHdrLoop, if_pos hmore] at h
    obtain ⟨hnext, hkind⟩ := not_passed_of_handle hstop
    have hnot : proto ∉ IPV6_NEXT_HEADER_ICMPV6 :: _ :=
      List.not_mem_cons_of_ne_of_not_mem hmore.1 hkind
    split at h
    · cases h
    · next hstep =>
      rw [hstop] at hstep
      cases hstep
      cases h
      rw [messageAt, if_neg hnext]
      exact .other hnot
    · next hstep => exact absurd (hstep.symm.trans hstop) (by simp)
  | case3 proto offset hmore next' offset' hstep ih =>
    rw [extHdrLoop, if_pos hmore] at h
    split at h
    · cases h
    · next hstop => exact absurd (hstep.symm.trans hstop) (by simp)
    · next hstep' =>
      rw [hstep] at hstep'
      cases hstep'
      exact chain_of_handle hstep (ih h)
  | case4 proto offset hstop =>
    rw [extHdrLoop, if_neg hstop] at h
    cases h
    by_cases hmessage : proto = IPV6_NEXT_HEADER_ICMPV6
    · rw [messageAt, if_pos hmessage]
      subst hmessage
      exact .message
    · rw [messageAt, if_neg hmessage]
      apply HeaderChain.other
      have hupper : proto = IPV6_NEXT_HEADER_UDP ∨ proto = IPV6_NEXT_HEADER_TCP ∨
          proto = IPV6_NEXT_HEADER_NONE := by tauto
      rcases hupper with rfl | rfl | rfl <;> decide

theorem extHdrLoop_step {next : UInt8} {offset' : Nat}
    (hmore : proto ∉ [IPV6_NEXT_HEADER_ICMPV6, IPV6_NEXT_HEADER_UDP, IPV6_NEXT_HEADER_TCP,
      IPV6_NEXT_HEADER_NONE])
    (h : IPv6ExtHdrHandle (b.drop offset) proto offset = some (true, next, offset')) :
    extHdrLoop b proto offset = extHdrLoop b next offset' := by
  rw [extHdrLoop, if_pos (by simpa using hmore)]
  split
  · next hstep => exact absurd (hstep.symm.trans h) (by simp)
  · next hstep => exact absurd (hstep.symm.trans h) (by simp)
  · next hstep =>
    rw [h] at hstep
    cases hstep
    rfl

theorem extHdrLoop_of_chain (h : HeaderChain b proto offset r) :
    ∃ next, extHdrLoop b proto offset = some next ∧ messageAt next = r := by
  induction h with
  | @message offset =>
    refine ⟨(IPV6_NEXT_HEADER_ICMPV6, offset), ?_, rfl⟩
    rw [extHdrLoop, if_neg (by simp)]
  | @other proto offset kind =>
    simp only [List.mem_cons, List.not_mem_nil, or_false, not_or] at kind
    rw [extHdrLoop]
    split
    · have hstop : IPv6ExtHdrHandle (b.drop offset) proto offset = some (false, 0xff, offset) := by
        rw [IPv6ExtHdrHandle, if_neg (by tauto), if_neg (by tauto)]
      split
      · next hstep => exact absurd (hstep.symm.trans hstop) (by simp)
      · next hstep =>
        rw [hstop] at hstep
        cases hstep
        exact ⟨_, rfl, rfl⟩
      · next hstep => exact absurd (hstep.symm.trans hstop) (by simp)
    · exact ⟨_, rfl, if_neg kind.1⟩
  | @sized proto next len offset r kind hnext hlen rest ih =>
    rw [extHdrLoop_step ?_ (extHdrHandle_sized kind hnext hlen)]
    · exact ih
    · simp only [List.mem_cons, List.not_mem_nil, or_false] at kind
      rcases kind with rfl | rfl | rfl <;> decide
  | @fragment next offset r hnext rest ih =>
    rw [extHdrLoop_step (by decide) (extHdrHandle_fragment hnext)]
    exact ih

theorem HeaderChain.le (h : HeaderChain b proto offset r) (hr : r = some o) : offset ≤ o := by
  induction h with
  | message => exact (Option.some.inj hr).le
  | other => cases hr
  | sized _ _ _ _ ih => exact le_trans (Nat.le_add_right _ _) (ih hr)
  | fragment _ _ ih => exact le_trans (Nat.le_add_right _ _) (ih hr)

theorem HeaderChain.unique {r' : Option Nat} (h : HeaderChain b proto offset r)
    (h' : HeaderChain b proto offset r') : r = r' := by
  obtain ⟨next, hnext, rfl⟩ := extHdrLoop_of_chain h
  obtain ⟨next', hnext', rfl⟩ := extHdrLoop_of_chain h'
  rw [hnext, Option.some.injEq] at hnext'
  rw [hnext']

theorem Options.bounds {m : List UInt8} (h : Options type m fixedLen c r) {c' : Nat}
    (hr : r = some c') (heven : 2 ∣ c) : c ≤ c' ∧ 2 ∣ c' := by
  induction h with
  | found =>
    cases hr
    exact ⟨le_refl _, heven⟩
  | zero => cases hr
  | past => cases hr
  | @later c r hin hlen htype rest ih =>
    obtain ⟨hle, heven'⟩ := ih hr (by omega)
    exact ⟨by omega, heven'⟩

theorem not_options (h : m.length + fixedLen < c) : ¬ Options type m fixedLen c r := by
  rintro (⟨hin, _, _⟩ | ⟨hin, _⟩ | ⟨hle, _⟩ | ⟨hin, _, _, _⟩) <;> omega

theorem options_later_iff {m : List UInt8} (hin : c + 1 < m.length) (hlen : m[c + 1] ≠ 0)
    (htype : m[c]? ≠ some type) (hmore : c + 3 < m.length + fixedLen) :
    Options type m fixedLen c r ↔ Options type m fixedLen (c + m[c + 1].toNat * 8) r := by
  constructor
  · rintro (⟨_, _, h⟩ | ⟨_, h⟩ | ⟨_, hge⟩ | ⟨_, _, _, rest⟩)
    · exact absurd h htype
    · exact absurd h hlen
    · omega
    · exact rest
  · exact .later hin hlen htype

theorem findOption_none (hmore : 3 < leftLen) (h : b.length ≤ offset + 1) :
    findOption type b offset leftLen = none := by
  rw [findOption, if_pos hmore, dif_neg (not_lt.mpr h)]

theorem some_none_iff {f : Nat → Nat} : some none = some (r.map f) ↔ r = none := by
  rw [Option.some.injEq, eq_comm, Option.map_eq_none_iff]

theorem findOption_iff (hfixed : 3 ≤ fixedLen) (hm : (b.drop o).length + fixedLen < 2 ^ 32 - 2048)
    (hleft : leftLen.toNat + c = (b.drop o).length + fixedLen) :
    findOption type b (o + c) leftLen = some (r.map fun c => o + c + 2) ↔
      Options type (b.drop o) fixedLen c r := by
  induction hn : leftLen.toNat using Nat.strong_induction_on generalizing c leftLen with
  | h n ih =>
    have hlength : (b.drop o).length = b.length - o := List.length_drop
    by_cases hmore : 3 < leftLen
    · have hmore' : 3 < leftLen.toNat := UInt32.lt_iff_toNat_lt.mp hmore
      by_cases hin : c + 1 < (b.drop o).length
      · have hread : o + c + 1 < b.length := by omega
        have hlen' : b[o + c + 1] = (b.drop o)[c + 1] := by
          rw [List.getElem_drop]
          rfl
        have htype' : b[o + c] = (b.drop o)[c] := by rw [List.getElem_drop]
        have hhead : (b.drop o)[c]? = some type ↔ (b.drop o)[c] = type := by
          rw [List.getElem?_eq_getElem (by omega), Option.some.injEq]
        rw [findOption, if_pos hmore, dif_pos hread]
        simp only [hlen', htype']
        by_cases hlen : (b.drop o)[c + 1] = 0
        · rw [dif_pos hlen, some_none_iff]
          constructor
          · rintro rfl
            exact .zero hin hlen
          · rintro (⟨_, h, _⟩ | _ | _ | ⟨_, h, _, _⟩)
            · exact absurd hlen h
            · rfl
            · rfl
            · exact absurd hlen h
        · rw [dif_neg hlen]
          by_cases htype : (b.drop o)[c] = type
          · rw [if_pos htype]
            constructor
            · intro h
              obtain ⟨c', rfl, hc'⟩ := Option.map_eq_some_iff.mp (Option.some.inj h).symm
              obtain rfl : c' = c := by omega
              exact .found hin hlen (hhead.mpr htype)
            · rintro (_ | ⟨_, h⟩ | ⟨_, hge⟩ | ⟨_, _, h, _⟩)
              · rfl
              · exact absurd h hlen
              · omega
              · exact absurd (hhead.mpr htype) h
          · rw [if_neg htype, options_later_iff hin hlen (mt hhead.mp htype) (by omega), Nat.add_assoc]
            have hpos : 0 < (b.drop o)[c + 1].toNat :=
              Nat.pos_of_ne_zero fun h0 => hlen (UInt8.toNat_inj.mp h0)
            have hbyte := UInt8.toNat_lt (b.drop o)[c + 1]
            have hsub : (leftLen - (b.drop o)[c + 1].toUInt32 * 8).toNat =
                (2 ^ 32 - (b.drop o)[c + 1].toNat * 8 + leftLen.toNat) % 2 ^ 32 := by
              have hmul : (b.drop o)[c + 1].toNat * 8 % 2 ^ 32 = (b.drop o)[c + 1].toNat * 8 :=
                Nat.mod_eq_of_lt (by omega)
              rw [UInt32.toNat_sub, UInt32.toNat_mul, UInt8.toNat_toUInt32]
              change (2 ^ 32 - (b.drop o)[c + 1].toNat * 8 % 2 ^ 32 + _) % _ = _
              rw [hmul]
            by_cases hle : (b.drop o)[c + 1].toNat * 8 ≤ leftLen.toNat
            · apply ih _ _ _ rfl
              · omega
              · omega
            · have hwrap : 3 < leftLen - (b.drop o)[c + 1].toUInt32 * 8 := by
                apply UInt32.lt_iff_toNat_lt.mpr
                rw [hsub]
                change 3 < _
                omega
              rw [findOption_none hwrap (by omega)]
              exact iff_of_false nofun (not_options (by omega))
      · rw [findOption_none hmore (by omega)]
        refine iff_of_false nofun ?_
        rintro (⟨hin', _, _⟩ | ⟨hin', _⟩ | ⟨_, hge⟩ | ⟨hin', _, _, _⟩) <;> omega
    · have hdone : leftLen.toNat ≤ 3 := not_lt.mp fun h => hmore (UInt32.lt_iff_toNat_lt.mpr h)
      rw [findOption, if_neg hmore, some_none_iff]
      constructor
      · rintro rfl
        exact .past (by omega) (by omega)
      · rintro (⟨hin, _, _⟩ | _ | _ | ⟨hin, _, _, _⟩)
        · omega
        · rfl
        · rfl
        · omega

end Walks

section Handlers

variable {w : Sharing} {f : Ipv6Frame} {mac : Mac} {o c fixedLen : Nat} {type option : UInt8}
  {r : Option Nat} {i : Nat}

theorem optionOf_fixedLen (h : optionOf type = some (fixedLen, option)) :
    8 ≤ fixedLen ∧ fixedLen ≤ 40 ∧ 2 ∣ fixedLen := by
  unfold optionOf at h
  repeat' split at h
  all_goals
    cases h
    try decide

def Ipv6Frame.msgLen (f : Ipv6Frame) (o : Nat) : UInt32 :=
  UInt32.ofNat (f.packet.length - IPV6_HDR_LEN) + UInt32.ofNat IPV6_HDR_LEN - UInt32.ofNat o

theorem toNat_msgLen (ho : IPV6_HDR_LEN ≤ o) (hle : o ≤ f.packet.length) :
    (f.msgLen o).toNat = f.packet.length - o ∧
      (f.msgLen o).toUInt16.toNat = f.packet.length - o := by
  have hlt := ntohs_lt f.payloadLen
  have hmin := f.length_packet
  have hlen : (f.msgLen o).toNat = f.packet.length - o := by
    rw [Ipv6Frame.msgLen, UInt32.toNat_sub, UInt32.toNat_add, UInt32.toNat_ofNat', UInt32.toNat_ofNat',
      UInt32.toNat_ofNat']
    unfold IPV6_HDR_LEN at *
    omega
  refine ⟨hlen, ?_⟩
  rw [UInt32.toNat_toUInt16, hlen, Nat.mod_eq_of_lt]
  unfold IPV6_HDR_LEN at *
  omega

def outgoing (r : Packet × Option Packet) : Packet := r.2.getD r.1

theorem drop_head (f : Ipv6Frame) : f.bytes.drop f.head.length = f.packet := List.drop_left

theorem slice_srcAddr (f : Ipv6Frame) :
    slice (f.packet.drop 8) 16 = some ((f.packet.drop 8).take 16) := by
  have hmin := f.length_packet
  rw [slice, if_pos]
  rw [List.length_drop]
  unfold IPV6_HDR_LEN at hmin
  omega

theorem getElem?_head (f : Ipv6Frame) (hi : i < 14) : f.bytes[i]? = some (f.head.getD i 0) := by
  have hlen : i < f.head.length := by
    rw [f.length_head]
    split <;> omega
  rw [Ipv6Frame.bytes, List.getElem?_append_left hlen, List.getD_eq_getElem?_getD,
    List.getElem?_eq_getElem hlen]
  rfl

theorem handle_kept (htype : f.packet[o]? = some type)
    (h : optionOf type = none ∨ IS_UNSPECIFIED_IPV6_ADDR ((f.packet.drop 8).take 16) = true) :
    (ICMPv6_Handle_Tx w f.bytes f.head.length mac o).map outgoing = some f.bytes := by
  simp only [ICMPv6_Handle_Tx, drop_head, f.payloadLen, htype, slice_srcAddr, Option.bind_eq_bind,
    Option.bind_some]
  cases hopt : optionOf type with
  | none => rfl
  | some entry =>
    have hunspec := h.resolve_left (by rw [hopt]; nofun)
    simp only [hunspec]
    rfl

theorem handle_eq (htype : f.packet[o]? = some type)
    (hopt : optionOf type = some (fixedLen, option))
    (hspec : IS_UNSPECIFIED_IPV6_ADDR ((f.packet.drop 8).take 16) = false) :
    (ICMPv6_Handle_Tx w f.bytes f.head.length mac o).map outgoing =
      (findOption option f.packet (o + fixedLen) (f.msgLen o)).bind fun found =>
        match found with
        | none => some f.bytes
        | some pSrcMac => setLinkAddr f.bytes f.head.length mac o pSrcMac (f.msgLen o) := by
  simp only [ICMPv6_Handle_Tx, drop_head, f.payloadLen, htype, slice_srcAddr, Option.bind_eq_bind,
    Option.bind_some, hopt, hspec]
  rw [← Ipv6Frame.msgLen]
  rcases findOption option f.packet (o + fixedLen) (f.msgLen o) with _ | _ | pSrcMac
  · rfl
  · rfl
  · have hinplace : ((setLinkAddr f.bytes f.head.length mac o pSrcMac (f.msgLen o)).bind
        fun pSkb => some (pSkb, none)).map outgoing =
          setLinkAddr f.bytes f.head.length mac o pSrcMac (f.msgLen o) := by
      cases setLinkAddr f.bytes f.head.length mac o pSrcMac (f.msgLen o) <;> rfl
    rcases w with ⟨_ | _, _ | _⟩
    · exact hinplace
    · exact hinplace
    · exact hinplace
    · simp only [OS_PKT_COPY, if_true, getElem?_head f (show 12 < 14 by decide),
        getElem?_head f (show 13 < 14 by decide), Option.bind_some, ← f.length_head]
      cases setLinkAddr f.bytes f.head.length mac o pSrcMac (f.msgLen o) <;> rfl

theorem offset_le_of_findOption {b : List UInt8} {offset found : Nat} {leftLen : UInt32}
    (h : findOption type b offset leftLen = some (some found)) : offset + 2 ≤ found := by
  induction offset, leftLen using findOption.induct type b with
  | case1 offset leftLen hmore hread len hlen =>
    rw [findOption, if_pos hmore, dif_pos hread, dif_pos hlen] at h
    cases h
  | case2 offset leftLen hmore hread len hlen htype =>
    rw [findOption, if_pos hmore, dif_pos hread, dif_neg hlen, if_pos htype] at h
    cases h
    exact le_refl _
  | case3 offset leftLen hmore hread len hlen htype ih =>
    rw [findOption, if_pos hmore, dif_pos hread, dif_neg hlen, if_neg htype] at h
    exact le_trans (by omega) (ih h)
  | case4 offset leftLen hmore hread =>
    rw [findOption, if_pos hmore, dif_neg hread] at h
    cases h
  | case5 offset leftLen hmore =>
    rw [findOption, if_neg hmore] at h
    cases h

theorem findOption_msgLen (ho : IPV6_HDR_LEN ≤ o) (hle : o ≤ f.packet.length)
    (hopt : optionOf type = some (fixedLen, option)) {r : Option Nat} :
    findOption option f.packet (o + fixedLen) (f.msgLen o) = some (r.map fun c => o + c + 2) ↔
      Options option (f.packet.drop o) fixedLen fixedLen r := by
  obtain ⟨hmin, hmax, -⟩ := optionOf_fixedLen hopt
  have hlt := ntohs_lt f.payloadLen
  have hlen := (toNat_msgLen ho hle).1
  have hlength : (f.packet.drop o).length = f.packet.length - o := List.length_drop
  apply findOption_iff
  · omega
  · unfold IPV6_HDR_LEN at *
    omega
  · omega

theorem messageInside_iff (ho : IPV6_HDR_LEN ≤ o) (htype : f.packet[o]? = some type)
    (hopt : optionOf type = some (fixedLen, option))
    (hspec : IS_UNSPECIFIED_IPV6_ADDR ((f.packet.drop 8).take 16) = false)
    (hwalk : Options option (f.packet.drop o) fixedLen fixedLen r) :
    MessageInside f.packet o mac ↔ ∀ c, r = some c → o + c + 8 ≤ f.packet.length ∧
      (4 ∣ f.packet.length - o ∨ (Checked f.packet o → Balanced f.packet o c mac)) := by
  have hle : o ≤ f.packet.length := (List.getElem?_eq_some_iff.mp htype).1.le
  constructor
  · rintro ⟨type', htype', h⟩
    obtain rfl : type = type' := Option.some.inj (htype.symm.trans htype')
    obtain ⟨r', hwalk', hr'⟩ := h fixedLen option hopt hspec
    have hfind := (findOption_msgLen ho hle hopt).mpr hwalk
    rw [(findOption_msgLen ho hle hopt).mpr hwalk', Option.some.injEq] at hfind
    have hinj : Function.Injective fun c => o + c + 2 := by
      intro c c' h
      dsimp only at h
      omega
    rw [← Option.map_injective hinj hfind]
    exact hr'
  · intro h
    refine ⟨type, htype, fun fixedLen' option' hopt' _ => ?_⟩
    cases hopt.symm.trans hopt'
    exact ⟨r, hwalk, h⟩

theorem setLinkAddr_iff (ho : IPV6_HDR_LEN ≤ o) (hle : o ≤ f.packet.length) (hc : 2 ≤ c)
    (heven : 2 ∣ c) (hlink : o + c + 8 ≤ f.packet.length → LinkOption f.packet o c) :
    (∃ out, setLinkAddr f.bytes f.head.length mac o (o + c + 2) (f.msgLen o) =
        some (f.head ++ out) ∧ Fine f.packet o mac out) ↔
      o + c + 8 ≤ f.packet.length ∧
        (4 ∣ f.packet.length - o ∨ (Checked f.packet o → Balanced f.packet o c mac)) := by
  by_cases hroom : o + c + 8 ≤ f.packet.length
  · rw [and_iff_right hroom]
    obtain ⟨chksum, hset, hfour, hzero⟩ := @setLinkAddr_eq f.packet o c mac f.head ho hc heven hroom
      (f.msgLen o) (toNat_msgLen ho hle).2
    have hchecked (h4 : ¬ 4 ∣ f.packet.length - o) (h : Checked f.packet o) :=
      @checked_zero_iff f.packet o c mac ho hc heven hroom h
    constructor
    · rintro ⟨out, hout, -, hkeeps⟩
      obtain rfl : readdressed f.packet o c mac chksum = out :=
        List.append_cancel_left (Option.some.inj (hset.symm.trans hout))
      by_cases h4 : 4 ∣ f.packet.length - o
      · exact .inl h4
      · refine .inr fun h => (hchecked h4 h).mp ?_
        rw [← hzero h4]
        exact hkeeps h
    · intro hsum
      refine ⟨_, hset, .inr ⟨c, chksum, hlink hroom, rfl⟩, fun h => ?_⟩
      by_cases h4 : 4 ∣ f.packet.length - o
      · exact hfour h4
      · rw [hzero h4]
        exact (hchecked h4 h).mpr (hsum.resolve_left h4 h)
  · refine iff_of_false ?_ fun h => hroom h.1
    rintro ⟨out, hout, -⟩
    cases (setLinkAddr_past f.head (not_le.mp hroom) (f.msgLen o)).symm.trans hout

theorem handle_iff (ho : IPV6_HDR_LEN ≤ o) :
    (∃ out, (ICMPv6_Handle_Tx w f.bytes f.head.length mac o).map outgoing = some (f.head ++ out) ∧
      Fine f.packet o mac out) ↔ MessageInside f.packet o mac := by
  have hkeep : Fine f.packet o mac f.packet := ⟨.inl rfl, id⟩
  cases htype : f.packet[o]? with
  | none =>
    refine iff_of_false ?_ ?_
    · rintro ⟨out, h, -⟩
      simp only [ICMPv6_Handle_Tx, drop_head, f.payloadLen, htype, Option.bind_eq_bind,
        Option.bind_some, Option.bind_none, Option.map_none] at h
      cases h
    · rintro ⟨type, h, -⟩
      cases htype.symm.trans h
  | some type =>
    have hle : o ≤ f.packet.length := (List.getElem?_eq_some_iff.mp htype).1.le
    by_cases hkept : optionOf type = none ∨
        IS_UNSPECIFIED_IPV6_ADDR ((f.packet.drop 8).take 16) = true
    · refine iff_of_true ⟨f.packet, handle_kept htype hkept, hkeep⟩ ⟨type, htype, ?_⟩
      intro fixedLen option hopt hspec
      rcases hkept with hnone | hunspec
      · cases hnone.symm.trans hopt
      · cases hunspec.symm.trans hspec
    · obtain ⟨hsome, hunspec⟩ := not_or.mp hkept
      obtain ⟨⟨fixedLen, option⟩, hopt⟩ := Option.ne_none_iff_exists'.mp hsome
      have hspec := Bool.eq_false_of_not_eq_true hunspec
      have hwalk {r : Option Nat} := @findOption_msgLen f o fixedLen type option ho hle hopt r
      rw [handle_eq htype hopt hspec]
      match hfind : findOption option f.packet (o + fixedLen) (f.msgLen o) with
      | none =>
        refine iff_of_false ?_ ?_
        · rintro ⟨out, h, -⟩
          cases h
        · rintro ⟨type', htype', h⟩
          obtain rfl : type = type' := Option.some.inj (htype.symm.trans htype')
          obtain ⟨r, hr, -⟩ := h fixedLen option hopt hspec
          cases hfind.symm.trans (hwalk.mpr hr)
      | some none =>
        have hnone := (@hwalk none).mp hfind
        refine iff_of_true ⟨f.packet, rfl, hkeep⟩ ?_
        rw [messageInside_iff ho htype hopt hspec hnone]
        nofun
      | some (some pSrcMac) =>
        obtain ⟨hmin, hmax, heven⟩ := optionOf_fixedLen hopt
        have hsrc := offset_le_of_findOption hfind
        obtain ⟨c, rfl⟩ : ∃ c, pSrcMac = o + c + 2 := ⟨pSrcMac - o - 2, by omega⟩
        have hsome := (@hwalk (some c)).mp hfind
        obtain ⟨hle', heven'⟩ := hsome.bounds rfl heven
        have hlink (hroom : o + c + 8 ≤ f.packet.length) : LinkOption f.packet o c :=
          ⟨type, fixedLen, option, htype, hopt, hsome, hroom⟩
        rw [messageInside_iff ho htype hopt hspec hsome]
        refine Iff.trans (setLinkAddr_iff ho hle (by omega) heven' hlink) ?_
        constructor
        · rintro h c' hc'
          cases hc'
          exact h
        · intro h
          exact h c rfl

theorem macAt_some {pkt : Packet} {i : Nat} (h : i + 6 ≤ pkt.length) : ∃ mac', macAt pkt i = some mac' := by
  rw [macAt]
  have hlen : 6 ≤ (pkt.drop i).length := by
    rw [List.length_drop]
    omega
  generalize pkt.drop i = l at hlen ⊢
  rcases l with _ | ⟨a, _ | ⟨b, _ | ⟨c, _ | ⟨d, _ | ⟨e, _ | ⟨f, _⟩⟩⟩⟩⟩⟩
  case cons.cons.cons.cons.cons.cons => exact ⟨_, rfl⟩
  all_goals simp at hlen

theorem getElem?_nextHdr (f : Ipv6Frame) : f.packet[6]? = some (f.packet.getD 6 0) := by
  have hmin := f.length_packet
  have hlen : 6 < f.packet.length := by
    unfold IPV6_HDR_LEN at hmin
    omega
  rw [List.getElem?_eq_getElem hlen, List.getD_eq_getElem f.packet 0 hlen]

theorem ipv6Tx_eq (w : Sharing) (f : Ipv6Frame) (mac : Mac) : ∃ update,
    MATProto_IPv6_Tx w f.bytes f.head.length mac =
      (extHdrLoop f.packet (f.packet.getD 6 0) IPV6_HDR_LEN).bind fun next =>
        if next.1 = IPV6_NEXT_HEADER_ICMPV6 then
          (ICMPv6_Handle_Tx w f.bytes f.head.length mac next.2).map (update, ·)
        else some (update, f.bytes, none) := by
  have hhead : 14 ≤ f.head.length := by
    rw [f.length_head]
    split <;> decide
  obtain ⟨pSrcMac, hsrc⟩ := @macAt_some f.bytes 6 (by
    rw [Ipv6Frame.bytes, List.length_append]
    omega)
  refine ⟨if needUpdateIPv6MacTB pSrcMac ((f.packet.drop 8).take 16) then
    some (pSrcMac, (f.packet.drop 8).take 16) else none, ?_⟩
  simp only [MATProto_IPv6_Tx, hsrc, drop_head, slice_srcAddr, getElem?_nextHdr, Option.bind_eq_bind,
    Option.bind_some]

theorem isMessage_iff (h : HeaderChain f.packet (f.packet.getD 6 0) IPV6_HDR_LEN r) :
    IsMessage f.packet o ↔ r = some o := by
  constructor
  · rintro ⟨first, hfirst, ho⟩
    cases (getElem?_nextHdr f).symm.trans hfirst
    exact h.unique ho
  · rintro rfl
    exact ⟨_, getElem?_nextHdr f, h⟩

theorem packetInside_iff (h : HeaderChain f.packet (f.packet.getD 6 0) IPV6_HDR_LEN r) :
    PacketInside f.packet mac ↔ ∀ o, r = some o → MessageInside f.packet o mac := by
  constructor
  · rintro ⟨first, r', hfirst, hr', hinside⟩
    cases (getElem?_nextHdr f).symm.trans hfirst
    rw [h.unique hr']
    exact hinside
  · intro hinside
    exact ⟨_, r, getElem?_nextHdr f, h, hinside⟩

theorem forwarded_message (hloop : extHdrLoop f.packet (f.packet.getD 6 0) IPV6_HDR_LEN =
    some (IPV6_NEXT_HEADER_ICMPV6, o)) :
    Forwarded w f mac ↔ ∃ out,
      (ICMPv6_Handle_Tx w f.bytes f.head.length mac o).map outgoing = some (f.head ++ out) ∧
        Fine f.packet o mac out := by
  have hway : HeaderChain f.packet (f.packet.getD 6 0) IPV6_HDR_LEN (some o) :=
    chain_of_extHdrLoop hloop
  have hone {o' : Nat} (h : IsMessage f.packet o') : o' = o :=
    (Option.some.inj ((isMessage_iff hway).mp h)).symm
  obtain ⟨update, hrun⟩ := ipv6Tx_eq w f mac
  rw [hloop, Option.bind_some, if_pos rfl] at hrun
  constructor
  · rintro ⟨r, out, hr, hout, hkind, hchecked⟩
    obtain ⟨r', hr', rfl⟩ := Option.map_eq_some_iff.mp (hrun.symm.trans hr)
    refine ⟨out, ?_, ?_, hchecked o ((isMessage_iff hway).mpr rfl)⟩
    · rw [hr']
      exact congrArg some hout
    · rcases hkind with hsame | ⟨o', c, chksum, hmessage, hlink, hout'⟩
      · exact .inl hsame
      · rw [hone hmessage] at hlink hout'
        exact .inr ⟨c, chksum, hlink, hout'⟩
  · rintro ⟨out, hout, hkind, hchecked⟩
    obtain ⟨r', hr', hout⟩ := Option.map_eq_some_iff.mp hout
    refine ⟨(update, r'), out, ?_, hout, ?_, ?_⟩
    · rw [hrun, hr']
      rfl
    · rcases hkind with hsame | ⟨c, chksum, hlink, hout'⟩
      · exact .inl hsame
      · exact .inr ⟨o, c, chksum, (isMessage_iff hway).mpr rfl, hlink, hout'⟩
    · intro o' hmessage h
      rw [hone hmessage] at h ⊢
      exact hchecked h

/-- `MATProto_IPv6_Tx` reads and writes only what is inside of the packet, and changes nothing but the
address of the link-layer option and the checksum, which still verifies, exactly when the headers, the
options and the address that it comes to are inside, and the length of the message is a multiple of
four or its zeroed checksum verifies. -/
theorem matProto_IPv6_Tx_iff (w : Sharing) (f : Ipv6Frame) (mac : Mac) :
    Forwarded w f mac ↔ PacketInside f.packet mac := by
  obtain ⟨update, hrun⟩ := ipv6Tx_eq w f mac
  cases hloop : extHdrLoop f.packet (f.packet.getD 6 0) IPV6_HDR_LEN with
  | none =>
    rw [hloop, Option.bind_none] at hrun
    refine iff_of_false ?_ ?_
    · rintro ⟨r, out, h, -⟩
      cases hrun.symm.trans h
    · rintro ⟨first, r, hfirst, hr, -⟩
      cases (getElem?_nextHdr f).symm.trans hfirst
      obtain ⟨next, hsome, -⟩ := extHdrLoop_of_chain hr
      cases hloop.symm.trans hsome
  | some next =>
    obtain ⟨nextProtocol, o⟩ := next
    have hway := chain_of_extHdrLoop hloop
    rw [packetInside_iff hway, messageAt]
    by_cases hicmp : nextProtocol = IPV6_NEXT_HEADER_ICMPV6
    · subst hicmp
      have ho : IPV6_HDR_LEN ≤ o := hway.le rfl
      rw [forwarded_message hloop, handle_iff ho, if_pos rfl]
      constructor
      · rintro h o' ho'
        cases ho'
        exact h
      · intro h
        exact h o rfl
    · rw [hloop, Option.bind_some, if_neg hicmp] at hrun
      rw [messageAt, if_neg hicmp] at hway
      rw [if_neg hicmp]
      refine iff_of_true ⟨_, f.packet, hrun, rfl, .inl rfl, fun o' hmessage _ => ?_⟩ nofun
      cases (isMessage_iff hway).mp hmessage

end Handlers

/-- A neighbour advertisement without options, from `fe80::1` to all nodes. -/
def bareAdvertisement : Ipv6Frame where
  head := [0x33, 0x33, 0, 0, 0, 1, 2, 0, 0, 0, 0, 1, 0x86, 0xdd]
  packet := [0x60, 0, 0, 0, 0, 24, IPV6_NEXT_HEADER_ICMPV6, 255] ++
    ([0xfe, 0x80] ++ List.replicate 13 0 ++ [1]) ++ ([0xff, 0x02] ++ List.replicate 13 0 ++ [1]) ++
      [ICMPV6_MSG_TYPE_NEIGHBOR_ADVERTISEMENT, 0, 0, 0, 0x20, 0, 0, 0] ++
        ([0xfe, 0x80] ++ List.replicate 13 0 ++ [1])
  length_head := by decide
  length_packet := by decide
  payloadLen := by decide

/-- Behind the target address the walk over the options goes on outside of the packet. -/
theorem bareAdvertisement_not_forwarded :
    ¬ Forwarded ⟨false, true⟩ bareAdvertisement #v[2, 0, 0, 0, 0, 9] := by
  have hloop : extHdrLoop bareAdvertisement.packet (bareAdvertisement.packet.getD 6 0)
      IPV6_HDR_LEN = some (IPV6_NEXT_HEADER_ICMPV6, IPV6_HDR_LEN) := by
    rw [extHdrLoop, if_neg (by decide)]
    rfl
  rw [forwarded_message hloop, handle_iff (le_refl _)]
  rintro ⟨type, htype, h⟩
  obtain rfl : ICMPV6_MSG_TYPE_NEIGHBOR_ADVERTISEMENT = type := Option.some.inj htype
  obtain ⟨r, hwalk, -⟩ := h 24 TYPE_TGT_LL_ADDR rfl (by decide)
  have hlen : (bareAdvertisement.packet.drop IPV6_HDR_LEN).length = 24 := by decide
  rcases hwalk with ⟨hin, _, _⟩ | ⟨hin, _⟩ | ⟨_, hge⟩ | ⟨hin, _, _, _⟩ <;> omega

end Ralink.Mat
