import Ralink.Lib.BitReg
import Ralink.HwNat.Parse

/-! An entry is a row of words that several structures of `foe_fdb.h` lie over. A field is a part of
a word, and two fields of different structures may share it. -/
namespace Ralink.HwNat
open Function

/-- The words of `struct FoeEntry`. -/
abbrev FoeWords := Nat → BitVec 32

structure BitField where
  word : Nat
  off : Nat
  len : Nat
  deriving DecidableEq

namespace BitField

def get (b : BitField) (e : FoeWords) : Nat := (BitReg.field (e b.word) b.off b.len).toNat

def set (b : BitField) (v : Nat) (e : FoeWords) : FoeWords :=
  update e b.word (BitReg.modifyBits (e b.word) (BitVec.ofNat 32 v) b.off b.len)

def Apart (a b : BitField) : Prop :=
  a.word ≠ b.word ∨ b.off + b.len ≤ a.off ∨ a.off + a.len ≤ b.off

instance (a b : BitField) : Decidable (Apart a b) := inferInstanceAs (Decidable (_ ∨ _))

variable {a b : BitField} {v : Nat} {e : FoeWords}

theorem get_set (h : b.off + b.len ≤ 32) : b.get (b.set v e) = v % 2 ^ b.len := by
  have hdvd : 2 ^ b.len ∣ 2 ^ 32 := Nat.pow_dvd_pow 2 (by omega)
  rw [get, set, update_self, BitReg.field_modifyBits _ _ h, BitVec.toNat_setWidth, BitVec.toNat_ofNat,
    Nat.mod_mod_of_dvd _ hdvd]

@[simp] theorem set_of_ne {w : Nat} (h : w ≠ b.word) : b.set v e w = e w := update_of_ne h _ _

theorem get_set_of_apart (h : a.Apart b) : b.get (a.set v e) = b.get e := by
  by_cases hword : a.word = b.word
  · rcases h with h | h
    · exact absurd hword h
    · rw [get, get, set, ← hword, update_self, BitReg.field_modifyBits_of_disjoint _ _ h]
  · rw [get, get, set_of_ne (Ne.symm hword)]

end BitField

/-- Fields and the values they are set to, in their order. -/
def assign (ws : List (BitField × Nat)) (e : FoeWords) : FoeWords :=
  ws.foldl (fun e w => w.1.set w.2 e) e

section Assign

variable {ws : List (BitField × Nat)} {b : BitField} {e : FoeWords}

theorem assign_append {ws' : List (BitField × Nat)} :
    assign (ws ++ ws') e = assign ws' (assign ws e) := List.foldl_append

theorem get_assign (h : ∀ x ∈ ws, x.1.Apart b) : b.get (assign ws e) = b.get e := by
  induction ws generalizing e with
  | nil => rfl
  | cons x ws ih =>
    obtain ⟨hx, hws⟩ := List.forall_mem_cons.mp h
    exact (ih hws).trans (BitField.get_set_of_apart hx)

theorem assign_word {w : Nat} (h : ∀ x ∈ ws, x.1.word ≠ w) : assign ws e w = e w := by
  induction ws generalizing e with
  | nil => rfl
  | cons x ws ih =>
    obtain ⟨hx, hws⟩ := List.forall_mem_cons.mp h
    exact (ih hws).trans (BitField.set_of_ne (Ne.symm hx))

end Assign

section Layouts

variable (cfg : TxBuild)

/-! `bf_info_blk1`. -/

def timeStampField : BitField := ⟨0, 0, if cfg.hnatV2 then 15 else 16⟩
def v1Field : BitField := ⟨0, 16, 2⟩
def v2Field : BitField := ⟨0, 18, 2⟩
def pppoeField : BitField := ⟨0, 22, 2⟩
def vlanLayerField : BitField := ⟨0, 16, 3⟩
def psnField : BitField := ⟨0, 19, 1⟩
def dvpField : BitField := ⟨0, 20, 1⟩
def drmField : BitField := ⟨0, 21, 1⟩
def cahField : BitField := ⟨0, 22, 1⟩
def rmtField : BitField := ⟨0, 23, 1⟩
def ttlField : BitField := ⟨0, 24, 1⟩
def pktTypeField : BitField := if cfg.hnatV2 then ⟨0, 25, 3⟩ else ⟨0, 26, 2⟩
def stateField : BitField := ⟨0, 28, 2⟩
def udpField : BitField := ⟨0, 30, 1⟩

/-- `udib1.preb`, in the place of `bfib1.ttl`. -/
def prebField : BitField := ⟨0, 24, 1⟩

/-! `_info_blk2` is the word 4 of an IPv4 entry and, with `CONFIG_HNAT_V2`, 14 of an IPv6 entry. -/

def dpField (word : Nat) : BitField := if cfg.hnatV2 then ⟨word, 5, 3⟩ else ⟨word, 1, 3⟩
def fdField : BitField := ⟨4, 0, 1⟩
def fpidxField (word : Nat) : BitField := ⟨word, 0, 4⟩
def fpField : BitField := ⟨4, 4, 1⟩
def upField : BitField := ⟨4, 5, 3⟩
def portMgField (word : Nat) : BitField := ⟨word, 12, 6⟩
def portAgField (word : Nat) : BitField := ⟨word, 18, 6⟩
def dscpField (word : Nat) : BitField := ⟨word, 24, 8⟩

/-- `vlan1` of `ipv4_hnapt`. -/
def vlan1Field : BitField := if cfg.hnatV2 then ⟨11, 0, 16⟩ else ⟨8, 16, 16⟩

/-- `vlan1` of the IPv6 structures and of `ipv4_dslite`. -/
def vlan1Field6 : BitField := ⟨15, 0, 16⟩

end Layouts

/-! `enum FoeEntryState`. -/

def STATE_BIND : Nat := 2

def FoeIPAct.code : FoeIPAct → Nat
  | .IPV4_HNAPT => 0
  | .IPV4_HNAT => 1
  | .IPV6_1T_ROUTE => 2
  | .IPV4_DSLITE => 3
  | .IPV6_3T_ROUTE => 4
  | .IPV6_5T_ROUTE => 5
  | .IPV6_6RD => 7

section Groups

variable (cfg : TxBuild) (e : FoeWords)

def hasType (t : FoeIPAct) : Bool := (pktTypeField cfg).get e = t.code

def IS_IPV4_GRP : Bool := hasType cfg e .IPV4_HNAPT || hasType cfg e .IPV4_HNAT

def IS_IPV6_GRP : Bool :=
  hasType cfg e .IPV6_1T_ROUTE || hasType cfg e .IPV6_3T_ROUTE || hasType cfg e .IPV6_5T_ROUTE ||
    hasType cfg e .IPV6_6RD || hasType cfg e .IPV4_DSLITE

end Groups

theorem not_ipv4_of_ipv6 {cfg : TxBuild} {e : FoeWords} (h : IS_IPV6_GRP cfg e = true) :
    IS_IPV4_GRP cfg e = false := by
  simp only [IS_IPV6_GRP, IS_IPV4_GRP, hasType, Bool.or_eq_true, decide_eq_true_eq,
    Bool.or_eq_false_iff, decide_eq_false_iff_not] at h ⊢
  rcases h with (((h | h) | h) | h) | h <;> rw [h] <;> decide

end Ralink.HwNat

/-! Flows towards the LAN, flows towards the WAN and flows of a third VLAN are sent to ports of
their own, and `bind_dir` tells in which direction flows are bound at all. The choice is written
twice, for the two layouts of an entry. -/
namespace Ralink.HwNat
open Function

def UPSTREAM_ONLY : Nat := 0
def DOWNSTREAM_ONLY : Nat := 1
def BIDIRECTION : Nat := 2
def VLAN_VID_MASK : Nat := 0x0FFF

structure HnatVars where
  bind_dir : Nat
  lan_vid : Nat
  wan_vid : Nat
  DstPort : Nat → Option NetDev

/-- The names that begin with "ra", "wds", "mesh" or "apcli". -/
def NetDev.isWireless : NetDev → Bool
  | .ra _ | .rai _ | .wds _ | .mesh0 | .meshi0 | .apcli0 | .apclii0 => true
  | .eth _ | .other _ => false

/-- The second port; `CONFIG_RAETH_GMAC2` depends on one of these chips. -/
def TxBuild.gmac2 (cfg : TxBuild) : Bool :=
  cfg.ext.gmac2 && (cfg.chip = .RT3883 || cfg.chip = .MT7621)

section ForcePort

variable (cfg : TxBuild) (v : HnatVars)

def PpeSetInfoBlk2 (word fpidx port_mg port_ag : Nat) (e : FoeWords) : FoeWords :=
  let e :=
    if cfg.chip = .MT7621 then
      if fpidx = 8 ∧ port_ag = 1 then (dpField cfg word).set 1 e
      else if fpidx = 8 ∧ port_ag = 2 then (dpField cfg word).set 2 e
      else (dpField cfg word).set 0 e
    else if cfg.chip = .MT7620 then (fpidxField word).set fpidx e
    else e
  (portAgField word).set port_ag ((portMgField word).set port_mg e)

def cpuServed (dev : NetDev) : Bool := dev.isWireless || v.DstPort DP_PCI = some dev

def bindsDown : Bool := v.bind_dir = DOWNSTREAM_ONLY || v.bind_dir = BIDIRECTION

def bindsUp : Bool := v.bind_dir = UPSTREAM_ONLY || v.bind_dir = BIDIRECTION

/-- The entry with a port when the direction is bound, and refused when not. -/
def bindIf (binds : Bool) (port : FoeWords → FoeWords) (e : FoeWords) : Except FoeWords FoeWords :=
  if binds then .ok (port e) else .error e

/-- No port is forced for a multicast flow, and the CPU for any other. -/
def cpuFpidx (r : PktParseResult) : Nat := if r.is_mcast then 8 else 6

def forceCpu (r : PktParseResult) (e : FoeWords) : Except FoeWords FoeWords :=
  if cfg.ext.hwNatWifi ∨ cfg.ext.hwNatPci then
    if cfg.chip = .MT7620 then
      if IS_IPV4_GRP cfg e then .ok (PpeSetInfoBlk2 cfg 4 (cpuFpidx r) 0x3F 0x3F e)
      else if cfg.ipv6 ∧ IS_IPV6_GRP cfg e then
        .ok (PpeSetInfoBlk2 cfg 14 (cpuFpidx r) 0x3F 0x3F e)
      else .ok e
    else .ok ((dpField cfg 4).set 0 e)
  else .error e

def gmacPort (port : Nat) (e : FoeWords) : FoeWords :=
  if cfg.chip = .MT7621 then
    if IS_IPV4_GRP cfg e then PpeSetInfoBlk2 cfg 4 8 0x3F port e
    else if IS_IPV6_GRP cfg e then PpeSetInfoBlk2 cfg 14 8 0x3F port e
    else e
  else (dpField cfg 4).set port e

def forceGmac2 (gmac_no : Nat) (e : FoeWords) : Except FoeWords FoeWords :=
  if gmac_no = 1 then bindIf (bindsDown v) (gmacPort cfg 1) e
  else if gmac_no = 2 then bindIf (bindsUp v) (gmacPort cfg 2) e
  else .ok e

def vlanVid (field : BitField) (e : FoeWords) : Nat := field.get e &&& VLAN_VID_MASK

def forceOnePort (e : FoeWords) : Except FoeWords FoeWords :=
  if vlanVid (vlan1Field cfg) e = v.lan_vid then bindIf (bindsDown v) ((dpField cfg 4).set 1) e
  else if vlanVid (vlan1Field cfg) e = v.wan_vid then bindIf (bindsUp v) ((dpField cfg 4).set 1) e
  else .ok e

def forceIpv4Grp (e : FoeWords) : Except FoeWords FoeWords :=
  if vlanVid (vlan1Field cfg) e = v.lan_vid then
    bindIf (bindsDown v) (PpeSetInfoBlk2 cfg 4 8 0x3F 2) e
  else if vlanVid (vlan1Field cfg) e = v.wan_vid then
    bindIf (bindsUp v) (PpeSetInfoBlk2 cfg 4 8 0x3F 1) e
  else .ok (PpeSetInfoBlk2 cfg 4 8 0x3F 1 e)

/-- Both comparisons are with `wan_vid`. -/
def forceIpv6Grp (e : FoeWords) : Except FoeWords FoeWords :=
  if vlanVid vlan1Field6 e = v.wan_vid then
    bindIf (bindsDown v) (PpeSetInfoBlk2 cfg 14 8 0x3F 2) e
  else if vlanVid vlan1Field6 e = v.wan_vid then
    bindIf (bindsUp v) (PpeSetInfoBlk2 cfg 14 8 0x3F 1) e
  else .ok (PpeSetInfoBlk2 cfg 14 8 0x3F 1 e)

def forceTwoPorts (e : FoeWords) : Except FoeWords FoeWords :=
  if vlanVid (vlan1Field cfg) e = v.lan_vid then bindIf (bindsDown v) ((dpField cfg 4).set 1) e
  else if vlanVid (vlan1Field cfg) e = v.wan_vid then bindIf (bindsUp v) ((dpField cfg 4).set 2) e
  else .ok ((dpField cfg 4).set 1 e)

/-- The entry as it is left when 0 is returned, or, as an error, when 1 is. -/
def PpeSetForcePortInfo (dev : NetDev) (r : PktParseResult) (gmac_no : Nat) (e : FoeWords) :
    Except FoeWords FoeWords :=
  let e := if cfg.hnatV2 then e else fdField.set 1 e
  if cpuServed v dev then forceCpu cfg r e
  else if cfg.gmac2 then forceGmac2 cfg v gmac_no e
  else if cfg.chip = .RT2880 ∨ cfg.chip = .RT3883 then forceOnePort cfg v e
  else if cfg.hnatV2 then
    if IS_IPV4_GRP cfg e then forceIpv4Grp cfg v e
    else if cfg.ipv6 ∧ IS_IPV6_GRP cfg e then forceIpv6Grp cfg v e
    else .ok e
  else forceTwoPorts cfg v e

end ForcePort

/-- The same flow in the two layouts. -/
structure Alike (cfg : TxBuild) (e₄ e₆ : FoeWords) : Prop where
  ipv4 : IS_IPV4_GRP cfg e₄ = true
  ipv6 : IS_IPV6_GRP cfg e₆ = true
  vlan : vlanVid (vlan1Field cfg) e₄ = vlanVid vlan1Field6 e₆
  blk2 : e₄ 4 = e₆ 14

/-- Both are refused, or both are bound to the same port group. -/
def SameChoice : Except FoeWords FoeWords → Except FoeWords FoeWords → Prop
  | .ok e₄, .ok e₆ => (portMgField 4).get e₄ = (portMgField 14).get e₆ ∧
      (portAgField 4).get e₄ = (portAgField 14).get e₆
  | .error _, .error _ => True
  | _, _ => False

section Copies

variable {cfg : TxBuild} {v : HnatVars} {dev : NetDev} {r : PktParseResult} {gmac_no : Nat}
  {e e₄ e₆ : FoeWords} (word fpidx port_mg port_ag : Nat)

theorem portMg_setInfoBlk2 :
    (portMgField word).get (PpeSetInfoBlk2 cfg word fpidx port_mg port_ag e) = port_mg % 2 ^ 6 := by
  have hapart : (portAgField word).Apart (portMgField word) := Or.inr (Or.inl (Nat.le_refl 18))
  rw [PpeSetInfoBlk2, BitField.get_set_of_apart hapart]
  exact BitField.get_set (show 12 + 6 ≤ 32 by decide)

theorem portAg_setInfoBlk2 :
    (portAgField word).get (PpeSetInfoBlk2 cfg word fpidx port_mg port_ag e) = port_ag % 2 ^ 6 :=
  BitField.get_set (show 18 + 6 ≤ 32 by decide)

theorem sameChoice_setInfoBlk2 {fpidx port_mg port_ag port_ag' : Nat} :
    SameChoice (.ok (PpeSetInfoBlk2 cfg 4 fpidx port_mg port_ag e₄))
      (.ok (PpeSetInfoBlk2 cfg 14 fpidx port_mg port_ag' e₆)) ↔
        port_ag % 2 ^ 6 = port_ag' % 2 ^ 6 := by
  rw [SameChoice, portMg_setInfoBlk2, portMg_setInfoBlk2, portAg_setInfoBlk2, portAg_setInfoBlk2]
  exact and_iff_right rfl

theorem sameChoice_blk2 (h : e₄ 4 = e₆ 14) : SameChoice (.ok e₄) (.ok e₆) := by
  constructor
  · rw [BitField.get, BitField.get, portMgField, portMgField, h]
  · rw [BitField.get, BitField.get, portAgField, portAgField, h]

/-- The choice does not depend on the VLAN, or the VLAN is neither the one of the LAN nor, unless no
direction is bound, the one of the WAN. -/
def ChoiceShared (cfg : TxBuild) (v : HnatVars) (dev : NetDev) (vlan : Nat) : Prop :=
  cpuServed v dev = true ∨ cfg.gmac2 = true ∨
    (vlan ≠ v.lan_vid ∧ (vlan = v.wan_vid → bindsDown v = false ∧ bindsUp v = false))

theorem forceCpu_same (hV2 : cfg.hnatV2 = true) (hipv6 : cfg.ipv6 = true) (h : Alike cfg e₄ e₆) :
    SameChoice (forceCpu cfg r e₄) (forceCpu cfg r e₆) := by
  have hnot : ¬ IS_IPV4_GRP cfg e₆ = true := by
    rw [not_ipv4_of_ipv6 h.ipv6]
    simp
  rw [forceCpu, forceCpu]
  by_cases hext : cfg.ext.hwNatWifi ∨ cfg.ext.hwNatPci
  · rw [if_pos hext, if_pos hext]
    by_cases hchip : cfg.chip = .MT7620
    · rw [if_pos hchip, if_pos hchip, if_pos h.ipv4, if_neg hnot,
        if_pos ⟨hipv6, h.ipv6⟩]
      exact sameChoice_setInfoBlk2.mpr rfl
    · rw [if_neg hchip, if_neg hchip]
      -- the destination port is in the block of an IPv4 entry, whatever the entry is
      have hfield : dpField cfg 4 = ⟨4, 5, 3⟩ := by rw [dpField, hV2]; rfl
      rw [hfield]
      have hmg : (⟨4, 5, 3⟩ : BitField).Apart (portMgField 4) := by decide
      have hag : (⟨4, 5, 3⟩ : BitField).Apart (portAgField 4) := by decide
      have hother : (⟨4, 5, 3⟩ : BitField).Apart (portMgField 14) := by decide
      have hother' : (⟨4, 5, 3⟩ : BitField).Apart (portAgField 14) := by decide
      have hblk := sameChoice_blk2 h.blk2
      rw [SameChoice, BitField.get_set_of_apart hmg, BitField.get_set_of_apart hag,
        BitField.get_set_of_apart hother, BitField.get_set_of_apart hother']
      exact hblk
  · rw [if_neg hext, if_neg hext]
    trivial

theorem gmac2_chip (hV2 : cfg.hnatV2 = true) (hgmac : cfg.gmac2 = true) : cfg.chip = .MT7621 := by
  rw [TxBuild.gmac2] at hgmac
  rw [TxBuild.hnatV2] at hV2
  cases hchip : cfg.chip <;> rw [hchip] at hgmac hV2 <;> simp at hgmac hV2 ⊢

theorem forceGmac2_same (hV2 : cfg.hnatV2 = true) (hgmac : cfg.gmac2 = true) (h : Alike cfg e₄ e₆) :
    SameChoice (forceGmac2 cfg v gmac_no e₄) (forceGmac2 cfg v gmac_no e₆) := by
  have hchip := gmac2_chip hV2 hgmac
  have hnot : ¬ IS_IPV4_GRP cfg e₆ = true := by
    rw [not_ipv4_of_ipv6 h.ipv6]
    simp
  have hport (port : Nat) : SameChoice (.ok (gmacPort cfg port e₄)) (.ok (gmacPort cfg port e₆)) := by
    rw [gmacPort, gmacPort, if_pos hchip, if_pos hchip, if_pos h.ipv4, if_neg hnot,
      if_pos h.ipv6]
    exact sameChoice_setInfoBlk2.mpr rfl
  have hbind (binds : Bool) (port : Nat) :
      SameChoice (bindIf binds (gmacPort cfg port) e₄) (bindIf binds (gmacPort cfg port) e₆) := by
    cases binds with
    | false => trivial
    | true => exact hport port
  rw [forceGmac2, forceGmac2]
  split
  · exact hbind _ _
  · split
    · exact hbind _ _
    · exact sameChoice_blk2 h.blk2

theorem forceGrp_same_iff (hne : v.lan_vid ≠ v.wan_vid) (h : Alike cfg e₄ e₆) :
    SameChoice (forceIpv4Grp cfg v e₄) (forceIpv6Grp cfg v e₆) ↔
      vlanVid (vlan1Field cfg) e₄ ≠ v.lan_vid ∧
        (vlanVid (vlan1Field cfg) e₄ = v.wan_vid → bindsDown v = false ∧ bindsUp v = false) := by
  rw [forceIpv4Grp, forceIpv6Grp, ← h.vlan]
  generalize vlanVid (vlan1Field cfg) e₄ = vlan
  have hgroups : ¬ 2 % 2 ^ 6 = 1 % 2 ^ 6 := by decide
  by_cases hlan : vlan = v.lan_vid
  · have hwan : vlan ≠ v.wan_vid := hlan ▸ hne
    rw [if_pos hlan, if_neg hwan, if_neg hwan]
    refine iff_of_false ?_ fun hn => hn.1 hlan
    cases hdown : bindsDown v with
    | false => exact id
    | true => exact fun hs => hgroups (sameChoice_setInfoBlk2.mp hs)
  · rw [if_neg hlan]
    by_cases hwan : vlan = v.wan_vid
    · rw [if_pos hwan, if_pos hwan]
      cases hdown : bindsDown v <;> cases hup : bindsUp v
      · exact iff_of_true trivial ⟨hlan, fun _ => ⟨rfl, rfl⟩⟩
      · exact iff_of_false id fun hn => absurd (hn.2 hwan).2 (by decide)
      · exact iff_of_false id fun hn => absurd (hn.2 hwan).1 (by decide)
      · refine iff_of_false ?_ fun hn => absurd (hn.2 hwan).1 (by decide)
        exact fun hs => hgroups (sameChoice_setInfoBlk2.mp hs).symm
    · rw [if_neg hwan, if_neg hwan, if_neg hwan]
      exact iff_of_true (sameChoice_setInfoBlk2.mpr rfl) ⟨hlan, fun hw => absurd hw hwan⟩

/-- Flows of both versions are treated alike exactly when the choice does not depend on the VLAN, or the
VLAN is one that both copies know. -/
theorem PpeSetForcePortInfo_same_iff (cfg : TxBuild) (v : HnatVars) (dev : NetDev)
    (r : PktParseResult) (gmac_no : Nat) (e₄ e₆ : FoeWords) (hV2 : cfg.hnatV2 = true)
    (hipv6 : cfg.ipv6 = true) (hne : v.lan_vid ≠ v.wan_vid) (h : Alike cfg e₄ e₆) :
    SameChoice (PpeSetForcePortInfo cfg v dev r gmac_no e₄)
        (PpeSetForcePortInfo cfg v dev r gmac_no e₆) ↔
      ChoiceShared cfg v dev (vlanVid (vlan1Field cfg) e₄) := by
  have hnot : ¬ IS_IPV4_GRP cfg e₆ = true := by
    rw [not_ipv4_of_ipv6 h.ipv6]
    simp
  have hchip : ¬ (cfg.chip = .RT2880 ∨ cfg.chip = .RT3883) := by
    rw [TxBuild.hnatV2] at hV2
    rintro (hchip | hchip) <;> rw [hchip] at hV2 <;> simp at hV2
  rw [PpeSetForcePortInfo, PpeSetForcePortInfo, ChoiceShared]
  simp only [hV2, if_true]
  by_cases hcpu : cpuServed v dev = true
  · rw [if_pos hcpu, if_pos hcpu]
    exact iff_of_true (forceCpu_same hV2 hipv6 h) (Or.inl hcpu)
  rw [if_neg hcpu, if_neg hcpu]
  by_cases hgmac : cfg.gmac2 = true
  · rw [if_pos hgmac, if_pos hgmac]
    exact iff_of_true (forceGmac2_same hV2 hgmac h) (Or.inr (Or.inl hgmac))
  rw [if_neg hgmac, if_neg hgmac, if_neg hchip, if_neg hchip, if_pos h.ipv4,
    if_neg hnot, if_pos ⟨hipv6, h.ipv6⟩, forceGrp_same_iff hne h]
  constructor
  · exact fun hboth => Or.inr (Or.inr hboth)
  · rintro (hc | hg | hboth)
    · exact absurd hc hcpu
    · exact absurd hg hgmac
    · exact hboth

theorem SameChoice.toBool_eq {x y : Except FoeWords FoeWords} (h : SameChoice x y) :
    x.toBool = y.toBool := by
  cases x <;> cases y
  · rfl
  · exact h.elim
  · exact h.elim
  · rfl

/-- Flows of VLAN `vlan` in the two layouts. -/
def sampleFlow4 (vlan : BitVec 32) : FoeWords := update (fun _ => 0) 11 vlan

def sampleFlow6 (vlan : BitVec 32) : FoeWords :=
  update (update (fun _ => 0) 0 (BitVec.ofNat 32 FoeIPAct.IPV6_5T_ROUTE.code <<< 25)) 15 vlan

def sampleVars (bind_dir : Nat) : HnatVars where
  bind_dir := bind_dir
  lan_vid := 1
  wan_vid := 2
  DstPort _ := none

theorem sampleFlows_alike : Alike { chip := .MT7620, ipv6 := true } (sampleFlow4 3) (sampleFlow6 3) :=
  ⟨by decide, by decide, by decide, rfl⟩

theorem PpeSetForcePortInfo_same_oneArm :
    SameChoice
      (PpeSetForcePortInfo { chip := .MT7620, ipv6 := true } (sampleVars BIDIRECTION) (.eth 2) {} 1
        (sampleFlow4 3))
      (PpeSetForcePortInfo { chip := .MT7620, ipv6 := true } (sampleVars BIDIRECTION) (.eth 2) {} 1
        (sampleFlow6 3)) :=
  (PpeSetForcePortInfo_same_iff { chip := .MT7620, ipv6 := true } (sampleVars BIDIRECTION) (.eth 2) {} 1
    (sampleFlow4 3) (sampleFlow6 3) (by decide) rfl (by decide) sampleFlows_alike).mpr
      (Or.inr (Or.inr ⟨by decide, fun h => absurd h (by decide)⟩))

/-- When only the upstream is bound, a flow towards the LAN is refused, but not if it is of IPv6. -/
theorem PpeSetForcePortInfo_lan_differs :
    Alike { chip := .MT7620, ipv6 := true } (sampleFlow4 1) (sampleFlow6 1) ∧
      (PpeSetForcePortInfo { chip := .MT7620, ipv6 := true } (sampleVars UPSTREAM_ONLY) (.eth 2) {} 1
        (sampleFlow4 1)).toBool = false ∧
      (PpeSetForcePortInfo { chip := .MT7620, ipv6 := true } (sampleVars UPSTREAM_ONLY) (.eth 2) {} 1
        (sampleFlow6 1)).toBool = true ∧
      ¬ SameChoice
        (PpeSetForcePortInfo { chip := .MT7620, ipv6 := true } (sampleVars UPSTREAM_ONLY) (.eth 2) {} 1
          (sampleFlow4 1))
        (PpeSetForcePortInfo { chip := .MT7620, ipv6 := true } (sampleVars UPSTREAM_ONLY) (.eth 2) {} 1
          (sampleFlow6 1)) := by
  have h4 : (PpeSetForcePortInfo { chip := .MT7620, ipv6 := true } (sampleVars UPSTREAM_ONLY) (.eth 2)
      {} 1 (sampleFlow4 1)).toBool = false := by decide
  have h6 : (PpeSetForcePortInfo { chip := .MT7620, ipv6 := true } (sampleVars UPSTREAM_ONLY) (.eth 2)
      {} 1 (sampleFlow6 1)).toBool = true := by decide
  refine ⟨⟨by decide, by decide, by decide, rfl⟩, h4, h6, ?_⟩
  intro h
  have heq := h.toBool_eq
  rw [h4, h6] at heq
  cases heq

end Copies

end Ralink.HwNat
