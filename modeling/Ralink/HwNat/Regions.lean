import Ralink.Lib.Parts
import Ralink.HwNat.AclChain
import Ralink.HwNat.Ioctl

/-! Which entries each engine has, what laying its part anew does to the others, and the checks of
the ioctl handlers against the room that a new rule needs. -/
namespace Ralink.HwNat
open BitReg Function

def Ppe.parts (p : Ppe) : Parts Engine Rule 9 := ⟨p.policyTbl, p.getStr, p.getEnd⟩

structure Laid (p : Ppe) : Prop where
  zero : p.startAddr .preAcl = 0
  start : ∀ e, p.getStr e = (p.startAddr e).setWidth 9

section Hardware

variable {cfg : Build} {p p' : Ppe}

theorem Ppe.getStr_setEnd (p : Ppe) (e e' : Engine) (v : BitVec 32) :
    (p.setEnd e v).getStr e' = p.getStr e' := by
  by_cases h : e' = e
  · subst h
    simp only [Ppe.getStr, Ppe.setEnd, Ppe.regModifyBits, Ppe.regWrite, Ppe.regRead, update_self]
    exact field_modifyBits_of_disjoint _ _ (.inl (by decide))
  · simp [Ppe.getStr, Ppe.setEnd, Ppe.regModifyBits, Ppe.regWrite, Ppe.regRead, h]

theorem Ppe.getEnd_setEnd (p : Ppe) (e : Engine) (v : BitVec 32) :
    (p.setEnd e v).getEnd = update p.getEnd e (v.setWidth 9) := by
  funext e'
  by_cases h : e' = e
  · subst h
    simp only [Ppe.getEnd, Ppe.setEnd, Ppe.regModifyBits, Ppe.regWrite, Ppe.regRead, update_self]
    exact field_modifyBits _ _ (by decide)
  · simp [Ppe.getEnd, Ppe.setEnd, Ppe.regModifyBits, Ppe.regWrite, Ppe.regRead, h]

theorem Ppe.getStr_rstPtr (p : Ppe) (e : Engine) (addr : BitVec 16) :
    (p.rstPtr e addr).getStr = update p.getStr e (addr.setWidth 9) := by
  have hset : p.rstPtr e addr =
      (p.regModifyBits (.part e) (addr.setWidth 32) 0 9).setEnd e (addr.setWidth 32) := rfl
  funext e'
  rw [hset, Ppe.getStr_setEnd]
  by_cases h : e' = e
  · subst h
    simp only [Ppe.getStr, Ppe.regModifyBits, Ppe.regWrite, Ppe.regRead, update_self]
    rw [field_modifyBits _ _ (by decide)]
    simp
  · simp [Ppe.getStr, Ppe.regModifyBits, Ppe.regWrite, Ppe.regRead, h]

theorem Ppe.getEnd_rstPtr (p : Ppe) (e : Engine) (addr : BitVec 16) :
    (p.rstPtr e addr).getEnd = update p.getEnd e (addr.setWidth 9) := by
  have hset : p.rstPtr e addr =
      (p.regModifyBits (.part e) (addr.setWidth 32) 0 9).setEnd e (addr.setWidth 32) := rfl
  rw [hset, Ppe.getEnd_setEnd]
  funext e'
  by_cases h : e' = e
  · subst h
    simp
  · simp [Ppe.getEnd, Ppe.regModifyBits, Ppe.regWrite, Ppe.regRead, h]

theorem Ppe.parts_rstPtr (p : Ppe) (e : Engine) (addr : BitVec 16) :
    (p.rstPtr e addr).parts = p.parts.reset e (addr.setWidth 9) := by
  unfold Ppe.parts Parts.reset
  rw [Ppe.getStr_rstPtr, Ppe.getEnd_rstPtr]
  rfl

theorem Ppe.parts_insEntry (p : Ppe) (e : Engine) (rule : Rule) :
    (p.insEntry e rule).parts = p.parts.append e rule := by
  unfold Ppe.parts Parts.append Ppe.insEntry
  have hnext : (((p.getEnd e).setWidth 32 + 1).setWidth 9 : BitVec 9) = p.getEnd e + 1 := by
    generalize p.getEnd e = v
    bv_omega
  have hindex : ((p.getEnd e).setWidth 32).toNat = (p.getEnd e).toNat := by
    generalize p.getEnd e = v
    bv_omega
  dsimp only
  rw [Ppe.getEnd_setEnd, hnext, hindex]
  congr 1
  funext e'
  exact Ppe.getStr_setEnd _ e e' _

theorem Ppe.parts_insEntries (p : Ppe) (e : Engine) (rules : List Rule) :
    (p.insEntries e rules).parts = p.parts.appendAll (rules.map (e, ·)) := by
  induction rules generalizing p with
  | nil => rfl
  | cons rule rules ih =>
    refine (ih (p.insEntry e rule)).trans ?_
    rw [Ppe.parts_insEntry]
    rfl

theorem Ppe.startAddr_insEntry (p : Ppe) (e : Engine) (rule : Rule) :
    (p.insEntry e rule).startAddr = p.startAddr := rfl

theorem Ppe.startAddr_insEntries (p : Ppe) (e : Engine) (rules : List Rule) :
    (p.insEntries e rules).startAddr = p.startAddr := by
  induction rules generalizing p with
  | nil => rfl
  | cons rule rules ih => exact ih (p.insEntry e rule)

theorem Laid.congr (h : Laid p) (hstart : p'.parts.start = p.parts.start)
    (haddr : p'.startAddr = p.startAddr) : Laid p' := by
  refine ⟨by rw [haddr, h.zero], fun e => ?_⟩
  have := congrFun hstart e
  rw [haddr, ← h.start e]
  exact this

theorem Ppe.parts_regWrite (p : Ppe) {r : Reg} (hr : ∀ e, r ≠ .part e) (v : BitVec 32) :
    (p.regWrite r v).parts = p.parts := by
  have hreg : ∀ e, (p.regWrite r v).regRead (.part e) = p.regRead (.part e) := fun e =>
    update_of_ne (hr e).symm _ _
  unfold Ppe.parts
  congr 1
  · funext e
    rw [Ppe.getStr, hreg]
    rfl
  · funext e
    rw [Ppe.getEnd, hreg]
    rfl

theorem parts_setEbl (cfg : Build) (p : Ppe) (ebl : Bool) (e : Engine) (start stop : Ppe → Ppe) :
    (setEbl cfg p ebl e start stop).parts = (if ebl then start p else stop p).parts := by
  cases ebl <;> exact Ppe.parts_regWrite _ (by simp) _

theorem startAddr_setEbl (cfg : Build) (p : Ppe) (ebl : Bool) (e : Engine)
    (start stop : Ppe → Ppe) :
    (setEbl cfg p ebl e start stop).startAddr = (if ebl then start p else stop p).startAddr := by
  cases ebl <;> rfl

theorem parts_polCfg (p : Ppe) (prd flag : BitVec 32) (bit : Nat) :
    (polCfg p prd flag bit).parts = p.parts :=
  (Ppe.parts_regWrite _ (by simp) _).trans (Ppe.parts_regWrite p (by simp) _)

structure TurnsOff (off : Ppe → Ppe) (e : Engine) : Prop where
  parts : ∀ p, Laid p → (off p).parts = p.parts.reset e (p.parts.start e)
  startAddr : ∀ p, (off p).startAddr = p.startAddr

theorem turnsOff_preAcl (cfg : Build) : TurnsOff (ppeSetPreAclEbl cfg · false) .preAcl := by
  refine ⟨fun p h => ?_, fun p => startAddr_setEbl ..⟩
  have hstart : p.parts.start .preAcl = (0 : BitVec 16).setWidth 9 :=
    (h.start .preAcl).trans (congrArg _ h.zero)
  rw [ppeSetPreAclEbl, parts_setEbl, hstart]
  exact Ppe.parts_rstPtr p _ _

theorem turnsOff_preMtr (cfg : Build) : TurnsOff (ppeSetPreMtrEbl cfg · false) .preMtr := by
  refine ⟨fun p h => ?_, fun p => startAddr_setEbl ..⟩
  rw [ppeSetPreMtrEbl, parts_setEbl]
  exact (Ppe.parts_rstPtr p _ _).trans (congrArg _ (h.start .preMtr).symm)

theorem turnsOff_postMtr (cfg : Build) : TurnsOff (ppeSetPostMtrEbl cfg · false) .postMtr := by
  refine ⟨fun p h => ?_, fun p => startAddr_setEbl ..⟩
  rw [ppeSetPostMtrEbl, parts_setEbl]
  exact (Ppe.parts_rstPtr p _ _).trans (congrArg _ (h.start .postMtr).symm)

theorem turnsOff_preAc (cfg : Build) : TurnsOff (ppeSetPreAcEbl cfg · false) .preAc := by
  refine ⟨fun p h => ?_, fun p => startAddr_setEbl ..⟩
  rw [ppeSetPreAcEbl, parts_setEbl]
  refine (Ppe.parts_rstPtr _ _ _).trans ?_
  rw [parts_polCfg]
  exact congrArg _ (h.start .preAc).symm

theorem turnsOff_postAc (cfg : Build) : TurnsOff (ppeSetPostAcEbl cfg · false) .postAc := by
  refine ⟨fun p h => ?_, fun p => startAddr_setEbl ..⟩
  rw [ppeSetPostAcEbl, parts_setEbl]
  refine (Ppe.parts_rstPtr _ _ _).trans ?_
  rw [parts_polCfg]
  exact congrArg _ (h.start .postAc).symm

variable {off off' : Ppe → Ppe} {e e' : Engine}

theorem TurnsOff.laid (ho : TurnsOff off e) (h : Laid p) : Laid (off p) := by
  refine h.congr ?_ (ho.startAddr p)
  rw [ho.parts p h]
  exact update_eq_self e _

theorem TurnsOff.relay (ho : TurnsOff off e) (h : Laid p) (rs : List (Engine × Rule)) :
    (off p).parts.appendAll rs = p.parts.relay [e] rs := by
  rw [ho.parts p h]
  rfl

theorem TurnsOff.relay₂ (ho : TurnsOff off e) (ho' : TurnsOff off' e') (h : Laid p)
    (rs : List (Engine × Rule)) :
    (off' (off p)).parts.appendAll rs = p.parts.relay [e, e'] rs := by
  rw [ho'.parts _ (ho.laid h), ho.parts p h]
  rfl

end Hardware

/-- The entry that an accounting rule is compiled to, with its engine. -/
def acRule (node : AcPlcyNode) : Engine × Rule :=
  (node.Type_.engine,
    match node.RuleType with
    | .macGroup =>
      .l2Mac (acCom node) (match node.Type_ with | .preAc => .smac | .postAc => .dmac) node.Mac
    | .ipGroup =>
      .l3Ip (acCom node) (match node.Type_ with | .preAc => .sip | .postAc => .dip) node.IpS
        (calIpRange node.IpS node.IpE).1 (calIpRange node.IpS node.IpE).2
    | .vlanGroup => .l2Others (acCom node) { vid := node.VLAN, v := true })

/-- The entry that a metering rule is compiled to. A rule that is not for addresses has none
behind routing. -/
def mtrRule (node : MtrPlcyNode) : Option (Engine × Rule) :=
  match node.RuleType, node.Type_ with
  | .macGroup, .preMtr => some (.preMtr, .l2Mac (mtrCom node) .smac node.Mac)
  | .macGroup, .postMtr => some (.postMtr, .l2Mac (mtrCom node) .dmac node.Mac)
  | .ipGroup, .preMtr =>
    some (.preMtr, .l3Ip (mtrCom node) .sip node.IpS (calIpRange node.IpS node.IpE).1
      (calIpRange node.IpS node.IpE).2)
  | .ipGroup, .postMtr =>
    some (.postMtr, .l3Ip (mtrCom node) .dip node.IpS (calIpRange node.IpS node.IpE).1
      (calIpRange node.IpS node.IpE).2)
  | .syn, .preMtr => some (.preMtr, .l4 (mtrCom node) .dontCare 0 0 (.tcp .inSet TCP_SYN 0))
  | .fin, .preMtr => some (.preMtr, .l4 (mtrCom node) .dontCare 0 0 (.tcp .inSet TCP_FIN 0))
  | .protocolUdp, .preMtr => some (.preMtr, .l4 (mtrCom node) .dontCare 0 0 (.ipProt 0x11))
  | .protocolIcmp, .preMtr => some (.preMtr, .l4 (mtrCom node) .dontCare 0 0 (.ipProt 1))
  | _, .postMtr => none

def Driver.entries (cfg : Build) (s : Driver) : Engine → List Rule
  | .preAcl => aclEntries cfg s.acl
  | .preAc => Parts.rulesOf (s.ac.list.map acRule) .preAc
  | .postAc => Parts.rulesOf (s.ac.list.map acRule) .postAc
  | .preMtr => Parts.rulesOf (s.mtr.list.filterMap mtrRule) .preMtr
  | .postMtr => Parts.rulesOf (s.mtr.list.filterMap mtrRule) .postMtr

section Sync

variable {cfg : Build} {p : Ppe}

theorem parts_acIns (node : AcPlcyNode) (p : Ppe) :
    (acIns node p).parts = p.parts.append (acRule node).1 (acRule node).2 := by
  cases hr : node.RuleType <;> cases ht : node.Type_ <;>
    simp only [acIns, acInsMac, acInsIp, acInsVlan, acRule, hr, ht, AcType.engine,
      Ppe.parts_insEntry]

theorem parts_acInsAll (l : List AcPlcyNode) (p : Ppe) :
    (l.foldl (fun p node => acIns node p) p).parts = p.parts.appendAll (l.map acRule) := by
  induction l generalizing p with
  | nil => rfl
  | cons node l ih =>
    refine (ih (acIns node p)).trans ?_
    rw [parts_acIns]
    rfl

theorem startAddr_acInsAll (l : List AcPlcyNode) (p : Ppe) :
    (l.foldl (fun p node => acIns node p) p).startAddr = p.startAddr := by
  induction l generalizing p with
  | nil => rfl
  | cons node l ih =>
    refine (ih (acIns node p)).trans ?_
    cases hr : node.RuleType <;> cases ht : node.Type_ <;>
      simp only [acIns, acInsMac, acInsIp, acInsVlan, hr, ht, Ppe.startAddr_insEntry]

theorem parts_mtrIns (node : MtrPlcyNode) (p : Ppe) :
    (mtrIns node p).parts = p.parts.appendAll (mtrRule node).toList := by
  have hmeter : ∀ p, (ppeInsMtrTbl node p).parts = p.parts := fun _ => rfl
  cases hr : node.RuleType <;> cases ht : node.Type_ <;>
    simp [mtrIns, mtrInsMac, mtrInsIp, mtrInsSYN, mtrInsFIN, mtrInsProtocol, mtrInsL4, mtrRule, hr,
      ht, hmeter, Ppe.parts_insEntry, Parts.appendAll]

theorem parts_mtrInsAll (l : List MtrPlcyNode) (p : Ppe) :
    (l.foldl (fun p node => mtrIns node p) p).parts =
      p.parts.appendAll (l.filterMap mtrRule) := by
  induction l generalizing p with
  | nil => rfl
  | cons node l ih =>
    refine (ih (mtrIns node p)).trans ?_
    rw [parts_mtrIns]
    cases hm : mtrRule node <;> simp [Parts.appendAll, hm]

theorem startAddr_mtrInsAll (l : List MtrPlcyNode) (p : Ppe) :
    (l.foldl (fun p node => mtrIns node p) p).startAddr = p.startAddr := by
  induction l generalizing p with
  | nil => rfl
  | cons node l ih =>
    refine (ih (mtrIns node p)).trans ?_
    cases hr : node.RuleType <;> cases ht : node.Type_ <;>
      simp [mtrIns, mtrInsMac, mtrInsIp, mtrInsSYN, mtrInsFIN, mtrInsProtocol, mtrInsL4, hr, ht,
        ppeInsMtrTbl, Ppe.startAddr_insEntry]

theorem syncAclTbl_parts (cfg : Build) (h : Laid p) (l : List AclPlcyNode) :
    (syncAclTbl cfg l p).parts = p.parts.relay [.preAcl] ((aclEntries cfg l).map (.preAcl, ·)) ∧
      (syncAclTbl cfg l p).startAddr = p.startAddr := by
  have hoff := turnsOff_preAcl cfg
  have hparts := Ppe.parts_insEntries (ppeSetPreAclEbl cfg p false) .preAcl (aclEntries cfg l)
  rw [hoff.relay h] at hparts
  have haddr := (Ppe.startAddr_insEntries (ppeSetPreAclEbl cfg p false) .preAcl
    (aclEntries cfg l)).trans (hoff.startAddr p)
  unfold syncAclTbl
  dsimp only
  split
  · exact ⟨hparts, haddr⟩
  · refine ⟨?_, ?_⟩
    · rw [← hparts, ppeSetPreAclEbl, parts_setEbl]
      rfl
    · rw [← haddr, ppeSetPreAclEbl, startAddr_setEbl]
      rfl

theorem acOff_parts (cfg : Build) (h : Laid p) (rs : List (Engine × Rule)) :
    (ppeSetPostAcEbl cfg (ppeSetPreAcEbl cfg p false) false).parts.appendAll rs =
      p.parts.relay [.preAc, .postAc] rs :=
  (turnsOff_preAc cfg).relay₂ (turnsOff_postAc cfg) h rs

theorem mtrOff_parts (cfg : Build) (h : Laid p) (rs : List (Engine × Rule)) :
    (ppeSetPostMtrEbl cfg (ppeSetPreMtrEbl cfg p false) false).parts.appendAll rs =
      p.parts.relay [.preMtr, .postMtr] rs :=
  (turnsOff_preMtr cfg).relay₂ (turnsOff_postMtr cfg) h rs

theorem syncAcTbl_parts (cfg : Build) (h : Laid p) (l : List AcPlcyNode) :
    (syncAcTbl cfg l p).parts = p.parts.relay [.preAc, .postAc] (l.map acRule) ∧
      (syncAcTbl cfg l p).startAddr = p.startAddr := by
  have hon : ∀ p : Ppe, (ppeSetPreAcEbl cfg p true).parts = p.parts ∧
      (ppeSetPostAcEbl cfg p true).parts = p.parts := by
    intro p
    rw [ppeSetPreAcEbl, ppeSetPostAcEbl, parts_setEbl, parts_setEbl]
    exact ⟨parts_polCfg p _ _ _, parts_polCfg p _ _ _⟩
  have hins := parts_acInsAll l (ppeSetPostAcEbl cfg (ppeSetPreAcEbl cfg p false) false)
  rw [acOff_parts cfg h] at hins
  have haddr := startAddr_acInsAll l (ppeSetPostAcEbl cfg (ppeSetPreAcEbl cfg p false) false)
  unfold syncAcTbl
  dsimp only
  constructor
  · split <;> split <;> simp only [hon, hins]
  · split <;> split <;> exact haddr

theorem syncMtrTbl_parts (cfg : Build) (h : Laid p) (l : List MtrPlcyNode) :
    (syncMtrTbl cfg l p).parts = p.parts.relay [.preMtr, .postMtr] (l.filterMap mtrRule) ∧
      (syncMtrTbl cfg l p).startAddr = p.startAddr := by
  have hon : ∀ p : Ppe, (ppeSetPreMtrEbl cfg p true).parts = p.parts ∧
      (ppeSetPostMtrEbl cfg p true).parts = p.parts := by
    intro p
    rw [ppeSetPreMtrEbl, ppeSetPostMtrEbl, parts_setEbl, parts_setEbl]
    exact ⟨rfl, rfl⟩
  have hins := parts_mtrInsAll l (ppeSetPostMtrEbl cfg (ppeSetPreMtrEbl cfg p false) false)
  rw [mtrOff_parts cfg h] at hins
  have haddr := startAddr_mtrInsAll l (ppeSetPostMtrEbl cfg (ppeSetPreMtrEbl cfg p false) false)
  unfold syncMtrTbl
  dsimp only
  constructor
  · split
    · simp only [hon, hins]
    · split <;> simp only [hon, hins]
  · split
    · exact haddr
    · split <;> exact haddr

end Sync

def Ppe.limit (p : Ppe) : Engine → Nat
  | .preAcl => (p.getStr .preMtr).toNat
  | .preMtr => (p.getStr .preAc).toNat
  | .preAc => (p.getStr .postMtr).toNat
  | .postMtr => (p.getStr .postAc).toNat
  | .postAc => 511

/-- Every engine has its entries one behind the other from the start of its part on, and
they end where the next part begins, or before. -/
structure Regions (cfg : Build) (s : Driver) : Prop where
  holds : ∀ e, s.ppe.parts.Holds e (s.entries cfg e)
  le : ∀ e, (s.ppe.getEnd e).toNat ≤ s.ppe.limit e

def Fits (cfg : Build) (s : Driver) : Prop :=
  ∀ e, (s.ppe.getStr e).toNat + (s.entries cfg e).length ≤ s.ppe.limit e

section Step

variable {cfg : Build} {s s' : Driver}

theorem Regions.fits (h : Regions cfg s) : Fits cfg s := by
  intro e
  have hstop := (h.holds e).stop
  have hle := h.le e
  change (s.ppe.getEnd e).toNat = (s.ppe.getStr e).toNat + _ at hstop
  omega

theorem Regions.of_fits (h : ∀ e, s.ppe.parts.Holds e (s.entries cfg e)) (hfits : Fits cfg s) :
    Regions cfg s := by
  refine ⟨h, fun e => ?_⟩
  have hstop := (h e).stop
  have hle := hfits e
  change (s.ppe.getEnd e).toNat = (s.ppe.getStr e).toNat + _ at hstop
  omega

theorem Fits.apart (h : Fits cfg s) : Parts.Apart s.ppe.parts.start s.ppe.limit := by
  have hacl := h .preAcl
  have hpmtr := h .preMtr
  have hpac := h .preAc
  have hmtr := h .postMtr
  have hac := h .postAc
  simp only [Ppe.limit] at hacl hpmtr hpac hmtr hac
  constructor
  · intro e
    have hlt := fun e => (s.ppe.getStr e).isLt
    cases e <;> simp only [Ppe.limit] <;> first | exact hlt _ | decide
  · intro e e' hne
    show _ ≤ (s.ppe.getStr e').toNat ∨ _ ≤ (s.ppe.getStr e).toNat
    cases e <;> cases e' <;> simp only [Ppe.limit] <;>
      first | exact absurd rfl hne | omega

inductive Relays (cfg : Build) (s s' : Driver) : Prop where
  | same (hparts : s'.ppe.parts = s.ppe.parts) (hentries : s'.entries cfg = s.entries cfg)
  | relay (es : List Engine) (rs : List (Engine × Rule))
      (hparts : s'.ppe.parts = s.ppe.parts.relay es rs)
      (hnew : ∀ e ∈ es, s'.entries cfg e = Parts.rulesOf rs e)
      (hold : ∀ e, e ∉ es → s'.entries cfg e = s.entries cfg e ∧ Parts.rulesOf rs e = [])

theorem Relays.start (h : Relays cfg s s') : s'.ppe.getStr = s.ppe.getStr := by
  cases h with
  | same hparts hentries => exact congrArg Parts.start hparts
  | relay es rs hparts hnew hold =>
    exact (congrArg Parts.start hparts).trans (Parts.relay_start _ es rs)

theorem Relays.limit (h : Relays cfg s s') : s'.ppe.limit = s.ppe.limit := by
  funext e
  cases e <;> simp only [Ppe.limit, h.start]

theorem Relays.keeps_regions_iff (h : Relays cfg s s') (hs : Regions cfg s) :
    Regions cfg s' ↔ Fits cfg s' := by
  constructor
  · exact Regions.fits
  · intro hfits
    refine Regions.of_fits ?_ hfits
    have hstart := h.start
    have hlimit := h.limit
    cases h with
    | same hparts hentries =>
      rw [hparts, hentries]
      exact hs.holds
    | relay es rs hparts hnew hold =>
      rw [hparts]
      refine Parts.relay_holds hs.fits.apart hs.holds hnew hold fun e => ?_
      have := hfits e
      rw [hstart, hlimit] at this
      exact this

theorem rulesOf_eq_nil {rs : List (Engine × Rule)} {e : Engine} (h : ∀ r ∈ rs, r.1 ≠ e) :
    Parts.rulesOf rs e = [] := by
  refine List.filterMap_eq_nil_iff.mpr fun r hr => ?_
  exact if_neg (h r hr)

/-- The parts of some engines are laid anew with the rules that these have then. -/
theorem relays_relay (h : Laid s.ppe) {es : List Engine} {rs : List (Engine × Rule)}
    (hsync : s'.ppe.parts = s.ppe.parts.relay es rs ∧ s'.ppe.startAddr = s.ppe.startAddr)
    (hnew : ∀ e ∈ es, s'.entries cfg e = Parts.rulesOf rs e) (hrules : ∀ r ∈ rs, r.1 ∈ es)
    (hold : ∀ e, e ∉ es → s'.entries cfg e = s.entries cfg e) :
    Relays cfg s s' ∧ Laid s'.ppe := by
  have hrelay : Relays cfg s s' := .relay es rs hsync.1 hnew fun e he =>
    ⟨hold e he, rulesOf_eq_nil fun r hr heq => he (heq ▸ hrules r hr)⟩
  exact ⟨hrelay, h.congr hrelay.start hsync.2⟩

theorem relays_acl (h : Laid s.ppe) (l : List AclPlcyNode) :
    Relays cfg s { s with acl := l, ppe := syncAclTbl cfg l s.ppe } ∧
      Laid (syncAclTbl cfg l s.ppe) := by
  apply relays_relay h (syncAclTbl_parts cfg h l)
  · intro e he
    rw [List.mem_singleton.mp he, Parts.rulesOf_map, if_pos rfl]
    rfl
  · intro r hr
    obtain ⟨rule, -, rfl⟩ := List.mem_map.mp hr
    exact List.mem_singleton_self _
  · intro e he
    cases e <;> first | rfl | exact (he List.mem_cons_self).elim

theorem relays_ac (h : Laid s.ppe) (t : AcTable) :
    Relays cfg s { s with ac := t, ppe := syncAcTbl cfg t.list s.ppe } ∧
      Laid (syncAcTbl cfg t.list s.ppe) := by
  apply relays_relay h (syncAcTbl_parts cfg h t.list)
  · rintro e (_ | ⟨_, _ | ⟨_, ⟨⟩⟩⟩) <;> rfl
  · intro r hr
    obtain ⟨node, -, rfl⟩ := List.mem_map.mp hr
    cases ht : node.Type_ <;> simp [acRule, ht, AcType.engine]
  · intro e he
    cases e <;> first | rfl | simp at he

theorem mtrRule_engine {node : MtrPlcyNode} {r : Engine × Rule} (h : mtrRule node = some r) :
    r.1 = node.Type_.engine := by
  cases hr : node.RuleType <;> cases ht : node.Type_ <;> simp only [mtrRule, hr, ht] at h <;>
    first | cases h; rfl | cases h

theorem relays_mtr (h : Laid s.ppe) (t : MtrTable) :
    Relays cfg s { s with mtr := t, ppe := syncMtrTbl cfg t.list s.ppe } ∧
      Laid (syncMtrTbl cfg t.list s.ppe) := by
  apply relays_relay h (syncMtrTbl_parts cfg h t.list)
  · rintro e (_ | ⟨_, _ | ⟨_, ⟨⟩⟩⟩) <;> rfl
  · intro r hr
    obtain ⟨node, -, hnode⟩ := List.mem_filterMap.mp hr
    rw [mtrRule_engine hnode]
    cases ht : node.Type_ <;> simp [MtrType.engine]
  · intro e he
    cases e <;> first | rfl | simp at he

theorem relays_call (h : Laid s.ppe) (c : Call) :
    Relays cfg s (s.step cfg c) ∧ Laid (s.step cfg c).ppe := by
  have hsame : Relays cfg s s ∧ Laid s.ppe := ⟨.same rfl rfl, h⟩
  cases c with
  | aclAddNode node mem =>
    simp only [Driver.step, Driver.call, Driver.withAcl, aclAddNode]
    split
    · exact hsame
    · split
      · exact hsame
      · exact relays_acl h _
  | aclDelNode node =>
    simp only [Driver.step, Driver.call, Driver.withAcl, aclDelNode]
    split
    · exact hsame
    · exact relays_acl h _
  | aclCleanTbl => exact relays_acl h []
  | acAddNode node mem =>
    simp only [Driver.step, Driver.call, Driver.withAc, acAddNode]
    split
    · exact hsame
    · split
      · exact hsame
      · exact relays_ac h _
  | acDelNode node =>
    simp only [Driver.step, Driver.call, Driver.withAc, acDelNode]
    split
    · exact hsame
    · exact relays_ac h _
  | acCleanTbl => exact relays_ac h s.ac.clean
  | mtrAddNode node mem =>
    simp only [Driver.step, Driver.call, Driver.withMtr, mtrAddNode]
    split
    · exact relays_mtr h { s.mtr with list := mtrSetInfo s.mtr.list node }
    · split
      · exact hsame
      · exact relays_mtr h _
  | mtrDelNode node =>
    simp only [Driver.step, Driver.call, Driver.withMtr, mtrDelNode]
    split
    · exact hsame
    · exact relays_mtr h _
  | mtrCleanTbl => exact relays_mtr h s.mtr.clean

end Step
end Ralink.HwNat
