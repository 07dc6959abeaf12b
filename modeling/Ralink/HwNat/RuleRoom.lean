import Ralink.HwNat.Regions

/-! When the ioctl handlers keep every engine's entries within its part of the policy table. The
ACL's check leaves out that the last rule of the list decides on two entries more; the check for
metering before routing looks at the wrong part. -/
namespace Ralink.HwNat

def ioctlNode (cmd : AclCmd) (kind : AclKind) (opt : AclPlcyNode) : AclPlcyNode :=
  { opt with RuleType := cmd, SpecialTag := 0, Proto := kind.proto opt.Proto }

/-- As many entries as the rules have fields, and the two defaults behind a last rule that
allows. -/
def aclSize (cfg : Build) (l : List AclPlcyNode) : Nat :=
  (l.map fun node => (node.ruleFields cfg).length).sum +
    match l.getLast? with
    | none => 0
    | some node => if node.Method = .allow then 2 else 0

/-- The command keeps to the room there is: a rule that is added to the ACL, or becomes its
last by a deletion, leaves no more entries than fit, and a new rule for metering before
routing comes only while there is room in its own part. -/
def RoomSafe (cfg : Build) (s : Driver) : Ioctl → Prop
  | .acl (.add kind) opt mem =>
    aclExistNode s.acl (ioctlNode (.add kind) kind opt) = none →
      aclBndryCheck s (ioctlNode (.add kind) kind opt) ≠ .tblFull → mem →
      aclSize cfg (s.acl ++ [ioctlNode (.add kind) kind opt]) ≤ (s.ppe.getStr .preMtr).toNat
  | .acl (.del kind) opt _ =>
    aclSize cfg (s.acl.eraseP (aclDeletes (ioctlNode (.del kind) kind opt))) ≤
      (s.ppe.getStr .preMtr).toNat
  | .mtr (.addEntry entry) opt mem =>
    (mtrParam entry).1 = .preMtr → mtrExistNode s.mtr.list (opt.node entry) = none →
      mtrBndryCheck s (opt.node entry) ≠ .tblFull → mem →
      (s.ppe.getEnd .preMtr).toNat < (s.ppe.getStr .preAc).toNat
  | _ => True

section Step

variable {cfg : Build} {s s' : Driver}

theorem aclEntries_length (cfg : Build) (l : List AclPlcyNode) :
    (aclEntries cfg l).length = aclSize cfg l := by
  unfold aclEntries aclSize
  rw [List.length_append, List.length_flatMap]
  congr 1
  · congr 2
    funext node
    rw [node.aclIns_eq_chain, AclPlcyNode.chain_length]
  · cases l.getLast? with
    | none => rfl
    | some node =>
      dsimp only
      split <;> rfl

theorem relays_ioctl (cfg : Build) (h : Laid s.ppe) (c : Ioctl) :
    Relays cfg s (s.stepIoctl cfg c) ∧ Laid (s.stepIoctl cfg c).ppe := by
  have hsame : Relays cfg s s ∧ Laid s.ppe := ⟨.same rfl rfl, h⟩
  cases c with
  | acl cmd opt mem =>
    cases cmd with
    | add kind =>
      simp only [Driver.stepIoctl, Driver.ioctl, aclIoctl, runIoctlAddHandler]
      split
      · exact relays_call h _
      · exact hsame
    | del kind => exact relays_call h (.aclDelNode _)
    | cleanTbl => exact relays_call h .aclCleanTbl
    | getAllEntries => exact hsame
  | ac cmd opt mem =>
    cases cmd with
    | addEntry rule link =>
      simp only [Driver.stepIoctl, Driver.ioctl, acIoctl]
      split
      · exact relays_call h _
      · exact hsame
    | delEntry rule link => exact relays_call h (.acDelNode _)
    | getCnt rule link type => exact hsame
    | cleanTbl => exact relays_call h .acCleanTbl
  | mtr cmd opt mem =>
    cases cmd with
    | addEntry entry =>
      simp only [Driver.stepIoctl, Driver.ioctl, mtrIoctl]
      split
      · exact relays_call h _
      · exact hsame
    | delEntry entry => exact relays_call h (.mtrDelNode _)
    | getAllEntries => exact hsame
    | cleanTbl => exact relays_call h .mtrCleanTbl

theorem Fits.step (h : Fits cfg s) (hr : Relays cfg s s')
    (hle : ∀ e, (s'.entries cfg e).length ≤ (s.entries cfg e).length ∨
      (s.ppe.getStr e).toNat + (s'.entries cfg e).length ≤ s.ppe.limit e) : Fits cfg s' := by
  intro e
  rw [hr.start, hr.limit]
  have hfits := h e
  rcases hle e with hle | hle
  · omega
  · exact hle

theorem fits_acl (h : Fits cfg s) (hl : Laid s.ppe) (hr : Relays cfg s s')
    (hother : ∀ e, e ≠ .preAcl → s'.entries cfg e = s.entries cfg e)
    {l : List AclPlcyNode} (hacl : s'.entries cfg .preAcl = aclEntries cfg l) :
    Fits cfg s' ↔ aclSize cfg l ≤ (s.ppe.getStr .preMtr).toNat := by
  have hzero : (s.ppe.getStr .preAcl).toNat = 0 := by
    rw [hl.start, hl.zero]
    rfl
  constructor
  · intro hfits
    have := hfits .preAcl
    rw [hr.start, hr.limit, hacl, aclEntries_length, hzero, Nat.zero_add] at this
    exact this
  · intro hsize
    refine h.step hr fun e => ?_
    by_cases he : e = .preAcl
    · subst he
      right
      rw [hacl, aclEntries_length, hzero, Nat.zero_add]
      exact hsize
    · exact .inl (by rw [hother e he])

theorem step_aclAdd (cfg : Build) (s : Driver) (n : AclPlcyNode) (mem : Bool) :
    s.step cfg (.aclAddNode n mem) =
      if aclExistNode s.acl n = none ∧ mem then
        { s with acl := s.acl ++ [n], ppe := syncAclTbl cfg (s.acl ++ [n]) s.ppe }
      else s := by
  simp only [Driver.step, Driver.call, Driver.withAcl, aclAddNode]
  cases aclExistNode s.acl n with
  | some m => simp
  | none => cases mem <;> simp

theorem stepIoctl_aclAdd (cfg : Build) (s : Driver) (kind : AclKind) (opt : AclPlcyNode)
    (mem : Bool) : s.stepIoctl cfg (.acl (.add kind) opt mem) =
      if aclBndryCheck s (ioctlNode (.add kind) kind opt) ≠ .tblFull then
        s.step cfg (.aclAddNode (ioctlNode (.add kind) kind opt) mem)
      else s := by
  have hite := apply_ite Prod.snd (aclBndryCheck s (ioctlNode (.add kind) kind opt) ≠ .tblFull)
    (s.call cfg (.aclAddNode (ioctlNode (.add kind) kind opt) mem)) (.tblFull, s)
  exact hite

theorem fits_aclAdd (h : Fits cfg s) (hl : Laid s.ppe) (kind : AclKind) (opt : AclPlcyNode)
    (mem : Bool) : Fits cfg (s.stepIoctl cfg (.acl (.add kind) opt mem)) ↔
      RoomSafe cfg s (.acl (.add kind) opt mem) := by
  have hr := (relays_ioctl cfg hl (.acl (.add kind) opt mem)).1
  rw [stepIoctl_aclAdd, step_aclAdd] at hr ⊢
  simp only [RoomSafe]
  generalize ioctlNode (.add kind) kind opt = n at hr ⊢
  split
  · next hcheck =>
    rw [if_pos hcheck] at hr
    split
    · next hgo =>
      rw [if_pos hgo] at hr
      rw [fits_acl h hl hr (fun e he => ?_) rfl]
      · constructor
        · intro hsize _ _ _
          exact hsize
        · intro hsafe
          exact hsafe hgo.1 hcheck hgo.2
      · cases e <;> first | exact absurd rfl he | rfl
    · next hstop =>
      refine iff_of_true h ?_
      intro hnew _ hmem
      exact absurd ⟨hnew, hmem⟩ hstop
  · next hfull =>
    refine iff_of_true h ?_
    intro _ hcheck _
    exact absurd hcheck hfull

theorem fits_aclDel (h : Fits cfg s) (hl : Laid s.ppe) (kind : AclKind) (opt : AclPlcyNode)
    (mem : Bool) : Fits cfg (s.stepIoctl cfg (.acl (.del kind) opt mem)) ↔
      RoomSafe cfg s (.acl (.del kind) opt mem) := by
  have hr := (relays_ioctl cfg hl (.acl (.del kind) opt mem)).1
  have hstep : s.stepIoctl cfg (.acl (.del kind) opt mem) =
      s.step cfg (.aclDelNode (ioctlNode (.del kind) kind opt)) := rfl
  rw [hstep] at hr ⊢
  refine fits_acl h hl hr (fun e he => ?_) ?_
  · simp only [Driver.step, Driver.call, Driver.withAcl, aclDelNode]
    split <;> cases e <;> first | exact absurd rfl he | rfl
  · simp only [Driver.step, Driver.call, Driver.withAcl, aclDelNode]
    split
    · next hnone =>
      rw [List.eraseP_of_forall_not (by simpa using hnone)]
      rfl
    · rfl

theorem fits_aclClean (h : Fits cfg s) (hl : Laid s.ppe) (opt : AclPlcyNode) (mem : Bool) :
    Fits cfg (s.stepIoctl cfg (.acl .cleanTbl opt mem)) := by
  have hr := (relays_ioctl cfg hl (.acl .cleanTbl opt mem)).1
  refine (fits_acl (l := []) h hl hr (fun e he => ?_) rfl).mpr (Nat.zero_le _)
  cases e <;> first | exact absurd rfl he | rfl

theorem stepIoctl_acAdd (cfg : Build) (s : Driver) (rule : AcRuleType) (link : Link) (opt : AcArgs)
    (mem : Bool) : s.stepIoctl cfg (.ac (.addEntry rule link) opt mem) =
      if acBndryCheck s (opt.node rule link) ≠ .tblFull then
        s.step cfg (.acAddNode (opt.node rule link) mem)
      else s := by
  by_cases h : acBndryCheck s (opt.node rule link) ≠ .tblFull <;>
    simp [Driver.stepIoctl, Driver.ioctl, acIoctl, Driver.step, h]

theorem stepIoctl_mtrAdd (cfg : Build) (s : Driver) (entry : MtrEntry) (opt : MtrArgs)
    (mem : Bool) : s.stepIoctl cfg (.mtr (.addEntry entry) opt mem) =
      if mtrBndryCheck s (opt.node entry) ≠ .tblFull then
        s.step cfg (.mtrAddNode (opt.node entry) mem)
      else s := by
  by_cases h : mtrBndryCheck s (opt.node entry) ≠ .tblFull <;>
    simp [Driver.stepIoctl, Driver.ioctl, mtrIoctl, Driver.step, h]

theorem rulesOf_add (rs : List (Engine × Rule)) (r : Engine × Rule) (e : Engine) :
    (Parts.rulesOf (rs ++ [r]) e).length =
      (Parts.rulesOf rs e).length + if r.1 = e then 1 else 0 := by
  rw [Parts.rulesOf_append, List.length_append]
  by_cases h : r.1 = e <;> simp [Parts.rulesOf, h]

theorem acRule_engine (node : AcPlcyNode) : (acRule node).1 = node.Type_.engine := rfl

theorem entries_acAdd (cfg : Build) (s : Driver) (node : AcPlcyNode) (mem : Bool) (e : Engine) :
    ((s.step cfg (.acAddNode node mem)).entries cfg e).length ≤
      (s.entries cfg e).length +
        if acExistNode s.ac.list node = none ∧ node.Type_.engine = e then 1 else 0 := by
  simp only [Driver.step, Driver.call, Driver.withAc, acAddNode]
  split
  · exact Nat.le_add_right _ _
  · next hnew =>
    rw [Option.not_isSome_iff_eq_none.mp hnew]
    split
    · exact Nat.le_add_right _ _
    · cases e <;>
        simp only [Driver.entries, GroupTable.insert, List.map_append, List.map_cons,
          List.map_nil, rulesOf_add, acRule_engine, true_and] <;>
        first | exact Nat.le_refl _ | exact Nat.le_add_right _ _

theorem Regions.stop (h : Regions cfg s) (e : Engine) :
    (s.ppe.getEnd e).toNat = (s.ppe.getStr e).toNat + (s.entries cfg e).length := (h.holds e).stop

theorem acBndryCheck_room {n : AcPlcyNode} (hnew : acExistNode s.ac.list n = none)
    (hcheck : acBndryCheck s n ≠ .tblFull) :
    (s.ppe.getEnd n.Type_.engine).toNat + 1 ≤ s.ppe.limit n.Type_.engine := by
  unfold acBndryCheck at hcheck
  rw [hnew] at hcheck
  cases ht : n.Type_ <;>
    simp only [ht, Option.isSome_none, Bool.false_eq_true, if_false, ne_eq, ite_eq_left_iff,
      reduceCtorEq, imp_false, not_not, not_le] at hcheck <;>
    simp only [AcType.engine, Ppe.limit] <;> omega

theorem fits_acAdd (h : Regions cfg s) (hl : Laid s.ppe) (rule : AcRuleType) (link : Link)
    (opt : AcArgs) (mem : Bool) :
    Fits cfg (s.stepIoctl cfg (.ac (.addEntry rule link) opt mem)) := by
  have hr := (relays_ioctl cfg hl (.ac (.addEntry rule link) opt mem)).1
  rw [stepIoctl_acAdd] at hr ⊢
  generalize opt.node rule link = n at hr ⊢
  split
  · next hcheck =>
    rw [if_pos hcheck] at hr
    refine h.fits.step hr fun e => ?_
    have hle := entries_acAdd cfg s n mem e
    split at hle
    · next hnew =>
      have hroom := acBndryCheck_room hnew.1 hcheck
      rw [hnew.2, h.stop e] at hroom
      exact .inr (by omega)
    · exact .inl hle
  · exact h.fits

theorem fits_acDel (h : Fits cfg s) (hl : Laid s.ppe) (n : AcPlcyNode) :
    Fits cfg (s.step cfg (.acDelNode n)) := by
  refine h.step (relays_call hl _).1 fun e => .inl ?_
  simp only [Driver.step, Driver.call, Driver.withAc, acDelNode, GroupTable.remove]
  cases s.ac.list.find? (acDeletes n) with
  | none => exact Nat.le_refl _
  | some m =>
    have hsub := (List.eraseP_sublist (p := acDeletes n) (l := s.ac.list)).map acRule
    cases e <;> first | exact Nat.le_refl _ | exact Parts.rulesOf_length_le hsub _

theorem fits_acClean (h : Fits cfg s) (hl : Laid s.ppe) : Fits cfg (s.step cfg .acCleanTbl) := by
  refine h.step (relays_call hl _).1 fun e => .inl ?_
  cases e <;> first | exact Nat.le_refl _ | exact Nat.zero_le _

theorem mtrRule_setInfo (l : List MtrPlcyNode) (n : MtrPlcyNode) :
    (mtrSetInfo l n).filterMap mtrRule = l.filterMap mtrRule := by
  have hmap : (mtrSetInfo l n).map mtrRule = l.map mtrRule := by
    refine Scan.map_replaceF (fun x y hxy => ?_) l
    simp only [Option.ite_none_right_eq_some, Option.some.injEq] at hxy
    rw [← hxy.2]
    rfl
  have hid : ∀ l : List MtrPlcyNode, l.filterMap mtrRule = (l.map mtrRule).filterMap id := by
    intro l
    rw [List.filterMap_map]
    rfl
  rw [hid, hmap, ← hid]

theorem mtrRule_node (opt : MtrArgs) (entry : MtrEntry) (g : BitVec 32) :
    ∃ rule, mtrRule { opt.node entry with MgNum := g } =
      some ((opt.node entry).Type_.engine, rule) := by
  cases entry with
  | mac link | ip link => cases link <;> exact ⟨_, rfl⟩
  | syn | fin | udp | icmp => exact ⟨_, rfl⟩

theorem entries_mtrAdd (cfg : Build) (s : Driver) (opt : MtrArgs) (entry : MtrEntry) (mem : Bool)
    (e : Engine) : ((s.step cfg (.mtrAddNode (opt.node entry) mem)).entries cfg e).length =
      (s.entries cfg e).length + if mtrExistNode s.mtr.list (opt.node entry) = none ∧ mem ∧
        (opt.node entry).Type_.engine = e then 1 else 0 := by
  have hrule := mtrRule_node opt entry
  generalize opt.node entry = n at hrule ⊢
  simp only [Driver.step, Driver.call, Driver.withMtr, mtrAddNode]
  split
  · next hold =>
    rw [if_neg fun h => by simp [h.1] at hold]
    cases e <;> simp only [Driver.entries, mtrRule_setInfo] <;> rfl
  · next hnew =>
    rw [Option.not_isSome_iff_eq_none.mp hnew]
    split
    · next hmem =>
      rw [if_neg fun h => hmem h.2.1]
      rfl
    · next hmem =>
      obtain ⟨rule, hr⟩ := hrule (BitVec.ofInt 32 s.mtr.getFreeGrp.1)
      have heng : n.Type_.engine = .preMtr ∨ n.Type_.engine = .postMtr := by
        cases n.Type_ <;> simp [MtrType.engine]
      cases e <;>
        simp only [Driver.entries, GroupTable.insert, List.filterMap_append,
          List.filterMap_cons, List.filterMap_nil, hr, rulesOf_add, true_and,
          not_not.mp hmem] <;>
        rcases heng with heng | heng <;> simp [heng]

theorem mtrBndryCheck_post {n : MtrPlcyNode} (hnew : mtrExistNode s.mtr.list n = none)
    (ht : n.Type_ = .postMtr) (hcheck : mtrBndryCheck s n ≠ .tblFull) :
    (s.ppe.getEnd .postMtr).toNat + 1 ≤ (s.ppe.getStr .postAc).toNat := by
  unfold mtrBndryCheck at hcheck
  rw [hnew] at hcheck
  simp only [ht, Option.isSome_none, Bool.false_eq_true, if_false, ne_eq, ite_eq_left_iff,
    reduceCtorEq, imp_false, not_not, not_le] at hcheck
  omega

theorem fits_mtrAdd (h : Regions cfg s) (hl : Laid s.ppe) (entry : MtrEntry) (opt : MtrArgs)
    (mem : Bool) : Fits cfg (s.stepIoctl cfg (.mtr (.addEntry entry) opt mem)) ↔
      RoomSafe cfg s (.mtr (.addEntry entry) opt mem) := by
  have hr := (relays_ioctl cfg hl (.mtr (.addEntry entry) opt mem)).1
  have htype : (mtrParam entry).1 = (opt.node entry).Type_ := rfl
  simp only [RoomSafe, htype]
  rw [stepIoctl_mtrAdd] at hr ⊢
  split
  · next hcheck =>
    rw [if_pos hcheck] at hr
    have hlen := entries_mtrAdd cfg s opt entry mem
    constructor
    · intro hfits hpre hnew _ hmem
      have hroom := hfits .preMtr
      have hstop := h.stop .preMtr
      rw [hr.start, hr.limit, hlen, if_pos ⟨hnew, hmem, by rw [hpre]; rfl⟩] at hroom
      simp only [Ppe.limit] at hroom
      omega
    · intro hsafe
      refine h.fits.step hr fun e => ?_
      rw [hlen e]
      split
      · next hnew =>
        right
        have hstop := h.stop e
        obtain ⟨hnew, hmem, rfl⟩ := hnew
        cases ht : (opt.node entry).Type_ with
        | preMtr =>
          have hroom := hsafe ht hnew hcheck hmem
          simp only [ht, MtrType.engine, Ppe.limit] at hstop ⊢
          omega
        | postMtr =>
          have hroom := mtrBndryCheck_post hnew ht hcheck
          simp only [ht, MtrType.engine, Ppe.limit] at hstop ⊢
          omega
      · exact .inl (Nat.le_refl _)
  · next hfull =>
    refine iff_of_true h.fits ?_
    intro _ _ hcheck _
    exact absurd hcheck hfull

theorem fits_mtrDel (h : Fits cfg s) (hl : Laid s.ppe) (n : MtrPlcyNode) :
    Fits cfg (s.step cfg (.mtrDelNode n)) := by
  refine h.step (relays_call hl _).1 fun e => .inl ?_
  simp only [Driver.step, Driver.call, Driver.withMtr, mtrDelNode, GroupTable.remove]
  cases s.mtr.list.find? (mtrDeletes n) with
  | none => exact Nat.le_refl _
  | some m =>
    have hsub := (List.eraseP_sublist (p := mtrDeletes n) (l := s.mtr.list)).filterMap mtrRule
    cases e <;> first | exact Nat.le_refl _ | exact Parts.rulesOf_length_le hsub _

theorem fits_mtrClean (h : Fits cfg s) (hl : Laid s.ppe) : Fits cfg (s.step cfg .mtrCleanTbl) := by
  refine h.step (relays_call hl _).1 fun e => .inl ?_
  cases e <;> first | exact Nat.le_refl _ | exact Nat.zero_le _

theorem regions_step (h : Regions cfg s) (hl : Laid s.ppe) (c : Ioctl) :
    Regions cfg (s.stepIoctl cfg c) ↔ RoomSafe cfg s c := by
  rw [(relays_ioctl cfg hl c).1.keeps_regions_iff h]
  have hfits := h.fits
  cases c with
  | acl cmd opt mem =>
    cases cmd with
    | add kind => exact fits_aclAdd hfits hl kind opt mem
    | del kind => exact fits_aclDel hfits hl kind opt mem
    | cleanTbl => exact iff_of_true (fits_aclClean hfits hl opt mem) trivial
    | getAllEntries => exact iff_of_true hfits trivial
  | ac cmd opt mem =>
    cases cmd with
    | addEntry rule link => exact iff_of_true (fits_acAdd h hl rule link opt mem) trivial
    | delEntry rule link => exact iff_of_true (fits_acDel hfits hl _) trivial
    | getCnt rule link type => exact iff_of_true hfits trivial
    | cleanTbl => exact iff_of_true (fits_acClean hfits hl) trivial
  | mtr cmd opt mem =>
    cases cmd with
    | addEntry entry => exact fits_mtrAdd h hl entry opt mem
    | delEntry entry => exact iff_of_true (fits_mtrDel hfits hl _) trivial
    | getAllEntries => exact iff_of_true hfits trivial
    | cleanTbl => exact iff_of_true (fits_mtrClean hfits hl) trivial

end Step

def RuleSizes.InTable (sizes : RuleSizes) : Prop :=
  sizes.preAcl.toNat + sizes.preMtr.toNat + sizes.preAc.toNat + sizes.postMtr.toNat ≤ 511

section Init

variable {cfg : Build} {p : Ppe}

theorem laid_ppeSetRuleSize (p : Ppe) (preAcl preMtr preAc postMtr postAc : BitVec 16) :
    Laid (p.ppeSetRuleSize preAcl preMtr preAc postMtr postAc) ∧
      ∀ e, (p.ppeSetRuleSize preAcl preMtr preAc postMtr postAc).parts.Holds e [] := by
  unfold Ppe.ppeSetRuleSize
  dsimp only
  generalize hq : ({ p with startAddr := _ } : Ppe) = q
  have hzero : q.startAddr .preAcl = 0 := by rw [← hq]
  have hparts :
      q.ppeRstPreAclPtr.ppeRstPreMtrPtr.ppeRstPreAcPtr.ppeRstPostMtrPtr.ppeRstPostAcPtr.parts =
      ((((q.parts.reset .preAcl ((q.startAddr .preAcl).setWidth 9)).reset .preMtr
        ((q.startAddr .preMtr).setWidth 9)).reset .preAc ((q.startAddr .preAc).setWidth 9)).reset
        .postMtr ((q.startAddr .postMtr).setWidth 9)).reset .postAc
        ((q.startAddr .postAc).setWidth 9) := by
    rw [hzero]
    simp only [Ppe.ppeRstPreAclPtr, Ppe.ppeRstPreMtrPtr, Ppe.ppeRstPreAcPtr, Ppe.ppeRstPostMtrPtr,
      Ppe.ppeRstPostAcPtr, Ppe.parts_rstPtr]
    rfl
  constructor
  · refine ⟨hzero, fun e => ?_⟩
    have hstart := congrFun (congrArg Parts.start hparts) e
    refine hstart.trans ?_
    cases e <;> rfl
  · intro e
    rw [hparts]
    constructor
    · cases e <;> rfl
    · intro i r hr
      cases hr

theorem TurnsOff.holds_nil {off : Ppe → Ppe} {e₀ : Engine} (ho : TurnsOff off e₀) (hl : Laid p)
    (h : ∀ e, p.parts.Holds e []) (e : Engine) : (off p).parts.Holds e [] := by
  rw [ho.parts p hl]
  by_cases he : e = e₀
  · subst he
    exact Parts.Holds.reset_self
  · exact (h e).reset_other he

theorem laid_ppeEngStart (cfg : Build) (hl : Laid p) (h : ∀ e, p.parts.Holds e []) :
    Laid (ppeEngStart cfg p) ∧ ∀ e, (ppeEngStart cfg p).parts.Holds e [] := by
  have h1 := turnsOff_preAcl cfg
  have h2 := turnsOff_preMtr cfg
  have h3 := turnsOff_postMtr cfg
  have h4 := turnsOff_preAc cfg
  have h5 := turnsOff_postAc cfg
  have l1 := h1.laid hl
  have l2 := h2.laid l1
  have l3 := h3.laid l2
  have l4 := h4.laid l3
  exact ⟨h5.laid l4, h5.holds_nil l4 (h4.holds_nil l3 (h3.holds_nil l2 (h2.holds_nil l1
    (h1.holds_nil hl h))))⟩

theorem startAddr_ppeEngStart (cfg : Build) (p : Ppe) :
    (ppeEngStart cfg p).startAddr = p.startAddr := by
  simp only [ppeEngStart, (turnsOff_postAc cfg).startAddr, (turnsOff_preAc cfg).startAddr,
    (turnsOff_postMtr cfg).startAddr, (turnsOff_preMtr cfg).startAddr,
    (turnsOff_preAcl cfg).startAddr]

theorem regions_init (cfg : Build) {sizes : RuleSizes} (hsizes : sizes.InTable) (p : Ppe) :
    Regions cfg (ppeInitMod cfg sizes p) ∧ Laid (ppeInitMod cfg sizes p).ppe := by
  obtain ⟨hl, hholds⟩ := laid_ppeSetRuleSize p sizes.preAcl sizes.preMtr sizes.preAc sizes.postMtr
    sizes.postAc
  obtain ⟨hlaid, hempty⟩ := laid_ppeEngStart cfg hl hholds
  refine ⟨Regions.of_fits (fun e => ?_) fun e => ?_, hlaid⟩
  · have hnil : (ppeInitMod cfg sizes p).entries cfg e = [] := by cases e <;> rfl
    rw [hnil]
    exact hempty e
  · have hnil : (ppeInitMod cfg sizes p).entries cfg e = [] := by cases e <;> rfl
    have hstart : ∀ e, (ppeInitMod cfg sizes p).ppe.getStr e = ((p.ppeSetRuleSize sizes.preAcl
        sizes.preMtr sizes.preAc sizes.postMtr sizes.postAc).startAddr e).setWidth 9 := by
      intro e
      rw [← startAddr_ppeEngStart cfg]
      exact hlaid.start e
    rw [hnil, List.length_nil]
    unfold RuleSizes.InTable at hsizes
    cases e <;> simp only [Ppe.limit, hstart, Ppe.ppeSetRuleSize, Ppe.ppeRstPreAclPtr,
      Ppe.ppeRstPreMtrPtr, Ppe.ppeRstPreAcPtr, Ppe.ppeRstPostMtrPtr, Ppe.ppeRstPostAcPtr,
      Ppe.rstPtr, Ppe.regModifyBits, Ppe.regWrite] <;> bv_omega

/-- Throughout a run the parts stay apart exactly when every command of it is a safe one. -/
theorem regions_iff (cfg : Build) (sizes : RuleSizes) (hsizes : sizes.InTable) (p : Ppe)
    (cmds : List Ioctl) :
    Run.AllSteps (Driver.stepIoctl cfg) (RoomSafe cfg) (ppeInitMod cfg sizes p) cmds ↔
      ∀ n, Regions cfg
        (Run.exec (Driver.stepIoctl cfg) (ppeInitMod cfg sizes p) (cmds.take n)) := by
  obtain ⟨hr, hl⟩ := regions_init cfg hsizes p
  refine Run.allSteps_iff (A := fun s => Laid s.ppe) (Q := fun _ _ => True)
    (fun s c hl _ _ => (relays_ioctl cfg hl c).2) (fun s c hl hs _ => regions_step hs hl c)
    hl hr ?_
  exact Run.AllSteps.of_forall fun _ _ _ => trivial

/-- An accounting and an ACL rule, with the sizes of the configuration. -/
theorem regions_iff_kconfig :
    Regions ⟨false, false⟩ (Run.exec (Driver.stepIoctl ⟨false, false⟩)
      (ppeInitMod ⟨false, false⟩ kconfigSizes Ppe.zero)
      [.ac (.addEntry .macGroup .ul) {} true,
        .acl (.add .sdmacAny) { RuleType := .add .sdmacAny } true]) :=
  (regions_iff ⟨false, false⟩ kconfigSizes (by unfold RuleSizes.InTable; decide) Ppe.zero
    [.ac (.addEntry .macGroup .ul) {} true,
      .acl (.add .sdmacAny) { RuleType := .add .sdmacAny } true]).mp
    ⟨trivial, fun _ _ _ => by decide +kernel, trivial⟩ 2

/-- One rule more for metering before routing than its part has room for. -/
def fillPreMtr : List Ioctl :=
  (List.range 33).map fun i => .mtr (.addEntry (.ip .ul)) { ip_s := BitVec.ofNat 32 i } true

/-- The check lets all of them pass, and the last entry is in the part of another engine. -/
theorem regions_overflow :
    ¬ Regions ⟨false, false⟩ (Run.exec (Driver.stepIoctl ⟨false, false⟩)
      (ppeInitMod ⟨false, false⟩ kconfigSizes Ppe.zero) fillPreMtr) := by
  intro h
  have hfits := h.fits .preMtr
  revert hfits
  decide +kernel

end Init
end Ralink.HwNat
