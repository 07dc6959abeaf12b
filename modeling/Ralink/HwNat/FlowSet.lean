import Ralink.Lib.Scan
import Ralink.HwNat.AcMtrPolicy

/-! `PPE_FLOW_SET` as the engines it shows on and the IPv6 flag, what each call does to that, and
when the flags mirror the lists. -/
namespace Ralink.HwNat
open BitReg Function

structure Shows (f : BitVec 32) (on_ : Engine → Bool) (v6 : Bool) : Prop where
  engine : ∀ e, f &&& flowBits e = if on_ e then flowBits e else 0
  ipv6 : f &&& BIT_IPV6_PE_EN = if v6 then BIT_IPV6_PE_EN else 0

theorem flowBits_ne_zero (e : Engine) : flowBits e ≠ 0 := by cases e <;> decide

theorem flowBits_disjoint {e e' : Engine} (h : e ≠ e') : flowBits e &&& flowBits e' = 0 := by
  cases e <;> cases e' <;> first | exact absurd rfl h | decide

theorem flowBits_ipv6 (e : Engine) : flowBits e &&& BIT_IPV6_PE_EN = 0 := by
  cases e <;> decide

theorem ipv6_flowBits (e : Engine) : BIT_IPV6_PE_EN &&& flowBits e = 0 := by
  cases e <;> decide

variable {cfg : Build} {f : BitVec 32} {on_ : Engine → Bool} {v6 : Bool}

theorem eblBits_disjoint {e e' : Engine} (h : e ≠ e') : eblBits cfg e &&& flowBits e' = 0 := by
  unfold eblBits
  split
  · rw [BitVec.and_comm, BitVec.and_or_distrib_left, BitVec.and_comm, flowBits_disjoint h,
      BitVec.and_comm, ipv6_flowBits]
    rfl
  · exact flowBits_disjoint h

theorem eblBits_self (e : Engine) : eblBits cfg e &&& flowBits e = flowBits e := by
  unfold eblBits
  split
  · cases e <;> decide
  · exact BitVec.and_self

theorem Shows.setEbl {p : Ppe} (cfg : Build) (h : Shows (p.reg .flowSet) on_ v6) (ebl : Bool)
    (e : Engine) (start stop : Ppe → Ppe) :
    Shows ((setEbl cfg p ebl e start stop).reg .flowSet) (update on_ e ebl)
      (if cfg.ipv6 then ebl else v6) := by
  have hflow : (HwNat.setEbl cfg p ebl e start stop).reg .flowSet =
      if ebl then p.reg .flowSet ||| eblBits cfg e else p.reg .flowSet &&& ~~~ eblBits cfg e := by
    cases ebl <;> simp [HwNat.setEbl, Ppe.regWrite, Ppe.regRead]
  rw [hflow]
  constructor
  · intro e'
    by_cases he : e' = e
    · subst he
      cases ebl with
      | true => simpa using or_and_of_subset _ (eblBits_self e')
      | false => simpa using andNot_and_of_subset _ (eblBits_self e')
    · rw [update_of_ne he, ← h.engine e']
      cases ebl with
      | true => exact or_and_of_disjoint _ (eblBits_disjoint (Ne.symm he))
      | false => exact andNot_and_of_disjoint _ (eblBits_disjoint (Ne.symm he))
  · cases hv : cfg.ipv6 with
    | true =>
      have hsub : eblBits cfg e &&& BIT_IPV6_PE_EN = BIT_IPV6_PE_EN := by
        rw [eblBits, hv]
        cases e <;> decide
      cases ebl with
      | true => simpa using or_and_of_subset _ hsub
      | false => simpa using andNot_and_of_subset _ hsub
    | false =>
      have hdis : eblBits cfg e &&& BIT_IPV6_PE_EN = 0 := by
        rw [eblBits, hv]
        exact flowBits_ipv6 e
      rw [if_neg Bool.false_ne_true, ← h.ipv6]
      cases ebl with
      | true => exact or_and_of_disjoint _ hdis
      | false => exact andNot_and_of_disjoint _ hdis

theorem Shows.on_iff (h : Shows f on_ v6) (e : Engine) : f &&& flowBits e = flowBits e ↔ on_ e := by
  rw [h.engine e]
  cases on_ e with
  | true => simp
  | false => simpa using (flowBits_ne_zero e).symm

theorem Shows.ipv6_iff (h : Shows f on_ v6) : f &&& BIT_IPV6_PE_EN = BIT_IPV6_PE_EN ↔ v6 := by
  rw [h.ipv6]
  cases v6 with
  | true => simp
  | false => simp; decide

@[simp] theorem flow_insEntry (p : Ppe) (e : Engine) (r : Rule) :
    (p.insEntry e r).reg .flowSet = p.reg .flowSet := by
  simp [Ppe.insEntry, Ppe.setEnd, Ppe.regModifyBits, Ppe.regWrite]

@[simp] theorem flow_insEntries (p : Ppe) (e : Engine) (rules : List Rule) :
    (p.insEntries e rules).reg .flowSet = p.reg .flowSet := by
  induction rules generalizing p with
  | nil => rfl
  | cons r rules ih => exact (ih (p.insEntry e r)).trans (flow_insEntry p e r)

@[simp] theorem flow_acIns (p : Ppe) (l : List AcPlcyNode) :
    (l.foldl (fun p node => acIns node p) p).reg .flowSet = p.reg .flowSet := by
  induction l generalizing p with
  | nil => rfl
  | cons node l ih =>
    refine (ih _).trans ?_
    cases ht : node.Type_ <;> cases hr : node.RuleType <;>
      simp [acIns, acInsMac, acInsIp, acInsVlan, ht, hr]

@[simp] theorem flow_mtrIns (p : Ppe) (l : List MtrPlcyNode) :
    (l.foldl (fun p node => mtrIns node p) p).reg .flowSet = p.reg .flowSet := by
  induction l generalizing p with
  | nil => rfl
  | cons node l ih =>
    refine (ih _).trans ?_
    cases ht : node.Type_ <;> cases hr : node.RuleType <;>
      simp [mtrIns, mtrInsMac, mtrInsIp, mtrInsSYN, mtrInsFIN, mtrInsProtocol, mtrInsL4,
        ppeInsMtrTbl, ht, hr]

variable {p : Ppe}

theorem Shows.preAclEbl (cfg : Build) (h : Shows (p.reg .flowSet) on_ v6) (ebl : Bool) :
    Shows ((ppeSetPreAclEbl cfg p ebl).reg .flowSet) (update on_ .preAcl ebl)
      (if cfg.ipv6 then ebl else v6) := h.setEbl cfg ebl _ _ _

theorem Shows.preMtrEbl (cfg : Build) (h : Shows (p.reg .flowSet) on_ v6) (ebl : Bool) :
    Shows ((ppeSetPreMtrEbl cfg p ebl).reg .flowSet) (update on_ .preMtr ebl)
      (if cfg.ipv6 then ebl else v6) := h.setEbl cfg ebl _ _ _

theorem Shows.postMtrEbl (cfg : Build) (h : Shows (p.reg .flowSet) on_ v6) (ebl : Bool) :
    Shows ((ppeSetPostMtrEbl cfg p ebl).reg .flowSet) (update on_ .postMtr ebl)
      (if cfg.ipv6 then ebl else v6) := h.setEbl cfg ebl _ _ _

theorem Shows.preAcEbl (cfg : Build) (h : Shows (p.reg .flowSet) on_ v6) (ebl : Bool) :
    Shows ((ppeSetPreAcEbl cfg p ebl).reg .flowSet) (update on_ .preAc ebl)
      (if cfg.ipv6 then ebl else v6) := h.setEbl cfg ebl _ _ _

theorem Shows.postAcEbl (cfg : Build) (h : Shows (p.reg .flowSet) on_ v6) (ebl : Bool) :
    Shows ((ppeSetPostAcEbl cfg p ebl).reg .flowSet) (update on_ .postAc ebl)
      (if cfg.ipv6 then ebl else v6) := h.setEbl cfg ebl _ _ _

theorem Shows.syncAclTbl (cfg : Build) (h : Shows (p.reg .flowSet) on_ v6) (l : List AclPlcyNode) :
    Shows ((syncAclTbl cfg l p).reg .flowSet) (update on_ .preAcl (!l.isEmpty))
      (if cfg.ipv6 then !l.isEmpty else v6) := by
  have hoff := h.preAclEbl cfg false
  cases l with
  | nil => exact hoff
  | cons node l =>
    rw [← flow_insEntries _ .preAcl (aclEntries cfg (node :: l))] at hoff
    have hon := hoff.preAclEbl cfg true
    rw [update_idem] at hon
    cases hv : cfg.ipv6 <;> simpa [HwNat.syncAclTbl, hv] using hon

theorem Shows.acOff (cfg : Build) (h : Shows (p.reg .flowSet) on_ v6) :
    Shows ((ppeSetPostAcEbl cfg (ppeSetPreAcEbl cfg p false) false).reg .flowSet)
      (update (update on_ .preAc false) .postAc false) (if cfg.ipv6 then false else v6) := by
  have hoff := (h.preAcEbl cfg false).postAcEbl cfg false
  cases hv : cfg.ipv6 <;> simpa [hv] using hoff

theorem Shows.mtrOff (cfg : Build) (h : Shows (p.reg .flowSet) on_ v6) :
    Shows ((ppeSetPostMtrEbl cfg (ppeSetPreMtrEbl cfg p false) false).reg .flowSet)
      (update (update on_ .preMtr false) .postMtr false) (if cfg.ipv6 then false else v6) := by
  have hoff := (h.preMtrEbl cfg false).postMtrEbl cfg false
  cases hv : cfg.ipv6 <;> simpa [hv] using hoff

theorem ac_isEmpty (l : List AcPlcyNode) :
    l.isEmpty = (!l.any (·.Type_ = .preAc) && !l.any (·.Type_ = .postAc)) := by
  cases l with
  | nil => rfl
  | cons node l => cases h : node.Type_ <;> simp [h]

theorem mtr_isEmpty (l : List MtrPlcyNode) :
    l.isEmpty = (!l.any (·.Type_ = .preMtr) && !l.any (·.Type_ = .postMtr)) := by
  cases l with
  | nil => rfl
  | cons node l => cases h : node.Type_ <;> simp [h]

theorem Shows.syncAcTbl (cfg : Build) (h : Shows (p.reg .flowSet) on_ v6) (l : List AcPlcyNode) :
    Shows ((syncAcTbl cfg l p).reg .flowSet)
      (update (update on_ .preAc (l.any (·.Type_ = .preAc))) .postAc (l.any (·.Type_ = .postAc)))
      (if cfg.ipv6 then !l.isEmpty else v6) := by
  have hoff := h.acOff cfg
  rw [← flow_acIns _ l] at hoff
  rw [ac_isEmpty]
  unfold HwNat.syncAcTbl
  cases l.any (·.Type_ = .preAc) <;> cases l.any (·.Type_ = .postAc)
  · cases hv : cfg.ipv6 <;> simpa [hv] using hoff
  · have hon := hoff.postAcEbl cfg true
    cases hv : cfg.ipv6 <;> simpa [hv] using hon
  · have hon := hoff.preAcEbl cfg true
    rw [update_comm (by decide), update_idem] at hon
    cases hv : cfg.ipv6 <;> simpa [hv] using hon
  · have hon := (hoff.preAcEbl cfg true).postAcEbl cfg true
    rw [update_comm (by decide : Engine.postAc ≠ .preAc), update_idem, update_idem] at hon
    cases hv : cfg.ipv6 <;> simpa [hv] using hon

theorem Shows.syncMtrTbl (cfg : Build) (h : Shows (p.reg .flowSet) on_ v6) (l : List MtrPlcyNode) :
    Shows ((syncMtrTbl cfg l p).reg .flowSet)
      (update (update on_ .preMtr (l.any (·.Type_ = .preMtr))) .postMtr
        (!l.any (·.Type_ = .preMtr) && l.any (·.Type_ = .postMtr)))
      (if cfg.ipv6 then !l.isEmpty else v6) := by
  have hoff := h.mtrOff cfg
  rw [← flow_mtrIns _ l] at hoff
  rw [mtr_isEmpty]
  unfold HwNat.syncMtrTbl
  cases l.any (·.Type_ = .preMtr) with
  | true =>
    have hon := hoff.preMtrEbl cfg true
    rw [update_comm (by decide : Engine.postMtr ≠ .preMtr), update_idem] at hon
    cases hv : cfg.ipv6 <;> simpa [hv] using hon
  | false =>
    cases l.any (·.Type_ = .postMtr) with
    | true =>
      have hon := hoff.postMtrEbl cfg true
      cases hv : cfg.ipv6 <;> simpa [hv] using hon
    | false => cases hv : cfg.ipv6 <;> simpa [hv] using hoff

def Driver.hasRule (s : Driver) : Engine → Bool
  | .preAcl => !s.acl.isEmpty
  | .preMtr => s.mtr.list.any (·.Type_ = .preMtr)
  | .preAc => s.ac.list.any (·.Type_ = .preAc)
  | .postMtr => s.mtr.list.any (·.Type_ = .postMtr)
  | .postAc => s.ac.list.any (·.Type_ = .postAc)

/-- The flags of an engine are set when its list has a rule for it and clear when not, and
the IPv6 flag, where it is built, is set when an engine is on and clear when none is. -/
structure Mirrors (cfg : Build) (s : Driver) : Prop where
  engine : ∀ e, s.ppe.reg .flowSet &&& flowBits e = if s.hasRule e then flowBits e else 0
  ipv6 : cfg.ipv6 → (s.ppe.reg .flowSet &&& BIT_IPV6_PE_EN = BIT_IPV6_PE_EN ↔
    ∃ e, s.ppe.reg .flowSet &&& flowBits e = flowBits e)

variable {s s' : Driver}

theorem ite_flowBits_inj (e : Engine) {a b : Bool} :
    ((if a then flowBits e else 0) = if b then flowBits e else 0) ↔ a = b := by
  have hne : flowBits e ≠ 0#32 := flowBits_ne_zero e
  cases a <;> cases b <;> simp [hne, hne.symm]

theorem Shows.mirrors_iff (h : Shows (s.ppe.reg .flowSet) on_ v6) :
    Mirrors cfg s ↔ on_ = s.hasRule ∧ (cfg.ipv6 → (v6 ↔ ∃ e, on_ e)) := by
  constructor
  · intro hm
    refine ⟨funext fun e => ?_, fun hv => ?_⟩
    · have := hm.engine e
      rw [h.engine e] at this
      exact (ite_flowBits_inj e).mp this
    · have := hm.ipv6 hv
      simpa only [h.ipv6_iff, h.on_iff] using this
  · rintro ⟨rfl, hv6⟩
    refine ⟨h.engine, fun hv => ?_⟩
    simpa only [h.ipv6_iff, h.on_iff] using hv6 hv

theorem ac_rule (s : Driver) : s.ac.list ≠ [] ↔ s.hasRule .preAc ∨ s.hasRule .postAc := by
  have h := ac_isEmpty s.ac.list
  simp only [Driver.hasRule]
  cases hp : s.ac.list.any (·.Type_ = .preAc) <;> cases hq : s.ac.list.any (·.Type_ = .postAc) <;>
    rw [hp, hq] at h <;> simpa using h

theorem mtr_rule (s : Driver) : s.mtr.list ≠ [] ↔ s.hasRule .preMtr ∨ s.hasRule .postMtr := by
  have h := mtr_isEmpty s.mtr.list
  simp only [Driver.hasRule]
  cases hp : s.mtr.list.any (·.Type_ = .preMtr) <;> cases hq : s.mtr.list.any (·.Type_ = .postMtr) <;>
    rw [hp, hq] at h <;> simpa using h

theorem acl_rule (s : Driver) : s.acl ≠ [] ↔ s.hasRule .preAcl := by simp [Driver.hasRule]

theorem hasRule_exists (s : Driver) :
    (∃ e, s.hasRule e) ↔ s.acl ≠ [] ∨ s.ac.list ≠ [] ∨ s.mtr.list ≠ [] := by
  rw [acl_rule, ac_rule, mtr_rule]
  constructor
  · rintro ⟨e, he⟩
    cases e with
    | preAcl => exact .inl he
    | preMtr => exact .inr (.inr (.inl he))
    | preAc => exact .inr (.inl (.inl he))
    | postMtr => exact .inr (.inr (.inr he))
    | postAc => exact .inr (.inl (.inr he))
  · rintro (h | (h | h) | h | h) <;> exact ⟨_, h⟩

def Mixed (l : List MtrPlcyNode) : Prop :=
  l.any (·.Type_ = .preMtr) ∧ l.any (·.Type_ = .postMtr)

def OneMtrOn (s : Driver) : Prop :=
  ∃ on_ v6, Shows (s.ppe.reg .flowSet) on_ v6 ∧ ¬ (on_ .preMtr ∧ on_ .postMtr)

theorem OneMtrOn.of_shows (h : OneMtrOn s)
    (hsh : ∀ on_ v6, Shows (s.ppe.reg .flowSet) on_ v6 → ∃ on' v6',
      Shows (s'.ppe.reg .flowSet) on' v6' ∧
        (on' .preMtr ∧ on' .postMtr → on_ .preMtr ∧ on_ .postMtr)) : OneMtrOn s' := by
  obtain ⟨on_, v6, hon, hone⟩ := h
  obtain ⟨on', v6', hon', himp⟩ := hsh on_ v6 hon
  exact ⟨on', v6', hon', hone ∘ himp⟩

theorem OneMtrOn.step (h : OneMtrOn s) (c : Call) : OneMtrOn (s.step cfg c) := by
  cases c with
  | aclAddNode node mem =>
    simp only [Driver.step, Driver.call, aclAddNode]
    split
    · exact h
    · split
      · exact h
      · exact h.of_shows fun _ _ h => ⟨_, _, h.syncAclTbl cfg _, by simp⟩
  | aclDelNode node =>
    simp only [Driver.step, Driver.call, aclDelNode]
    split
    · exact h
    · exact h.of_shows fun _ _ h => ⟨_, _, h.syncAclTbl cfg _, by simp⟩
  | aclCleanTbl => exact h.of_shows fun _ _ h => ⟨_, _, h.preAclEbl cfg false, by simp⟩
  | acAddNode node mem =>
    simp only [Driver.step, Driver.call, acAddNode]
    split
    · exact h
    · split
      · exact h
      · exact h.of_shows fun _ _ h => ⟨_, _, h.syncAcTbl cfg _, by simp⟩
  | acDelNode node =>
    simp only [Driver.step, Driver.call, acDelNode]
    split
    · exact h
    · exact h.of_shows fun _ _ h => ⟨_, _, h.syncAcTbl cfg _, by simp⟩
  | acCleanTbl => exact h.of_shows fun _ _ h => ⟨_, _, h.acOff cfg, by simp⟩
  | mtrAddNode node mem =>
    simp only [Driver.step, Driver.call, mtrAddNode]
    split
    · exact h.of_shows fun _ _ h => ⟨_, _, h.syncMtrTbl cfg _, by simp +contextual⟩
    · split
      · exact h
      · exact h.of_shows fun _ _ h => ⟨_, _, h.syncMtrTbl cfg _, by simp +contextual⟩
  | mtrDelNode node =>
    simp only [Driver.step, Driver.call, mtrDelNode]
    split
    · exact h
    · exact h.of_shows fun _ _ h => ⟨_, _, h.syncMtrTbl cfg _, by simp +contextual⟩
  | mtrCleanTbl => exact h.of_shows fun _ _ h => ⟨_, _, h.mtrOff cfg, by simp⟩

theorem OneMtrOn.not_mixed (h : OneMtrOn s) (hm : Mirrors cfg s) :
    ¬ Mixed s.mtr.list := by
  obtain ⟨on_, v6, hsh, hone⟩ := h
  rw [(hsh.mirrors_iff.mp hm).1] at hone
  exact hone

section Step

variable (hm : Mirrors cfg s) (ho : OneMtrOn s)
include hm ho

theorem mirrors_acl {l : List AclPlcyNode} {p' : Ppe}
    (shows_ : ∀ on_ v6, Shows (s.ppe.reg .flowSet) on_ v6 →
      Shows (p'.reg .flowSet) (update on_ .preAcl (!l.isEmpty))
        (if cfg.ipv6 then !l.isEmpty else v6)) :
    Mirrors cfg { s with acl := l, ppe := p' } ↔
      (cfg.ipv6 → l = [] → s.ac.list = [] ∧ s.mtr.list = []) := by
  obtain ⟨on_, v6, hsh, -⟩ := ho
  obtain ⟨rfl, -⟩ := hsh.mirrors_iff.mp hm
  have hs' := shows_ _ _ hsh
  have hon : update s.hasRule .preAcl (!l.isEmpty) =
      ({ s with acl := l, ppe := p' } : Driver).hasRule := by
    funext e
    cases e <;> simp [Driver.hasRule]
  rw [hon] at hs'
  rw [Shows.mirrors_iff hs', hasRule_exists]
  simp only [true_and]
  refine forall_congr' fun hv => ?_
  rw [if_pos hv]
  simp only [Bool.not_eq_true', List.isEmpty_eq_false_iff]
  tauto

theorem mirrors_ac {t : AcTable} {p' : Ppe}
    (shows_ : ∀ on_ v6, Shows (s.ppe.reg .flowSet) on_ v6 →
      Shows (p'.reg .flowSet)
        (update (update on_ .preAc (t.list.any (·.Type_ = .preAc))) .postAc
          (t.list.any (·.Type_ = .postAc)))
        (if cfg.ipv6 then !t.list.isEmpty else v6)) :
    Mirrors cfg { s with ac := t, ppe := p' } ↔
      (cfg.ipv6 → t.list = [] → s.acl = [] ∧ s.mtr.list = []) := by
  obtain ⟨on_, v6, hsh, -⟩ := ho
  obtain ⟨rfl, -⟩ := hsh.mirrors_iff.mp hm
  have hs' := shows_ _ _ hsh
  have hon : update (update s.hasRule .preAc (t.list.any (·.Type_ = .preAc))) .postAc
      (t.list.any (·.Type_ = .postAc)) = ({ s with ac := t, ppe := p' } : Driver).hasRule := by
    funext e
    cases e <;> simp [Driver.hasRule]
  rw [hon] at hs'
  rw [Shows.mirrors_iff hs', hasRule_exists]
  simp only [true_and]
  refine forall_congr' fun hv => ?_
  rw [if_pos hv]
  simp only [Bool.not_eq_true', List.isEmpty_eq_false_iff]
  tauto

theorem mirrors_mtr {t : MtrTable} {p' : Ppe}
    (shows_ : ∀ on_ v6, Shows (s.ppe.reg .flowSet) on_ v6 →
      Shows (p'.reg .flowSet)
        (update (update on_ .preMtr (t.list.any (·.Type_ = .preMtr))) .postMtr
          (!t.list.any (·.Type_ = .preMtr) && t.list.any (·.Type_ = .postMtr)))
        (if cfg.ipv6 then !t.list.isEmpty else v6)) :
    Mirrors cfg { s with mtr := t, ppe := p' } ↔ ¬ Mixed t.list ∧
      (cfg.ipv6 → t.list = [] → s.acl = [] ∧ s.ac.list = []) := by
  obtain ⟨on_, v6, hsh, -⟩ := ho
  obtain ⟨rfl, -⟩ := hsh.mirrors_iff.mp hm
  have hs' := shows_ _ _ hsh
  have hrule : ∀ e, ({ s with mtr := t, ppe := p' } : Driver).hasRule e =
      update (update s.hasRule .preMtr (t.list.any (·.Type_ = .preMtr))) .postMtr
        (t.list.any (·.Type_ = .postMtr)) e := by
    intro e
    cases e <;> simp [Driver.hasRule]
  rw [Shows.mirrors_iff hs']
  constructor
  · rintro ⟨hon, hv6⟩
    refine ⟨?_, fun hv hnil => ?_⟩
    · rintro ⟨hpre, hpost⟩
      have := congrFun hon .postMtr
      rw [hrule] at this
      simp [hpre, hpost] at this
    · have hex := hv6 hv
      rw [hon, hasRule_exists, if_pos hv] at hex
      simpa [hnil] using hex
  · rintro ⟨hmix, hnil⟩
    have hon : update (update s.hasRule .preMtr (t.list.any (·.Type_ = .preMtr))) .postMtr
        (!t.list.any (·.Type_ = .preMtr) && t.list.any (·.Type_ = .postMtr)) =
        ({ s with mtr := t, ppe := p' } : Driver).hasRule := by
      funext e
      rw [hrule]
      by_cases hpre : t.list.any (·.Type_ = .preMtr)
      · have hpost : t.list.any (·.Type_ = .postMtr) = false :=
          Bool.eq_false_iff.mpr fun hpost => hmix ⟨hpre, hpost⟩
        rw [hpost, Bool.and_false]
      · rw [Bool.eq_false_iff.mpr hpre, Bool.not_false, Bool.true_and]
    rw [hon, hasRule_exists]
    refine ⟨rfl, fun hv => ?_⟩
    have := hnil hv
    rw [if_pos hv]
    simp only [Bool.not_eq_true', List.isEmpty_eq_false_iff]
    tauto

end Step

/-- The calls after which the flags still mirror the lists. A new metering rule is for the
same engine as those there are; and where the IPv6 flag is built, a table that is emptied,
or cleaned while it is empty, is not left by rules of the other two. -/
def FlowSafe (cfg : Build) (s : Driver) : Call → Prop
  | .aclAddNode _ _ | .acAddNode _ _ => True
  | .aclDelNode node =>
    cfg.ipv6 → (∃ m, s.acl = [m] ∧ aclDeletes node m) → s.ac.list = [] ∧ s.mtr.list = []
  | .aclCleanTbl => cfg.ipv6 → s.ac.list = [] ∧ s.mtr.list = []
  | .acDelNode node =>
    cfg.ipv6 → (∃ m, s.ac.list = [m] ∧ acDeletes node m) → s.acl = [] ∧ s.mtr.list = []
  | .acCleanTbl => cfg.ipv6 → s.acl = [] ∧ s.mtr.list = []
  | .mtrAddNode node mem =>
    mem → mtrExistNode s.mtr.list node = none → ∀ m ∈ s.mtr.list, m.Type_ = node.Type_
  | .mtrDelNode node =>
    cfg.ipv6 → (∃ m, s.mtr.list = [m] ∧ mtrDeletes node m) → s.acl = [] ∧ s.ac.list = []
  | .mtrCleanTbl => cfg.ipv6 → s.acl = [] ∧ s.ac.list = []

theorem mixed_append {l : List MtrPlcyNode} {node : MtrPlcyNode} (hl : ¬ Mixed l) :
    ¬ Mixed (l ++ [node]) ↔ ∀ m ∈ l, m.Type_ = node.Type_ := by
  have htype : ∀ m : MtrPlcyNode, m.Type_ = .preMtr ∨ m.Type_ = .postMtr := by
    intro m
    cases m.Type_ <;> simp
  simp only [Mixed, List.any_append, List.any_cons, List.any_nil, Bool.or_false, Bool.or_eq_true,
    List.any_eq_true, decide_eq_true_eq] at hl ⊢
  constructor
  · intro h m hm
    by_contra hne
    apply h
    rcases htype m with ht | ht <;> rcases htype node with hn | hn
    · exact absurd (ht.trans hn.symm) hne
    · exact ⟨.inl ⟨m, hm, ht⟩, .inr hn⟩
    · exact ⟨.inr hn, .inl ⟨m, hm, ht⟩⟩
    · exact absurd (ht.trans hn.symm) hne
  · rintro h ⟨⟨m, hm, hpre⟩ | hn, hr⟩
    · rcases hr with ⟨m', hm', hpost⟩ | hn
      · exact hl ⟨⟨m, hm, hpre⟩, ⟨m', hm', hpost⟩⟩
      · rw [h m hm, hn] at hpre
        cases hpre
    · rcases hr with ⟨m', hm', hpost⟩ | hn'
      · rw [h m' hm', hn] at hpost
        cases hpost
      · rw [hn] at hn'
        cases hn'

theorem mixed_eraseP {l : List MtrPlcyNode} {q : MtrPlcyNode → Bool} (hl : ¬ Mixed l) :
    ¬ Mixed (l.eraseP q) := by
  rintro ⟨hpre, hpost⟩
  refine hl ⟨?_, ?_⟩
  · by_contra h
    rw [Scan.any_eraseP (Bool.eq_false_iff.mpr h)] at hpre
    cases hpre
  · by_contra h
    rw [Scan.any_eraseP (Bool.eq_false_iff.mpr h)] at hpost
    cases hpost

theorem mixed_setInfo (l : List MtrPlcyNode) (node : MtrPlcyNode) :
    Mixed (mtrSetInfo l node) ↔ Mixed l := by
  have hany : ∀ type, (mtrSetInfo l node).any (·.Type_ = type) = l.any (·.Type_ = type) := by
    intro type
    refine Scan.any_replaceF (fun x y hxy => ?_) l
    simp only [Option.ite_none_right_eq_some, Option.some.injEq] at hxy
    rw [← hxy.2]
  rw [Mixed, hany, hany, Mixed]

theorem mirrors_step (hm : Mirrors cfg s) (ho : OneMtrOn s) (c : Call) :
    Mirrors cfg (s.step cfg c) ↔ FlowSafe cfg s c := by
  have hmix := ho.not_mixed hm
  cases c with
  | aclAddNode node mem =>
    simp only [Driver.step, Driver.call, aclAddNode, FlowSafe, iff_true]
    split
    · exact hm
    · split
      · exact hm
      · refine (mirrors_acl hm ho fun _ _ h => h.syncAclTbl cfg _).mpr fun _ hnil => ?_
        simp at hnil
  | aclDelNode node =>
    simp only [Driver.step, Driver.call, aclDelNode, FlowSafe]
    cases hf : s.acl.find? (aclDeletes node) with
    | none =>
      refine ⟨fun _ _ => ?_, fun _ => hm⟩
      rintro ⟨m, hl, hd⟩
      simp [hl, hd] at hf
    | some m =>
      refine (mirrors_acl hm ho fun _ _ h => h.syncAclTbl cfg _).trans ?_
      exact forall_congr' fun _ => imp_congr_left (Scan.eraseP_eq_nil_of_find? hf)
  | aclCleanTbl =>
    refine (mirrors_acl hm ho fun _ _ h => h.preAclEbl cfg false).trans ?_
    exact forall_congr' fun _ => forall_prop_of_true rfl
  | acAddNode node mem =>
    simp only [Driver.step, Driver.call, acAddNode, FlowSafe, iff_true]
    split
    · exact hm
    · split
      · exact hm
      · refine (mirrors_ac hm ho fun _ _ h => h.syncAcTbl cfg _).mpr fun _ hnil => ?_
        simp [GroupTable.insert] at hnil
  | acDelNode node =>
    simp only [Driver.step, Driver.call, acDelNode, GroupTable.remove, FlowSafe]
    cases hf : s.ac.list.find? (acDeletes node) with
    | none =>
      refine ⟨fun _ _ => ?_, fun _ => hm⟩
      rintro ⟨m, hl, hd⟩
      simp [hl, hd] at hf
    | some m =>
      refine (mirrors_ac hm ho fun _ _ h => h.syncAcTbl cfg _).trans ?_
      exact forall_congr' fun _ => imp_congr_left (Scan.eraseP_eq_nil_of_find? hf)
  | acCleanTbl =>
    refine (mirrors_ac hm ho fun _ _ h => h.acOff cfg).trans ?_
    exact forall_congr' fun _ => forall_prop_of_true rfl
  | mtrAddNode node mem =>
    simp only [Driver.step, Driver.call, mtrAddNode, FlowSafe]
    cases hf : mtrExistNode s.mtr.list node with
    | some m =>
      refine iff_of_true ?_ (by simp)
      refine (mirrors_mtr (t := { s.mtr with list := mtrSetInfo s.mtr.list node }) hm ho
        fun _ _ h => h.syncMtrTbl cfg _).mpr ⟨?_, ?_⟩
      · rwa [mixed_setInfo]
      · intro _ hnil
        rw [mtrSetInfo, Scan.replaceF_eq_nil] at hnil
        rw [hnil] at hf
        cases hf
    | none =>
      cases mem with
      | false => exact iff_of_true hm (by simp)
      | true =>
        refine (mirrors_mtr hm ho fun _ _ h => h.syncMtrTbl cfg _).trans ?_
        rw [and_iff_left (fun _ hnil => by simp [GroupTable.insert] at hnil)]
        simp only [forall_true_left]
        exact mixed_append hmix
  | mtrDelNode node =>
    simp only [Driver.step, Driver.call, mtrDelNode, GroupTable.remove, FlowSafe]
    cases hf : s.mtr.list.find? (mtrDeletes node) with
    | none =>
      refine ⟨fun _ _ => ?_, fun _ => hm⟩
      rintro ⟨m, hl, hd⟩
      simp [hl, hd] at hf
    | some m =>
      refine (mirrors_mtr hm ho fun _ _ h => h.syncMtrTbl cfg _).trans ?_
      rw [and_iff_right (mixed_eraseP hmix)]
      exact forall_congr' fun _ => imp_congr_left (Scan.eraseP_eq_nil_of_find? hf)
  | mtrCleanTbl =>
    refine (mirrors_mtr hm ho fun _ _ h => h.mtrOff cfg).trans ?_
    rw [and_iff_right (by simp [Mixed, mtrCleanTbl, GroupTable.clean])]
    exact forall_congr' fun _ => forall_prop_of_true rfl

theorem clear_engines {l : List Engine} {n : BitVec 32} (f : BitVec 32)
    (h : (∃ e ∈ l, eblBits cfg e &&& n = n) ∨ f &&& n = 0) :
    l.foldl (fun f e => f &&& ~~~ eblBits cfg e) f &&& n = 0 := by
  induction l generalizing f with
  | nil => simpa using h
  | cons e l ih =>
    refine ih _ ?_
    rcases h with ⟨e', he', hsub⟩ | hz
    · rcases List.mem_cons.mp he' with rfl | hmem
      · exact .inr (andNot_and_of_subset f hsub)
      · exact .inl ⟨e', hmem, hsub⟩
    · right
      rw [BitVec.and_assoc, BitVec.and_comm _ n, ← BitVec.and_assoc, hz]
      exact BitVec.zero_and

theorem ipv6_set_or_clear (f : BitVec 32) :
    ∃ v6 : Bool, f &&& BIT_IPV6_PE_EN = if v6 then BIT_IPV6_PE_EN else 0 := by
  refine ⟨f.getLsbD 25, BitVec.eq_of_getLsbD_eq fun i hi => ?_⟩
  have hbit : BIT_IPV6_PE_EN.getLsbD i = decide (i = 25) := by
    show (1#32 <<< 25).getLsbD i = _
    rw [← BitVec.twoPow_eq, BitVec.getLsbD_twoPow]
    by_cases h : i = 25 <;> simp [h, eq_comm]
  rw [BitVec.getLsbD_and, hbit]
  by_cases h : i = 25
  · subst h
    cases f.getLsbD 25 <;> simp [hbit]
  · cases f.getLsbD 25 <;> simp [hbit, h]

theorem shows_init (cfg : Build) (sizes : RuleSizes) (p : Ppe) :
    ∃ v6, Shows ((ppeInitMod cfg sizes p).ppe.reg .flowSet) (fun _ => false) v6 ∧
      (cfg.ipv6 → v6 = false) := by
  obtain ⟨f, hf⟩ : ∃ f, (ppeInitMod cfg sizes p).ppe.reg .flowSet =
      [Engine.preAcl, .preMtr, .postMtr, .preAc, .postAc].foldl
        (fun f e => f &&& ~~~ eblBits cfg e) f := by
    exact ⟨_, by simp [ppeInitMod, ppeEngStart, ppeSetPreAclEbl, ppeSetPreMtrEbl, ppeSetPostMtrEbl,
      ppeSetPreAcEbl, ppeSetPostAcEbl, setEbl, Ppe.regRead, Ppe.regWrite]; rfl⟩
  obtain ⟨v6, hv6⟩ := ipv6_set_or_clear ((ppeInitMod cfg sizes p).ppe.reg .flowSet)
  refine ⟨v6, ⟨fun e => ?_, hv6⟩, fun hv => ?_⟩
  · rw [hf]
    exact clear_engines f (.inl ⟨e, by cases e <;> simp, eblBits_self e⟩)
  · have hsub : eblBits cfg .preAcl &&& BIT_IPV6_PE_EN = BIT_IPV6_PE_EN := by
      rw [eblBits, if_pos hv]
      decide
    rw [hf, clear_engines f (.inl ⟨.preAcl, by simp, hsub⟩)] at hv6
    cases v6 with
    | false => rfl
    | true => exact absurd hv6 (by decide)

theorem mirrors_init (cfg : Build) (sizes : RuleSizes) (p : Ppe) :
    Mirrors cfg (ppeInitMod cfg sizes p) ∧ OneMtrOn (ppeInitMod cfg sizes p) := by
  obtain ⟨v6, hsh, hv6⟩ := shows_init cfg sizes p
  refine ⟨hsh.mirrors_iff.mpr ⟨?_, fun hv => ?_⟩, ⟨_, v6, hsh, by simp⟩⟩
  · funext e
    cases e <;> rfl
  · simp [hv6 hv]

/-- The flags mirror the lists throughout a run exactly when every call of it is a safe one. -/
theorem flowSet_mirrors_iff (cfg : Build) (sizes : RuleSizes) (p : Ppe) (calls : List Call) :
    Run.AllSteps (Driver.step cfg) (FlowSafe cfg) (ppeInitMod cfg sizes p) calls ↔
      ∀ n, Mirrors cfg (Run.exec (Driver.step cfg) (ppeInitMod cfg sizes p) (calls.take n)) := by
  obtain ⟨hm, ho⟩ := mirrors_init cfg sizes p
  refine Run.allSteps_iff (Q := fun _ _ => True) (fun s c ho _ _ => ho.step c)
    (fun s c ho hm _ => mirrors_step hm ho c) ho hm ?_
  exact Run.AllSteps.of_forall fun _ _ _ => trivial

/-- A rule for each of the metering engines: the second call turns off the engine of the
rule that it adds. -/
theorem flowSet_not_mirrored :
    ¬ Mirrors ⟨false, false⟩ (Run.exec (Driver.step ⟨false, false⟩)
      (ppeInitMod ⟨false, false⟩ kconfigSizes Ppe.zero)
      [.mtrAddNode { Type_ := .preMtr, RuleType := .macGroup } true,
       .mtrAddNode { Type_ := .postMtr, RuleType := .macGroup } true]) := by
  intro h
  obtain ⟨hm, ho⟩ := mirrors_init ⟨false, false⟩ kconfigSizes Ppe.zero
  have hfirst := (mirrors_step hm ho (.mtrAddNode { Type_ := .preMtr, RuleType := .macGroup } true)).mpr
    (by simp [FlowSafe, ppeInitMod])
  have hsafe := (mirrors_step hfirst (ho.step _) _).mp h rfl (by decide) _ (List.mem_singleton.mpr rfl)
  cases hsafe

end Ralink.HwNat
