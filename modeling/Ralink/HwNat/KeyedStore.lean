import Ralink.Lib.Scan
import Ralink.HwNat.AcMtrPolicy

/-! A rule is known by its engine, its rule type and the fields of that type. What the scans of the
lists do, against what a map with these keys does. -/
namespace Ralink.HwNat

/-- The node is the one with the engine, the rule type and the fields of `a`. -/
def acSame (a node : AcPlcyNode) : Bool :=
  node.Type_ = a.Type_ ∧ node.RuleType = a.RuleType ∧ acKeyEq a node

/-- An add that succeeds leaves the rule in the list. -/
def AcAddHolds (cfg : Build) (s : Driver) (a : AcPlcyNode) (mem : Bool) : Prop :=
  (s.call cfg (.acAddNode a mem)).1 = .success →
    (s.step cfg (.acAddNode a mem)).ac.list.any (acSame a)

/-- A deletion takes out the rule and succeeds, or fails with the list as it was when the
rule is not there. -/
def AcDelExact (cfg : Build) (s : Driver) (a : AcPlcyNode) : Prop :=
  (s.call cfg (.acDelNode a)).1 = (if s.ac.list.any (acSame a) then .success else .fail) ∧
    (s.step cfg (.acDelNode a)).ac.list = s.ac.list.eraseP (acSame a)

/-- Adding an absent rule and deleting it gives the list back. -/
def AcAddDelRestores (cfg : Build) (s : Driver) (a : AcPlcyNode) (mem : Bool) : Prop :=
  ¬ s.ac.list.any (acSame a) →
    ((s.step cfg (.acAddNode a mem)).step cfg (.acDelNode a)).ac.list = s.ac.list

/-- The counters that are read are those of the group of the rule, whatever they hold. -/
def AcCountsRule (s : Driver) (a : AcPlcyNode) : Prop :=
  ∀ (cnt : Counters) (type : AcCntType), acGetCnt s.ac.list cnt a type =
    match s.ac.list.find? (acSame a) with
    | none => 0
    | some node =>
      match type with
      | .byteCnt => cnt (node.AgIdx.toNat * 8)
      | .pktCnt => cnt (node.AgIdx.toNat * 8 + 4)

section Ac

variable {cfg : Build} {s : Driver} {a : AcPlcyNode} {mem : Bool}

theorem acSame_group (a : AcPlcyNode) (g : BitVec 8) : acSame a { a with AgIdx := g } := by
  cases hr : a.RuleType <;> simp [acSame, acKeyEq, hr]

theorem acDeletes_of_same {node : AcPlcyNode} (h : acSame a node) : acDeletes a node := by
  simp only [acSame, decide_eq_true_eq] at h
  exact h.2.2

theorem acCounts_of_same {node : AcPlcyNode} (h : acSame a node) : acCounts a node := by
  simp only [acSame, decide_eq_true_eq] at h
  simp [acCounts, h.1, h.2.2]

theorem ac_call_add (cfg : Build) (s : Driver) (a : AcPlcyNode) (mem : Bool) :
    ∃ g, ((s.call cfg (.acAddNode a mem)).1 = .success ↔
      (Scan.add (acExists a) s.ac.list s.ac.list { a with AgIdx := g } mem).1) ∧
    (s.step cfg (.acAddNode a mem)).ac.list =
      (Scan.add (acExists a) s.ac.list s.ac.list { a with AgIdx := g } mem).2 := by
  refine ⟨BitVec.ofInt 8 s.ac.getFreeGrp.1, ?_⟩
  simp only [Driver.step, Driver.call, Driver.withAc, acAddNode, acExistNode, Scan.add,
    GroupTable.insert, List.find?_isSome, List.any_eq_true]
  split
  · simp
  · cases mem <;> simp

theorem ac_call_del (cfg : Build) (s : Driver) (a : AcPlcyNode) :
    ((s.call cfg (.acDelNode a)).1 = if (Scan.delete (acDeletes a) s.ac.list).1 then .success else .fail) ∧
      (s.step cfg (.acDelNode a)).ac.list = (Scan.delete (acDeletes a) s.ac.list).2 := by
  simp only [Driver.step, Driver.call, Driver.withAc, acDelNode, GroupTable.remove, Scan.delete]
  cases hf : s.ac.list.find? (acDeletes a) with
  | none =>
    have hno : ∀ x ∈ s.ac.list, ¬ acDeletes a x := by simpa using hf
    simp [List.eraseP_of_forall_not hno, List.any_eq_false.mpr hno]
  | some m =>
    have hany : s.ac.list.any (acDeletes a) :=
      List.any_eq_true.mpr ⟨m, List.mem_of_find?_eq_some hf, List.find?_some hf⟩
    simp [hany]

theorem acAddHolds_iff : AcAddHolds cfg s a mem ↔
    s.ac.list.any (acSame a) ∨ ∀ m ∈ s.ac.list, ¬ acExists a m := by
  obtain ⟨g, hres, hlist⟩ := ac_call_add cfg s a mem
  rw [AcAddHolds, hres, hlist]
  exact Scan.add_holds_iff (acSame_group a g) rfl

theorem acDelExact_iff : AcDelExact cfg s a ↔
    ∀ m, s.ac.list.find? (acDeletes a) = some m → acSame a m := by
  obtain ⟨hres, hlist⟩ := ac_call_del cfg s a
  rw [AcDelExact, hres, hlist, ← Scan.delete_eq_iff fun _ => acDeletes_of_same]
  exact Scan.delete_eq_of_result (by decide)

theorem acAddDelRestores_iff : AcAddDelRestores cfg s a mem ↔
    s.ac.list.any (acSame a) ∨ ∀ m ∈ s.ac.list, ¬ acDeletes a m := by
  obtain ⟨g, -, hlist⟩ := ac_call_add cfg s a mem
  rw [AcAddDelRestores, (ac_call_del cfg _ a).2, hlist]
  exact Scan.add_delete_iff (acSame_group a g) (acDeletes_of_same (acSame_group a g))
    fun _ => List.eraseP_eq_self_iff

theorem acCountsRule_iff : AcCountsRule s a ↔
    ∀ m, s.ac.list.find? (acCounts a) = some m →
      ∃ m', s.ac.list.find? (acSame a) = some m' ∧ m'.AgIdx = m.AgIdx := by
  unfold AcCountsRule acGetCnt
  cases hc : s.ac.list.find? (acCounts a) with
  | none =>
    have hs : s.ac.list.find? (acSame a) = none := by
      rw [List.find?_eq_none] at hc ⊢
      exact fun x hx hsame => hc x hx (acCounts_of_same hsame)
    simp [hs]
  | some m =>
    simp only [Option.some.injEq, forall_eq']
    cases hs : s.ac.list.find? (acSame a) with
    | none =>
      simp only [reduceCtorEq, false_and, exists_false, iff_false, not_forall]
      refine ⟨fun _ => 1, .byteCnt, ?_⟩
      show ¬ (1 : BitVec 32) = 0
      decide
    | some m' =>
      simp only [Option.some.injEq, exists_eq_left']
      constructor
      · intro h
        have hbit := h (fun i => if i = m.AgIdx.toNat * 8 then 1 else 0) .byteCnt
        by_contra hne
        have hidx : m'.AgIdx.toNat * 8 ≠ m.AgIdx.toNat * 8 := by
          intro heq
          exact hne (BitVec.eq_of_toNat_eq (Nat.eq_of_mul_eq_mul_right (by decide) heq))
        simp [hidx] at hbit
      · intro h cnt type
        cases type <;> simp [h]

end Ac

/-- The fields of a rule type; four of the types have none. -/
def mtrKeyEq (a node : MtrPlcyNode) : Bool :=
  match a.RuleType with
  | .macGroup => node.Mac = a.Mac
  | .ipGroup => node.IpS = a.IpS ∧ node.IpE = a.IpE
  | .syn | .fin | .protocolUdp | .protocolIcmp => true

def mtrSame (a node : MtrPlcyNode) : Bool :=
  node.Type_ = a.Type_ ∧ node.RuleType = a.RuleType ∧ mtrKeyEq a node

def MtrAddHolds (cfg : Build) (s : Driver) (a : MtrPlcyNode) (mem : Bool) : Prop :=
  (s.call cfg (.mtrAddNode a mem)).1 = .success →
    (s.step cfg (.mtrAddNode a mem)).mtr.list.any (mtrSame a)

def MtrDelExact (cfg : Build) (s : Driver) (a : MtrPlcyNode) : Prop :=
  (s.call cfg (.mtrDelNode a)).1 = (if s.mtr.list.any (mtrSame a) then .success else .fail) ∧
    (s.step cfg (.mtrDelNode a)).mtr.list = s.mtr.list.eraseP (mtrSame a)

def MtrAddDelRestores (cfg : Build) (s : Driver) (a : MtrPlcyNode) (mem : Bool) : Prop :=
  ¬ s.mtr.list.any (mtrSame a) →
    ((s.step cfg (.mtrAddNode a mem)).step cfg (.mtrDelNode a)).mtr.list = s.mtr.list

section Mtr

variable {cfg : Build} {s : Driver} {a : MtrPlcyNode} {mem : Bool}

theorem mtrSame_group (a : MtrPlcyNode) (g : BitVec 32) : mtrSame a { a with MgNum := g } := by
  cases hr : a.RuleType <;> simp [mtrSame, mtrKeyEq, hr]

theorem mtrDeletes_of_same {node : MtrPlcyNode} (h : mtrSame a node) : mtrDeletes a node := by
  simp only [mtrSame, decide_eq_true_eq] at h
  obtain ⟨-, hr, hk⟩ := h
  cases ha : a.RuleType <;> simp_all [mtrKeyEq, mtrDeletes]

theorem mtrDeletes_of_exists {node : MtrPlcyNode} (h : mtrExists a node) : mtrDeletes a node := by
  cases ha : a.RuleType <;> simp_all [mtrExists, mtrDeletes]

theorem mtr_call_add (cfg : Build) (s : Driver) (a : MtrPlcyNode) (mem : Bool) :
    ∃ g, ((s.call cfg (.mtrAddNode a mem)).1 = .success ↔
      (Scan.add (mtrExists a) s.mtr.list (mtrSetInfo s.mtr.list a) { a with MgNum := g } mem).1) ∧
    (s.step cfg (.mtrAddNode a mem)).mtr.list =
      (Scan.add (mtrExists a) s.mtr.list (mtrSetInfo s.mtr.list a) { a with MgNum := g } mem).2 := by
  refine ⟨BitVec.ofInt 32 s.mtr.getFreeGrp.1, ?_⟩
  simp only [Driver.step, Driver.call, Driver.withMtr, mtrAddNode, mtrExistNode, Scan.add,
    GroupTable.insert, List.find?_isSome, List.any_eq_true]
  split
  · simp
  · cases mem <;> simp

theorem mtr_call_del (cfg : Build) (s : Driver) (a : MtrPlcyNode) :
    ((s.call cfg (.mtrDelNode a)).1 = if (Scan.delete (mtrDeletes a) s.mtr.list).1 then .success else .fail) ∧
      (s.step cfg (.mtrDelNode a)).mtr.list = (Scan.delete (mtrDeletes a) s.mtr.list).2 := by
  simp only [Driver.step, Driver.call, Driver.withMtr, mtrDelNode, GroupTable.remove, Scan.delete]
  cases hf : s.mtr.list.find? (mtrDeletes a) with
  | none =>
    have hno : ∀ x ∈ s.mtr.list, ¬ mtrDeletes a x := by simpa using hf
    simp [List.eraseP_of_forall_not hno, List.any_eq_false.mpr hno]
  | some m =>
    have hany : s.mtr.list.any (mtrDeletes a) :=
      List.any_eq_true.mpr ⟨m, List.mem_of_find?_eq_some hf, List.find?_some hf⟩
    simp [hany]

theorem any_setInfo {q : MtrPlcyNode → Bool} (hq : ∀ node info, q { node with info := info } = q node)
    (l : List MtrPlcyNode) : (mtrSetInfo l a).any q = l.any q := by
  refine Scan.any_replaceF (fun x y hxy => ?_) l
  simp only [Option.ite_none_right_eq_some, Option.some.injEq] at hxy
  rw [← hxy.2, hq]

theorem mtrAddHolds_iff : MtrAddHolds cfg s a mem ↔
    s.mtr.list.any (mtrSame a) ∨ ∀ m ∈ s.mtr.list, ¬ mtrExists a m := by
  obtain ⟨g, hres, hlist⟩ := mtr_call_add cfg s a mem
  rw [MtrAddHolds, hres, hlist]
  exact Scan.add_holds_iff (mtrSame_group a g) (any_setInfo (fun _ _ => rfl) _)

theorem mtrDelExact_iff : MtrDelExact cfg s a ↔
    ∀ m, s.mtr.list.find? (mtrDeletes a) = some m → mtrSame a m := by
  obtain ⟨hres, hlist⟩ := mtr_call_del cfg s a
  rw [MtrDelExact, hres, hlist, ← Scan.delete_eq_iff fun _ => mtrDeletes_of_same]
  exact Scan.delete_eq_of_result (by decide)

theorem mtrAddDelRestores_iff : MtrAddDelRestores cfg s a mem ↔
    s.mtr.list.any (mtrSame a) ∨ ∀ m ∈ s.mtr.list, ¬ mtrDeletes a m := by
  obtain ⟨g, -, hlist⟩ := mtr_call_add cfg s a mem
  rw [MtrAddDelRestores, (mtr_call_del cfg _ a).2, hlist]
  refine Scan.add_delete_iff (mtrSame_group a g) (mtrDeletes_of_same (mtrSame_group a g)) fun hex => ?_
  -- the rule that is found is deleted in its place
  obtain ⟨x, hx, hexx⟩ := List.any_eq_true.mp hex
  refine iff_of_false (fun herase => ?_) fun hno => hno x hx (mtrDeletes_of_exists hexx)
  have hany : (mtrSetInfo s.mtr.list a).any (mtrDeletes a) := by
    rw [any_setInfo fun _ _ => rfl]
    exact List.any_eq_true.mpr ⟨x, hx, mtrDeletes_of_exists hexx⟩
  have hlen := congrArg List.length herase
  rw [List.length_eraseP, if_pos hany, mtrSetInfo, Scan.length_replaceF] at hlen
  have := List.length_pos_of_mem hx
  omega

end Mtr

/-- What keyed maps promise, for both stores, each with the condition under which it is
kept. -/
theorem keyedStore_iff (cfg : Build) (s : Driver) (a : AcPlcyNode) (b : MtrPlcyNode) (mem : Bool) :
    ((AcAddHolds cfg s a mem ↔
        s.ac.list.any (acSame a) ∨ ∀ m ∈ s.ac.list, ¬ acExists a m) ∧
      (AcDelExact cfg s a ↔ ∀ m, s.ac.list.find? (acDeletes a) = some m → acSame a m) ∧
      (AcAddDelRestores cfg s a mem ↔
        s.ac.list.any (acSame a) ∨ ∀ m ∈ s.ac.list, ¬ acDeletes a m) ∧
      (AcCountsRule s a ↔ ∀ m, s.ac.list.find? (acCounts a) = some m →
        ∃ m', s.ac.list.find? (acSame a) = some m' ∧ m'.AgIdx = m.AgIdx)) ∧
    (MtrAddHolds cfg s b mem ↔
        s.mtr.list.any (mtrSame b) ∨ ∀ m ∈ s.mtr.list, ¬ mtrExists b m) ∧
      (MtrDelExact cfg s b ↔ ∀ m, s.mtr.list.find? (mtrDeletes b) = some m → mtrSame b m) ∧
      (MtrAddDelRestores cfg s b mem ↔
        s.mtr.list.any (mtrSame b) ∨ ∀ m ∈ s.mtr.list, ¬ mtrDeletes b m) :=
  ⟨⟨acAddHolds_iff, acDelExact_iff, acAddDelRestores_iff, acCountsRule_iff⟩,
    mtrAddHolds_iff, mtrDelExact_iff, mtrAddDelRestores_iff⟩

/-- A rule for each direction of one address: deleting the second takes out the first. -/
theorem keyedStore_deletes_other :
    ¬ AcDelExact ⟨false, false⟩
      (Run.exec (Driver.step ⟨false, false⟩) (ppeInitMod ⟨false, false⟩ kconfigSizes Ppe.zero)
        [.acAddNode { Type_ := .preAc, RuleType := .macGroup } true,
         .acAddNode { Type_ := .postAc, RuleType := .macGroup } true])
      { Type_ := .postAc, RuleType := .macGroup } := by
  rw [acDelExact_iff]
  intro h
  have := h { Type_ := .preAc, RuleType := .macGroup } (by decide)
  exact absurd this (by decide)

end Ralink.HwNat
