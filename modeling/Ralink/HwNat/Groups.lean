import Ralink.Lib.Scan
import Ralink.HwNat.AcMtrPolicy

/-! When the bitmap of a table holds exactly the groups of its rules, each group once. -/
namespace Ralink.HwNat

namespace GroupTable

variable {α : Type} {t : GroupTable α} {group : α → Nat}

/-- Every rule has a group of the 64, no two rules have the same, and the bits that are set
are those of the groups that rules have. -/
structure Exact (t : GroupTable α) (group : α → Nat) : Prop where
  bound : ∀ node ∈ t.list, group node < 64
  nodup : (t.list.map group).Nodup
  used : ∀ g < 64, Bitmap.used t.freeList g ↔ ∃ node ∈ t.list, group node = g

theorem Exact.firstFree_iff (h : t.Exact group) :
    Bitmap.firstFree 64 t.freeList = none ↔ 64 ≤ t.list.length := by
  rw [Bitmap.firstFree_eq_none]
  constructor
  · intro hall
    have hmem : ∀ g < 64, g ∈ t.list.map group := by
      intro g hg
      simpa using (h.used g hg).mp (hall g hg)
    simpa using Bitmap.le_length_of_forall_mem hmem
  · intro hlen g hg
    rw [h.used g hg]
    have hsub : t.list.map group ⊆ List.range 64 := by
      intro g hg
      obtain ⟨node, hn, rfl⟩ := List.mem_map.mp hg
      exact List.mem_range.mpr (h.bound node hn)
    have hperm := (List.subperm_of_subset h.nodup hsub).perm_of_length_le (by simpa using hlen)
    simpa using hperm.mem_iff.mpr (List.mem_range.mpr hg)

theorem getFreeGrp_eq_neg_one : t.getFreeGrp.1 = -1 ↔ Bitmap.firstFree 64 t.freeList = none := by
  unfold getFreeGrp
  cases Bitmap.firstFree 64 t.freeList with
  | none => simp
  | some g => simp

variable {node : Int → α}

theorem Exact.insert (h : t.Exact group) (hg : ∀ g < 64, group (node (g : Nat)) = g)
    (hlen : t.list.length < 64) : (t.insert node).Exact group := by
  obtain ⟨g, hfree⟩ := Option.ne_none_iff_exists'.mp (mt h.firstFree_iff.mp (not_le.mpr hlen))
  obtain ⟨hlt, hunused⟩ := Bitmap.firstFree_spec hfree
  have hnew : ¬ ∃ node ∈ t.list, group node = g := by
    rw [← h.used g hlt, hunused]
    simp
  have hins : t.insert node = ⟨t.list ++ [node g], Bitmap.setBit t.freeList g⟩ := by
    simp [GroupTable.insert, getFreeGrp, hfree]
  rw [hins]
  constructor
  · intro n hn
    rcases List.mem_append.mp hn with hn | hn
    · exact h.bound n hn
    · rw [List.mem_singleton.mp hn, hg g hlt]
      exact hlt
  · simp only [List.map_append, List.map_cons, List.map_nil, hg g hlt]
    refine List.nodup_append.mpr ⟨h.nodup, List.nodup_singleton g, ?_⟩
    intro a ha b hb hab
    rw [List.mem_singleton.mp hb] at hab
    exact hnew (by simpa [hab] using ha)
  · intro g' hg'
    have := h.used g' hg'
    simp only [Bitmap.used_setBit, Bool.or_eq_true, decide_eq_true_eq, List.mem_append,
      List.mem_singleton]
    constructor
    · rintro (rfl | hu)
      · exact ⟨_, .inr rfl, hg _ hg'⟩
      · obtain ⟨n, hn, rfl⟩ := this.mp hu
        exact ⟨n, .inl hn, rfl⟩
    · rintro ⟨n, hn | rfl, rfl⟩
      · exact .inr (this.mpr ⟨n, hn, rfl⟩)
      · exact .inl (hg g hlt)

theorem not_exact_insert (hneg : 64 ≤ group (node (-1)))
    (hfull : Bitmap.firstFree 64 t.freeList = none) : ¬ (t.insert node).Exact group := by
  intro h
  have hins : t.insert node = ⟨t.list ++ [node (-1)], t.freeList⟩ := by
    simp [GroupTable.insert, getFreeGrp, hfull]
  rw [hins] at h
  exact absurd (h.bound (node (-1)) (by simp)) (not_lt.mpr hneg)

theorem Exact.insert_iff (h : t.Exact group) (hg : ∀ g < 64, group (node (g : Nat)) = g)
    (hneg : 64 ≤ group (node (-1))) : (t.insert node).Exact group ↔ t.list.length < 64 := by
  constructor
  · intro h'
    by_contra hlen
    exact not_exact_insert hneg (h.firstFree_iff.mpr (not_lt.mp hlen)) h'
  · exact h.insert hg

theorem Exact.remove {found : α → Bool} {t' : GroupTable α} (h : t.Exact group)
    (hr : t.remove found group = some t') : t'.Exact group := by
  obtain ⟨node, hf, rfl⟩ := Option.map_eq_some_iff.mp hr
  obtain ⟨l₁, l₂, hl, -, -, herase⟩ := Scan.find?_split hf
  have hnd := h.nodup
  rw [hl, List.map_append, List.map_cons] at hnd
  have hnode : node ∈ t.list := by simp [hl]
  have hother : ∀ n ∈ l₁ ++ l₂, group n ≠ group node := by
    intro n hn heq
    have hmem : group node ∈ l₁.map group ++ l₂.map group := by
      rw [← List.map_append, ← heq]
      exact List.mem_map_of_mem hn
    exact (List.nodup_middle.mp hnd).notMem hmem
  constructor
  · intro n hn
    exact h.bound n (List.mem_of_mem_eraseP hn)
  · exact h.nodup.sublist (List.eraseP_sublist.map group)
  · intro g hg
    simp only [Bitmap.used_clearBit, Bool.and_eq_true, Bool.not_eq_true', decide_eq_false_iff_not,
      h.used g hg, herase]
    constructor
    · rintro ⟨hne, n, hn, rfl⟩
      have hn' : n ∈ l₁ ++ l₂ := by
        rw [hl] at hn
        simp only [List.mem_append, List.mem_cons] at hn ⊢
        rcases hn with hn | rfl | hn
        · exact .inl hn
        · exact absurd rfl hne
        · exact .inr hn
      exact ⟨n, hn', rfl⟩
    · rintro ⟨n, hn, rfl⟩
      refine ⟨hother n hn, n, ?_, rfl⟩
      rw [hl]
      simp only [List.mem_append, List.mem_cons] at hn ⊢
      tauto

theorem Exact.clean_iff (h : t.Exact group) : t.clean.Exact group ↔ t.list = [] := by
  constructor
  · intro h'
    by_contra hne
    obtain ⟨node, hn⟩ := List.exists_mem_of_ne_nil _ hne
    have hu := (h.used _ (h.bound node hn)).mpr ⟨node, hn, rfl⟩
    obtain ⟨n, hn', -⟩ := (h'.used _ (h.bound node hn)).mp hu
    simp [clean] at hn'
  · intro hnil
    have : t.clean = t := by
      cases t
      simp only at hnil
      simp [clean, hnil]
    rwa [this]

theorem exact_empty : (({} : GroupTable α)).Exact group :=
  ⟨by simp, by simp, by simp⟩

theorem Exact.of_map_eq {t' : GroupTable α} (h : t.Exact group) (hfree : t'.freeList = t.freeList)
    (hmap : t'.list.map group = t.list.map group) : t'.Exact group := by
  have hmem : ∀ g, (∃ node ∈ t'.list, group node = g) ↔ ∃ node ∈ t.list, group node = g := by
    intro g
    rw [← List.mem_map, hmap, List.mem_map]
  constructor
  · intro node hn
    obtain ⟨n, hn', heq⟩ := (hmem (group node)).mp ⟨node, hn, rfl⟩
    exact heq ▸ h.bound n hn'
  · exact hmap ▸ h.nodup
  · intro g hg
    rw [hfree, h.used g hg, hmem]

theorem Exact.insertAll {β : Type} {node : β → Int → α} (h : t.Exact group)
    (hg : ∀ b, ∀ g < 64, group (node b (g : Nat)) = g) (bs : List β)
    (hlen : t.list.length + bs.length ≤ 64) :
    (bs.foldl (fun t b => t.insert (node b)) t).Exact group ∧
      (bs.foldl (fun t b => t.insert (node b)) t).list.length = t.list.length + bs.length := by
  induction bs generalizing t with
  | nil => exact ⟨h, rfl⟩
  | cons b bs ih =>
    rw [List.length_cons] at hlen
    have hone : (t.insert (node b)).list.length = t.list.length + 1 := by simp [GroupTable.insert]
    obtain ⟨hex, hl⟩ := ih (h.insert (hg b) (by omega)) (by omega)
    refine ⟨hex, ?_⟩
    rw [List.foldl_cons, hl, hone, List.length_cons]
    omega

end GroupTable

def acGroup (node : AcPlcyNode) : Nat := node.AgIdx.toNat

def mtrGroup (node : MtrPlcyNode) : Nat := node.MgNum.toNat

def GroupsExact (s : Driver) : Prop := s.ac.Exact acGroup ∧ s.mtr.Exact mtrGroup

/-- No rule is added while 64 rules have their groups, and a table is cleaned only while it
has no rules. -/
def GroupSafe (s : Driver) : Call → Prop
  | .acAddNode node mem => mem → acExistNode s.ac.list node = none → s.ac.list.length < 64
  | .mtrAddNode node mem => mem → mtrExistNode s.mtr.list node = none → s.mtr.list.length < 64
  | .acCleanTbl => s.ac.list = []
  | .mtrCleanTbl => s.mtr.list = []
  | .aclAddNode _ _ | .aclDelNode _ | .aclCleanTbl | .acDelNode _ | .mtrDelNode _ => True

/-- An add that gets no group for its rule fails, and leaves the list as it is. -/
def RefusesWhenFull (cfg : Build) (s : Driver) : Call → Prop
  | .acAddNode node mem =>
    acExistNode s.ac.list node = none → s.ac.getFreeGrp.1 = -1 →
      (s.call cfg (.acAddNode node mem)).1 = .fail ∧
      (s.step cfg (.acAddNode node mem)).ac.list = s.ac.list
  | .mtrAddNode node mem =>
    mtrExistNode s.mtr.list node = none → s.mtr.getFreeGrp.1 = -1 →
      (s.call cfg (.mtrAddNode node mem)).1 = .fail ∧
      (s.step cfg (.mtrAddNode node mem)).mtr.list = s.mtr.list
  | _ => True

/-- A table without rules takes any 64 that are different for its existence check. -/
def AcceptsAgain (cfg : Build) (s : Driver) : Prop :=
  (s.ac.list = [] → ∀ rs : List AcPlcyNode, rs.length ≤ 64 → rs.Pairwise (fun a b => ¬ acExists b a) →
    (Run.exec (Driver.step cfg) s (rs.map (.acAddNode · true))).ac.Exact acGroup ∧
    (Run.exec (Driver.step cfg) s (rs.map (.acAddNode · true))).ac.list.length = rs.length) ∧
  (s.mtr.list = [] → ∀ rs : List MtrPlcyNode, rs.length ≤ 64 → rs.Pairwise (fun a b => ¬ mtrExists b a) →
    (Run.exec (Driver.step cfg) s (rs.map (.mtrAddNode · true))).mtr.Exact mtrGroup ∧
    (Run.exec (Driver.step cfg) s (rs.map (.mtrAddNode · true))).mtr.list.length = rs.length)

/-! The group that a rule is given. -/

def acNode (node : AcPlcyNode) (g : Int) : AcPlcyNode := { node with AgIdx := BitVec.ofInt 8 g }

def mtrNode (node : MtrPlcyNode) (g : Int) : MtrPlcyNode := { node with MgNum := BitVec.ofInt 32 g }

theorem acGroup_node (node : AcPlcyNode) : ∀ g < 64, acGroup (acNode node (g : Nat)) = g := by
  intro g hg
  simp [acGroup, acNode, BitVec.ofInt_natCast]
  omega

theorem mtrGroup_node (node : MtrPlcyNode) : ∀ g < 64, mtrGroup (mtrNode node (g : Nat)) = g := by
  intro g hg
  simp [mtrGroup, mtrNode, BitVec.ofInt_natCast]
  omega

variable {cfg : Build} {s : Driver}

theorem acAdd_new (cfg : Build) {node : AcPlcyNode} (hnew : acExistNode s.ac.list node = none) :
    (s.step cfg (.acAddNode node true)).ac = s.ac.insert (acNode node) := by
  simp [Driver.step, Driver.call, Driver.withAc, acAddNode, hnew]
  rfl

theorem mtrAdd_new (cfg : Build) {node : MtrPlcyNode} (hnew : mtrExistNode s.mtr.list node = none) :
    (s.step cfg (.mtrAddNode node true)).mtr = s.mtr.insert (mtrNode node) := by
  simp [Driver.step, Driver.call, Driver.withMtr, mtrAddNode, hnew]
  rfl

theorem mtrGroup_setInfo (l : List MtrPlcyNode) (node : MtrPlcyNode) :
    (mtrSetInfo l node).map mtrGroup = l.map mtrGroup := by
  refine Scan.map_replaceF (fun x y hxy => ?_) l
  simp only [Option.ite_none_right_eq_some, Option.some.injEq] at hxy
  rw [← hxy.2]
  rfl

theorem groupsExact_step (cfg : Build) (h : GroupsExact s) (c : Call) :
    GroupsExact (s.step cfg c) ↔ GroupSafe s c := by
  cases c with
  | aclAddNode node mem =>
    simp only [Driver.step, Driver.call, GroupSafe, iff_true]
    exact h
  | aclDelNode node =>
    simp only [Driver.step, Driver.call, GroupSafe, iff_true]
    exact h
  | aclCleanTbl => exact iff_of_true h trivial
  | acAddNode node mem =>
    cases hf : acExistNode s.ac.list node with
    | some m =>
      have hsame : s.step cfg (.acAddNode node mem) = s := by
        simp [Driver.step, Driver.call, Driver.withAc, acAddNode, hf]
      rw [hsame]
      exact iff_of_true h (by simp [GroupSafe, hf])
    | none =>
      cases mem with
      | false =>
        have hsame : s.step cfg (.acAddNode node false) = s := by
          simp [Driver.step, Driver.call, Driver.withAc, acAddNode, hf]
        rw [hsame]
        exact iff_of_true h (by simp [GroupSafe])
      | true =>
        have hmtr : (s.step cfg (.acAddNode node true)).mtr = s.mtr := rfl
        rw [GroupsExact, hmtr, acAdd_new cfg hf, and_iff_left h.2,
          h.1.insert_iff (acGroup_node node) (by decide : 64 ≤ 255)]
        simp [GroupSafe, hf]
  | acDelNode node =>
    refine iff_of_true ⟨?_, h.2⟩ trivial
    simp only [Driver.step, Driver.call, acDelNode]
    cases hr : s.ac.remove (acDeletes node) (·.AgIdx.toNat) with
    | none => exact h.1
    | some t => exact h.1.remove hr
  | acCleanTbl => exact (and_iff_left h.2).trans h.1.clean_iff
  | mtrAddNode node mem =>
    cases hf : mtrExistNode s.mtr.list node with
    | some m =>
      refine iff_of_true ⟨h.1, ?_⟩ (by simp [GroupSafe, hf])
      have hset : (s.step cfg (.mtrAddNode node mem)).mtr =
          { s.mtr with list := mtrSetInfo s.mtr.list node } := by
        simp [Driver.step, Driver.call, Driver.withMtr, mtrAddNode, hf]
      rw [hset]
      exact h.2.of_map_eq rfl (mtrGroup_setInfo _ _)
    | none =>
      cases mem with
      | false =>
        have hsame : s.step cfg (.mtrAddNode node false) = s := by
          simp [Driver.step, Driver.call, Driver.withMtr, mtrAddNode, hf]
        rw [hsame]
        exact iff_of_true h (by simp [GroupSafe])
      | true =>
        have hac : (s.step cfg (.mtrAddNode node true)).ac = s.ac := rfl
        rw [GroupsExact, hac, mtrAdd_new cfg hf, and_iff_right h.1,
          h.2.insert_iff (mtrGroup_node node) (by decide : 64 ≤ 2 ^ 32 - 1)]
        simp [GroupSafe, hf]
  | mtrDelNode node =>
    refine iff_of_true ⟨h.1, ?_⟩ trivial
    simp only [Driver.step, Driver.call, mtrDelNode]
    cases hr : s.mtr.remove (mtrDeletes node) (·.MgNum.toNat) with
    | none => exact h.2
    | some t => exact h.2.remove hr
  | mtrCleanTbl => exact (and_iff_right h.1).trans h.2.clean_iff

theorem refusesWhenFull (h : GroupsExact s) {c : Call} (hsafe : GroupSafe s c) :
    RefusesWhenFull cfg s c := by
  cases c with
  | acAddNode node mem =>
    intro hnew hfull
    have hlen := h.1.firstFree_iff.mp (GroupTable.getFreeGrp_eq_neg_one.mp hfull)
    cases mem with
    | true => exact absurd (hsafe rfl hnew) (not_lt.mpr hlen)
    | false => simp [Driver.step, Driver.call, Driver.withAc, acAddNode, hnew]
  | mtrAddNode node mem =>
    intro hnew hfull
    have hlen := h.2.firstFree_iff.mp (GroupTable.getFreeGrp_eq_neg_one.mp hfull)
    cases mem with
    | true => exact absurd (hsafe rfl hnew) (not_lt.mpr hlen)
    | false => simp [Driver.step, Driver.call, Driver.withMtr, mtrAddNode, hnew]
  | _ => trivial

theorem addAll {α : Type} (found : α → α → Bool) (node : α → Int → α) (table : Driver → GroupTable α)
    (call : α → Call) (hnode : ∀ x r g, found x (node r g) = found x r)
    (hadd : ∀ {s r}, (table s).list.find? (found r) = none →
      table (s.step cfg (call r)) = (table s).insert (node r))
    {rs : List α} (hnew : ∀ r ∈ rs, (table s).list.find? (found r) = none)
    (hp : rs.Pairwise fun a b => ¬ found b a) :
    table (Run.exec (Driver.step cfg) s (rs.map call)) =
      rs.foldl (fun t r => t.insert (node r)) (table s) := by
  induction rs generalizing s with
  | nil => rfl
  | cons r rs ih =>
    obtain ⟨hr, hrs⟩ := List.pairwise_cons.mp hp
    have hins := hadd (hnew r List.mem_cons_self)
    rw [List.map_cons, Run.exec_cons, ih ?_ hrs, hins]
    · rfl
    · intro r' hr'
      have hold := hnew r' (List.mem_cons_of_mem r hr')
      rw [List.find?_eq_none] at hold ⊢
      intro x hx
      rw [hins] at hx
      rcases List.mem_append.mp hx with hx | hx
      · exact hold x hx
      · rw [List.mem_singleton.mp hx, hnode]
        exact hr r' hr'

theorem acceptsAgain (h : GroupsExact s) : AcceptsAgain cfg s := by
  constructor
  · intro hnil rs hlen hp
    rw [addAll acExists acNode Driver.ac (Call.acAddNode · true) (fun _ _ _ => rfl) (acAdd_new cfg)
      (by simp [hnil]) hp]
    have := h.1.insertAll acGroup_node rs (by simpa [hnil] using hlen)
    simpa [hnil] using this
  · intro hnil rs hlen hp
    rw [addAll mtrExists mtrNode Driver.mtr (Call.mtrAddNode · true) (fun _ _ _ => rfl)
      (mtrAdd_new cfg) (by simp [hnil]) hp]
    have := h.2.insertAll mtrGroup_node rs (by simpa [hnil] using hlen)
    simpa [hnil] using this

theorem groupsExact_init (cfg : Build) (sizes : RuleSizes) (p : Ppe) :
    GroupsExact (ppeInitMod cfg sizes p) := ⟨GroupTable.exact_empty, GroupTable.exact_empty⟩

/-- The bitmaps are exact throughout a run, emptied tables can be filled again and full
ones refuse, exactly when every call of the run is a safe one. -/
theorem groupsExact_iff (cfg : Build) (sizes : RuleSizes) (p : Ppe) (calls : List Call) :
    Run.AllSteps (Driver.step cfg) GroupSafe (ppeInitMod cfg sizes p) calls ↔
      (∀ n, GroupsExact (Run.exec (Driver.step cfg) (ppeInitMod cfg sizes p) (calls.take n)) ∧
        AcceptsAgain cfg (Run.exec (Driver.step cfg) (ppeInitMod cfg sizes p) (calls.take n))) ∧
      Run.AllSteps (Driver.step cfg) (RefusesWhenFull cfg) (ppeInitMod cfg sizes p) calls := by
  have hrun : Run.AllSteps (Driver.step cfg) GroupSafe (ppeInitMod cfg sizes p) calls ↔
      ∀ n, GroupsExact (Run.exec (Driver.step cfg) (ppeInitMod cfg sizes p) (calls.take n)) :=
    Run.allSteps_iff (Q := fun _ _ => True) (A := fun _ => True) (fun _ _ _ _ _ => trivial)
      (fun _ c _ h _ => groupsExact_step cfg h c) trivial (groupsExact_init cfg sizes p)
      (Run.AllSteps.of_forall fun _ _ _ => trivial)
  constructor
  · intro hsafe
    refine ⟨fun n => ⟨hrun.mp hsafe n, acceptsAgain (hrun.mp hsafe n)⟩, ?_⟩
    exact hsafe.of_inv (fun _ c h hs => (groupsExact_step cfg h c).mpr hs)
      (fun _ _ h hs => refusesWhenFull h hs) (groupsExact_init cfg sizes p)
  · rintro ⟨hall, -⟩
    exact hrun.mpr fun n => (hall n).1

/-- Cleaning a table with one rule: the list is empty, the group of the rule is in use. -/
theorem groups_not_exact :
    ¬ GroupsExact (Run.exec (Driver.step ⟨false, false⟩)
      (ppeInitMod ⟨false, false⟩ kconfigSizes Ppe.zero)
      [.acAddNode { Type_ := .preAc, RuleType := .macGroup } true, .acCleanTbl]) := by
  intro h
  have hfirst := (groupsExact_step ⟨false, false⟩ (groupsExact_init ⟨false, false⟩ kconfigSizes Ppe.zero)
    (.acAddNode { Type_ := .preAc, RuleType := .macGroup } true)).mpr (fun _ _ => by decide)
  have hsafe := (groupsExact_step ⟨false, false⟩ hfirst .acCleanTbl).mp h
  have hnew : acExistNode (ppeInitMod ⟨false, false⟩ kconfigSizes Ppe.zero).ac.list
      { Type_ := .preAc, RuleType := .macGroup } = none := rfl
  rw [GroupSafe, acAdd_new _ hnew] at hsafe
  simp [GroupTable.insert] at hsafe

end Ralink.HwNat
