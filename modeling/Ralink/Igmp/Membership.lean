import Ralink.Igmp.Structure

/-! A group is to have the members that have joined it and not left it since, and to be there as
long as it has one. A leave that empties a group of the administrator's takes the group, and a bulk
removal leaves the groups that it empties on other devices than its own. -/
namespace Ralink.Igmp
open Function Links

section Leave

variable {g : Groups} {k : Mac × Nat} {type : FilterType} {ms : List Mac} {m : Mac}
  {e : FilterType × List Mac}

def leave (m : Mac) (e : FilterType × List Mac) : Option (FilterType × List Mac) :=
  if e.1 = .dynamic ∧ e.2.erase m = [] then none else some (e.1, e.2.erase m)

theorem leave_static : leave m (.static, ms) = some (.static, ms.erase m) :=
  if_neg fun h => nomatch h.1

theorem leave_leave (h : e.2.Nodup) : (leave m e).bind (leave m) = leave m e := by
  have htwice : (e.2.erase m).erase m = e.2.erase m :=
    List.erase_of_not_mem fun hm => ((h.mem_erase_iff).mp hm).1 rfl
  by_cases hgoes : e.1 = .dynamic ∧ e.2.erase m = []
  · rw [leave, if_pos hgoes, Option.bind_none]
  · rw [leave, if_neg hgoes, Option.bind_some, leave]
    dsimp only
    rw [htwice, if_neg hgoes]

theorem update_none (hk : g k = none) : update g k none = g := by
  rw [← hk, update_eq_self]

theorem Groups.delete_leave (h : ∀ ms, g k = some (.static, ms) → ms.erase m ≠ []) :
    g.delete k (some m) = update g k ((g k).bind (leave m)) := by
  unfold Groups.delete
  cases hk : g k with
  | none => exact (update_none hk).symm
  | some e =>
    obtain ⟨type, ms⟩ := e
    rw [Option.bind_some]
    dsimp only
    rw [Option.elim_some]
    by_cases hnil : ms.erase m = []
    · cases type with
      | static => exact absurd hnil (h ms hk)
      | dynamic => rw [if_neg (fun hc => hc.2 hnil), leave, if_pos ⟨rfl, hnil⟩]
    · rw [if_pos ⟨rfl, hnil⟩, leave, if_neg (fun hc => hnil hc.2)]

theorem Groups.clear_leave {dev : Nat} (h : ∀ ms, g k = some (.dynamic, ms) →
    ms.erase m = [] → k.2 = dev) : g.clear k (some m) dev = update g k ((g k).bind (leave m)) := by
  unfold Groups.clear
  cases hk : g k with
  | none => exact (update_none hk).symm
  | some e =>
    obtain ⟨type, ms⟩ := e
    rw [Option.bind_some, leave]
    dsimp only
    rw [Option.elim_some]
    by_cases hgoes : type = .dynamic ∧ ms.erase m = []
    · obtain ⟨rfl, hnil⟩ := hgoes
      have hself : (k.1, dev) = k := by rw [← h ms hk hnil]
      rw [if_pos ⟨rfl, hnil⟩, if_pos ⟨rfl, hnil⟩, hself, Groups.delete_leave fun ms hs => ?_]
      · rw [update_self, Option.bind_some, hnil, update_idem]
        rfl
      · rw [update_self] at hs
        cases hs
    · rw [if_neg hgoes, if_neg hgoes]

theorem Groups.clear_none {dev : Nat} (h : ∀ ms, g k = some (.dynamic, ms) → ms ≠ []) :
    g.clear k none dev = g := by
  unfold Groups.clear
  cases hk : g k with
  | none => rfl
  | some e =>
    obtain ⟨type, ms⟩ := e
    dsimp only
    have hstays : ¬ (type = .dynamic ∧ ms = []) := fun hc => h ms (hc.1 ▸ hk) hc.2
    rw [Option.elim_none, if_neg hstays, ← hk, update_eq_self]

end Leave

section Bulk

variable {n : Nat} {t : Table n} {chains : Nat → List (Fin n)} {own : Option (Fin n) → List Member}
  {m : Mac} {dev : Nat} {g₀ g : Groups} {k : Mac × Nat}

theorem Shape.groups_nodup (h : Shape t chains own) {e : FilterType × List Mac}
    (he : t.groups k = some e) : e.2.Nodup := by
  obtain ⟨i, -, rfl⟩ := h.exists_key he
  exact h.nodup i

def Groups.NoneEmpty (g : Groups) : Prop := ∀ k ms, g k = some (.dynamic, ms) → ms ≠ []

theorem leave_again (hnodup : ∀ e, g₀ k = some e → e.2.Nodup)
    (h : g k = g₀ k ∨ g k = (g₀ k).bind (leave m)) :
    (g k).bind (leave m) = (g₀ k).bind (leave m) := by
  rcases h with h | h
  · rw [h]
  · rw [h]
    cases hk : g₀ k with
    | none => rfl
    | some e => exact leave_leave (hnodup e hk)

theorem sole_of_empty {g₀ g : Groups} {k : Mac × Nat} (hnone : g₀.NoneEmpty)
    (hnodup : ∀ e, g₀ k = some e → e.2.Nodup)
    (h : g k = g₀ k ∨ g k = (g₀ k).bind (leave m)) {ms : List Mac}
    (hk : g k = some (.dynamic, ms)) (hnil : ms.erase m = []) : g₀ k = some (.dynamic, [m]) := by
  rcases h with h | h
  · rw [h] at hk
    have hmem : m ∈ ms := by
      by_contra hm
      rw [List.erase_of_not_mem hm] at hnil
      exact hnone k ms hk hnil
    have hlen : ms.length = 1 := by
      have hle := List.length_erase_of_mem hmem
      have hpos := List.length_pos_of_mem hmem
      rw [hnil, List.length_nil] at hle
      omega
    obtain ⟨a, rfl⟩ := List.length_eq_one_iff.mp hlen
    rw [hk, List.mem_singleton.mp hmem]
  · -- it would have gone with the member
    rw [h] at hk
    cases hg : g₀ k with
    | none =>
      rw [hg] at hk
      cases hk
    | some e =>
      have htwice := leave_leave (m := m) (hnodup e hg)
      rw [hg, Option.bind_some] at hk
      rw [hk, Option.bind_some, leave, if_pos ⟨rfl, hnil⟩] at htwice
      cases htwice

structure GoneOver (m : Mac) (t : Table n) (past : List (Fin n)) (t' : Table n) : Prop where
  shaped : t'.Shaped
  groups : ∀ k, t'.groups k = t.groups k ∨ t'.groups k = (t.groups k).bind (leave m)
  left : ∀ i ∈ past, ∀ k, (t'.Content i).key = some k → t'.groups k = (t.groups k).bind (leave m)

theorem GoneOver.step {t' : Table n} {past : List (Fin n)} (hn : n ≤ 255) (h : Shape t chains own)
    (hnone : t.groups.NoneEmpty) (hsole : ∀ k, t.groups k = some (.dynamic, [m]) → k.2 = dev)
    (hpast : GoneOver m t past t') (i : Fin n) :
    ∃ t₂, t'.clearEntry (some m) dev i = some t₂ ∧ GoneOver m t (past ++ [i]) t₂ := by
  have hnodup : ∀ k e, t.groups k = some e → e.2.Nodup := fun k e => h.groups_nodup
  obtain ⟨chains', own', h'⟩ := hpast.shaped
  obtain ⟨t₂, heq, h₂, hsheds, hgroups⟩ := h'.clearEntry hn (some m) dev i
  refine ⟨t₂, heq, ?_⟩
  cases hk : (t'.Content i).key with
  | none =>
    rw [hk, Option.elim_none] at hgroups
    refine ⟨h₂, fun k => hgroups ▸ hpast.groups k, fun j hj k hjk => ?_⟩
    have hjk' := hsheds j k hjk
    rw [hgroups]
    rcases List.mem_append.mp hj with hj | hj
    · exact hpast.left j hj k hjk'
    · rw [List.mem_singleton.mp hj, hk] at hjk'
      cases hjk'
  | some k =>
    rw [hk, Option.elim_some, Groups.clear_leave fun ms hms hnil =>
      hsole k (sole_of_empty hnone (hnodup k) (hpast.groups k) hms hnil),
      leave_again (hnodup k) (hpast.groups k)] at hgroups
    refine ⟨h₂, fun k' => ?_, fun j hj k' hjk => ?_⟩
    · rcases eq_or_ne k' k with rfl | hne
      · rw [hgroups, update_self]
        exact .inr rfl
      · rw [hgroups, update_of_ne hne]
        exact hpast.groups k'
    · rcases eq_or_ne k' k with rfl | hne
      · rw [hgroups, update_self]
      · rw [hgroups, update_of_ne hne]
        have hjk' := hsheds j k' hjk
        rcases List.mem_append.mp hj with hj | hj
        · exact hpast.left j hj k' hjk'
        · rw [List.mem_singleton.mp hj, hk] at hjk'
          exact absurd (Option.some.inj hjk').symm hne

theorem Shape.delMembers_some (hn : n ≤ 255) (h : Shape t chains own)
    (hnone : t.groups.NoneEmpty) (hsole : ∀ k, t.groups k = some (.dynamic, [m]) → k.2 = dev) :
    ∃ t', t.igmpGroupDelMembers (some m) dev = some t' ∧ t'.Shaped ∧
      t'.groups = fun k => (t.groups k).bind (leave m) := by
  have hloop : ∃ t', Run.tryExec (fun (t : Table n) i => t.clearEntry (some m) dev i) t
      (List.finRange n) = some t' ∧ GoneOver m t ([] ++ List.finRange n) t' := by
    refine Run.tryExec_trace (P := fun _ _ => True) (J := GoneOver m t)
      (fun past t' i hpast _ => hpast.step hn h hnone hsole i) []
      ⟨h.shaped, fun k => .inl rfl, fun i hi => nomatch hi⟩
      (Run.AllTries.of_forall fun _ _ => trivial)
  obtain ⟨t', hrun, hall⟩ := hloop
  refine ⟨t', (delMembersLoop_eq (some m) dev _ t).trans hrun, hall.shaped, ?_⟩
  funext k
  cases hk : t'.groups k with
  | none =>
    rcases hall.groups k with hsame | hleft
    · rw [← hsame, hk, Option.bind_none]
    · rw [← hleft, hk]
  | some e =>
    obtain ⟨chains', own', h'⟩ := hall.shaped
    obtain ⟨i, hi, -⟩ := h'.exists_key hk
    rw [← hall.left i (List.mem_finRange i) k hi, hk]

theorem Shape.delMembers_none (hn : n ≤ 255) (h : Shape t chains own)
    (hnone : t.groups.NoneEmpty) (dev : Nat) :
    ∃ t', t.igmpGroupDelMembers none dev = some t' ∧ t'.Shaped ∧ t'.groups = t.groups := by
  have hloop : ∃ t', Run.tryExec (fun (t : Table n) i => t.clearEntry none dev i) t
      (List.finRange n) = some t' ∧ t'.Shaped ∧ t'.groups = t.groups := by
    refine Run.tryExec_inv (P := fun _ _ => True)
      (I := fun s : Table n => s.Shaped ∧ s.groups = t.groups) (fun s i hs _ => ?_) 
      ⟨h.shaped, rfl⟩ (Run.AllTries.of_forall fun _ _ => trivial)
    obtain ⟨⟨chains', own', hs⟩, hsame⟩ := hs
    obtain ⟨s', heq, hs', -, hgroups⟩ := hs.clearEntry hn none dev i
    refine ⟨s', heq, hs', ?_⟩
    cases hk : (s.Content i).key with
    | none =>
      rw [hk, Option.elim_none] at hgroups
      exact hgroups.trans hsame
    | some k =>
      rw [hk, Option.elim_some, hsame, Groups.clear_none (hnone k)] at hgroups
      exact hgroups
  obtain ⟨t', hrun, h', hgroups⟩ := hloop
  exact ⟨t', (delMembersLoop_eq none dev _ t).trans hrun, h', hgroups⟩

end Bulk

section History

variable {n : Nat} {ops : List (Op n)} {g : Groups} {k : Mac × Nat} {a m : Mac} {s s' : Mac → Prop}
  {e : Option (FilterType × List Mac)} {op : Op n} {member : Option Mac} {type : FilterType}

def Op.Joins (k : Mac × Nat) (m : Mac) : Op n → Prop
  | .insert grp member dev _ _ => (grp, dev) = k ∧ member = some m
  | _ => False

def Op.Leaves (k : Mac × Nat) (m : Mac) : Op n → Prop
  | .delete grp member dev => (grp, dev) = k ∧ ∀ a, member = some a → m = a
  | .delMembers member _ => member = some m
  | _ => False

/-- The member has joined the group and has not left it since. -/
def Joined (ops : List (Op n)) (k : Mac × Nat) (m : Mac) : Prop :=
  Run.Since (Op.Joins k m) (Op.Leaves k m) ops

theorem joined_concat (op : Op n) :
    Joined (ops ++ [op]) k m ↔ op.Joins k m ∨ Joined ops k m ∧ ¬ op.Leaves k m := Run.since_concat

/-- The groups are those that members have joined, besides the administrator's, and have
just those members. -/
structure Membership (ops : List (Op n)) (g : Groups) : Prop where
  members : ∀ k type ms, g k = some (type, ms) → ms.Nodup ∧ ∀ m, m ∈ ms ↔ Joined ops k m
  exist : ∀ k, (∀ ms, g k ≠ some (.static, ms)) → ((g k).isSome ↔ ∃ m, Joined ops k m)

def HasMembers (s : Mac → Prop) : Option (FilterType × List Mac) → Prop
  | none => ∀ m, ¬ s m
  | some (type, ms) => ms.Nodup ∧ (∀ m, m ∈ ms ↔ s m) ∧ (type = .dynamic → ms ≠ [])

theorem HasMembers.congr (h : HasMembers s e) (hs : ∀ m, s' m ↔ s m) : HasMembers s' e := by
  have hsame : s' = s := funext fun m => propext (hs m)
  rwa [hsame]

theorem HasMembers.insert (h : HasMembers s (g k))
    (hm : g k = none → type = .dynamic → member.isSome) :
    HasMembers (fun m => member = some m ∨ s m) (g.insert k member type k) := by
  cases hk : g k with
  | none =>
    rw [hk] at h
    rw [Groups.insert_new hk, update_self]
    refine ⟨?_, fun m => ?_, fun hd hnil => ?_⟩
    · cases member <;> simp
    · have hno := h m
      simp [hno]
    · have hsome := hm hk hd
      cases member <;> simp at hsome hnil
  | some e =>
    obtain ⟨type', ms⟩ := e
    rw [hk] at h
    obtain ⟨hnodup, hmem, hne⟩ := h
    cases member with
    | none =>
      rw [Groups.insert_bare hk, hk]
      exact ⟨hnodup, fun m => by simp [hmem], hne⟩
    | some a =>
      by_cases ha : a ∈ ms
      · rw [Groups.insert_mem hk ha, hk]
        refine ⟨hnodup, fun m => ⟨fun h => .inr ((hmem m).mp h), ?_⟩, hne⟩
        rintro (h | h)
        · obtain rfl := Option.some.inj h
          exact ha
        · exact (hmem m).mpr h
      · rw [Groups.insert_join hk ha, update_self]
        refine ⟨?_, fun m => ?_, fun _ => by simp⟩
        · exact List.nodup_append.mpr ⟨hnodup, List.nodup_singleton a, fun x hx y hy =>
            List.mem_singleton.mp hy ▸ ne_of_mem_of_not_mem hx ha⟩
        · dsimp only
          rw [List.mem_append, List.mem_singleton, hmem, or_comm, Option.some_inj,
            eq_comm (a := m)]

theorem HasMembers.leave (h : HasMembers s e) (m : Mac) :
    HasMembers (fun x => s x ∧ x ≠ m) (e.bind (leave m)) := by
  cases e with
  | none => exact fun x hx => h x hx.1
  | some e =>
    obtain ⟨type, ms⟩ := e
    obtain ⟨hnodup, hmem, hne⟩ := h
    have herase : ∀ x, x ∈ ms.erase m ↔ s x ∧ x ≠ m := fun x => by
      rw [hnodup.mem_erase_iff, hmem, and_comm]
    rw [Option.bind_some, Igmp.leave]
    dsimp only
    by_cases hgoes : type = .dynamic ∧ ms.erase m = []
    · rw [if_pos hgoes]
      intro x hx
      have hin := (herase x).mpr hx
      rw [hgoes.2] at hin
      cases hin
    · rw [if_neg hgoes]
      exact ⟨hnodup.erase m, herase, fun hd hnil => hgoes ⟨hd, hnil⟩⟩

def Tracks (ops : List (Op n)) (g : Groups) : Prop := ∀ k, HasMembers (Joined ops k) (g k)

section

variable (h : Tracks ops g)
include h

theorem Tracks.noneEmpty : g.NoneEmpty := by
  intro k ms hk
  have hm := h k
  rw [hk] at hm
  exact hm.2.2 rfl

theorem Tracks.membership : Membership ops g := by
  constructor
  · intro k type ms hk
    have hm := h k
    rw [hk] at hm
    exact ⟨hm.1, hm.2.1⟩
  · intro k hstatic
    have hm := h k
    cases hk : g k with
    | none =>
      rw [hk] at hm
      exact iff_of_false (by simp) fun ⟨m, hj⟩ => hm m hj
    | some e =>
      obtain ⟨type, ms⟩ := e
      rw [hk] at hm
      have hne : ms ≠ [] := by
        cases type with
        | static => exact absurd hk (hstatic ms)
        | dynamic => exact hm.2.2 rfl
      obtain ⟨m, hmem⟩ := List.exists_mem_of_ne_nil ms hne
      exact iff_of_true rfl ⟨m, (hm.2.1 m).mp hmem⟩

theorem Tracks.written {e : Option (FilterType × List Mac)}
    (hother : ∀ k', k' ≠ k → ∀ m, Joined (ops ++ [op]) k' m ↔ Joined ops k' m)
    (he : HasMembers (Joined (ops ++ [op]) k) e) : Tracks (ops ++ [op]) (update g k e) := by
  intro k'
  rcases eq_or_ne k' k with rfl | hne
  · rwa [update_self]
  · rw [update_of_ne hne]
    exact (h k').congr (hother k' hne)

theorem Tracks.insert {grp : Mac} {dev : Nat} (clock : Table.Clock n)
    (hm : g (grp, dev) = none → type = .dynamic → member.isSome) :
    Tracks (ops ++ [.insert grp member dev type clock]) (g.insert (grp, dev) member type) := by
  have hjoin : ∀ k m, Joined (ops ++ [.insert grp member dev type clock]) k m ↔
      ((grp, dev) = k ∧ member = some m) ∨ Joined ops k m := by
    intro k m
    rw [joined_concat]
    simp [Op.Joins, Op.Leaves]
  intro k
  rcases eq_or_ne k (grp, dev) with rfl | hne
  · exact ((h _).insert hm).congr fun m => by rw [hjoin]; simp
  · rw [Groups.insert_other hne]
    exact (h k).congr fun m => by rw [hjoin]; simp [hne.symm]

theorem Tracks.leaveOne (grp : Mac) (m : Mac) (dev : Nat) :
    Tracks (ops ++ [.delete grp (some m) dev])
      (update g (grp, dev) ((g (grp, dev)).bind (leave m))) := by
  have hjoin : ∀ k x, Joined (ops ++ [.delete grp (some m) dev]) k x ↔
      Joined ops k x ∧ ¬ ((grp, dev) = k ∧ x = m) := by
    intro k x
    rw [joined_concat]
    simp [Op.Joins, Op.Leaves]
  refine h.written (fun k hne x => ?_) (((h _).leave m).congr fun x => ?_)
  · rw [hjoin]
    simp [hne.symm]
  · rw [hjoin]
    simp

theorem Tracks.leaveAll (m : Mac) (dev : Nat) :
    Tracks (ops ++ [.delMembers (some m) dev]) fun k => (g k).bind (leave m) := by
  intro k
  refine ((h k).leave m).congr fun x => ?_
  rw [joined_concat]
  simp [Op.Joins, Op.Leaves, eq_comm]

theorem Tracks.remove (grp : Mac) (dev : Nat) :
    Tracks (ops ++ [.delete grp none dev]) (update g (grp, dev) none) := by
  refine h.written (fun k hne x => ?_) fun x hx => ?_
  · rw [joined_concat]
    simp [Op.Joins, Op.Leaves, hne.symm]
  · rw [joined_concat] at hx
    simp [Op.Joins, Op.Leaves] at hx

theorem Tracks.other {op : Op n} (hjoin : ∀ k m, ¬ op.Joins k m) (hleave : ∀ k m, ¬ op.Leaves k m) :
    Tracks (ops ++ [op]) g := by
  intro k
  refine (h k).congr fun m => ?_
  rw [joined_concat]
  simp [hjoin, hleave]

end

end History

section Runs

variable {n : Nat} {t : Table n} {ops : List (Op n)} {chains : Nat → List (Fin n)}
  {own : Option (Fin n) → List Member}

/-- The table is not full, the pool has a free cell, and no entry has aged out. -/
def Table.Roomy (OS_HZ : BitVec 32) (t : Table n) : Op n → Prop
  | .insert _ _ _ _ clock => t.Size < n ∧ t.Spare ∧ t.Unaged OS_HZ clock
  | .lookup _ _ now => ∀ j, ¬ (t.Content j).lookupAged OS_HZ (now j)
  | _ => True

/-- A new dynamic group has a member, a leave leaves a group of the administrator's one, and a
bulk removal finds no dynamic group of another device that has no other. -/
def Table.LeavesWell (t : Table n) : Op n → Prop
  | .insert grp member dev type _ =>
    t.groups (grp, dev) = none → type = .dynamic → member.isSome
  | .delete grp (some m) dev => ∀ e ∈ t.groups (grp, dev), e.1 = .static → e.2.erase m ≠ []
  | .delMembers (some m) dev => ∀ i, (t.Content i).Valid = true → (t.Content i).type = .dynamic →
      t.memberList i = [m] → (t.Content i).net_dev = dev
  | _ => True

def Op.IsLeave : Op n → Prop
  | .delete _ (some _) _ => True
  | .delMembers _ _ => True
  | _ => False

/-- The groups of the administrator's are still there. -/
def KeepsStatic (g g' : Groups) : Prop :=
  ∀ k ms, g k = some (.static, ms) → ∃ ms', g' k = some (.static, ms')

/-- A leave keeps the groups of the administrator's, and after a bulk removal the member is in
no group and no dynamic group is without members. -/
def Table.StepRight (OS_HZ : BitVec 32) (t : Table n) (op : Op n) : Prop :=
  ∀ t', t.step OS_HZ op = some t' →
    (op.IsLeave → KeepsStatic t.groups t'.groups) ∧
    ∀ m dev, op = .delMembers (some m) dev → ∀ k type ms, t'.groups k = some (type, ms) →
      m ∉ ms ∧ (type = .dynamic → ms ≠ [])

structure Tracked (ops : List (Op n)) (t : Table n) : Prop where
  shaped : t.Shaped
  tracks : Tracks ops t.groups

theorem keepsStatic_leaveAll (g : Groups) (m : Mac) :
    KeepsStatic g fun k => (g k).bind (leave m) := by
  intro k ms hk
  refine ⟨ms.erase m, ?_⟩
  dsimp only
  rw [hk, Option.bind_some, leave_static]

theorem keepsStatic_leaveOne (g : Groups) (k : Mac × Nat) (m : Mac) :
    KeepsStatic g (update g k ((g k).bind (leave m))) := by
  intro k' ms hk
  rcases eq_or_ne k' k with rfl | hne
  · rw [update_self]
    exact keepsStatic_leaveAll g m k' ms hk
  · rw [update_of_ne hne]
    exact ⟨ms, hk⟩

section Steps

variable {OS_HZ : BitVec 32} {grp : Mac} {dev : Nat} {m : Mac}

theorem Tracked.insert (hn : n ≤ 255) (h : Tracked ops t) {member : Option Mac}
    {type : FilterType} {clock : Table.Clock n}
    (hroom : t.Roomy OS_HZ (.insert grp member dev type clock))
    (hwell : t.LeavesWell (.insert grp member dev type clock)) :
    ∃ t', t.step OS_HZ (.insert grp member dev type clock) = some t' ∧
      Tracked (ops ++ [.insert grp member dev type clock]) t' := by
  obtain ⟨chains, own, hs⟩ := h.shaped
  obtain ⟨r, heq, hr, hgroups⟩ := hs.insertEntry hn OS_HZ grp member dev type clock
  refine ⟨r.2, by rw [Table.step, heq]; rfl, hr, ?_⟩
  rw [hgroups hroom.1 hroom.2.2 (.inr hroom.2.1)]
  exact h.tracks.insert clock hwell

theorem Tracked.deleteGroup (hn : n ≤ 255) (h : Tracked ops t) (grp : Mac) (dev : Nat) :
    ∃ t', t.step OS_HZ (.delete grp none dev) = some t' ∧
      Tracked (ops ++ [.delete grp none dev]) t' := by
  obtain ⟨chains, own, hs⟩ := h.shaped
  obtain ⟨t', heq, h', hgroups, -⟩ := hs.deleteEntry hn grp none dev
  refine ⟨t', heq, h', ?_⟩
  have hgone : t.groups.delete (grp, dev) none = update t.groups (grp, dev) none := by
    unfold Groups.delete
    split
    · next hk => exact (update_none hk).symm
    · simp
  rw [hgroups, hgone]
  exact h.tracks.remove grp dev

theorem Tracked.deleteMember (hn : n ≤ 255) (h : Tracked ops t)
    (hwell : t.LeavesWell (.delete grp (some m) dev)) :
    ∃ t', t.step OS_HZ (.delete grp (some m) dev) = some t' ∧
      Tracked (ops ++ [.delete grp (some m) dev]) t' ∧ KeepsStatic t.groups t'.groups := by
  obtain ⟨chains, own, hs⟩ := h.shaped
  obtain ⟨t', heq, h', hgroups, -⟩ := hs.deleteEntry hn grp (some m) dev
  rw [Groups.delete_leave fun ms hms => hwell (.static, ms) hms rfl] at hgroups
  refine ⟨t', heq, ⟨h', ?_⟩, ?_⟩
  · rw [hgroups]
    exact h.tracks.leaveOne grp m dev
  · rw [hgroups]
    exact keepsStatic_leaveOne t.groups (grp, dev) m

theorem Tracked.lookup (hn : n ≤ 255) (h : Tracked ops t) {addr : Mac} {now : Fin n → BitVec 32}
    (hroom : t.Roomy OS_HZ (.lookup addr dev now)) :
    ∃ t', t.step OS_HZ (.lookup addr dev now) = some t' ∧
      Tracked (ops ++ [.lookup addr dev now]) t' := by
  obtain ⟨chains, own, hs⟩ := h.shaped
  obtain ⟨r, heq, hfound, hfresh⟩ := hs.lookup hn OS_HZ addr dev now
  refine ⟨r.2, by rw [Table.step, heq]; rfl, hfound.shaped, ?_⟩
  have hsame : r.2.groups = t.groups := by
    rcases hfresh hroom with rfl | ⟨i, rfl⟩
    · rfl
    · exact hs.groups_touch i (now i)
  rw [hsame]
  exact h.tracks.other (fun _ _ hj => hj) fun _ _ hl => hl

theorem Tracked.delNobody (hn : n ≤ 255) (h : Tracked ops t) (dev : Nat) :
    ∃ t', t.step OS_HZ (.delMembers none dev) = some t' ∧
      Tracked (ops ++ [.delMembers none dev]) t' ∧ KeepsStatic t.groups t'.groups := by
  obtain ⟨chains, own, hs⟩ := h.shaped
  obtain ⟨t', heq, h', hgroups⟩ := hs.delMembers_none hn h.tracks.noneEmpty dev
  refine ⟨t', heq, ⟨h', ?_⟩, fun k ms hk => ⟨ms, by rw [hgroups, hk]⟩⟩
  rw [hgroups]
  exact h.tracks.other (fun _ _ hj => hj) fun _ m hl => Option.some_ne_none m (Eq.symm hl)

theorem Shape.sole (hs : Shape t chains own)
    (hwell : t.LeavesWell (.delMembers (some m) dev)) {k : Mac × Nat}
    (hk : t.groups k = some (.dynamic, [m])) : k.2 = dev := by
  obtain ⟨i, hi, he⟩ := hs.exists_key hk
  obtain ⟨hv, -, hdev⟩ := key_eq_some.mp hi
  obtain ⟨htype, hms⟩ := Prod.mk.inj he
  exact hdev.symm.trans (hwell i hv htype.symm ((hs.memberList i).trans hms.symm))

theorem Tracked.delMember (hn : n ≤ 255) (h : Tracked ops t)
    (hwell : t.LeavesWell (.delMembers (some m) dev)) :
    ∃ t', t.step OS_HZ (.delMembers (some m) dev) = some t' ∧
      Tracked (ops ++ [.delMembers (some m) dev]) t' ∧ KeepsStatic t.groups t'.groups := by
  obtain ⟨chains, own, hs⟩ := h.shaped
  obtain ⟨t', heq, h', hgroups⟩ := hs.delMembers_some hn h.tracks.noneEmpty fun k => hs.sole hwell
  refine ⟨t', heq, ⟨h', ?_⟩, ?_⟩
  · rw [hgroups]
    exact h.tracks.leaveAll m dev
  · rw [hgroups]
    exact keepsStatic_leaveAll t.groups m

end Steps

theorem Tracked.step (hn : n ≤ 255) (OS_HZ : BitVec 32) (h : Tracked ops t) (op : Op n)
    (hroom : t.Roomy OS_HZ op) (hwell : t.LeavesWell op) :
    ∃ t', t.step OS_HZ op = some t' ∧ Tracked (ops ++ [op]) t' ∧
      (op.IsLeave → KeepsStatic t.groups t'.groups) := by
  cases op with
  | insert grp member dev type clock =>
    obtain ⟨t', heq, h'⟩ := h.insert hn hroom hwell
    exact ⟨t', heq, h', False.elim⟩
  | delete grp member dev =>
    cases member with
    | none =>
      obtain ⟨t', heq, h'⟩ := h.deleteGroup hn grp dev
      exact ⟨t', heq, h', False.elim⟩
    | some m =>
      obtain ⟨t', heq, h', hkeeps⟩ := h.deleteMember hn hwell
      exact ⟨t', heq, h', fun _ => hkeeps⟩
  | lookup addr dev now =>
    obtain ⟨t', heq, h'⟩ := h.lookup hn hroom
    exact ⟨t', heq, h', False.elim⟩
  | delMembers member dev =>
    cases member with
    | none =>
      obtain ⟨t', heq, h', hkeeps⟩ := h.delNobody hn dev
      exact ⟨t', heq, h', fun _ => hkeeps⟩
    | some m =>
      obtain ⟨t', heq, h', hkeeps⟩ := h.delMember hn hwell
      exact ⟨t', heq, h', fun _ => hkeeps⟩

theorem Tracked.stepRight (hn : n ≤ 255) (OS_HZ : BitVec 32) (h : Tracked ops t) (op : Op n)
    (hroom : t.Roomy OS_HZ op) (hwell : t.LeavesWell op) : t.StepRight OS_HZ op := by
  intro t' heq
  obtain ⟨t₂, heq₂, h₂, hstatic⟩ := h.step hn OS_HZ op hroom hwell
  obtain rfl := Option.some.inj (heq₂.symm.trans heq)
  refine ⟨hstatic, ?_⟩
  rintro m dev rfl k type ms hk
  have hm := h₂.tracks k
  rw [hk] at hm
  refine ⟨fun hmem => ?_, hm.2.2⟩
  have hjoined := (hm.2.1 m).mp hmem
  rw [joined_concat] at hjoined
  simp [Op.Joins, Op.Leaves] at hjoined

theorem tracked_init (n : Nat) : Tracked [] (multicastFilterTableInit n) := by
  have hinit := shape_init n
  refine ⟨hinit.shaped, fun k => ?_⟩
  have hnone : (multicastFilterTableInit n).groups k = none :=
    groups_eq_none.mpr fun i hi => nomatch hinit.mem_of_key hi
  rw [hnone]
  exact fun m hm => Run.since_nil hm

/-- As long as the table has room, nothing ages out and members leave well, the groups of the
table have throughout just the members that have joined them, and every leave is right. -/
theorem run_membership (memoryOptimization : Bool) (OS_HZ : BitVec 32)
    (ops : List (Op (maxLen memoryOptimization)))
    (hops : Run.AllTries (Table.step OS_HZ) (fun t op => t.Roomy OS_HZ op ∧ t.LeavesWell op)
      (multicastFilterTableInit (maxLen memoryOptimization)) ops) :
    (∀ i, ∃ t, (multicastFilterTableInit (maxLen memoryOptimization)).run OS_HZ (ops.take i) =
        some t ∧ Membership (ops.take i) t.groups) ∧
      Run.AllTries (Table.step OS_HZ) (Table.StepRight OS_HZ)
        (multicastFilterTableInit (maxLen memoryOptimization)) ops := by
  have hn := maxLen_le memoryOptimization
  have hinit := tracked_init (maxLen memoryOptimization)
  have hstep : ∀ past (t : Table (maxLen memoryOptimization)) op, Tracked past t →
      t.Roomy OS_HZ op ∧ t.LeavesWell op →
      ∃ t', t.step OS_HZ op = some t' ∧ Tracked (past ++ [op]) t' := by
    intro past t op ht hop
    obtain ⟨t', heq, h', -⟩ := ht.step hn OS_HZ op hop.1 hop.2
    exact ⟨t', heq, h'⟩
  constructor
  · intro i
    obtain ⟨t, hrun, ht⟩ := Run.tryExec_trace hstep [] hinit (hops.take i)
    rw [List.nil_append] at ht
    exact ⟨t, hrun, ht.tracks.membership⟩
  · exact hops.of_trace hstep (fun past t op ht hop => ht.stepRight hn OS_HZ op hop.1 hop.2) []
      hinit

instance (OS_HZ now : BitVec 32) (e : Entry) : Decidable (e.lookupAged OS_HZ now) :=
  inferInstanceAs (Decidable (_ ∧ _))

instance (OS_HZ now : BitVec 32) (e : Entry) : Decidable (e.insertAged OS_HZ now) :=
  inferInstanceAs (Decidable (_ ∧ _))

instance (OS_HZ : BitVec 32) (t : Table n) : ∀ op, Decidable (t.Roomy OS_HZ op)
  | .insert _ _ _ _ clock => inferInstanceAs (Decidable (t.Size < n ∧ t.freeEntryList.pHead ≠ none ∧
      ∀ j, ¬ (t.Content j).lookupAged OS_HZ (clock.lookup j) ∧
        ¬ (t.Content j).insertAged OS_HZ (clock.age j)))
  | .lookup _ _ now => inferInstanceAs (Decidable (∀ j, ¬ (t.Content j).lookupAged OS_HZ (now j)))
  | .delete _ _ _ => .isTrue trivial
  | .delMembers _ _ => .isTrue trivial

instance (t : Table n) : ∀ op, Decidable (t.LeavesWell op)
  | .insert grp member dev type _ => inferInstanceAs (Decidable
      (t.groups (grp, dev) = none → type = .dynamic → member.isSome))
  | .delete grp (some m) dev => inferInstanceAs (Decidable
      (∀ e ∈ t.groups (grp, dev), e.1 = .static → e.2.erase m ≠ []))
  | .delMembers (some m) dev => inferInstanceAs (Decidable (∀ i, (t.Content i).Valid = true →
      (t.Content i).type = .dynamic → t.memberList i = [m] → (t.Content i).net_dev = dev))
  | .delete _ none _ => .isTrue trivial
  | .delMembers none _ => .isTrue trivial
  | .lookup _ _ _ => .isTrue trivial

def groupAddr : Mac := #v[1, 0, 0x5E, 1, 2, 3]

def station (x : UInt8) : Mac := #v[0, 0x0C, 0x43, 0, 0, x]

def atZero : Table.Clock n := ⟨fun _ => 0, fun _ => 0, fun _ => 0⟩

/-- Two stations join, one leaves, and the other is gone. -/
def twoStations : List (Op (maxLen true)) :=
  [.insert groupAddr (some (station 1)) 1 .dynamic atZero,
    .insert groupAddr (some (station 2)) 1 .dynamic atZero,
    .delete groupAddr (some (station 1)) 1, .delMembers (some (station 2)) 1]

theorem run_membership_twoStations :
    Run.AllTries (Table.step 100) (Table.StepRight 100) (multicastFilterTableInit (maxLen true))
      twoStations :=
  (run_membership true 100 twoStations (by decide +kernel)).2

/-- A station joins on one interface and goes from another. -/
def movedStation : List (Op (maxLen true)) :=
  [.insert groupAddr (some (station 1)) 1 .dynamic atZero, .delMembers (some (station 1)) 2]

/-- A station leaves a group of the administrator's. -/
def leftStatic : List (Op (maxLen true)) :=
  [.insert groupAddr none 1 .static atZero, .delete groupAddr (some (station 1)) 1]

/-- Though there is room and nothing ages out, the group of the one interface stays, without a
member, and the group of the administrator's goes. -/
theorem membership_lost :
    (Run.AllTries (Table.step 100) (Table.Roomy 100) (multicastFilterTableInit (maxLen true))
        movedStation ∧
      ∃ t, (multicastFilterTableInit (maxLen true)).run 100 movedStation = some t ∧
        ¬ Membership movedStation t.groups) ∧
    (Run.AllTries (Table.step 100) (Table.Roomy 100) (multicastFilterTableInit (maxLen true))
        leftStatic ∧
      ¬ Run.AllTries (Table.step 100) (Table.StepRight 100)
        (multicastFilterTableInit (maxLen true)) leftStatic) := by
  refine ⟨⟨by decide +kernel, ?_⟩, by decide +kernel, fun hright => ?_⟩
  · have hgroup : ((multicastFilterTableInit (maxLen true)).run 100 movedStation).map
        (fun t => t.groups (groupAddr, 1)) = some (some (.dynamic, [])) := by decide +kernel
    obtain ⟨t, hrun, hk⟩ := Option.map_eq_some_iff.mp hgroup
    refine ⟨t, hrun, fun hm => ?_⟩
    obtain ⟨m, hjoined⟩ := (hm.exist (groupAddr, 1) (by simp [hk])).mp (by simp [hk])
    have hmem := (hm.members _ _ _ hk).2 m
    exact List.not_mem_nil (hmem.mpr hjoined)
  · have hgroups : ((multicastFilterTableInit (maxLen true)).step 100
          (.insert groupAddr none 1 .static atZero)).bind (fun t =>
        (t.step 100 (.delete groupAddr (some (station 1)) 1)).map fun t' =>
          (t.groups (groupAddr, 1), t'.groups (groupAddr, 1))) =
        some (some (.static, []), none) := by decide +kernel
    obtain ⟨t, hstep, hrest⟩ := Option.bind_eq_some_iff.mp hgroups
    obtain ⟨t', hstep', hpair⟩ := Option.map_eq_some_iff.mp hrest
    obtain ⟨hk, hk'⟩ := Prod.mk.inj hpair
    obtain ⟨ms, hms⟩ := ((hright.2 t hstep).1 t' hstep').1 trivial _ _ hk
    rw [hk'] at hms
    cases hms

end Runs

end Ralink.Igmp
