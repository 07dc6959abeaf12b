import Ralink.Mat.Ageing

/-! The linked entries hold lists, and the loops on them do to the lists what they should. -/
namespace Ralink.Mat
open Function Links

structure Change.Homed (c : Change) : Prop where
  touch : ∀ d, (c.touch d).home = d.home
  fresh : c.fresh.home = c.slot

def total (lists : Lists) : Nat := ∑ i, (lists i).length

theorem total_update (lists : Lists) (i : Slot) (l : List Entry) :
    total (update lists i l) + (lists i).length = total lists + l.length := by
  unfold total
  rw [← Finset.add_sum_erase _ _ (Finset.mem_univ i),
    ← Finset.add_sum_erase (a := i) Finset.univ (fun i => (lists i).length) (Finset.mem_univ i),
    update_self, Finset.sum_congr rfl fun j hj => by rw [update_of_ne (Finset.ne_of_mem_erase hj)]]
  omega

def MatStruct.next (m : MatStruct) (p : Ptr) : Option Ptr := (m.mem p).bind Node.pNext

structure Holds (m : MatStruct) (lists : Lists) : Prop where
  valid : ∀ t, m.valid t = true
  chain : ∀ i, Chain m.next (m.hash i) ((lists i).map Entry.ptr)
  entry : ∀ i, ∀ e ∈ lists i, ∃ p, m.mem e.ptr = some ⟨e.data, e.lastTime, p⟩
  home : ∀ i, ∀ e ∈ lists i, e.data.home = i
  count : m.nodeCount = BitVec.ofNat 32 (total lists)
  bcast : ∃ b e, m.bcast = some b ∧ m.mem b = some e ∧ e.data.mac = BROADCAST_ADDR ∧
    ∀ i, ∀ e ∈ lists i, e.ptr ≠ b

section Memory

variable {m m' : MatStruct} {lists : Lists} {i j : Slot} {e e' x : Entry} {l pre : List Entry}
  {p q : Ptr}

theorem next_update (m : MatStruct) (p : Ptr) (node : Option Node) :
    (fun q => (update m.mem p node q).bind Node.pNext) =
      update m.next p (node.bind Node.pNext) := by
  funext q
  rcases eq_or_ne q p with rfl | hne
  · rw [update_self, update_self]
  · rw [update_of_ne hne, update_of_ne hne, MatStruct.next]

theorem write_next (m : MatStruct) (p : Ptr) (node : Node) :
    (m.write p node).next = update m.next p node.pNext := next_update m p (some node)

theorem drop_next (m : MatStruct) (p : Ptr) : (m.drop p).next = update m.next p none :=
  next_update m p none

@[simp] theorem write_mem_self (m : MatStruct) (p : Ptr) (node : Node) :
    (m.write p node).mem p = some node := update_self _ _ _

theorem write_mem (hp : p ≠ q) (node : Node) : (m.write q node).mem p = m.mem p :=
  update_of_ne hp _ _

theorem drop_mem (hp : p ≠ q) : (m.drop q).mem p = m.mem p := update_of_ne hp _ _

section

variable (h : Holds m lists)
include h

theorem Holds.hash_eq (i : Slot) : m.hash i = headPtr (lists i) := by
  rw [(h.chain i).head_eq, List.head?_map]
  rfl

theorem Holds.nodup (i : Slot) : ((lists i).map Entry.ptr).Nodup :=
  (h.chain i).nodup

theorem Holds.apart (he : e ∈ lists i) (he' : e' ∈ lists j) (hp : e.ptr = e'.ptr) : i = j := by
  obtain ⟨q, hq⟩ := h.entry i e he
  obtain ⟨q', hq'⟩ := h.entry j e' he'
  rw [hp, hq'] at hq
  have hdata := congrArg Node.data (Option.some.inj hq)
  rw [← h.home i e he, ← h.home j e' he']
  exact congrArg Data.home hdata.symm

theorem Holds.eq_of_ptr (he : e ∈ lists i) (he' : e' ∈ lists i) (hp : e.ptr = e'.ptr) : e = e' :=
  List.inj_on_of_nodup_map (h.nodup i) he he' hp

theorem Holds.node (hi : lists i = pre ++ e :: l) :
    m.mem e.ptr = some ⟨e.data, e.lastTime, headPtr l⟩ := by
  obtain ⟨q, hq⟩ := h.entry i e (by rw [hi]; simp)
  have hchain := h.chain i
  rw [hi, List.map_append, List.map_cons] at hchain
  obtain ⟨r, -, hr⟩ := chain_append.mp hchain
  have hnext := (chain_cons.mp hr).2.head_eq
  rw [MatStruct.next, hq] at hnext
  rw [hq, show q = headPtr l from hnext.trans List.head?_map]

theorem Holds.not_mem_rest (hi : lists i = pre ++ e :: l) : e ∉ pre ++ l := by
  have hnodup := (h.nodup i).of_map
  rw [hi, List.nodup_middle, List.nodup_cons] at hnodup
  exact hnodup.1

theorem Holds.rebuild (i : Slot) (l : List Entry) (hvalid : m'.valid = m.valid)
    (hbcast : m'.bcast = m.bcast) (hhash : ∀ j, j ≠ i → m'.hash j = m.hash j)
    (hmem : ∀ p, m'.mem p = m.mem p ∨ p ∈ (lists i).map Entry.ptr ∨ m.mem p = none)
    (hchain : Chain m'.next (m'.hash i) (l.map Entry.ptr))
    (hentry : ∀ e ∈ l, ∃ p, m'.mem e.ptr = some ⟨e.data, e.lastTime, p⟩)
    (hhome : ∀ e ∈ l, e.data.home = i)
    (hcount : m'.nodeCount = BitVec.ofNat 32 (total (update lists i l)))
    (hb : ∀ e ∈ l, (∃ e' ∈ lists i, e'.ptr = e.ptr) ∨ m.mem e.ptr = none) :
    Holds m' (update lists i l) := by
  have hother : ∀ j, j ≠ i → ∀ e ∈ lists j, m'.mem e.ptr = m.mem e.ptr := by
    intro j hj e he
    rcases hmem e.ptr with heq | hin | hnone
    · exact heq
    · obtain ⟨e', he', hp⟩ := List.mem_map.mp hin
      exact absurd (h.apart he he' hp.symm) hj
    · obtain ⟨q, hq⟩ := h.entry j e he
      rw [hq] at hnone
      exact absurd hnone (Option.some_ne_none _)
  refine ⟨fun t => by rw [hvalid, h.valid], fun j => ?_, fun j => ?_, fun j => ?_, hcount, ?_⟩
  · rcases eq_or_ne j i with rfl | hj
    · rwa [update_self]
    · rw [update_of_ne hj, hhash j hj]
      refine (h.chain j).congr fun q hq => ?_
      obtain ⟨e, he, rfl⟩ := List.mem_map.mp hq
      rw [MatStruct.next, MatStruct.next, hother j hj e he]
  · rcases eq_or_ne j i with rfl | hj
    · rwa [update_self]
    · rw [update_of_ne hj]
      intro e he
      rw [hother j hj e he]
      exact h.entry j e he
  · rcases eq_or_ne j i with rfl | hj
    · rwa [update_self]
    · rw [update_of_ne hj]
      exact h.home j
  · obtain ⟨b, e, hbb, hbe, hmac, hnot⟩ := h.bcast
    refine ⟨b, e, hbcast.trans hbb, ?_, hmac, fun j => ?_⟩
    · rcases hmem b with heq | hin | hnone
      · rw [heq, hbe]
      · obtain ⟨e', he', hp⟩ := List.mem_map.mp hin
        exact absurd hp (hnot i e' he')
      · rw [hbe] at hnone
        exact absurd hnone (Option.some_ne_none _)
    · rcases eq_or_ne j i with rfl | hj
      · rw [update_self]
        intro e' he' hp
        rcases hb e' he' with ⟨e'', he'', hp'⟩ | hnone
        · exact hnot j e'' he'' (hp'.trans hp)
        · rw [hp, hbe] at hnone
          exact absurd hnone (Option.some_ne_none _)
      · rw [update_of_ne hj]
        exact hnot j

theorem Holds.write (hi : lists i = pre ++ e :: l) {d : Data} {t : BitVec 32}
    (hd : d.home = e.data.home) :
    Holds (m.write e.ptr ⟨d, t, headPtr l⟩) (update lists i (pre ++ ⟨e.ptr, d, t⟩ :: l)) := by
  have hnode := h.node hi
  have hptrs : (pre ++ (⟨e.ptr, d, t⟩ : Entry) :: l).map Entry.ptr = (lists i).map Entry.ptr := by
    rw [hi]
    simp
  have hin : ∀ e' ∈ pre ++ e :: l, e' ∈ lists i := fun e' he' => hi ▸ he'
  have hnext : (m.write e.ptr ⟨d, t, headPtr l⟩).next = m.next := by
    rw [write_next]
    refine update_eq_self_iff.mpr ?_
    rw [MatStruct.next, hnode]
    rfl
  refine h.rebuild i _ rfl rfl (fun _ _ => rfl) (fun q => ?_) ?_ (fun e' he' => ?_)
    (fun e' he' => ?_) ?_ (fun e' he' => ?_)
  · rcases eq_or_ne q e.ptr with rfl | hq
    · exact .inr (.inl (List.mem_map_of_mem (hin e (by simp))))
    · exact .inl (write_mem hq _)
  · rw [hptrs, hnext]
    exact h.chain i
  · have hnot := h.not_mem_rest hi
    simp only [List.mem_append, List.mem_cons] at he'
    rcases eq_or_ne e'.ptr e.ptr with hq | hq
    · rcases he' with hpre | rfl | hl
      · exact absurd (h.eq_of_ptr (hin e' (by simp [hpre])) (hin e (by simp)) hq)
          (fun heq => hnot (heq ▸ List.mem_append_left l hpre))
      · exact ⟨_, update_self _ _ _⟩
      · exact absurd (h.eq_of_ptr (hin e' (by simp [hl])) (hin e (by simp)) hq)
          (fun heq => hnot (heq ▸ List.mem_append_right pre hl))
    · have he : e' ∈ lists i := by
        rcases he' with hpre | rfl | hl
        · exact hin e' (by simp [hpre])
        · exact absurd rfl hq
        · exact hin e' (by simp [hl])
      obtain ⟨r, hr⟩ := h.entry i e' he
      exact ⟨r, (write_mem hq _).trans hr⟩
  · simp only [List.mem_append, List.mem_cons] at he'
    rcases he' with hpre | rfl | hl
    · exact h.home i e' (hin e' (by simp [hpre]))
    · exact hd.trans (h.home i e (hin e (by simp)))
    · exact h.home i e' (hin e' (by simp [hl]))
  · have htotal := total_update lists i (pre ++ ⟨e.ptr, d, t⟩ :: l)
    rw [show (lists i).length = (pre ++ (⟨e.ptr, d, t⟩ : Entry) :: l).length by rw [hi]; simp]
      at htotal
    rw [Nat.add_right_cancel htotal]
    exact h.count
  · left
    have := List.mem_map_of_mem (f := Entry.ptr) he'
    rw [hptrs] at this
    exact List.mem_map.mp this

end

theorem ofNat_pred {n k : Nat} (h : n + 1 = k) :
    (BitVec.ofNat 32 k) - 1 = BitVec.ofNat 32 n := by
  subst h
  rw [BitVec.ofNat_add, BitVec.ofNat_eq_ofNat]
  exact BitVec.add_sub_cancel _ _

theorem Holds.remove (h : Holds m lists) (hi : lists i = pre ++ e :: l) (hvalid : m'.valid = m.valid)
    (hbcast : m'.bcast = m.bcast) (hhash : ∀ j, j ≠ i → m'.hash j = m.hash j)
    (hmem : ∀ p, p ≠ e.ptr → (m'.mem p).map (fun n => (n.data, n.lastTime)) =
      (m.mem p).map fun n => (n.data, n.lastTime))
    (hother : ∀ p, p ∉ (lists i).map Entry.ptr → m'.mem p = m.mem p)
    (hcount : m'.nodeCount = m.nodeCount - 1)
    (hchain : Chain m'.next (m'.hash i) ((pre ++ l).map Entry.ptr)) :
    Holds m' (update lists i (pre ++ l)) := by
  have hin : ∀ e' ∈ pre ++ l, e' ∈ lists i := by
    intro e' he'
    rw [hi]
    simp only [List.mem_append, List.mem_cons] at he' ⊢
    rcases he' with hpre | hl
    · exact .inl hpre
    · exact .inr (.inr hl)
  have he : e ∈ lists i := by rw [hi]; simp
  refine h.rebuild i _ hvalid hbcast hhash (fun p => ?_) hchain (fun e' he' => ?_)
    (fun e' he' => h.home i e' (hin e' he')) ?_ fun e' he' => .inl ⟨e', hin e' he', rfl⟩
  · by_cases hp : p ∈ (lists i).map Entry.ptr
    · exact .inr (.inl hp)
    · exact .inl (hother p hp)
  · have hne : e'.ptr ≠ e.ptr := by
      intro hp
      obtain rfl := h.eq_of_ptr (hin e' he') he hp
      exact h.not_mem_rest hi he'
    obtain ⟨q, hq⟩ := h.entry i e' (hin e' he')
    have hsame := hmem e'.ptr hne
    rw [hq] at hsame
    obtain ⟨⟨d, t, q'⟩, hn, hpair⟩ := Option.map_eq_some_iff.mp hsame
    obtain ⟨rfl, rfl⟩ := Prod.mk.inj hpair
    exact ⟨q', hn⟩
  · rw [hcount, h.count]
    refine ofNat_pred ?_
    have htotal := total_update lists i (pre ++ l)
    rw [hi] at htotal
    simp only [List.length_append, List.length_cons] at htotal
    omega

theorem Holds.unlink (h : Holds m lists) (hi : lists i = pre ++ x :: e :: l) :
    Holds ((m.write x.ptr ⟨x.data, x.lastTime, headPtr l⟩).drop e.ptr)
      (update lists i (pre ++ x :: l)) := by
  have hi' : lists i = (pre ++ [x]) ++ e :: l := by rw [hi]; simp
  have hx := h.node hi
  have he := h.node hi'
  have hne : x.ptr ≠ e.ptr := by
    intro hp
    have heq := h.eq_of_ptr (i := i) (by rw [hi]; simp) (by rw [hi]; simp) hp
    exact h.not_mem_rest hi (by rw [heq]; simp)
  have hnext : ((m.write x.ptr ⟨x.data, x.lastTime, headPtr l⟩).drop e.ptr).next =
      update (update m.next x.ptr (headPtr l)) e.ptr none := by rw [drop_next, write_next]
  rw [show pre ++ x :: l = (pre ++ [x]) ++ l by simp]
  refine h.remove hi' rfl rfl (fun _ _ => rfl) (fun p hp => ?_) (fun p hp => ?_) rfl ?_
  · rw [drop_mem hp]
    rcases eq_or_ne p x.ptr with rfl | hpx
    · rw [write_mem_self, hx]
      rfl
    · rw [write_mem hpx]
  · have hpe : p ≠ e.ptr := fun heq => hp (heq ▸ List.mem_map_of_mem (by rw [hi]; simp))
    have hpx : p ≠ x.ptr := fun heq => hp (heq ▸ List.mem_map_of_mem (by rw [hi]; simp))
    rw [drop_mem hpe, write_mem hpx]
  · have hchain := h.chain i
    rw [hi', List.map_append, List.map_append, List.map_singleton, List.map_cons] at hchain
    have hshort := hchain.unlink
    rw [show m.next e.ptr = headPtr l by rw [MatStruct.next, he]; rfl] at hshort
    have hnot : e.ptr ∉ pre.map Entry.ptr ++ [x.ptr] ++ l.map Entry.ptr := by
      have hnodup := hchain.nodup
      rw [List.nodup_middle, List.nodup_cons] at hnodup
      exact hnodup.1
    rw [hnext, List.map_append, List.map_append, List.map_singleton]
    exact hshort.write_other hnot

theorem Holds.behead (h : Holds m lists) (hi : lists i = e :: l) :
    Holds ((m.setHash i (headPtr l)).drop e.ptr) (update lists i l) := by
  have hi' : lists i = [] ++ e :: l := hi
  have he := h.node hi'
  have hin : e ∈ lists i := by rw [hi]; simp
  have hchain := h.chain i
  rw [hi] at hchain
  have hnext : ((m.setHash i (headPtr l)).drop e.ptr).next = update m.next e.ptr none :=
    drop_next (m.setHash i (headPtr l)) e.ptr
  refine h.remove hi' rfl rfl (fun j hj => update_of_ne hj _ _) (fun p hp => ?_) (fun p hp => ?_)
    rfl ?_
  · exact congrArg (Option.map _) (update_of_ne hp _ _)
  · have hne : p ≠ e.ptr := fun heq => hp (heq ▸ List.mem_map_of_mem hin)
    exact update_of_ne hne _ _
  · rw [hnext, show ((m.setHash i (headPtr l)).drop e.ptr).hash i = m.next e.ptr by
      refine (update_self _ _ _).trans ?_
      rw [MatStruct.next, he]
      rfl]
    exact (chain_cons.mp hchain).2.write_other (List.nodup_cons.mp hchain.nodup).1

theorem Holds.push (h : Holds m lists) (hp : m.mem p = none) {d : Data} (t : BitVec 32)
    (hd : d.home = i) :
    Holds { (m.write p ⟨d, t, m.hash i⟩).setHash i (some p) with nodeCount := m.nodeCount + 1 }
      (update lists i (⟨p, d, t⟩ :: lists i)) := by
  have hnot : ∀ e ∈ lists i, e.ptr ≠ p := by
    intro e he heq
    obtain ⟨q, hq⟩ := h.entry i e he
    rw [heq, hp] at hq
    exact absurd hq.symm (Option.some_ne_none _)
  refine h.rebuild i _ rfl rfl (fun j hj => update_of_ne hj _ _) (fun q => ?_) ?_
    (fun e he => ?_) (fun e he => ?_) ?_ fun e he => ?_
  · rcases eq_or_ne q p with rfl | hq
    · exact .inr (.inr hp)
    · exact .inl (update_of_ne hq _ _)
  · refine chain_cons.mpr ⟨update_self _ _ _, ?_⟩
    change Chain (m.write p ⟨d, t, m.hash i⟩).next ((m.write p ⟨d, t, m.hash i⟩).next p) _
    rw [write_next, update_self]
    refine (h.chain i).write_other fun hin => ?_
    obtain ⟨e, he, heq⟩ := List.mem_map.mp hin
    exact hnot e he heq
  · rcases List.mem_cons.mp he with rfl | he
    · exact ⟨_, update_self _ _ _⟩
    · obtain ⟨q, hq⟩ := h.entry i e he
      exact ⟨q, (update_of_ne (hnot e he) _ _).trans hq⟩
  · rcases List.mem_cons.mp he with rfl | he
    · exact hd
    · exact h.home i e he
  · have htotal := total_update lists i (⟨p, d, t⟩ :: lists i)
    rw [List.length_cons] at htotal
    have heq : total (update lists i (⟨p, d, t⟩ :: lists i)) = total lists + 1 := by omega
    rw [heq, BitVec.ofNat_add, ← h.count]
    rfl
  · rcases List.mem_cons.mp he with rfl | he
    · exact .inr hp
    · exact .inl ⟨e, he, rfl⟩

end Memory

section Loops

variable {c : Change} {now : Nat → BitVec 32} {m : MatStruct} {lists : Lists} {i : Slot}
  {e x : Entry} {l pre : List Entry} {n turns : Nat}

theorem Holds.not_head (h : Holds m lists) (hi : lists i = pre ++ x :: e :: l) :
    m.hash i ≠ some e.ptr := by
  intro heq
  have hnot := h.not_mem_rest (show lists i = (pre ++ [x]) ++ e :: l by rw [hi]; simp)
  have hhash := h.hash_eq i
  rw [heq] at hhash
  cases pre with
  | nil =>
    rw [hi] at hhash
    have hx := h.eq_of_ptr (show e ∈ lists i by rw [hi]; simp)
      (show x ∈ lists i by rw [hi]; simp)
      (Option.some.inj hhash)
    exact hnot (by rw [hx]; simp)
  | cons y pre =>
    rw [hi] at hhash
    have hy := h.eq_of_ptr (show e ∈ lists i by rw [hi]; simp)
      (show y ∈ lists i by rw [hi]; simp)
      (Option.some.inj hhash)
    exact hnot (by rw [hy]; simp)

theorem updateLoop_sweep (hc : c.Homed) (h : Holds m lists)
    (hi : lists c.slot = pre ++ x :: l) (hturns : l.length < turns) :
    ∃ m', updateLoop c now turns n m (some x.ptr) (headPtr l) =
        some (m', (c.sweep now n l).2) ∧
      Holds m' (update lists c.slot (pre ++ x :: (c.sweep now n l).1)) := by
  induction l generalizing pre x lists m n turns with
  | nil =>
    obtain ⟨turns, rfl⟩ := Nat.exists_eq_add_of_lt hturns
    refine ⟨m, rfl, ?_⟩
    rw [Change.sweep, ← hi, update_eq_self]
    exact h
  | cons e l ih =>
    obtain ⟨turns, rfl⟩ := Nat.exists_eq_add_of_lt hturns
    have hi' : lists c.slot = (pre ++ [x]) ++ e :: l := by rw [hi]; simp
    have he := h.node hi'
    have hlen : l.length < (e :: l).length + turns := by simp; omega
    have hhead : headPtr (e :: l) = some e.ptr := rfl
    simp only [updateLoop, hhead, he, Option.bind_eq_bind, Option.bind_some, Change.sweep]
    by_cases hsame : c.same e.data
    · simp only [hsame, if_true]
      refine ⟨_, rfl, ?_⟩
      have hwrite := h.write hi' (d := c.touch e.data) (t := now n) (hc.touch e.data)
      rwa [List.append_assoc] at hwrite
    · by_cases hold : c.old now n e
      · have hx := h.node hi
        have hold' : RTMP_TIME_AFTER (now n) (e.lastTime + c.ageout) = true := hold
        have hunlink := h.unlink hi
        have hx' := hunlink.node (update_self _ _ _)
        simp only [hsame, hold, hold', if_true, if_neg (h.not_head hi), hx, hx',
          Option.bind_some, if_false, Bool.false_eq_true]
        obtain ⟨m', hrun, hm'⟩ := ih hunlink (update_self _ _ _) hlen
        rw [update_idem] at hm'
        exact ⟨m', hrun, hm'⟩
      · have hold' : ¬ RTMP_TIME_AFTER (now n) (e.lastTime + c.ageout) = true := hold
        simp only [hsame, hold, hold', if_false, Bool.false_eq_true]
        obtain ⟨m', hrun, hm'⟩ := ih h hi' hlen
        rw [List.append_assoc] at hm'
        exact ⟨m', hrun, hm'⟩

theorem updateLoop_walk (hc : c.Homed) (h : Holds m lists) (now : Nat → BitVec 32)
    (hturns : (lists c.slot).length < turns) :
    ∃ m', updateLoop c now turns 0 m (m.hash c.slot) (m.hash c.slot) =
        some (m', (c.walk now (lists c.slot)).2) ∧
      Holds m' (update lists c.slot (c.walk now (lists c.slot)).1) := by
  obtain ⟨turns, rfl⟩ := Nat.exists_eq_add_of_lt hturns
  rw [h.hash_eq]
  cases hi : lists c.slot with
  | nil =>
    refine ⟨m, rfl, ?_⟩
    rw [Change.walk, ← hi, update_eq_self]
    exact h
  | cons e l =>
    have hi' : lists c.slot = [] ++ e :: l := hi
    have he := h.node hi'
    have hlen : l.length < (e :: l).length + turns := by simp; omega
    have hhead : headPtr (e :: l) = some e.ptr := rfl
    have hhash : m.hash c.slot = some e.ptr := by rw [h.hash_eq, hi]; rfl
    simp only [updateLoop, hhead, he, Option.bind_eq_bind, Option.bind_some, Change.walk]
    generalize (e :: l).length + turns = k at hlen ⊢
    by_cases hsame : c.same e.data
    · simp only [hsame, if_true]
      exact ⟨_, rfl, h.write hi' (hc.touch e.data)⟩
    · by_cases hold : c.old now 0 e
      · have hold' : RTMP_TIME_AFTER (now 0) (e.lastTime + c.ageout) = true := hold
        have hbehead := h.behead hi
        simp only [hsame, hold, hold', hhash, if_true, if_false, Bool.false_eq_true]
        cases l with
        | nil =>
          obtain ⟨k, rfl⟩ := Nat.exists_eq_add_of_lt hlen
          exact ⟨_, rfl, hbehead⟩
        | cons x l =>
          have hx := hbehead.node (show _ = [] ++ x :: l from update_self _ _ _)
          have hhead' : headPtr (x :: l) = some x.ptr := rfl
          simp only [hhead'] at hx ⊢
          simp only [hx, Option.bind_some]
          obtain ⟨m', hrun, hm'⟩ := updateLoop_sweep (n := 0 + 1) hc hbehead
            (show _ = [] ++ x :: l from update_self _ _ _) (Nat.lt_of_succ_lt hlen)
          rw [update_idem] at hm'
          exact ⟨m', hrun, hm'⟩
      · have hold' : ¬ RTMP_TIME_AFTER (now 0) (e.lastTime + c.ageout) = true := hold
        simp only [hsame, hold, hold', if_false, Bool.false_eq_true]
        exact updateLoop_sweep hc h hi' hlen

theorem length_ptrs_le {ptrs : List Ptr} (h : ptrs.Nodup) : ptrs.length ≤ 2 ^ 32 := by
  have hcard := (h.map (f := BitVec.toFin) fun a b hab => BitVec.eq_of_toFin_eq hab).length_le_card
  rwa [List.length_map, Fintype.card_fin] at hcard

theorem Holds.length_lt (h : Holds m lists) (i : Slot) : (lists i).length < maxTurns := by
  have hcard := length_ptrs_le (h.nodup i)
  rw [List.length_map] at hcard
  exact Nat.lt_succ_of_le hcard

inductive Updated (c : Change) (now : Nat → BitVec 32) (addr : Ptr) (lists : Lists) :
    Option Ptr → Lists → Prop
  | found {p : Ptr} : (c.walk now (lists c.slot)).2.1 = some p →
      Updated c now addr lists (some p) (update lists c.slot (c.walk now (lists c.slot)).1)
  | noMemory : (c.walk now (lists c.slot)).2.1 = none →
      Updated c now addr lists none (update lists c.slot (c.walk now (lists c.slot)).1)
  | stored (t : BitVec 32) : (c.walk now (lists c.slot)).2.1 = none →
      Updated c now addr lists (some addr)
        (update lists c.slot (⟨addr, c.fresh, t⟩ :: (c.walk now (lists c.slot)).1))

theorem tableUpdate_spec (hc : c.Homed) (h : Holds m lists) (now : Nat → BitVec 32) (addr : Ptr) :
    ∃ m' r lists', tableUpdate m c now addr = some (m', r) ∧ Holds m' lists' ∧
      Updated c now addr lists r lists' := by
  obtain ⟨m₁, hrun, h₁⟩ := updateLoop_walk hc h now (h.length_lt c.slot)
  simp only [tableUpdate, h.valid, if_true, hrun, Option.bind_eq_bind, Option.bind_some]
  cases hfound : (c.walk now (lists c.slot)).2.1 with
  | some p => exact ⟨m₁, some p, _, rfl, h₁, .found hfound⟩
  | none =>
    by_cases hfree : addr = 0 ∨ (m₁.mem addr).isSome
    · rw [show MATDBEntryAlloc m₁ addr = none from if_pos hfree]
      exact ⟨m₁, none, _, rfl, h₁, .noMemory hfound⟩
    · rw [show MATDBEntryAlloc m₁ addr = some addr from if_neg hfree]
      have hmem : m₁.mem addr = none := by
        simpa using (not_or.mp hfree).2
      have hpush := h₁.push hmem (now (c.walk now (lists c.slot)).2.2) hc.fresh
      rw [update_idem, update_self] at hpush
      exact ⟨_, some addr, _, rfl, hpush, .stored _ hfound⟩

theorem lookUpLoop_eq (same : Data → Bool) (h : Holds m lists) (hi : lists i = pre ++ l)
    (hturns : l.length < turns) :
    lookUpLoop m same turns (headPtr l) = some ((l.find? (same ∘ Entry.data)).map Entry.ptr) := by
  induction l generalizing pre turns with
  | nil =>
    obtain ⟨turns, rfl⟩ := Nat.exists_eq_add_of_lt hturns
    rfl
  | cons e l ih =>
    obtain ⟨turns, rfl⟩ := Nat.exists_eq_add_of_lt hturns
    have he := h.node hi
    have hhead : headPtr (e :: l) = some e.ptr := rfl
    simp only [lookUpLoop, hhead, he, Option.bind_eq_bind, Option.bind_some]
    by_cases hs : same e.data = true
    · rw [if_pos hs, List.find?_cons_of_pos (p := same ∘ Entry.data) hs]
      rfl
    · rw [if_neg hs, List.find?_cons_of_neg (p := same ∘ Entry.data) hs]
      exact ih (show lists i = (pre ++ [e]) ++ l by rw [hi]; simp) (by simp; omega)

theorem refresh_of_find {same : Data → Bool} {t : BitVec 32}
    (hfind : l.find? (same ∘ Entry.data) = some e) :
    ∃ pre post, l = pre ++ e :: post ∧
      refresh same t l = pre ++ { e with lastTime := t } :: post := by
  induction l with
  | nil => exact absurd hfind.symm (Option.some_ne_none _)
  | cons x l ih =>
    by_cases hs : same x.data = true
    · obtain rfl : x = e := by simpa [List.find?_cons, hs] using hfind
      exact ⟨[], l, rfl, by rw [refresh, if_pos hs]; rfl⟩
    · obtain ⟨pre, post, rfl, hr⟩ := ih (by simpa [List.find?_cons, hs] using hfind)
      exact ⟨x :: pre, post, rfl, by rw [refresh, if_neg hs, hr]; rfl⟩

theorem refresh_of_none {same : Data → Bool} {t : BitVec 32}
    (hfind : l.find? (same ∘ Entry.data) = none) : refresh same t l = l := by
  induction l with
  | nil => rfl
  | cons x l ih =>
    have hs : ¬ same x.data = true := List.find?_eq_none.mp hfind x List.mem_cons_self
    rw [refresh, if_neg hs, ih (by simpa [List.find?_cons, hs] using hfind)]

theorem tableLookUp_spec (h : Holds m lists) (i : Slot) (same : Data → Bool) (t : BitVec 32) :
    ∃ m', tableLookUp m i same t =
        some (m', ((lists i).find? (same ∘ Entry.data)).map Entry.data) ∧
      Holds m' (update lists i (refresh same t (lists i))) ∧ m'.bcast = m.bcast := by
  have hloop := lookUpLoop_eq same h (show lists i = [] ++ lists i from rfl) (h.length_lt i)
  rw [← h.hash_eq] at hloop
  simp only [tableLookUp, hloop, Option.bind_eq_bind, Option.bind_some]
  cases hfind : (lists i).find? (same ∘ Entry.data) with
  | none =>
    rw [refresh_of_none hfind, update_eq_self]
    exact ⟨m, rfl, h, rfl⟩
  | some e =>
    obtain ⟨pre, post, hi, hr⟩ := refresh_of_find (t := t) hfind
    have he := h.node hi
    rw [hr]
    simp only [Option.map_some, he, Option.bind_some]
    exact ⟨_, rfl, h.write hi rfl, rfl⟩

end Loops

end Ralink.Mat
