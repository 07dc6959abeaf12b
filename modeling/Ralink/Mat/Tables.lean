import Ralink.Lib.Run
import Ralink.Mat.Memory

/-! Runs of updates and lookups on the three tables: each chain ends, each key has one entry, a
lookup gives what was stored, and an entry goes only with age. -/
namespace Ralink.Mat
open Function Links

inductive Key where
  | ip (ipAddr : Ip)
  | uid (uIDStr : List UInt8) (macAddr : Mac)
  | ses (sessionID : BitVec 16) (outMacAddr inMacAddr : Mac)
  deriving DecidableEq

def Data.key : Data → Key
  | .ip e => .ip e.ipAddr
  | .uid e => .uid e.uIDStr e.macAddr
  | .ses e => .ses e.sessionID e.outMacAddr e.inMacAddr

def Key.home : Key → Slot
  | .ip ipAddr => (.ip, hashIndex (xorBytes ipAddr.toList))
  | .uid uIDStr _ => (.uid, hashIndex (xorBytes uIDStr))
  | .ses sessionID _ _ => (.ses, hashIndex sessionID.toNat)

theorem Data.home_key (d : Data) : d.key.home = d.home := by cases d <;> rfl

inductive Query where
  | ip (ipAddr : Ip)
  | uid (tag : Uid)
  | ses (outMac : Mac) (sesID : BitVec 16)
  deriving DecidableEq

namespace Query

def slot : Query → Slot
  | ip ipAddr => (.ip, hashIndex (xorBytes ipAddr.toList))
  | uid tag => (.uid, hashIndex (xorBytes tag.1))
  | ses _ sesID => (.ses, hashIndex sesID.toNat)

def hit : Query → Data → Bool
  | ip ipAddr => Data.isIp ipAddr
  | uid tag => Data.isUid tag
  | ses outMac sesID => Data.isSes outMac sesID

/-- The entry is one that the query finds, in its chain. -/
def finds (q : Query) (d : Data) : Bool := d.home = q.slot && q.hit d

def multicast : Query → Bool
  | ip ipAddr => IS_MULTICAST_IP ipAddr
  | _ => false

def miss : Query → Option Mac
  | ip _ => some BROADCAST_ADDR
  | _ => none

end Query

theorem Query.finds_eq {q : Query} {d : Data} (h : d.home = q.slot) : q.finds d = q.hit d := by
  rw [Query.finds, decide_eq_true h, Bool.true_and]

inductive Event where
  | ipUpdate (pMacAddr : Mac) (ipAddr : Ip) (now : Nat → BitVec 32) (addr : Ptr)
  | uidUpdate (pInMac pOutMac : Mac) (pTagInfo : Option (List UInt8)) (isServer : Bool)
      (now : Nat → BitVec 32) (addr : Ptr)
  | sesUpdate (inMacAddr : Mac) (sesID : BitVec 16) (outMacAddr : Mac) (now : Nat → BitVec 32)
      (addr : Ptr)
  | lookUp (q : Query) (now : BitVec 32)

section Step

variable (HZ : BitVec 32) (m : MatStruct)

def lookUp (q : Query) (now : BitVec 32) : Option (MatStruct × Option Mac) :=
  match q with
  | .ip ipAddr => IPMacTableLookUp m ipAddr now
  | .uid tag => (UidMacTableLookUp m tag now).map fun r => (r.1, r.2.map Data.mac)
  | .ses outMac sesID => getInMacByOutMacFromSesMacTb m outMac sesID now

def step (e : Event) : Option MatStruct :=
  match e with
  | .ipUpdate mac ip now addr => (IPMacTableUpdate m HZ mac ip now addr).map Prod.fst
  | .uidUpdate inMac outMac tag isServer now addr =>
    (UidMacTableUpdate m HZ inMac outMac tag isServer now addr).map Prod.fst
  | .sesUpdate inMac sesID outMac now addr =>
    (SesMacTableUpdate m inMac sesID outMac now addr).map Prod.fst
  | .lookUp q now => (lookUp m q now).map Prod.fst

/-- The change that an update makes, its clock and the memory that it is offered. -/
def Event.change : Event → Option (Change × (Nat → BitVec 32) × Ptr)
  | .ipUpdate mac ip now addr => some (ipChange HZ mac ip, now, addr)
  | .uidUpdate inMac outMac tag isServer now addr =>
    let (uid, addByUs) := uidOf inMac outMac tag isServer
    some (uidChange HZ uid addByUs isServer inMac, now, addr)
  | .sesUpdate inMac sesID outMac now addr => some (sesChange inMac sesID outMac, now, addr)
  | .lookUp _ _ => none

end Step

variable (HZ : BitVec 32) (uid : Uid) {c : Change} {e : Event} {now : Nat → BitVec 32} {addr : Ptr}

structure Change.Keyed (c : Change) : Prop where
  touch : ∀ d, (c.touch d).key = d.key
  same : ∀ d, d.key = c.fresh.key → c.same d = true
  sameKey : ∀ d d', d.key = d'.key → c.same d = c.same d'
  home : c.fresh.home = c.slot

theorem Change.Keyed.homed (h : c.Keyed) : c.Homed :=
  ⟨fun d => by rw [← Data.home_key, h.touch, Data.home_key], h.home⟩

theorem Change.Keyed.same_touch (hc : c.Keyed) (d : Data) (h : c.same d = true) :
    c.same (c.touch d) = true := by
  rw [hc.sameKey _ _ (hc.touch d), h]

theorem xorBytes_padUid : xorBytes (padUid uid) = xorBytes uid.1 := by
  have hzero : ∀ (n : Nat) (b : UInt8), (List.replicate n (0 : UInt8)).foldl (· ^^^ ·) b = b := by
    intro n b
    induction n with
    | zero => rfl
    | succ n ih => rw [List.replicate_succ, List.foldl_cons, UInt8.xor_zero, ih]
  rw [xorBytes, xorBytes, padUid, List.foldl_append, hzero]

theorem take_padUid : (padUid uid).take uid.1.length = uid.1 := List.take_left

theorem ipChange_keyed (mac : Mac) (ip : Ip) : (ipChange HZ mac ip).Keyed where
  touch d := by cases d <;> rfl
  same d h := by
    cases d with
    | ip e => exact decide_eq_true (Key.ip.inj h)
    | uid e => cases h
    | ses e => cases h
  sameKey d d' h := by
    cases d <;> cases d' <;> simp_all [Data.key, ipChange]
  home := rfl

theorem uidChange_keyed (addByUs isServer : Bool) (mac : Mac) :
    (uidChange HZ uid addByUs isServer mac).Keyed where
  touch d := by cases d <;> rfl
  same d h := by
    cases d with
    | ip e => cases h
    | uid e =>
      obtain ⟨huid, hmac⟩ := Key.uid.inj h
      exact decide_eq_true ⟨huid ▸ take_padUid uid, hmac⟩
    | ses e => cases h
  sameKey d d' h := by
    cases d <;> cases d' <;> simp_all [Data.key, uidChange]
  home := congrArg (fun n => (Table.uid, hashIndex n)) (xorBytes_padUid uid)

theorem sesChange_keyed (inMac : Mac) (sesID : BitVec 16) (outMac : Mac) :
    (sesChange inMac sesID outMac).Keyed where
  touch _ := rfl
  same d h := by
    cases d with
    | ip e => cases h
    | uid e => cases h
    | ses e =>
      obtain ⟨hid, hout, hin⟩ := Key.ses.inj h
      exact decide_eq_true ⟨hid, hin, hout⟩
  sameKey d d' h := by
    cases d <;> cases d' <;> simp_all [Data.key, sesChange]
  home := rfl

theorem Event.change_keyed {HZ : BitVec 32} (h : e.change HZ = some (c, now, addr)) : c.Keyed := by
  cases e with
  | ipUpdate mac ip now addr =>
    obtain ⟨rfl, -⟩ := Prod.mk.inj (Option.some.inj h)
    exact ipChange_keyed HZ mac ip
  | uidUpdate inMac outMac tag isServer now addr =>
    obtain ⟨rfl, -⟩ := Prod.mk.inj (Option.some.inj h)
    exact uidChange_keyed HZ _ _ isServer inMac
  | sesUpdate inMac sesID outMac now addr =>
    obtain ⟨rfl, -⟩ := Prod.mk.inj (Option.some.inj h)
    exact sesChange_keyed inMac sesID outMac
  | lookUp q now => cases h

theorem Event.step_change {HZ : BitVec 32} {m : MatStruct} (h : e.change HZ = some (c, now, addr)) :
    step HZ m e = (tableUpdate m c now addr).map Prod.fst := by
  cases e with
  | ipUpdate mac ip now addr =>
    obtain ⟨hc, hrest⟩ := Prod.mk.inj (Option.some.inj h)
    obtain ⟨rfl, rfl⟩ := Prod.mk.inj hrest
    subst hc
    simp only [step, IPMacTableUpdate, Option.map_map]
    rfl
  | uidUpdate inMac outMac tag isServer now addr =>
    obtain ⟨hc, hrest⟩ := Prod.mk.inj (Option.some.inj h)
    obtain ⟨rfl, rfl⟩ := Prod.mk.inj hrest
    subst hc
    rfl
  | sesUpdate inMac sesID outMac now addr =>
    obtain ⟨hc, hrest⟩ := Prod.mk.inj (Option.some.inj h)
    obtain ⟨rfl, rfl⟩ := Prod.mk.inj hrest
    subst hc
    simp only [step, SesMacTableUpdate, Option.map_map]
    rfl
  | lookUp q now => cases h

section LookUp

variable {m : MatStruct} {lists : Lists}

theorem lookUp_spec (h : Holds m lists) (q : Query) (t : BitVec 32) :
    ∃ m' ans lists', lookUp m q t = some (m', ans) ∧ Holds m' lists' ∧
      (lists' = lists ∨ lists' = update lists q.slot (refresh q.hit t (lists q.slot))) ∧
      (q.multicast = false →
        ans = (((lists q.slot).find? (q.hit ∘ Entry.data)).map fun e => some e.data.mac).getD
          q.miss) := by
  have hlook := tableLookUp_spec h q.slot q.hit t
  obtain ⟨m', hrun, h', hbcast⟩ := hlook
  cases q with
  | ip ipAddr =>
    simp only [lookUp, IPMacTableLookUp, h.valid, if_true]
    by_cases hmc : IS_MULTICAST_IP ipAddr = true
    · rw [if_pos hmc]
      refine ⟨_, _, lists, rfl, ?_, .inl rfl, fun hno => ?_⟩
      · exact ⟨h.valid, h.chain, h.entry, h.home, h.count, h.bcast⟩
      · exact absurd hmc (by rw [show IS_MULTICAST_IP ipAddr = false from hno]; simp)
    · rw [if_neg hmc]
      obtain ⟨b, e, hb, hbe, hmac, -⟩ := h'.bcast
      rw [show tableLookUp m (.ip, hashIndex (xorBytes ipAddr.toList)) (Data.isIp ipAddr) t = _
        from hrun]
      simp only [Option.bind_eq_bind, Option.bind_some]
      cases hfind : (lists (Query.ip ipAddr).slot).find? ((Query.ip ipAddr).hit ∘ Entry.data) with
      | none =>
        simp only [Option.map_none, hb, hbe, Option.bind_some]
        exact ⟨m', _, _, rfl, h', .inr rfl, fun _ => by rw [hmac]; rfl⟩
      | some e => exact ⟨m', _, _, rfl, h', .inr rfl, fun _ => rfl⟩
  | uid tag =>
    simp only [lookUp, UidMacTableLookUp, h.valid, if_true]
    rw [show tableLookUp m (.uid, hashIndex (xorBytes tag.1)) (Data.isUid tag) t = _ from hrun]
    refine ⟨m', _, _, rfl, h', .inr rfl, fun _ => ?_⟩
    cases (lists (Query.uid tag).slot).find? ((Query.uid tag).hit ∘ Entry.data) <;> rfl
  | ses outMac sesID =>
    simp only [lookUp, getInMacByOutMacFromSesMacTb, h.valid, if_true]
    rw [show tableLookUp m (.ses, hashIndex sesID.toNat) (Data.isSes outMac sesID) t = _
      from hrun]
    refine ⟨m', _, _, rfl, h', .inr rfl, fun _ => ?_⟩
    cases (lists (Query.ses outMac sesID).slot).find?
      ((Query.ses outMac sesID).hit ∘ Entry.data) <;> rfl

end LookUp

end Ralink.Mat

/-! What holds after every run: chains that end, one entry for each key, lookups that give what was
stored last and entries that go only with age. -/
namespace Ralink.Mat
open Function Links

def MatStruct.entries (m : MatStruct) : Lists := fun i =>
  (walk m.next maxTurns (m.hash i)).filterMap fun p =>
    (m.mem p).map fun node => ⟨p, node.data, node.lastTime⟩

theorem Holds.entries_eq {m : MatStruct} {lists : Lists} (h : Holds m lists) :
    m.entries = lists := by
  funext i
  have hlen : ((lists i).map Entry.ptr).length ≤ maxTurns := by
    rw [List.length_map]
    exact Nat.le_of_lt (h.length_lt i)
  rw [MatStruct.entries, (h.chain i).walk_eq hlen, List.filterMap_map]
  have hentry := h.entry i
  generalize lists i = l at hentry ⊢
  induction l with
  | nil => rfl
  | cons e l ih =>
    obtain ⟨p, hp⟩ := hentry e List.mem_cons_self
    rw [List.filterMap_cons_some (b := e) (by rw [comp_apply, hp]; rfl),
      ih fun x hx => hentry x (List.mem_cons_of_mem e hx)]

/-- Every chain ends, and so meets no entry twice, has the entries of its hash index, and
`nodeCount` counts them all. -/
structure Linked (m : MatStruct) : Prop where
  chain : ∀ i, Chain m.next (m.hash i) ((m.entries i).map Entry.ptr)
  nodup : ∀ i, ((m.entries i).map Entry.ptr).Nodup
  home : ∀ i, ∀ e ∈ m.entries i, e.data.home = i
  count : m.nodeCount.toNat = total m.entries

def KeysOnce (m : MatStruct) : Prop :=
  ∀ i j, ∀ e ∈ m.entries i, ∀ e' ∈ m.entries j, e.data.key = e'.data.key → e = e'

/-- The entry is still there, unchanged but for what the update writes to an entry that it
looks for, or it was too old when the clock was read. -/
def Survives (c : Change) (now : Nat → BitVec 32) (e : Entry) (l : List Entry) : Prop :=
  (∃ e' ∈ l, e'.ptr = e.ptr ∧ e'.data.key = e.data.key ∧ (c.same e.data = false → e' = e)) ∨
    c.same e.data = false ∧ ∃ n, RTMP_TIME_AFTER (now n) (e.lastTime + c.ageout) = true

/-- The update drops the head of its chain and so passes over an entry that it looks for. -/
def Event.skips (HZ : BitVec 32) (m : MatStruct) (e : Event) : Bool :=
  match e.change HZ with
  | some (c, now, _) => c.skips now (m.entries c.slot)
  | none => false

/-- An update does not find an entry of the key idle for longer than its age limit. -/
def Event.Young (HZ : BitVec 32) (k : Key) (m : MatStruct) (e : Event) : Prop :=
  ∀ c now addr, e.change HZ = some (c, now, addr) → ∀ x ∈ m.entries c.slot, x.data.key = k →
    ∀ n, now n - x.lastTime ≤ c.ageout

/-- No update for which the query would find a new entry finds none to update. -/
def Event.NoOther (HZ : BitVec 32) (q : Query) (m : MatStruct) (e : Event) : Prop :=
  ∀ c now addr, e.change HZ = some (c, now, addr) → q.finds c.fresh = true →
    ∃ x ∈ m.entries c.slot, c.same x.data = true

section Count

variable {m : MatStruct} {lists : Lists}

theorem Holds.total_lt (h : Holds m lists) : total lists < 2 ^ 32 := by
  obtain ⟨b, -, -, -, -, hb⟩ := h.bcast
  let ptrs : Slot → Finset Ptr := fun i => ((lists i).map Entry.ptr).toFinset
  have hcard : ∀ i, (ptrs i).card = (lists i).length := fun i => by
    rw [List.toFinset_card_of_nodup (h.nodup i), List.length_map]
  have hdisjoint : Pairwise (Disjoint on ptrs) := by
    intro i j hij
    refine Finset.disjoint_left.mpr fun p hi hj => hij ?_
    obtain ⟨e, he, rfl⟩ := List.mem_map.mp (List.mem_toFinset.mp hi)
    obtain ⟨e', he', hp⟩ := List.mem_map.mp (List.mem_toFinset.mp hj)
    exact h.apart he he' hp.symm
  have hunion : (Finset.univ.biUnion ptrs).card = total lists := by
    rw [Finset.card_biUnion (hdisjoint.set_pairwise _), total, funext hcard]
  have hnot : b ∉ Finset.univ.biUnion ptrs := by
    simp only [Finset.mem_biUnion, Finset.mem_univ, true_and, not_exists]
    intro i hi
    obtain ⟨e, he, hp⟩ := List.mem_map.mp (List.mem_toFinset.mp hi)
    exact hb i e he hp
  have hall := length_ptrs_le (insert b (Finset.univ.biUnion ptrs)).nodup_toList
  rw [Finset.length_toList, Finset.card_insert_of_notMem hnot, hunion] at hall
  omega

theorem Holds.linked (h : Holds m lists) : Linked m where
  chain i := by rw [h.entries_eq]; exact h.chain i
  nodup i := by rw [h.entries_eq]; exact h.nodup i
  home i := by rw [h.entries_eq]; exact h.home i
  count := by
    rw [h.entries_eq, h.count, BitVec.toNat_ofNat, Nat.mod_eq_of_lt h.total_lt]

end Count

theorem holds_init {m₀ : MatStruct} {b : Ptr} (h : MATEngineInit b = some m₀) :
    Holds m₀ fun _ => [] := by
  unfold MATEngineInit at h
  dsimp only at h
  split at h
  · cases h
  · next p hp =>
    obtain rfl := Option.some.inj h
    refine ⟨fun _ => rfl, fun _ => rfl, fun _ _ he => absurd he List.not_mem_nil,
      fun _ _ he => absurd he List.not_mem_nil, ?_, p, _, rfl, update_self _ _ _, rfl,
      fun _ _ he => absurd he List.not_mem_nil⟩
    rw [show total (fun _ => []) = 0 from Finset.sum_const_zero]
    rfl

section Step

variable {HZ : BitVec 32} {m : MatStruct} {lists lists' : Lists} {e : Event} {c : Change}
  {now : Nat → BitVec 32} {addr : Ptr} {r : Option Ptr} {q : Query} {k : Key} {mac : Mac} {i : Slot}
  {x : Entry}

theorem step_cases (HZ : BitVec 32) (h : Holds m lists) (e : Event) :
    ∃ m' lists', step HZ m e = some m' ∧ Holds m' lists' ∧
      ((∃ c now addr r, e.change HZ = some (c, now, addr) ∧
          tableUpdate m c now addr = some (m', r) ∧ Updated c now addr lists r lists') ∨
        e.change HZ = none ∧ ∃ q t, lists' = lists ∨
          lists' = update lists (Query.slot q) (refresh q.hit t (lists q.slot))) := by
  cases hchange : e.change HZ with
  | none =>
    cases e with
    | ipUpdate mac ip now addr => cases hchange
    | uidUpdate inMac outMac tag isServer now addr => cases hchange
    | sesUpdate inMac sesID outMac now addr => cases hchange
    | lookUp q t =>
      obtain ⟨m', ans, lists', hrun, h', hlists, -⟩ := lookUp_spec h q t
      exact ⟨m', lists', by rw [step, hrun]; rfl, h', .inr ⟨rfl, q, t, hlists⟩⟩
  | some change =>
    obtain ⟨c, now, addr⟩ := change
    obtain ⟨m', r, lists', hrun, h', hupdated⟩ :=
      tableUpdate_spec (Event.change_keyed hchange).homed h now addr
    refine ⟨m', lists', ?_, h', .inl ⟨c, now, addr, r, rfl, hrun, hupdated⟩⟩
    rw [Event.step_change hchange, hrun]
    rfl

theorem Updated.other (h : Updated c now addr lists r lists') {i : Slot} (hi : i ≠ c.slot) :
    lists' i = lists i := by
  cases h <;> exact update_of_ne hi _ _

theorem Updated.self (h : Updated c now addr lists r lists') :
    lists' c.slot = (c.walk now (lists c.slot)).1 ∨
      (c.walk now (lists c.slot)).2.1 = none ∧ r = some addr ∧
        ∃ t, lists' c.slot = ⟨addr, c.fresh, t⟩ :: (c.walk now (lists c.slot)).1 := by
  cases h with
  | found hp => exact .inl (update_self _ _ _)
  | noMemory hn => exact .inl (update_self _ _ _)
  | stored t hn => exact .inr ⟨hn, rfl, t, update_self _ _ _⟩

def Unique (lists : Lists) : Prop := ∀ i, ((lists i).map (Data.key ∘ Entry.data)).Nodup

theorem unique_nil : Unique fun _ => [] := fun _ => List.nodup_nil

theorem Updated.unique (hc : c.Keyed) (hu : Unique lists)
    (hskip : c.skips now (lists c.slot) = false) (h : Updated c now addr lists r lists') :
    Unique lists' := by
  intro i
  rcases eq_or_ne i c.slot with rfl | hi
  · have hwalk := (hu c.slot).sublist (walk_sublist hc.touch now (lists c.slot))
    rcases h.self with heq | ⟨hn, -, t, heq⟩
    · rwa [heq]
    · rw [heq, List.map_cons]
      refine List.nodup_cons.mpr ⟨fun hin => ?_, hwalk⟩
      obtain ⟨x, hx, hkey⟩ := List.mem_map.mp hin
      exact walk_none hskip hn hx (hc.same x.data hkey)
  · rw [h.other hi]
    exact hu i

theorem unique_refresh (hu : Unique lists) (i : Slot) (same : Data → Bool) (t : BitVec 32) :
    Unique (update lists i (refresh same t (lists i))) := by
  intro j
  rcases eq_or_ne j i with rfl | hj
  · rw [update_self, refresh_map]
    exact hu j
  · rw [update_of_ne hj]
    exact hu j

theorem Updated.survives (hc : c.Keyed) (h : Updated c now addr lists r lists') (hx : x ∈ lists i) :
    Survives c now x (lists' i) := by
  rcases eq_or_ne i c.slot with rfl | hi
  · have hsub : ∀ y ∈ (c.walk now (lists c.slot)).1, y ∈ lists' c.slot := by
      intro y hy
      rcases h.self with heq | ⟨-, -, t, heq⟩
      · rwa [heq]
      · rw [heq]
        exact List.mem_cons_of_mem _ hy
    rcases walk_fate c now hx with hin | ⟨hsame, -, n, hn⟩ | ⟨hsame, n, hn⟩
    · exact .inl ⟨x, hsub x hin, rfl, rfl, fun _ => rfl⟩
    · refine .inl ⟨c.hit now n x, hsub _ hn, rfl, hc.touch x.data, fun hno => ?_⟩
      rw [hno] at hsame
      cases hsame
    · exact .inr ⟨by simpa using hsame, n, hn⟩
  · rw [h.other hi]
    exact .inl ⟨x, hx, rfl, rfl, fun _ => rfl⟩

theorem Query.hit_key (q : Query) {d d' : Data} (h : d.key = d'.key) : q.hit d = q.hit d' := by
  cases q <;> cases d <;> cases d' <;>
    simp_all [Data.key, Query.hit, Data.isIp, Data.isUid, Data.isSes]

def Front (q : Query) (k : Key) (mac : Mac) (lists : Lists) : Prop :=
  ∃ e, (lists q.slot).find? (q.hit ∘ Entry.data) = some e ∧ e.data.key = k ∧ e.data.mac = mac

theorem Updated.front (hc : c.Keyed) (h : Updated c now addr lists r lists')
    (hf : Front q k mac lists)
    (hyoung : ∀ x ∈ lists c.slot, x.data.key = k → ∀ n, ¬ c.old now n x = true)
    (hmac : ∀ d, d.key = k → c.same d = true → (c.touch d).mac = d.mac)
    (hnew : (c.walk now (lists c.slot)).2.1 = none → r = some addr → q.finds c.fresh = false) :
    Front q k mac lists' := by
  obtain ⟨e, hfind, hkey, he⟩ := hf
  rcases eq_or_ne q.slot c.slot with hslot | hslot
  · rw [hslot] at hfind
    obtain ⟨e', hfind', heq⟩ := walk_find (c := c) now
      (fun d => q.hit_key (hc.touch d)) hfind
      (.inr (hyoung e (List.mem_of_find?_eq_some hfind) hkey))
    have hboth : e'.data.key = k ∧ e'.data.mac = mac := by
      rcases heq with rfl | ⟨hsame, n, rfl⟩
      · exact ⟨hkey, he⟩
      · exact ⟨(hc.touch e.data).trans hkey, (hmac e.data hkey hsame).trans he⟩
    refine ⟨e', ?_, hboth⟩
    rw [hslot]
    rcases h.self with hself | ⟨hn, hr, t, hself⟩
    · rwa [hself]
    · have hno : ¬ (q.hit ∘ Entry.data) ⟨addr, c.fresh, t⟩ = true := by
        have hfresh := hnew hn hr
        rw [Query.finds_eq (hc.home.trans hslot.symm)] at hfresh
        rw [comp_apply, hfresh]
        exact Bool.false_ne_true
      rwa [hself, List.find?_cons_of_neg hno]
  · exact ⟨e, by rwa [h.other hslot], hkey, he⟩

theorem front_refresh (hf : Front q k mac lists) (i : Slot) (same : Data → Bool) (t : BitVec 32) :
    Front q k mac (update lists i (refresh same t (lists i))) := by
  obtain ⟨e, hfind, hkey, he⟩ := hf
  rcases eq_or_ne q.slot i with rfl | hi
  · have hmap := refresh_find q.hit same t (lists q.slot)
    rw [hfind] at hmap
    obtain ⟨e', hfind', hdata⟩ := Option.map_eq_some_iff.mp hmap
    exact ⟨e', by rwa [update_self], by rw [hdata, hkey], by rw [hdata, he]⟩
  · exact ⟨e, by rwa [update_of_ne hi], hkey, he⟩

def Missing (q : Query) (lists : Lists) : Prop := ∀ x ∈ lists q.slot, q.hit x.data = false

theorem Updated.origin (hc : c.Keyed) (h : Updated c now addr lists r lists') (hx : x ∈ lists' i) :
    (∃ y ∈ lists i, y.data.key = x.data.key) ∨
      i = c.slot ∧ r = some addr ∧ x.data = c.fresh := by
  rcases eq_or_ne i c.slot with rfl | hi
  · have hwalk : x ∈ (c.walk now (lists c.slot)).1 → ∃ y ∈ lists c.slot, y.data.key = x.data.key :=
      fun hx => List.mem_map.mp ((walk_sublist hc.touch now (lists c.slot)).subset
        (List.mem_map_of_mem (f := Data.key ∘ Entry.data) hx))
    rcases h.self with hself | ⟨-, hr, t, hself⟩
    · exact .inl (hwalk (hself ▸ hx))
    · rw [hself] at hx
      rcases List.mem_cons.mp hx with rfl | hx
      · exact .inr ⟨rfl, hr, rfl⟩
      · exact .inl (hwalk hx)
  · rw [h.other hi] at hx
    exact .inl ⟨x, hx, rfl⟩

theorem Updated.missing (hc : c.Keyed) (h : Updated c now addr lists r lists')
    (hm : Missing q lists) (hnew : r = some addr → q.finds c.fresh = false) : Missing q lists' := by
  intro x hx
  rcases h.origin hc hx with ⟨y, hy, hkey⟩ | ⟨hslot, hr, hfresh⟩
  · rw [q.hit_key hkey.symm]
    exact hm y hy
  · have hfinds := hnew hr
    rwa [Query.finds_eq (hc.home.trans hslot.symm), ← hfresh] at hfinds

theorem missing_refresh (hm : Missing q lists) (i : Slot) (same : Data → Bool) (t : BitVec 32) :
    Missing q (update lists i (refresh same t (lists i))) := by
  intro x hx
  rcases eq_or_ne q.slot i with rfl | hi
  · rw [update_self] at hx
    have hin := List.mem_map_of_mem (f := q.hit ∘ Entry.data) hx
    rw [refresh_map] at hin
    obtain ⟨y, hy, heq⟩ := List.mem_map.mp hin
    exact heq.symm.trans (hm y hy)
  · rw [update_of_ne hi] at hx
    exact hm x hx

end Step

end Ralink.Mat
