import Ralink.Lib.Run
import Ralink.Station.Table

/-! Index, chains and counters of the station table agree. -/
namespace Ralink.Station
open Function Slots

/-- The authentication and association machines set the state of a station between the calls. -/
inductive Event (cfg : Config) where
  | insert (MaxStaNum : Nat → Nat) (pAddr : Mac) (apidx : Apidx cfg)
  | delete (wcid : Nat) (pAddr : Mac)
  | reset (alloc : Wcid → Bool)
  | setSst (wcid : Wcid) (Sst : Sst)

def setSst (wcid : Wcid) (Sst : Sst) (pAd : RTMP_ADAPTER) : RTMP_ADAPTER :=
  { pAd with Content := update pAd.Content wcid { pAd.Content wcid with Sst } }

def step (cfg : Config) (pAd : RTMP_ADAPTER) : Event cfg → Option RTMP_ADAPTER
  | .insert MaxStaNum pAddr apidx =>
    (MacTableInsertEntry cfg MaxStaNum pAddr apidx.val pAd).map (·.2)
  | .delete wcid pAddr => (MacTableDeleteEntry wcid pAddr pAd).map (·.2)
  | .reset alloc => MacTableReset cfg alloc pAd
  | .setSst wcid Sst => some (setSst wcid Sst pAd)

/-- The adapter is zeroed when it is allocated. -/
def start : RTMP_ADAPTER := ⟨fun _ => none, fun _ => zeroed, fun _ => none, 0, fun _ => 0, 0⟩

def inUse (e : MAC_TABLE_ENTRY) : Option Unit :=
  if e.EntryType = .NONE then none else some ()

def client (e : MAC_TABLE_ENTRY) : Option Unit :=
  if e.EntryType = .CLIENT then some () else none

def clientOf (apidx : Nat) (e : MAC_TABLE_ENTRY) : Option Unit :=
  if e.EntryType = .CLIENT ∧ e.apidx = apidx then some () else none

structure Counted (cfg : Config) (pAd : RTMP_ADAPTER) : Prop where
  size : pAd.Size = used inUse pAd.Content
  sta : ∀ apidx < cfg.BssidNum, pAd.StaCount apidx = used (clientOf apidx) pAd.Content
  clients : pAd.EntryClientCount = used client pAd.Content
  bss : ∀ i, (pAd.Content i).EntryType = .CLIENT → (pAd.Content i).apidx < cfg.BssidNum

def Sound (cfg : Config) (pAd : RTMP_ADAPTER) : Prop :=
  (∃ own, Linked pAd.Hash pAd.pNext pAd.Content own) ∧ Counted cfg pAd

variable {cfg : Config} {pAd pAd' : RTMP_ADAPTER} {i : Wcid} {e : MAC_TABLE_ENTRY} {pAddr : Mac}
  {apidx n : Nat} {own : HashIdx → List Wcid} {key : MAC_TABLE_ENTRY → Option Unit}
  {Content : Wcid → MAC_TABLE_ENTRY}

theorem used_lt_255 (key : MAC_TABLE_ENTRY → Option Unit) (Content : Wcid → MAC_TABLE_ENTRY) :
    used key Content < 255 := by
  have hle : used key Content ≤ MAX_LEN_OF_MAC_TABLE := used_le
  exact hle.trans_lt (by decide)

theorem entryType_ne (apidx : Nat) : entryType apidx ≠ .NONE := by
  unfold entryType
  split
  · exact nofun
  · split <;> exact nofun

theorem inUse_isSome : (inUse e).isSome = true ↔ e.EntryType ≠ .NONE := by
  unfold inUse
  split <;> simp_all

theorem client_isSome : (client e).isSome = true ↔ e.EntryType = .CLIENT := by
  unfold client
  split <;> simp_all

theorem clientOf_isSome :
    (clientOf apidx e).isSome = true ↔ e.EntryType = .CLIENT ∧ e.apidx = apidx := by
  unfold clientOf
  split <;> simp_all

theorem Counted.keep (h : Counted cfg pAd)
    (he : e.EntryType = (pAd.Content i).EntryType)
    (hapidx : e.EntryType = .CLIENT → e.apidx = (pAd.Content i).apidx) :
    Counted cfg { pAd with Content := update pAd.Content i e } := by
  refine ⟨?_, fun apidx hlt => ?_, ?_, fun j hj => ?_⟩
  · rw [h.size]
    refine (used_update_same (Bool.eq_iff_iff.mpr ?_)).symm
    rw [inUse_isSome, inUse_isSome, he]
  · rw [h.sta apidx hlt]
    refine (used_update_same (Bool.eq_iff_iff.mpr ?_)).symm
    rw [clientOf_isSome, clientOf_isSome, ← he]
    exact and_congr_right fun hclient => by rw [hapidx hclient]
  · rw [h.clients]
    refine (used_update_same (Bool.eq_iff_iff.mpr ?_)).symm
    rw [client_isSome, client_isSome, he]
  · have hj : (update pAd.Content i e j).EntryType = .CLIENT := hj
    show (update pAd.Content i e j).apidx < cfg.BssidNum
    rcases eq_or_ne j i with rfl | hne
    · rw [update_self] at hj ⊢
      rw [hapidx hj]
      exact h.bss j (he.symm.trans hj)
    · rw [update_of_ne hne] at hj ⊢
      exact h.bss j hj

theorem Counted.add (h : Counted cfg pAd) (hi : (pAd.Content i).EntryType = .NONE)
    (htype : e.EntryType ≠ .NONE) (hapidx : e.EntryType = .CLIENT → e.apidx < cfg.BssidNum)
    (hcontent : pAd'.Content = update pAd.Content i e)
    (hsize : pAd'.Size = pAd.Size + 1)
    (hsta : ∀ apidx, pAd'.StaCount apidx =
      pAd.StaCount apidx + if (clientOf apidx e).isSome then 1 else 0)
    (hclients : pAd'.EntryClientCount =
      pAd.EntryClientCount + if (client e).isSome then 1 else 0) :
    Counted cfg pAd' := by
  have hused : ∀ key : MAC_TABLE_ENTRY → Option Unit, key (pAd.Content i) = none →
      used key pAd'.Content = used key pAd.Content + if (key e).isSome then 1 else 0 := by
    intro key hnone
    rw [hcontent]
    cases hkey : key e with
    | none =>
      refine used_update_same ?_
      rw [hkey, hnone]
    | some u => exact used_take hnone (hkey ▸ rfl)
  have hclient : (pAd.Content i).EntryType ≠ .CLIENT := by
    rw [hi]
    exact nofun
  refine ⟨?_, fun apidx hlt => ?_, ?_, fun j hj => ?_⟩
  · rw [hused inUse (if_pos hi), if_pos (inUse_isSome.mpr htype), hsize, h.size]
  · rw [hused (clientOf apidx) (if_neg fun hc => hclient hc.1), hsta, h.sta apidx hlt]
  · rw [hused client (if_neg hclient), hclients, h.clients]
  · rw [hcontent] at hj ⊢
    rcases eq_or_ne j i with rfl | hne
    · rw [update_self] at hj ⊢
      exact hapidx hj
    · rw [update_of_ne hne] at hj ⊢
      exact h.bss j hj

theorem Counted.drop (h : Counted cfg pAd) (hi : (pAd.Content i).EntryType ≠ .NONE)
    (hcontent : pAd'.Content = update pAd.Content i { pAd.Content i with EntryType := .NONE })
    (hsize : pAd'.Size + 1 = pAd.Size)
    (hsta : ∀ apidx, pAd'.StaCount apidx +
      (if (clientOf apidx (pAd.Content i)).isSome then 1 else 0) = pAd.StaCount apidx)
    (hclients : pAd'.EntryClientCount +
      (if (client (pAd.Content i)).isSome then 1 else 0) = pAd.EntryClientCount) :
    Counted cfg pAd' := by
  have hused : ∀ key : MAC_TABLE_ENTRY → Option Unit,
      key { pAd.Content i with EntryType := .NONE } = none →
      used key pAd'.Content + (if (key (pAd.Content i)).isSome then 1 else 0) =
        used key pAd.Content := by
    intro key hnone
    rw [hcontent]
    cases hkey : key (pAd.Content i) with
    | none =>
      refine used_update_same ?_
      rw [hkey, hnone]
    | some u => exact (used_free (hkey ▸ rfl) hnone).symm
  have hclient : EntryType.NONE ≠ .CLIENT := nofun
  refine ⟨?_, fun apidx hlt => ?_, ?_, fun j hj => ?_⟩
  · have hcount := hused inUse (if_pos rfl)
    rw [if_pos (inUse_isSome.mpr hi), ← h.size] at hcount
    omega
  · have hcount := hused (clientOf apidx) (if_neg fun hc => hclient hc.1)
    rw [← h.sta apidx hlt, ← hsta apidx] at hcount
    exact (Nat.add_right_cancel hcount).symm
  · have hcount := hused client (if_neg hclient)
    rw [← h.clients, ← hclients] at hcount
    exact (Nat.add_right_cancel hcount).symm
  · rw [hcontent] at hj ⊢
    rcases eq_or_ne j i with rfl | hne
    · rw [update_self] at hj
      exact absurd hj hclient
    · rw [update_of_ne hne] at hj ⊢
      exact h.bss j hj

theorem vacancy_some (h : vacancy pAd = some i) : i ≠ 0 ∧ (pAd.Content i).EntryType = .NONE := by
  have hfound := List.find?_some h
  refine ⟨?_, of_decide_eq_true hfound⟩
  rintro rfl
  exact absurd (List.mem_of_find?_eq_some h) (by decide)

theorem addEntry_spec (pAd : RTMP_ADAPTER) (pAddr : Mac) (apidx : Nat)
    (h : Linked pAd.Hash pAd.pNext pAd.Content own) (hi : (pAd.Content i).EntryType = .NONE)
    (hzero : i ≠ 0) (hnext : pAd.pNext i = none) :
    ∃ Hash pNext own', addEntry pAddr apidx i pAd = some
        { pAd with
          Hash, pNext
          Content := update pAd.Content i (newEntry pAddr apidx i)
          Size := (pAd.Size + 1) % 2 ^ 16 } ∧
      Linked Hash pNext (update pAd.Content i (newEntry pAddr apidx i)) own' := by
  have htype : (newEntry pAddr apidx i).EntryType ≠ .NONE := entryType_ne apidx
  obtain ⟨Hash, pNext, heq, hlinked⟩ := h.add hi hzero hnext htype rfl
  have heq : Buckets.pushBack pAd.pNext pAd.Hash MAX_LEN_OF_MAC_TABLE (MAC_ADDR_HASH_INDEX pAddr) i =
    some (Hash, pNext) := heq
  refine ⟨Hash, pNext, _, ?_, hlinked⟩
  rw [addEntry, heq]
  rfl

theorem succ_mod (h : n = used key Content) : (n + 1) % 256 = n + 1 ∧ (n + 1) % 2 ^ 16 = n + 1 := by
  have hlt := used_lt_255 key Content
  rw [← h] at hlt
  exact ⟨Nat.mod_eq_of_lt (by omega), Nat.mod_eq_of_lt (by omega)⟩

theorem addClient_sound (hs : Sound cfg pAd) (hi : (pAd.Content i).EntryType = .NONE)
    (hzero : i ≠ 0) (hnext : pAd.pNext i = none) (pAddr : Mac) {apidx : Nat}
    (hclient : entryType apidx = .CLIENT) (hlt : apidx < cfg.BssidNum) :
    ∃ pAd', addEntry pAddr apidx i (countClient apidx pAd) = some pAd' ∧ Sound cfg pAd' := by
  obtain ⟨⟨own, hlinked⟩, hcounted⟩ := hs
  obtain ⟨Hash, pNext, own', heq, hlinked'⟩ :=
    addEntry_spec (countClient apidx pAd) pAddr apidx hlinked hi hzero hnext
  have hentry : (newEntry pAddr apidx i).apidx = apidx := by
    simp only [newEntry, hclient, entryApidx]
  refine ⟨_, heq, ⟨own', hlinked'⟩, ?_⟩
  refine hcounted.add hi (e := newEntry pAddr apidx i) (entryType_ne _)
    (fun _ => hentry.trans_lt hlt) rfl (succ_mod hcounted.size).2 (fun b => ?_) ?_
  · show (countClient apidx pAd).StaCount b = _
    simp only [countClient]
    rcases eq_or_ne b apidx with rfl | hne
    · rw [update_self, if_pos (clientOf_isSome.mpr ⟨hclient, hentry⟩)]
      exact (succ_mod (hcounted.sta b hlt)).1
    · rw [update_of_ne hne, if_neg fun h => hne ?_]
      · rfl
      · rw [← hentry]
        exact (clientOf_isSome.mp h).2.symm
  · rw [if_pos (client_isSome.mpr hclient)]
    exact (succ_mod hcounted.clients).1

theorem addOther_sound (hs : Sound cfg pAd) (hi : (pAd.Content i).EntryType = .NONE)
    (hzero : i ≠ 0) (hnext : pAd.pNext i = none) (pAddr : Mac) {apidx : Nat}
    (hclient : entryType apidx ≠ .CLIENT) :
    ∃ pAd', addEntry pAddr apidx i pAd = some pAd' ∧ Sound cfg pAd' := by
  obtain ⟨⟨own, hlinked⟩, hcounted⟩ := hs
  obtain ⟨Hash, pNext, own', heq, hlinked'⟩ :=
    addEntry_spec pAd pAddr apidx hlinked hi hzero hnext
  refine ⟨_, heq, ⟨own', hlinked'⟩, ?_⟩
  refine hcounted.add hi (e := newEntry pAddr apidx i) (entryType_ne _)
    (fun h => absurd h hclient) rfl (succ_mod hcounted.size).2 (fun b => ?_) ?_
  · rw [if_neg fun h => hclient (clientOf_isSome.mp h).1]
    rfl
  · rw [if_neg fun h => hclient (client_isSome.mp h)]
    rfl

theorem zeroEntry_sound (hs : Sound cfg pAd) (hi : (pAd.Content i).EntryType = .NONE) :
    Sound cfg (zeroEntry i pAd) := by
  obtain ⟨⟨own, hlinked⟩, hcounted⟩ := hs
  refine ⟨⟨own, hlinked.zeroEntry hi⟩, ?_⟩
  have hkeep := hcounted.keep (i := i) (e := zeroed) hi.symm nofun
  exact ⟨hkeep.size, hkeep.sta, hkeep.clients, hkeep.bss⟩

theorem client_apidx (apidx : Apidx cfg) (h : entryType apidx.val = .CLIENT) :
    apidx.val < cfg.BssidNum ∧ sanityCheck cfg apidx.val = apidx.val := by
  have hlt : apidx.val < cfg.BssidNum := by
    rcases apidx.valid with hlt | ⟨hwds, hlt⟩ | ⟨hapcli, -⟩
    · exact hlt
    · have hnot : ¬ MIN_NET_DEVICE_FOR_APCLI ≤ apidx.val := by
        simp only [MIN_NET_DEVICE_FOR_APCLI, MIN_NET_DEVICE_FOR_WDS, MAX_WDS_ENTRY] at hlt ⊢
        omega
      rw [entryType, if_neg hnot, if_pos hwds] at h
      exact nomatch h
    · rw [entryType, if_pos hapcli] at h
      exact nomatch h
  have hnum := cfg.bssidNum
  have hmax := cfg.maxNum
  refine ⟨hlt, if_neg ?_⟩
  rintro (hge | hge) <;> omega

theorem insert_sound (hs : Sound cfg pAd) (MaxStaNum : Nat → Nat) (pAddr : Mac)
    (apidx : Apidx cfg) :
    ∃ r pAd', MacTableInsertEntry cfg MaxStaNum pAddr apidx.val pAd = some (r, pAd') ∧
      Sound cfg pAd' := by
  unfold MacTableInsertEntry
  by_cases hfull : MAX_LEN_OF_MAC_TABLE ≤ pAd.Size
  · rw [if_pos hfull]
    exact ⟨_, _, rfl, hs⟩
  rw [if_neg hfull]
  cases hvacancy : vacancy pAd with
  | none => exact ⟨_, _, rfl, hs⟩
  | some i =>
    obtain ⟨hzero, hi⟩ := vacancy_some hvacancy
    have hzeroed := zeroEntry_sound hs hi
    have hnext : (zeroEntry i pAd).pNext i = none := update_self _ _ _
    have hi : ((zeroEntry i pAd).Content i).EntryType = .NONE := by
      show (update pAd.Content i zeroed i).EntryType = .NONE
      rw [update_self]
      rfl
    by_cases hclient : entryType apidx.val = .CLIENT
    · simp only [if_pos hclient]
      by_cases hbss : bssFull cfg MaxStaNum apidx.val (zeroEntry i pAd) = true
      · rw [if_pos hbss]
        exact ⟨_, _, rfl, hzeroed⟩
      · rw [if_neg hbss]
        obtain ⟨hlt, hcheck⟩ := client_apidx apidx hclient
        obtain ⟨pAd', heq, hsound⟩ := addClient_sound hzeroed hi hzero hnext pAddr hclient hlt
        rw [hcheck, heq]
        exact ⟨_, pAd', rfl, hsound⟩
    · simp only [if_neg hclient]
      obtain ⟨pAd', heq, hsound⟩ := addOther_sound hzeroed hi hzero hnext pAddr hclient
      rw [heq]
      exact ⟨_, pAd', rfl, hsound⟩

theorem dropEntry_spec (pAd : RTMP_ADAPTER) (h : Linked pAd.Hash pAd.pNext pAd.Content own)
    (hi : (pAd.Content i).EntryType ≠ .NONE) :
    ∃ Hash pNext own', dropEntry i (pAd.Content i).Addr pAd = some
        { pAd with
          Hash, pNext
          Content := update pAd.Content i { pAd.Content i with EntryType := .NONE }
          Size := (pAd.Size + (2 ^ 16 - 1)) % 2 ^ 16 } ∧
      Linked Hash pNext (update pAd.Content i { pAd.Content i with EntryType := .NONE }) own' := by
  obtain ⟨Hash, pNext, own', heq, hlinked⟩ := h.drop hi
  refine ⟨Hash, pNext, own', ?_, hlinked⟩
  rw [dropEntry, heq]
  rfl

theorem pred_mod {m k : Nat} (hn : 0 < n) (hk : n < k + 1) (hm : m = (n + k) % (k + 1)) :
    m + 1 = n := by
  have heq : n + k = n - 1 + (k + 1) := by omega
  rw [heq, Nat.add_mod_right, Nat.mod_eq_of_lt (by omega)] at hm
  omega

theorem used_pos (h : (key (Content i)).isSome = true) : 0 < used key Content := by
  refine Nat.pos_of_ne_zero fun hzero => ?_
  rw [used_eq_zero.mp hzero i] at h
  exact Bool.noConfusion h

theorem deleteAt_sound (hs : Sound cfg pAd) (i : Wcid) (pAddr : Mac) :
    ∃ pAd', deleteAt i pAddr pAd = some pAd' ∧ Sound cfg pAd' ∧
      (∀ j, j ≠ i → pAd'.Content j = pAd.Content j) ∧
      ((pAd.Content i).EntryType = .NONE ∨ (pAd.Content i).Addr = pAddr →
        (pAd'.Content i).EntryType = .NONE) := by
  by_cases hmatch : (pAd.Content i).EntryType ≠ .NONE ∧ (pAd.Content i).Addr = pAddr
  · obtain ⟨⟨own, hlinked⟩, hcounted⟩ := hs
    obtain ⟨hi, rfl⟩ := hmatch
    have hsize := pred_mod (used_pos (inUse_isSome.mpr hi))
      ((used_lt_255 inUse pAd.Content).trans (by decide : 255 < 2 ^ 16 - 1 + 1)) rfl
    rw [← hcounted.size] at hsize
    have hfree : (update pAd.Content i { pAd.Content i with EntryType := .NONE } i).EntryType =
        .NONE := by
      rw [update_self]
    unfold deleteAt
    rw [if_pos ⟨hi, rfl⟩]
    by_cases hclient : (pAd.Content i).EntryType = .CLIENT
    · rw [if_pos hclient]
      obtain ⟨Hash, pNext, own', heq, hlinked'⟩ :=
        dropEntry_spec (uncountClient (pAd.Content i).apidx pAd) hlinked hi
      refine ⟨_, heq, ⟨⟨own', hlinked'⟩, ?_⟩, fun j hj => update_of_ne hj _ _, fun _ => hfree⟩
      refine hcounted.drop hi rfl hsize (fun b => ?_) ?_
      · show (uncountClient (pAd.Content i).apidx pAd).StaCount b +
          (if (clientOf b (pAd.Content i)).isSome then 1 else 0) = pAd.StaCount b
        simp only [uncountClient]
        rcases eq_or_ne b (pAd.Content i).apidx with rfl | hne
        · have hsome : (clientOf (pAd.Content i).apidx (pAd.Content i)).isSome = true :=
            clientOf_isSome.mpr ⟨hclient, rfl⟩
          have hsta := hcounted.sta _ (hcounted.bss i hclient)
          have hpos := used_pos hsome
          have hlt := used_lt_255 (clientOf (pAd.Content i).apidx) pAd.Content
          rw [← hsta] at hpos hlt
          rw [update_self, if_pos hsome]
          exact pred_mod (k := 255) hpos (by omega) rfl
        · rw [update_of_ne hne, if_neg fun h => hne (clientOf_isSome.mp h).2.symm]
          rfl
      · have hsome : (client (pAd.Content i)).isSome = true := client_isSome.mpr hclient
        have hpos := used_pos hsome
        have hlt := used_lt_255 client pAd.Content
        rw [← hcounted.clients] at hpos hlt
        rw [if_pos hsome]
        exact pred_mod (k := 255) hpos (by omega) rfl
    · rw [if_neg hclient]
      obtain ⟨Hash, pNext, own', heq, hlinked'⟩ := dropEntry_spec pAd hlinked hi
      refine ⟨_, heq, ⟨⟨own', hlinked'⟩, ?_⟩, fun j hj => update_of_ne hj _ _, fun _ => hfree⟩
      refine hcounted.drop hi rfl hsize (fun b => ?_) ?_
      · rw [if_neg fun h => hclient (clientOf_isSome.mp h).1]
        rfl
      · rw [if_neg fun h => hclient (client_isSome.mp h)]
        rfl
  · refine ⟨pAd, if_neg hmatch, hs, fun _ _ => rfl, fun h => ?_⟩
    rcases h with h | h
    · exact h
    · exact of_not_not fun hne => hmatch ⟨hne, h⟩

theorem delete_eq (i : Wcid) (pAddr : Mac) (pAd : RTMP_ADAPTER) :
    MacTableDeleteEntry i pAddr pAd = (deleteAt i pAddr pAd).map (true, ·) := dif_pos i.isLt

theorem delete_sound (hs : Sound cfg pAd) (wcid : Nat) (pAddr : Mac) :
    ∃ r pAd', MacTableDeleteEntry wcid pAddr pAd = some (r, pAd') ∧ Sound cfg pAd' := by
  by_cases hlt : wcid < MAX_LEN_OF_MAC_TABLE
  · obtain ⟨pAd', heq, hsound, -⟩ := deleteAt_sound hs ⟨wcid, hlt⟩ pAddr
    refine ⟨true, pAd', ?_, hsound⟩
    rw [MacTableDeleteEntry, dif_pos hlt, heq]
    rfl
  · exact ⟨false, pAd, dif_neg hlt, hs⟩

theorem delete_mismatch {wcid : Nat} {pAddr : Mac}
    (h : ∀ hlt : wcid < MAX_LEN_OF_MAC_TABLE,
      (pAd.Content ⟨wcid, hlt⟩).EntryType = .NONE ∨ (pAd.Content ⟨wcid, hlt⟩).Addr ≠ pAddr) :
    ∃ r, MacTableDeleteEntry wcid pAddr pAd = some (r, pAd) := by
  by_cases hlt : wcid < MAX_LEN_OF_MAC_TABLE
  · refine ⟨true, ?_⟩
    rw [MacTableDeleteEntry, dif_pos hlt, deleteAt, if_neg]
    · rfl
    · rintro ⟨hne, haddr⟩
      exact (h hlt).elim hne fun h => h haddr
  · exact ⟨false, dif_neg hlt⟩

theorem resetLoop_sound (alloc : Wcid → Bool) (is : List Wcid) (hs : Sound cfg pAd) :
    ∃ done pAd', resetLoop alloc is pAd = some (done, pAd') ∧ Sound cfg pAd' ∧
      (∀ j, (pAd.Content j).EntryType = .NONE → (pAd'.Content j).EntryType = .NONE) ∧
      (done = true → ∀ j ∈ is, (pAd'.Content j).EntryType = .NONE) := by
  induction is generalizing pAd with
  | nil => exact ⟨true, pAd, rfl, hs, fun _ hj => hj, fun _ => nofun⟩
  | cons i is ih =>
    rw [resetLoop]
    by_cases hstop : (pAd.Content i).EntryType = .CLIENT ∧
        (pAd.Content i).Sst = .SST_ASSOC ∧ alloc i = false
    · rw [if_pos hstop]
      exact ⟨false, pAd, rfl, hs, fun _ hj => hj, nofun⟩
    · rw [if_neg hstop]
      obtain ⟨pAd₁, heq, hsound, hother, hfree⟩ := deleteAt_sound hs i (pAd.Content i).Addr
      have hfree : (pAd₁.Content i).EntryType = .NONE := hfree (.inr rfl)
      have hkept : ∀ j, (pAd.Content j).EntryType = .NONE →
          (pAd₁.Content j).EntryType = .NONE := by
        intro j hj
        rcases eq_or_ne j i with rfl | hne
        · exact hfree
        · rw [hother j hne]
          exact hj
      obtain ⟨done, pAd', hrest, hsound', hkept', hdone⟩ := ih hsound
      refine ⟨done, pAd', ?_, hsound', fun j hj => hkept' j (hkept j hj), fun h j hj => ?_⟩
      · rw [delete_eq, heq]
        exact hrest
      · rcases List.mem_cons.mp hj with rfl | hj
        · exact hkept' _ hfree
        · exact hdone h j hj

theorem reset_sound (hs : Sound cfg pAd) (alloc : Wcid → Bool) :
    ∃ pAd', MacTableReset cfg alloc pAd = some pAd' ∧ Sound cfg pAd' := by
  obtain ⟨done, pAd', heq, hsound, hkept, hdone⟩ :=
    resetLoop_sound alloc ((List.finRange MAX_LEN_OF_MAC_TABLE).drop 1) hs
  rw [MacTableReset, heq]
  cases done with
  | false => exact ⟨pAd', rfl, hsound⟩
  | true =>
    refine ⟨zeroCounters cfg pAd', rfl, ?_⟩
    obtain ⟨⟨own, hlinked⟩, hcounted⟩ := hsound
    have hall : ∀ j, (pAd'.Content j).EntryType = .NONE := by
      intro j
      rcases eq_or_ne j 0 with rfl | hne
      · exact hlinked.zero
      · refine hdone rfl j ?_
        have hmem : ∀ j : Wcid, j ≠ 0 → j ∈ (List.finRange MAX_LEN_OF_MAC_TABLE).drop 1 := by
          decide
        exact hmem j hne
    have hzero : ∀ key : MAC_TABLE_ENTRY → Option Unit,
        (∀ e : MAC_TABLE_ENTRY, e.EntryType = .NONE → key e = none) →
        used key pAd'.Content = 0 :=
      fun key hkey => used_eq_zero.mpr fun j => hkey _ (hall j)
    refine ⟨⟨own, hlinked⟩, ?_, fun apidx hlt => ?_, hcounted.clients, hcounted.bss⟩
    · exact (hzero inUse fun e he => if_pos he).symm
    · show (if apidx < cfg.BssidNum then 0 else _) = _
      rw [if_pos hlt]
      refine (hzero (clientOf apidx) fun e he => if_neg ?_).symm
      rw [he]
      exact nofun

theorem lookup_found (hs : Sound cfg pAd) (hi : (pAd.Content i).EntryType ≠ .NONE)
    (honly : ∀ j, (pAd.Content j).EntryType ≠ .NONE →
      (pAd.Content j).Addr = (pAd.Content i).Addr → j = i) :
    MacTableLookup (pAd.Content i).Addr pAd = some (some i) := by
  obtain ⟨⟨own, hlinked⟩, -⟩ := hs
  have hin := (hlinked.mem (MAC_ADDR_HASH_INDEX (pAd.Content i).Addr) i).mpr ⟨hi, rfl⟩
  rw [MacTableLookup, Buckets.seek_eq (hlinked.holds.chain _) (hlinked.length_lt _)]
  refine congrArg some ?_
  obtain ⟨j, hfind⟩ : ∃ j, (own (MAC_ADDR_HASH_INDEX (pAd.Content i).Addr)).find?
      (fun j => (pAd.Content j).EntryType = .NONE ∨
        (pAd.Content j).Addr = (pAd.Content i).Addr) = some j := by
    refine Option.isSome_iff_exists.mp (List.find?_isSome.mpr ⟨i, hin, ?_⟩)
    exact decide_eq_true (.inr rfl)
  have hused := ((hlinked.mem _ j).mp (List.mem_of_find?_eq_some hfind)).1
  have hhit := List.find?_some hfind
  rw [hfind, honly j hused ((of_decide_eq_true hhit).resolve_left hused)]

theorem Counted.total (h : Counted cfg pAd) :
    ∑ apidx ∈ Finset.range cfg.BssidNum, pAd.StaCount apidx = pAd.EntryClientCount := by
  have hmaps : ∀ i ∈ Finset.univ.filter (fun i => (client (pAd.Content i)).isSome = true),
      (pAd.Content i).apidx ∈ Finset.range cfg.BssidNum := by
    intro i hi
    exact Finset.mem_range.mpr (h.bss i (client_isSome.mp (Finset.mem_filter.mp hi).2))
  rw [h.clients, used, Finset.card_eq_sum_card_fiberwise hmaps]
  refine Finset.sum_congr rfl fun apidx hmem => ?_
  rw [h.sta apidx (Finset.mem_range.mp hmem), used, Finset.filter_filter]
  congr 1
  ext i
  rw [Finset.mem_filter, Finset.mem_filter, clientOf_isSome, client_isSome]

theorem setSst_sound (hs : Sound cfg pAd) (wcid : Wcid) (Sst : Sst) :
    Sound cfg (setSst wcid Sst pAd) := by
  obtain ⟨⟨own, hlinked⟩, hcounted⟩ := hs
  have hentry : ∀ j, ((setSst wcid Sst pAd).Content j).EntryType = (pAd.Content j).EntryType ∧
      ((setSst wcid Sst pAd).Content j).Addr = (pAd.Content j).Addr ∧
      ((setSst wcid Sst pAd).Content j).Aid = (pAd.Content j).Aid := by
    intro j
    simp only [setSst]
    rcases eq_or_ne j wcid with rfl | hne
    · rw [update_self]
      exact ⟨rfl, rfl, rfl⟩
    · rw [update_of_ne hne]
      exact ⟨rfl, rfl, rfl⟩
  refine ⟨⟨own, hlinked.holds, fun k j => ?_, ?_, fun j hj => ?_⟩, ?_⟩
  · rw [(hentry j).1, (hentry j).2.1]
    exact hlinked.mem k j
  · exact (hentry 0).1.trans hlinked.zero
  · rw [(hentry j).1] at hj
    exact (hentry j).2.2.trans (hlinked.aid j hj)
  · exact hcounted.keep rfl fun _ => rfl

theorem step_sound (pAd : RTMP_ADAPTER) (ev : Event cfg) (hs : Sound cfg pAd) :
    ∃ pAd', step cfg pAd ev = some pAd' ∧ Sound cfg pAd' := by
  cases ev with
  | insert MaxStaNum pAddr apidx =>
    obtain ⟨r, pAd', heq, hsound⟩ := insert_sound hs MaxStaNum pAddr apidx
    refine ⟨pAd', ?_, hsound⟩
    simp only [step, heq]
    rfl
  | delete wcid pAddr =>
    obtain ⟨r, pAd', heq, hsound⟩ := delete_sound hs wcid pAddr
    refine ⟨pAd', ?_, hsound⟩
    simp only [step, heq]
    rfl
  | reset alloc => exact reset_sound hs alloc
  | setSst wcid Sst => exact ⟨_, rfl, setSst_sound hs wcid Sst⟩

theorem start_sound (cfg : Config) : Sound cfg start := by
  have hused : ∀ key : MAC_TABLE_ENTRY → Option Unit, key zeroed = none →
      0 = used key start.Content :=
    fun key hkey => (used_eq_zero.mpr fun _ => hkey).symm
  refine ⟨⟨fun _ => [], ⟨fun _ => rfl, nofun⟩, fun k i => ?_, rfl, fun i hi => absurd rfl hi⟩,
    ?_⟩
  · exact iff_of_false nofun fun h => h.1 rfl
  · exact ⟨hused inUse rfl, fun _ _ => hused (clientOf _) rfl, hused client rfl, nofun⟩

/-- The entries by index, by chain and by address, and the counters. `Links.Chain` is a chain
that ends. -/
structure Agrees (cfg : Config) (pAd : RTMP_ADAPTER) : Prop where
  size : pAd.Size = (Finset.univ.filter fun i : Wcid =>
    i ≠ 0 ∧ (pAd.Content i).EntryType ≠ .NONE).card
  aid : ∀ i : Wcid, i ≠ 0 → (pAd.Content i).EntryType ≠ .NONE → (pAd.Content i).Aid = i
  chains : ∃ own : HashIdx → List Wcid, ∀ k,
    Links.Chain pAd.pNext (pAd.Hash k) (own k) ∧ (own k).Nodup ∧
      ∀ i, i ∈ own k ↔ i ≠ 0 ∧ (pAd.Content i).EntryType ≠ .NONE ∧
        MAC_ADDR_HASH_INDEX (pAd.Content i).Addr = k
  lookup : ∀ i : Wcid, i ≠ 0 → (pAd.Content i).EntryType ≠ .NONE →
    (∀ j : Wcid, j ≠ 0 → (pAd.Content j).EntryType ≠ .NONE →
      (pAd.Content j).Addr = (pAd.Content i).Addr → j = i) →
    MacTableLookup (pAd.Content i).Addr pAd = some (some i)
  staCount : ∀ apidx < cfg.BssidNum, pAd.StaCount apidx =
    (Finset.univ.filter fun i : Wcid => i ≠ 0 ∧
      (pAd.Content i).EntryType = .CLIENT ∧ (pAd.Content i).apidx = apidx).card
  clientCount : pAd.EntryClientCount =
    (Finset.univ.filter fun i : Wcid => i ≠ 0 ∧ (pAd.Content i).EntryType = .CLIENT).card
  total : ∑ apidx ∈ Finset.range cfg.BssidNum, pAd.StaCount apidx = pAd.EntryClientCount

theorem Sound.agrees (hs : Sound cfg pAd) : Agrees cfg pAd := by
  obtain ⟨own, hlinked⟩ := hs.1
  have hcounted := hs.2
  have hzero : ∀ i : Wcid, (pAd.Content i).EntryType ≠ .NONE → i ≠ 0 := by
    rintro i hi rfl
    exact hi hlinked.zero
  have hclient : ∀ i : Wcid, (pAd.Content i).EntryType = .CLIENT → i ≠ 0 := by
    intro i hi
    refine hzero i ?_
    rw [hi]
    exact nofun
  refine ⟨?_, fun i _ hi => hlinked.aid i hi, ⟨own, fun k => ?_⟩, fun i _ hi honly => ?_,
    fun apidx hlt => ?_, ?_, hcounted.total⟩
  · rw [hcounted.size, used]
    congr 1
    ext i
    rw [Finset.mem_filter, Finset.mem_filter, inUse_isSome]
    exact and_congr_right fun _ => (and_iff_right_of_imp (hzero i)).symm
  · refine ⟨hlinked.holds.chain k, (hlinked.holds.chain k).nodup, fun i => ?_⟩
    rw [hlinked.mem]
    exact (and_iff_right_of_imp fun h => hzero i h.1).symm
  · exact lookup_found hs hi fun j hj => honly j (hzero j hj) hj
  · rw [hcounted.sta apidx hlt, used]
    congr 1
    ext i
    rw [Finset.mem_filter, Finset.mem_filter, clientOf_isSome]
    exact and_congr_right fun _ => (and_iff_right_of_imp fun h => hclient i h.1).symm
  · rw [hcounted.clients, used]
    congr 1
    ext i
    rw [Finset.mem_filter, Finset.mem_filter, client_isSome]
    exact and_congr_right fun _ => (and_iff_right_of_imp (hclient i)).symm

/-- No loop of a run hangs, and after each run the table agrees with itself and a deletion that
does not match changes nothing. -/
theorem run_agrees (cfg : Config) (es : List (Event cfg)) :
    ∃ pAd, Run.tryExec (step cfg) start es = some pAd ∧ Agrees cfg pAd ∧
      ∀ (wcid : Nat) (pAddr : Mac),
        (∀ hlt : wcid < MAX_LEN_OF_MAC_TABLE, (pAd.Content ⟨wcid, hlt⟩).EntryType = .NONE ∨
          (pAd.Content ⟨wcid, hlt⟩).Addr ≠ pAddr) →
        ∃ r, MacTableDeleteEntry wcid pAddr pAd = some (r, pAd) := by
  have hall : Run.AllTries (step cfg) (fun _ _ => True) start es :=
    Run.AllTries.of_forall fun _ _ => trivial
  obtain ⟨pAd, hrun, hsound⟩ := Run.tryExec_inv (I := Sound cfg)
    (fun pAd ev hs _ => step_sound pAd ev hs) (start_sound cfg) hall
  exact ⟨pAd, hrun, hsound.agrees, fun _ _ => delete_mismatch⟩

def fourBsses : Config := ⟨4, 8, by decide, by decide⟩

/-- Two clients whose addresses have one hash, a third one for which the BSS is full, and a WDS
link; then the first client leaves. -/
def comings : List (Event fourBsses) :=
  [.insert (fun _ => 2) #v[0, 0x0c, 0x43, 0, 1, 2] ⟨1, .inl (by decide)⟩,
    .insert (fun _ => 2) #v[0, 0x0c, 0x43, 0, 2, 1] ⟨1, .inl (by decide)⟩, .setSst 1 .SST_ASSOC,
    .insert (fun _ => 2) #v[0, 0x0c, 0x43, 0, 0, 4] ⟨1, .inl (by decide)⟩,
    .insert (fun _ => 2) #v[0, 0x0c, 0x43, 0, 0, 5] ⟨0x12, .inr (.inl (by decide))⟩,
    .delete 1 #v[0, 0x0c, 0x43, 0, 1, 2]]

theorem run_agrees_fourBsses : ∃ pAd, Run.tryExec (step fourBsses) start comings = some pAd ∧
    Agrees fourBsses pAd ∧ pAd.Size = 2 ∧ pAd.StaCount 1 = 1 ∧ pAd.EntryClientCount = 1 := by
  obtain ⟨pAd, hrun, hagrees, -⟩ := run_agrees fourBsses comings
  have hcounts : ∀ pAd ∈ Run.tryExec (step fourBsses) start comings,
      pAd.Size = 2 ∧ pAd.StaCount 1 = 1 ∧ pAd.EntryClientCount = 1 := by decide
  exact ⟨pAd, hrun, hagrees, hcounts pAd hrun⟩

end Ralink.Station
