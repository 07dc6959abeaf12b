import Ralink.Lib.Cache
import Ralink.Lib.Run
import Ralink.Spectrum.Table

/-! The chains hold the valid entries, each in that of its token, and a run of calls is one of the
bounded map whose entries age. -/
namespace Ralink.Spectrum
open Function Ageing Cache

def token (pEntry : REQ_ENTRY) : Option UInt8 :=
  if pEntry.Valid then some pEntry.DialogToken else none

/-- The chains end, and have the valid entries, each in the chain of its token and in no other. No
two of them have one token, and they are counted. -/
structure Sound {N : Nat} [NeZero N] (pTab : REQ_TAB N) (own : Fin N → List (Fin N)) : Prop where
  holds : Buckets.Holds pTab.Hash pTab.pNext own
  mem : ∀ k i, i ∈ own k ↔ (pTab.Content i).Valid = true ∧
    DIALOGTOKEN_HASH_INDEX (pTab.Content i).DialogToken = k
  distinct : Slots.Distinct token pTab.Content
  size : pTab.Size.toNat = Slots.used token pTab.Content
  rest : ∀ i, (pTab.Content i).Valid = false → pTab.pNext i = none

section Sound

variable {N : Nat} [NeZero N] {pTab : REQ_TAB N} {own : Fin N → List (Fin N)} {i : Fin N}
  {DialogToken : UInt8} {pEntry : REQ_ENTRY}

theorem token_eq_some :
    token pEntry = some DialogToken ↔ pEntry.Valid = true ∧ pEntry.DialogToken = DialogToken := by
  unfold token
  split
  · next hvalid => rw [Option.some.injEq, and_iff_right hvalid]
  · next hvalid => exact iff_of_false nofun fun h => hvalid h.1

theorem token_eq_none : token pEntry = none ↔ pEntry.Valid = false := by
  unfold token
  split
  · next hvalid => exact iff_of_false nofun (by rw [hvalid]; nofun)
  · next hvalid => exact iff_of_true rfl (Bool.not_eq_true _ ▸ hvalid)

theorem sound_init : Sound (⟨0, fun _ => none, fun _ => zeroed, fun _ => none⟩ : REQ_TAB N)
    fun _ => [] := by
  refine ⟨⟨fun k => rfl, fun k k' x hx => ?_⟩, fun k j => ?_, fun j j' t hj => ?_, ?_, fun j _ => rfl⟩
  · cases hx
  · exact iff_of_false List.not_mem_nil fun h => nomatch h.1
  · cases hj
  · exact (Slots.used_eq_zero.mpr fun _ => rfl).symm

theorem Sound.length_le (h : Sound pTab own) (k : Fin N) : (own k).length ≤ N := by
  have hlen := (h.holds.chain k).nodup.length_le_card
  rwa [Fintype.card_fin] at hlen

theorem Sound.notMem (h : Sound pTab own) (hi : (pTab.Content i).Valid = false) (k : Fin N) :
    i ∉ own k := by
  intro hmem
  have hvalid := ((h.mem k i).mp hmem).1
  rw [hi] at hvalid
  cases hvalid

theorem Sound.lookUp_eq (h : Sound pTab own) :
    lookUp pTab DialogToken = some (Slots.find token pTab.Content DialogToken) := by
  have hchain := h.holds.chain (DIALOGTOKEN_HASH_INDEX DialogToken)
  unfold lookUp
  rw [Buckets.seek_eq hchain (Nat.lt_succ_of_le (h.length_le _))]
  congr 1
  cases hfind : (own (DIALOGTOKEN_HASH_INDEX DialogToken)).find?
      fun i => decide ((pTab.Content i).DialogToken = DialogToken) with
  | some i =>
    have hmem := List.mem_of_find?_eq_some hfind
    have hhit : (pTab.Content i).DialogToken = DialogToken := by simpa using List.find?_some hfind
    symm
    rw [h.distinct.find_eq_some, token_eq_some]
    exact ⟨((h.mem _ i).mp hmem).1, hhit⟩
  | none =>
    symm
    rw [Slots.find_eq_none]
    intro i hi
    obtain ⟨hvalid, htoken⟩ := token_eq_some.mp hi
    rw [List.find?_eq_none] at hfind
    have hmem := (h.mem (DIALOGTOKEN_HASH_INDEX DialogToken) i).mpr ⟨hvalid, by rw [htoken]⟩
    exact hfind i hmem (decide_eq_true htoken)

theorem Sound.drop (h : Sound pTab own) (hi : token (pTab.Content i) = some DialogToken) :
    ∃ pTab' own', dropEntry i pTab = some pTab' ∧ Sound pTab' own' ∧
      pTab'.Content = update pTab.Content i zeroed := by
  obtain ⟨hvalid, -⟩ := token_eq_some.mp hi
  have hin := (h.mem (DIALOGTOKEN_HASH_INDEX (pTab.Content i).DialogToken) i).mpr ⟨hvalid, rfl⟩
  obtain ⟨l₁, l₂, hsplit⟩ := List.append_of_mem hin
  obtain ⟨Hash', pNext', hremove, hholds⟩ := h.holds.remove hsplit (h.length_le _)
  obtain ⟨pProbe, hhead⟩ : ∃ pProbe,
      pTab.Hash (DIALOGTOKEN_HASH_INDEX (pTab.Content i).DialogToken) = some pProbe := by
    rw [(h.holds.chain _).head_eq, hsplit]
    cases l₁ with
    | nil => exact ⟨_, rfl⟩
    | cons x l₁ => exact ⟨_, rfl⟩
  have hmem : ∀ k j, j ∈ update own (DIALOGTOKEN_HASH_INDEX (pTab.Content i).DialogToken) (l₁ ++ l₂) k ↔
      j ∈ own k ∧ j ≠ i := fun k j => h.holds.mem_removed hsplit
  refine ⟨⟨pTab.Size - 1, Hash', update pTab.Content i zeroed, update pNext' i none⟩,
    update own (DIALOGTOKEN_HASH_INDEX (pTab.Content i).DialogToken) (l₁ ++ l₂), ?_,
    ⟨?_, ?_, ?_, ?_, ?_⟩, rfl⟩
  · have hunlink : unlink pTab (DIALOGTOKEN_HASH_INDEX (pTab.Content i).DialogToken) i =
        some (Hash', pNext') := by
      unfold unlink
      rw [hhead]
      exact hremove
    unfold dropEntry
    rw [hunlink]
    rfl
  · apply hholds.write_other
    intro k hk
    exact ((hmem k i).mp hk).2 rfl
  · intro k j
    dsimp only
    rw [hmem, h.mem]
    rcases eq_or_ne j i with rfl | hne
    · rw [update_self]
      exact iff_of_false (fun hj => hj.2 rfl) fun hj => nomatch hj.1
    · rw [update_of_ne hne]
      exact and_iff_left hne
  · exact h.distinct.update fun _ _ _ hk => nomatch hk
  · have hfree : Slots.used token pTab.Content =
        Slots.used token (update pTab.Content i zeroed) + 1 := Slots.used_free (hi ▸ rfl) rfl
    have hsize := h.size
    have hle : (1 : UInt8) ≤ pTab.Size := by
      apply UInt8.le_iff_toNat_le.mpr
      rw [hsize, hfree]
      exact Nat.le_add_left _ _
    rw [UInt8.toNat_sub_of_le _ _ hle, hsize, hfree]
    rfl
  · intro j hj
    rcases eq_or_ne j i with rfl | hne
    · exact update_self ..
    · have hj : (update pTab.Content i zeroed j).Valid = false := hj
      rw [update_of_ne hne] at hj
      show update pNext' i none j = none
      rw [update_of_ne hne, h.holds.remove_next hsplit (h.length_le _) hremove (h.notMem hj)]
      exact h.rest j hj

theorem Sound.add (Now : BitVec 32) (h : Sound pTab own) (hN : N ≤ 255) (hi : token (pTab.Content i) = none)
    (hnew : ∀ j, token (pTab.Content j) ≠ some DialogToken) :
    ∃ pTab' own', addEntry DialogToken Now i pTab = some pTab' ∧ Sound pTab' own' ∧
      pTab'.Content = update pTab.Content i ⟨Now, true, DialogToken⟩ := by
  have hfree := token_eq_none.mp hi
  obtain ⟨Hash', pNext', hpush, hholds⟩ :=
    h.holds.pushBack (k := DIALOGTOKEN_HASH_INDEX DialogToken) (h.notMem hfree) (h.rest i hfree)
      (h.length_le _)
  refine ⟨⟨pTab.Size + 1, Hash', update pTab.Content i ⟨Now, true, DialogToken⟩, pNext'⟩, _, ?_,
    ⟨hholds, ?_, ?_, ?_, ?_⟩, rfl⟩
  · unfold addEntry
    rw [hpush]
    rfl
  · intro k j
    dsimp only
    rw [Buckets.mem_pushed, h.mem]
    rcases eq_or_ne j i with rfl | hne
    · rw [update_self]
      constructor
      · rintro (hj | hj)
        · exact absurd hj.1 (by rw [hfree]; nofun)
        · exact ⟨rfl, hj.2.symm⟩
      · intro hj
        exact .inr ⟨rfl, hj.2.symm⟩
    · rw [update_of_ne hne]
      exact or_iff_left fun hj => hne hj.1
  · apply h.distinct.update
    intro j _ t ht
    cases ht
    exact hnew j
  · have htake : Slots.used token (update pTab.Content i ⟨Now, true, DialogToken⟩) =
        Slots.used token pTab.Content + 1 := Slots.used_take hi rfl
    have hlt : Slots.used token pTab.Content < N := Slots.used_lt hi
    have hone : (1 : UInt8).toNat = 1 := rfl
    dsimp only
    rw [htake, UInt8.toNat_add, h.size, hone]
    exact Nat.mod_eq_of_lt (by omega)
  · intro j hj
    have hj : (update pTab.Content i ⟨Now, true, DialogToken⟩ j).Valid = false := hj
    rcases eq_or_ne j i with rfl | hne
    · rw [update_self] at hj
      cases hj
    · rw [update_of_ne hne] at hj
      show pNext' j = none
      rw [h.holds.pushBack_next (h.length_le _) hpush (h.notMem hj)]
      exact h.rest j hj

end Sound

/-- `RTMP_TIME_AFTER` looks at the age as a number of 32 bits, from half of its range on behind the
limit it takes an entry for a new one. -/
def Stale (AGE_OUT : BitVec 32) (now since : Nat) : Prop :=
  AGE_OUT.toNat < (now - since) % 2 ^ 32 ∧ (now - since) % 2 ^ 32 ≤ AGE_OUT.toNat + 2 ^ 31

theorem time_after_iff {AGE_OUT : BitVec 32} {now since : Nat} (hage : AGE_OUT.toNat < 2 ^ 31)
    (hle : since ≤ now) :
    RTMP_TIME_AFTER (BitVec.ofNat 32 now) (BitVec.ofNat 32 since + AGE_OUT) = true ↔
      Stale AGE_OUT now since := by
  unfold RTMP_TIME_AFTER Stale
  rw [BitVec.msb_eq_decide, decide_eq_true_iff, BitVec.toNat_sub, BitVec.toNat_add,
    BitVec.toNat_ofNat, BitVec.toNat_ofNat]
  omega

/-- A token is in the book exactly if an entry waits under it, with the time of its insertion. -/
structure Shows {N : Nat} (Content : Fin N → REQ_ENTRY) (b : Book UInt8 (Fin N)) : Prop where
  slot : ∀ k i, (∃ since, b k = some (i, since)) ↔ token (Content i) = some k
  stamp : ∀ k i since, b k = some (i, since) → (Content i).lastTime = BitVec.ofNat 32 since

section Book

variable {N : Nat} {Content : Fin N → REQ_ENTRY} {b : Book UInt8 (Fin N)} {i : Fin N} {k : UInt8}
  {now : Nat}

theorem Shows.eq_none_iff (h : Shows Content b) : b k = none ↔ ∀ i, token (Content i) ≠ some k := by
  constructor
  · intro hk i hi
    obtain ⟨since, hsince⟩ := (h.slot k i).mpr hi
    rw [hk] at hsince
    cases hsince
  · intro hall
    cases hk : b k with
    | none => rfl
    | some w => exact absurd ((h.slot k w.1).mp ⟨w.2, hk⟩) (hall w.1)

theorem Shows.drop (h : Shows Content b) (hdistinct : Slots.Distinct token Content)
    (hi : token (Content i) = some k) : Shows (update Content i zeroed) (update b k none) := by
  constructor
  · intro c j
    rcases eq_or_ne c k with rfl | hc
    · rw [update_self]
      refine iff_of_false (fun hj => nomatch hj) fun hj => ?_
      rcases eq_or_ne j i with rfl | hne
      · rw [update_self] at hj
        cases hj
      · rw [update_of_ne hne] at hj
        exact hne (hdistinct j i c hj hi)
    · rw [update_of_ne hc, h.slot]
      rcases eq_or_ne j i with rfl | hne
      · rw [update_self, hi]
        exact iff_of_false (fun hk => hc (Option.some.inj hk).symm) nofun
      · rw [update_of_ne hne]
  · intro c j since hj
    rcases eq_or_ne c k with rfl | hc
    · rw [update_self] at hj
      cases hj
    · rw [update_of_ne hc] at hj
      have hne : j ≠ i := by
        rintro rfl
        have hslot := (h.slot c j).mp ⟨since, hj⟩
        rw [hi] at hslot
        exact hc (Option.some.inj hslot).symm
      rw [update_of_ne hne]
      exact h.stamp c j since hj

theorem Shows.add (h : Shows Content b) (hi : token (Content i) = none) (hk : b k = none) :
    Shows (update Content i ⟨BitVec.ofNat 32 now, true, k⟩) (update b k (some (i, now))) := by
  constructor
  · intro c j
    rcases eq_or_ne c k with rfl | hc
    · rw [update_self]
      rcases eq_or_ne j i with rfl | hne
      · rw [update_self]
        exact iff_of_true ⟨now, rfl⟩ rfl
      · rw [update_of_ne hne]
        refine iff_of_false ?_ (h.eq_none_iff.mp hk j)
        rintro ⟨since, hj⟩
        cases hj
        exact hne rfl
    · rw [update_of_ne hc, h.slot]
      rcases eq_or_ne j i with rfl | hne
      · rw [update_self, hi]
        exact iff_of_false nofun fun hj => hc (Option.some.inj hj).symm
      · rw [update_of_ne hne]
  · intro c j since hj
    rcases eq_or_ne c k with rfl | hc
    · rw [update_self] at hj
      cases hj
      rw [update_self]
    · rw [update_of_ne hc] at hj
      have hne : j ≠ i := by
        rintro rfl
        have hslot := (h.slot c j).mp ⟨since, hj⟩
        rw [hi] at hslot
        cases hslot
      rw [update_of_ne hne]
      exact h.stamp c j since hj

end Book

section Calls

variable {N : Nat} [NeZero N] {pTab : REQ_TAB N} {own : Fin N → List (Fin N)}
  {b : Book UInt8 (Fin N)} {k : UInt8} {now : Nat} {AGE_OUT : BitVec 32}

theorem Sound.lookUp_shows (h : Sound pTab own) (hshows : Shows pTab.Content b) :
    lookUp pTab k = some ((b k).map (·.1)) := by
  rw [h.lookUp_eq]
  congr 1
  cases hk : b k with
  | none => exact Slots.find_eq_none.mpr (hshows.eq_none_iff.mp hk)
  | some w => exact h.distinct.find_eq_some.mpr ((hshows.slot k w.1).mp ⟨w.2, hk⟩)

theorem Sound.insert (h : Sound pTab own) (hshows : Shows pTab.Content b) (hN : N ≤ 255)
    (hage : AGE_OUT.toNat < 2 ^ 31) (hle : ∀ c i since, b c = some (i, since) → since ≤ now) :
    ∃ answer pTab' own' b', insertEntry AGE_OUT pTab k (BitVec.ofNat 32 now) = some (answer, pTab') ∧
      Sound pTab' own' ∧ Shows pTab'.Content b' ∧ Step (Stale AGE_OUT) b (.insert k now) answer b' := by
  have hstale : ∀ c i since, b c = some (i, since) →
      (aged AGE_OUT (BitVec.ofNat 32 now) (pTab.Content i) = true ↔ Stale AGE_OUT now since) := by
    intro c i since hc
    obtain ⟨hvalid, -⟩ := token_eq_some.mp ((hshows.slot c i).mp ⟨since, hc⟩)
    unfold aged
    rw [hvalid, Bool.true_and, hshows.stamp c i since hc, time_after_iff hage (hle c i since hc)]
  unfold insertEntry
  rw [h.lookUp_shows hshows]
  cases hk : b k with
  | some w => exact ⟨_, pTab, own, b, rfl, h, hshows, .present hk⟩
  | none =>
    have hnew := hshows.eq_none_iff.mp hk
    cases hvacancy : vacancy AGE_OUT (BitVec.ofNat 32 now) pTab with
    | none =>
      refine ⟨none, pTab, own, b, rfl, h, hshows, .refuse hk fun i => ?_⟩
      have hno := List.find?_eq_none.mp hvacancy i (List.mem_finRange i)
      rw [Bool.not_eq_true, Bool.or_eq_false_iff, Bool.not_eq_false'] at hno
      obtain ⟨since, hsince⟩ := (hshows.slot _ i).mpr (token_eq_some.mpr ⟨hno.2, rfl⟩)
      refine ⟨_, since, hsince, fun hs => ?_⟩
      rw [(hstale _ i since hsince).mpr hs] at hno
      cases hno.1
    | some i =>
      have hfound := List.find?_some hvacancy
      cases haged : aged AGE_OUT (BitVec.ofNat 32 now) (pTab.Content i) with
      | true =>
        have hvalid : (pTab.Content i).Valid = true := (Bool.and_eq_true_iff.mp haged).1
        have htoken := token_eq_some.mpr ⟨hvalid, rfl⟩
        obtain ⟨since, hsince⟩ := (hshows.slot _ i).mpr htoken
        obtain ⟨pTab₁, own₁, hdrop, hsound, hcontent⟩ := h.drop htoken
        have hshows₁ := hshows.drop h.distinct htoken
        have hk₁ : update b (pTab.Content i).DialogToken none k = none := by
          rcases eq_or_ne k (pTab.Content i).DialogToken with heq | hne
          · rw [heq, update_self]
          · rw [update_of_ne hne, hk]
        rw [← hcontent] at hshows₁
        have hfree : token (pTab₁.Content i) = none := by rw [hcontent, update_self]; rfl
        obtain ⟨pTab₂, own₂, hadd, hsound₂, hcontent₂⟩ :=
          hsound.add (BitVec.ofNat 32 now) hN hfree (hshows₁.eq_none_iff.mp hk₁)
        refine ⟨some i, pTab₂, own₂, _, ?_, hsound₂, hcontent₂ ▸ hshows₁.add hfree hk₁,
          .reuse hk hsince ((hstale _ i since hsince).mp haged)⟩
        simp only [haged, if_true, hdrop, hadd, Option.map_none, Option.bind_eq_bind, Option.bind_some]
      | false =>
        rw [haged, Bool.false_or, Bool.not_eq_true'] at hfound
        have hfree := token_eq_none.mpr hfound
        obtain ⟨pTab₂, own₂, hadd, hsound₂, hcontent₂⟩ :=
          h.add (BitVec.ofNat 32 now) hN hfree hnew
        refine ⟨some i, pTab₂, own₂, _, ?_, hsound₂, hcontent₂ ▸ hshows.add hfree hk,
          .fill hk fun c since hc => ?_⟩
        · simp only [haged, Bool.false_eq_true, if_false, hadd, Option.map_none, Option.bind_eq_bind,
            Option.bind_some]
        · have hslot := (hshows.slot c i).mp ⟨since, hc⟩
          rw [hfree] at hslot
          cases hslot

theorem Sound.delete (h : Sound pTab own) (hshows : Shows pTab.Content b) :
    ∃ pTab' own', deleteEntry pTab k = some pTab' ∧ Sound pTab' own' ∧
      Shows pTab'.Content (update b k none) := by
  have hsame : b k = none → update b k none = b := by
    intro hk
    rw [← hk, update_eq_self]
  unfold deleteEntry
  split
  · next hzero =>
    have hused := h.size
    rw [hzero] at hused
    have hk : b k = none := by
      apply hshows.eq_none_iff.mpr
      intro i hi
      rw [Slots.used_eq_zero.mp hused.symm i] at hi
      cases hi
    exact ⟨pTab, own, rfl, h, (hsame hk).symm ▸ hshows⟩
  · rw [h.lookUp_shows hshows]
    cases hk : b k with
    | none => exact ⟨pTab, own, rfl, h, (hsame hk).symm ▸ hshows⟩
    | some w =>
      have htoken := (hshows.slot k w.1).mp ⟨w.2, hk⟩
      obtain ⟨pTab', own', hdrop, hsound, hcontent⟩ := h.drop htoken
      exact ⟨pTab', own', hdrop, hsound, hcontent ▸ hshows.drop h.distinct htoken⟩

end Calls

inductive Table where
  | measure
  | tpc
  deriving DecidableEq

namespace Table

def size : Table → Nat
  | measure => MAX_MEASURE_REQ_TAB_SIZE
  | tpc => MAX_TPC_REQ_TAB_SIZE

def AGE_OUT : Table → BitVec 32
  | measure => MQ_REQ_AGE_OUT
  | tpc => TPC_REQ_AGE_OUT

def tabInit : (T : Table) → Bool → Option (REQ_TAB T.size)
  | measure => MeasureReqTabInit
  | tpc => TpcReqTabInit

def lookUp : (T : Table) → Option (REQ_TAB T.size) → UInt8 → Option (Option (Fin T.size))
  | measure => MeasureReqLookUp
  | tpc => TpcReqLookUp

def insert : (T : Table) → Option (REQ_TAB T.size) → UInt8 → BitVec 32 →
    Option (Option (Fin T.size) × Option (REQ_TAB T.size))
  | measure => MeasureReqInsert
  | tpc => TpcReqInsert

def delete : (T : Table) → Option (REQ_TAB T.size) → UInt8 → Option (Option (REQ_TAB T.size))
  | measure => MeasureReqDelete
  | tpc => TpcReqDelete

instance (T : Table) : NeZero T.size := ⟨by cases T <;> nofun⟩

def call (T : Table) (pTab : Option (REQ_TAB T.size)) :
    Op UInt8 → Option (Option (Fin T.size) × Option (REQ_TAB T.size))
  | .insert DialogToken now => T.insert pTab DialogToken (BitVec.ofNat 32 now)
  | .lookUp DialogToken => (T.lookUp pTab DialogToken).map (·, pTab)
  | .delete DialogToken => (T.delete pTab DialogToken).map (none, ·)

/-- The table, and the calls so far with what they have returned. -/
abbrev State (T : Table) := Option (REQ_TAB T.size) × List (Op UInt8 × Option (Fin T.size))

def step (T : Table) (s : T.State) (op : Op UInt8) : Option T.State :=
  (T.call s.1 op).map fun r => (r.2, s.2 ++ [(op, r.1)])

def start (T : Table) : T.State := (T.tabInit true, [])

variable {T : Table} {pTab : REQ_TAB T.size} {own : Fin T.size → List (Fin T.size)}
  {b : Book UInt8 (Fin T.size)} {op : Op UInt8}

theorem size_le (T : Table) : T.size ≤ 255 := by cases T <;> decide

theorem AGE_OUT_lt (T : Table) : T.AGE_OUT.toNat < 2 ^ 31 := by cases T <;> decide

theorem lookUp_eq (T : Table) : T.lookUp = ReqLookUp := by cases T <;> rfl

theorem insert_eq (T : Table) : T.insert = ReqInsert T.AGE_OUT := by cases T <;> rfl

theorem delete_eq (T : Table) : T.delete = ReqDelete := by cases T <;> rfl

theorem start_eq (T : Table) :
    T.start = (some ⟨0, fun _ => none, fun _ => zeroed, fun _ => none⟩, []) := by cases T <;> rfl

theorem tryExec_log {ops : List (Op UInt8)} {s : T.State} (h : Run.tryExec T.step T.start ops = some s) :
    s.2.map (·.1) = ops := by
  induction ops using List.reverseRecOn generalizing s with
  | nil =>
    obtain rfl := Option.some.inj h
    rfl
  | append_singleton ops op ih =>
    rw [Run.tryExec_append] at h
    obtain ⟨s₀, hrun, hlast⟩ := Option.bind_eq_some_iff.mp h
    rw [Run.tryExec_cons] at hlast
    obtain ⟨s₁, hstep, hnil⟩ := Option.bind_eq_some_iff.mp hlast
    obtain rfl := Option.some.inj hnil
    obtain ⟨r, -, rfl⟩ := Option.map_eq_some_iff.mp hstep
    rw [List.map_append, ih hrun]
    rfl

theorem call_sound (h : Sound pTab own) (hshows : Shows pTab.Content b)
    (hle : ∀ k now, op = .insert k now → ∀ c i since, b c = some (i, since) → since ≤ now) :
    ∃ answer pTab' own' b', T.call (some pTab) op = some (answer, some pTab') ∧ Sound pTab' own' ∧
      Shows pTab'.Content b' ∧ Step (Stale T.AGE_OUT) b op answer b' := by
  cases op with
  | insert k now =>
    obtain ⟨answer, pTab', own', b', hcall, hsound, hshows', hstep⟩ :=
      h.insert (k := k) hshows T.size_le T.AGE_OUT_lt (hle k now rfl)
    refine ⟨answer, pTab', own', b', ?_, hsound, hshows', hstep⟩
    rw [call, insert_eq, ReqInsert, hcall]
    rfl
  | lookUp k =>
    refine ⟨(b k).map (·.1), pTab, own, b, ?_, h, hshows, .lookUp⟩
    rw [call, lookUp_eq, ReqLookUp, h.lookUp_shows hshows]
    rfl
  | delete k =>
    obtain ⟨pTab', own', hcall, hsound, hshows'⟩ := h.delete (k := k) hshows
    refine ⟨none, pTab', own', update b k none, ?_, hsound, hshows', .delete⟩
    rw [call, delete_eq, ReqDelete, hcall]
    rfl

end Table

open Run Table

/-- Whatever the calls, the table stays sound and answers like a map with ageing. -/
theorem requests_mapped (T : Table) (ops : List (Op UInt8)) (h : NonDecreasing ops) :
    ∃ pTab log own b, tryExec T.step T.start ops = some (some pTab, log) ∧ log.map (·.1) = ops ∧
      Sound pTab own ∧ History (Stale T.AGE_OUT) log b ∧ Shows pTab.Content b := by
  induction ops using List.reverseRecOn with
  | nil =>
    refine ⟨_, [], fun _ => [], fun _ => none, congrArg some T.start_eq, rfl, sound_init, .nil, ?_⟩
    exact ⟨fun k i => iff_of_false nofun nofun, nofun⟩
  | append_singleton ops op ih =>
    obtain ⟨pTab, log, own, b, hrun, hlog, hsound, hhistory, hshows⟩ := ih (by
      unfold NonDecreasing at h
      rw [List.filterMap_append, List.pairwise_append] at h
      exact h.1)
    have hle : ∀ k now, op = .insert k now → ∀ c i since, b c = some (i, since) → since ≤ now := by
      rintro k now rfl c i since hc
      rw [← hlog] at h
      exact hhistory.since_le h hc
    obtain ⟨answer, pTab', own', b', hcall, hsound', hshows', hstep⟩ := call_sound hsound hshows hle
    have hrun' : tryExec T.step T.start (ops ++ [op]) =
        some (some pTab', log ++ [(op, answer)]) := by
      rw [tryExec_append, hrun]
      show ((T.call (some pTab) op).map _).bind _ = _
      rw [hcall]
      rfl
    exact ⟨pTab', _, own', b', hrun', tryExec_log hrun', hsound', hhistory.snoc hstep, hshows'⟩

/-- Two tokens with one hash, the first of which ages out before a third one comes. -/
def agedCollision : List (Op UInt8) :=
  [.insert 1 0, .insert 33 200, .insert 2 600, .lookUp 1, .lookUp 33, .delete 33, .lookUp 2]

theorem requests_mapped_aged : ∃ pTab log own b,
    tryExec Table.measure.step Table.measure.start agedCollision = some (some pTab, log) ∧
      log.map (·.1) = agedCollision ∧ Sound pTab own ∧ History (Stale Table.measure.AGE_OUT) log b ∧
      Shows pTab.Content b ∧
      log.map (·.2) = [some 0, some 1, some 0, none, some 1, none, some 0] := by
  obtain ⟨pTab, log, own, b, hrun, hlog, hsound, hhistory, hshows⟩ :=
    requests_mapped .measure agedCollision (by decide)
  have hanswers : (tryExec Table.measure.step Table.measure.start agedCollision).map
      (fun s => s.2.map (·.2)) = some [some 0, some 1, some 0, none, some 1, none, some 0] := by
    decide
  rw [hrun] at hanswers
  exact ⟨pTab, log, own, b, hrun, hlog, hsound, hhistory, hshows, Option.some.inj hanswers⟩

def lateRequest : List (Op UInt8) :=
  (List.range 32).map (fun i => .insert (UInt8.ofNat i) 0) ++ [.insert 32 (2 ^ 31 + 501)]

/-- Entries that are older than half the range of the clock are not taken for aged. -/
theorem aged_entries_kept : ¬ ∀ (T : Table) (ops : List (Op UInt8)), NonDecreasing ops →
    ∃ pTab log b, tryExec T.step T.start ops = some (some pTab, log) ∧
      History (fun now since => T.AGE_OUT.toNat < now - since) log b := by
  intro hall
  have hanswer : (tryExec Table.measure.step Table.measure.start lateRequest).map
      (fun s => s.2.getLast?) = some (some (.insert 32 (2 ^ 31 + 501), none)) := by decide
  obtain ⟨pTab, log, b, hrun, hhistory⟩ := hall .measure lateRequest (by decide)
  have hlog := tryExec_log hrun
  rw [hrun] at hanswer
  have hlast : log.getLast? = some (.insert 32 (2 ^ 31 + 501), none) := Option.some.inj hanswer
  cases hhistory with
  | nil => cases hlast
  | @snoc past _ op answer _ hpast hstep =>
    rw [List.getLast?_append, List.getLast?_singleton, Option.some_or] at hlast
    cases hlast
    rw [List.map_append] at hlog
    have hops := (List.append_inj' hlog rfl).1
    cases hstep with
    | refuse _ hfull =>
      obtain ⟨c, since, hc, hyoung⟩ := hfull 0
      obtain ⟨answer, hmem⟩ := hpast.came hc
      have hput : Op.insert c since ∈ past.map (·.1) := List.mem_map_of_mem hmem
      rw [hops] at hput
      obtain ⟨i, -, hi⟩ := List.mem_map.mp hput
      cases hi
      exact hyoung (by decide)

end Ralink.Spectrum
