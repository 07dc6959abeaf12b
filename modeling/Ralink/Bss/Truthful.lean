import Ralink.Lib.Run
import Ralink.Bss.Table

/-! Who advertised what the table holds. -/
namespace Ralink.Bss

inductive Event where
  | init
  | set (pAd : RTMP_ADAPTER) (frame : Frame)
  | delete (pBssid : BitVec 48) (Channel : Byte)

/-- The access points and the SSIDs they advertised are kept along. -/
structure State where
  Tab : BSS_TABLE
  heard : List (BitVec 48 × List Byte)

def start (b : Build) (Tab : BSS_TABLE) : State := ⟨BssTableInit b Tab, []⟩

def step (b : Build) (s : State) : Event → State
  | .init => { s with Tab := BssTableInit b s.Tab }
  | .set pAd frame =>
    ⟨(BssTableSetEntry b pAd frame s.Tab).2, (frame.Bssid, frame.Ssid) :: s.heard⟩
  | .delete pBssid Channel => { s with Tab := BssTableDeleteEntry s.Tab pBssid Channel }

def Same (e e' : BSS_ENTRY) : Prop :=
  sameBand e.Channel e'.Channel = true ∧ e.Bssid = e'.Bssid

def Unique (n : Nat) (E : Nat → BSS_ENTRY) : Prop :=
  ∀ i < n, ∀ j < n, Same (E i) (E j) → i = j

/-- An entry that has an SSID has one that its access point advertised. -/
def Advertised (heard : List (BitVec 48 × List Byte)) (e : BSS_ENTRY) : Prop :=
  e.ssid ≠ [] → (e.Bssid, e.ssid) ∈ heard

structure Truthful (b : Build) (s : State) : Prop where
  nr : s.Tab.BssNr ≤ MAX_LEN_OF_BSS_TABLE b
  unique : Unique s.Tab.BssNr s.Tab.BssEntry
  heard : ∀ i < s.Tab.BssNr, Advertised s.heard (s.Tab.BssEntry i)

/-- The index that is returned is that of an entry with the BSSID. An entry is deleted alone,
the others keep what they hold and their order. -/
def Answered (b : Build) (s : State) : Event → Prop
  | .init => True
  | .set pAd frame =>
    ∀ Idx ∈ (BssTableSetEntry b pAd frame s.Tab).1,
      Idx < (BssTableSetEntry b pAd frame s.Tab).2.BssNr ∧
        ((BssTableSetEntry b pAd frame s.Tab).2.BssEntry Idx).Bssid = frame.Bssid ∧
        ((BssTableSetEntry b pAd frame s.Tab).2.BssEntry Idx).Channel = frame.Channel
  | .delete pBssid Channel =>
    (BssTableDeleteEntry s.Tab pBssid Channel = s.Tab ∧
      ∀ i < s.Tab.BssNr,
        ¬ ((s.Tab.BssEntry i).Channel = Channel ∧ (s.Tab.BssEntry i).Bssid = pBssid)) ∨
    ∃ i, (s.Tab.BssEntry i).Channel = Channel ∧ (s.Tab.BssEntry i).Bssid = pBssid ∧
      Deleted s.Tab (BssTableDeleteEntry s.Tab pBssid Channel) i ∧
      (∀ j < i, (BssTableDeleteEntry s.Tab pBssid Channel).probeRsp j = s.Tab.probeRsp j) ∧
      ∀ j, i ≤ j → j + 1 < s.Tab.BssNr →
        (BssTableDeleteEntry s.Tab pBssid Channel).probeRsp j = s.Tab.probeRsp (j + 1)

/-- The access point takes the slot of another one. -/
def Overwrites (b : Build) (pAd : RTMP_ADAPTER) (frame : Frame) (Tab : BSS_TABLE) : Prop :=
  BssTableSearch Tab frame.Bssid frame.Channel = none ∧
    MAX_LEN_OF_BSS_TABLE b ≤ Tab.BssNr ∧ mayOverwrite pAd frame = true

/-- An access point that hides its SSID takes a slot only if that holds no SSID, or one that it
has advertised itself. -/
def Fresh (b : Build) (s : State) : Event → Prop
  | .set pAd frame =>
    Overwrites b pAd frame s.Tab → zeroSsid frame.Ssid = true →
      (s.Tab.BssEntry s.Tab.BssOverlapNr).ssid ≠ [] →
        (frame.Bssid, (s.Tab.BssEntry s.Tab.BssOverlapNr).ssid) ∈ s.heard
  | _ => True

structure Beside (b : Build) (s : State) : Prop where
  nr : s.Tab.BssNr ≤ MAX_LEN_OF_BSS_TABLE b
  overlap : s.Tab.BssOverlapNr < MAX_LEN_OF_BSS_TABLE b
  blank : ∀ i, s.Tab.BssNr ≤ i → i < MAX_LEN_OF_BSS_TABLE b → (s.Tab.BssEntry i).ssid = []
  named : ∀ i < MAX_LEN_OF_BSS_TABLE b,
    (s.Tab.BssEntry i).ssid ≠ [] → zeroSsid (s.Tab.BssEntry i).ssid = false
  len : ∀ i < MAX_LEN_OF_BSS_TABLE b, (s.Tab.BssEntry i).VarIeFromProbeRspLen = 0

variable {b : Build} {s : State} {Tab : BSS_TABLE} {pAd : RTMP_ADAPTER} {frame : Frame}
  {Tab' : BSS_TABLE} {Idx i n BssNr j BssOverlapNr : Nat} {e : BSS_ENTRY}

theorem Same.symm {e' : BSS_ENTRY} (h : Same e e') : Same e' e := by
  obtain ⟨hband, hbssid⟩ := h
  exact ⟨(sameBand_iff _ _).mpr ((sameBand_iff _ _).mp hband).symm, hbssid.symm⟩

theorem Same.trans {e' e'' : BSS_ENTRY} (h : Same e e') (h' : Same e' e'') : Same e e'' := by
  refine ⟨(sameBand_iff _ _).mpr ?_, h.2.trans h'.2⟩
  exact ((sameBand_iff _ _).mp h.1).trans ((sameBand_iff _ _).mp h'.1)

theorem same_set (frame : Frame) (e e' : BSS_ENTRY) :
    Same e (BssEntrySet frame e') ↔
      sameBand e.Channel frame.Channel = true ∧ e.Bssid = frame.Bssid := by
  rw [Same, BssEntrySet_Bssid, BssEntrySet_Channel]

theorem Unique.update {m : Nat} {E : Nat → BSS_ENTRY} (h : Unique n E)
    (hother : ∀ i < m, i ≠ Idx → i < n ∧ ¬ Same (E i) e) : Unique m (Function.update E Idx e) := by
  intro i hi j hj hsame
  by_cases hii : i = Idx
  · by_cases hjj : j = Idx
    · exact hii.trans hjj.symm
    · rw [hii, Function.update_self, Function.update_of_ne hjj] at hsame
      exact absurd hsame.symm (hother j hj hjj).2
  · by_cases hjj : j = Idx
    · rw [hjj, Function.update_self, Function.update_of_ne hii] at hsame
      exact absurd hsame (hother i hi hii).2
    · rw [Function.update_of_ne hii, Function.update_of_ne hjj] at hsame
      exact h i (hother i hi hii).1 j (hother j hj hjj).1 hsame

theorem Advertised.mono {heard : List (BitVec 48 × List Byte)} (h : Advertised heard e)
    (x : BitVec 48 × List Byte) : Advertised (x :: heard) e :=
  fun hne => List.mem_cons_of_mem x (h hne)

theorem set_cases (b : Build) (pAd : RTMP_ADAPTER) (frame : Frame) (Tab : BSS_TABLE) :
    (∃ Idx, Idx < Tab.BssNr ∧ Holds Tab Idx frame.Bssid frame.Channel ∧
      BssTableSetEntry b pAd frame Tab = (some Idx, Tab.set Idx frame)) ∨
    (BssTableSearch Tab frame.Bssid frame.Channel = none ∧ Tab.BssNr < MAX_LEN_OF_BSS_TABLE b ∧
      BssTableSetEntry b pAd frame Tab =
        (some Tab.BssNr, { Tab.set Tab.BssNr frame with BssNr := Tab.BssNr + 1 })) ∨
    (Overwrites b pAd frame Tab ∧
      BssTableSetEntry b pAd frame Tab =
        (some Tab.BssOverlapNr,
          { Tab.set Tab.BssOverlapNr frame with
            BssOverlapNr := (Tab.BssOverlapNr + 1) % MAX_LEN_OF_BSS_TABLE b })) ∨
    (¬ Overwrites b pAd frame Tab ∧ BssTableSetEntry b pAd frame Tab = (none, Tab)) := by
  unfold BssTableSetEntry
  cases hsearch : BssTableSearch Tab frame.Bssid frame.Channel with
  | some Idx =>
    obtain ⟨hlt, hholds⟩ := search_some hsearch
    exact .inl ⟨Idx, hlt, hholds, rfl⟩
  | none =>
    rcases Nat.lt_or_ge Tab.BssNr (MAX_LEN_OF_BSS_TABLE b) with hlt | hge
    · exact .inr (.inl ⟨rfl, hlt, if_neg hlt.not_ge⟩)
    · simp only [if_pos hge]
      by_cases hmay : mayOverwrite pAd frame = true
      · exact .inr (.inr (.inl ⟨⟨hsearch, hge, hmay⟩, if_pos hmay⟩))
      · exact .inr (.inr (.inr ⟨fun h => hmay h.2.2, if_neg hmay⟩))

theorem set_ssid (e : BSS_ENTRY) (hnamed : e.ssid ≠ [] → zeroSsid e.ssid = false) :
    (BssEntrySet frame e).ssid = if zeroSsid frame.Ssid = true then e.ssid else frame.Ssid := by
  rw [BssEntrySet_ssid]
  by_cases hzero : zeroSsid frame.Ssid = true
  · rw [if_pos hzero]
    exact setSsid_hidden hzero hnamed
  · rw [if_neg hzero]
    exact setSsid_shown (Bool.not_eq_true _ ▸ hzero) _

theorem set_named (e : BSS_ENTRY) (hnamed : e.ssid ≠ [] → zeroSsid e.ssid = false)
    (hne : (BssEntrySet frame e).ssid ≠ []) : zeroSsid (BssEntrySet frame e).ssid = false := by
  rw [set_ssid e hnamed] at hne ⊢
  by_cases hzero : zeroSsid frame.Ssid = true
  · rw [if_pos hzero] at hne ⊢
    exact hnamed hne
  · rw [if_neg hzero]
    exact Bool.not_eq_true _ ▸ hzero

theorem set_advertised (heard : List (BitVec 48 × List Byte)) (e : BSS_ENTRY)
    (hnamed : e.ssid ≠ [] → zeroSsid e.ssid = false) :
    Advertised ((frame.Bssid, frame.Ssid) :: heard) (BssEntrySet frame e) ↔
      (zeroSsid frame.Ssid = true → e.ssid ≠ [] → (frame.Bssid, e.ssid) ∈ heard) := by
  rw [Advertised, set_ssid e hnamed, BssEntrySet_Bssid]
  by_cases hzero : zeroSsid frame.Ssid = true
  · rw [if_pos hzero]
    constructor
    · intro h _ hne
      rcases List.mem_cons.mp (h hne) with heq | hmem
      · have hshown := hnamed hne
        rw [(Prod.mk.inj heq).2, hzero] at hshown
        exact Bool.noConfusion hshown
      · exact hmem
    · intro h hne
      exact List.mem_cons_of_mem _ (h hzero hne)
  · rw [if_neg hzero]
    exact iff_of_true (fun _ => List.mem_cons_self) fun h => absurd h hzero

theorem Beside.set (ha : Beside b s) (hnr : s.Tab.BssNr ≤ BssNr)
    (hmax : BssNr ≤ MAX_LEN_OF_BSS_TABLE b) (hidx : Idx < BssNr)
    (hoverlap : BssOverlapNr < MAX_LEN_OF_BSS_TABLE b) (heard : List (BitVec 48 × List Byte)) :
    Beside b ⟨{ s.Tab.set Idx frame with BssNr, BssOverlapNr }, heard⟩ := by
  have hentry : ∀ i, i ≠ Idx →
      Function.update s.Tab.BssEntry Idx (BssEntrySet frame (s.Tab.BssEntry Idx)) i =
        s.Tab.BssEntry i := fun i hi => Function.update_of_ne hi _ _
  refine ⟨hmax, hoverlap, fun i hi hlt => ?_, fun i hi => ?_, fun i hi => ?_⟩
  · show (Function.update s.Tab.BssEntry Idx _ i).ssid = []
    rw [hentry i (hidx.trans_le hi).ne']
    exact ha.blank i (hnr.trans hi) hlt
  · show (Function.update s.Tab.BssEntry Idx _ i).ssid ≠ [] →
      zeroSsid (Function.update s.Tab.BssEntry Idx _ i).ssid = false
    by_cases heq : i = Idx
    · subst heq
      rw [Function.update_self]
      exact set_named _ (ha.named i hi)
    · rw [hentry i heq]
      exact ha.named i hi
  · show (Function.update s.Tab.BssEntry Idx _ i).VarIeFromProbeRspLen = 0
    by_cases heq : i = Idx
    · subst heq
      rw [Function.update_self, BssEntrySet_VarIeFromProbeRspLen]
      exact ha.len i hi
    · rw [hentry i heq]
      exact ha.len i hi

theorem set_beside (ha : Beside b s) (pAd : RTMP_ADAPTER) (frame : Frame) :
    Beside b (step b s (.set pAd frame)) := by
  rcases set_cases b pAd frame s.Tab with ⟨Idx, hlt, -, heq⟩ | ⟨-, hlt, heq⟩ |
    ⟨⟨-, hfull, -⟩, heq⟩ | ⟨-, heq⟩ <;> simp only [step, heq]
  · exact ha.set le_rfl ha.nr hlt ha.overlap _
  · exact ha.set (Nat.le_succ _) hlt (Nat.lt_succ_self _) ha.overlap _
  · exact ha.set le_rfl ha.nr (ha.overlap.trans_le hfull) (Nat.mod_lt _ (MAX_LEN_pos b)) _
  · exact ⟨ha.nr, ha.overlap, ha.blank, ha.named, ha.len⟩

theorem Truthful.set (hs : Truthful b s) (hmax : BssNr ≤ MAX_LEN_OF_BSS_TABLE b)
    (hidx : Idx < BssNr)
    (hother : ∀ i < BssNr, i ≠ Idx → i < s.Tab.BssNr ∧ ¬ Holds s.Tab i frame.Bssid frame.Channel)
    (x : BitVec 48 × List Byte) :
    Truthful b ⟨{ s.Tab.set Idx frame with BssNr, BssOverlapNr }, x :: s.heard⟩ ↔
      Advertised (x :: s.heard) (BssEntrySet frame (s.Tab.BssEntry Idx)) := by
  constructor
  · intro h
    have hadvertised : Advertised (x :: s.heard) (Function.update s.Tab.BssEntry Idx
      (BssEntrySet frame (s.Tab.BssEntry Idx)) Idx) := h.heard Idx hidx
    rwa [Function.update_self] at hadvertised
  · intro h
    refine ⟨hmax, ?_, fun i hi => ?_⟩
    · refine hs.unique.update fun i hi hne => ⟨(hother i hi hne).1, ?_⟩
      rw [same_set]
      exact (hother i hi hne).2
    · show Advertised _ (Function.update s.Tab.BssEntry Idx _ i)
      by_cases heq : i = Idx
      · rw [heq, Function.update_self]
        exact h
      · rw [Function.update_of_ne heq]
        exact (hs.heard i (hother i hi heq).1).mono x

theorem set_truthful (hs : Truthful b s) (ha : Beside b s) (pAd : RTMP_ADAPTER)
    (frame : Frame) :
    Truthful b (step b s (.set pAd frame)) ↔ Fresh b s (.set pAd frame) := by
  rcases set_cases b pAd frame s.Tab with ⟨Idx, hlt, hholds, heq⟩ | ⟨hsearch, hlt, heq⟩ |
    ⟨hover, heq⟩ | ⟨hover, heq⟩ <;> simp only [step, heq, Fresh]
  · -- the entry is updated in place, a hidden SSID leaves what its access point advertised
    have hnot : ¬ Overwrites b pAd frame s.Tab := fun h => search_none h.1 hlt hholds
    refine iff_of_true ((hs.set hs.nr hlt ?_ _).mpr ?_) fun h => absurd h hnot
    · intro i hi hne
      refine ⟨hi, fun hi' => hne (hs.unique i hi Idx hlt ?_)⟩
      have hsame : ∀ j, Holds s.Tab j frame.Bssid frame.Channel →
          Same (s.Tab.BssEntry j) (BssEntrySet frame (s.Tab.BssEntry Idx)) :=
        fun j hj => (same_set frame _ _).mpr hj
      exact (hsame i hi').trans (hsame Idx hholds).symm
    · refine (set_advertised _ _ (ha.named Idx (hlt.trans_le hs.nr))).mpr fun _ hne => ?_
      rw [← hholds.2]
      exact hs.heard Idx hlt hne
  · have hnot : ¬ Overwrites b pAd frame s.Tab := fun h => hlt.not_ge h.2.1
    refine iff_of_true ((hs.set hlt (Nat.lt_succ_self _) ?_ _).mpr ?_) fun h => absurd h hnot
    · intro i hi hne
      have hi : i < s.Tab.BssNr := by omega
      exact ⟨hi, search_none hsearch hi⟩
    · refine (set_advertised _ _ (ha.named _ hlt)).mpr fun _ hne => ?_
      exact absurd (ha.blank _ le_rfl hlt) hne
  · refine (hs.set hs.nr (ha.overlap.trans_le hover.2.1) ?_ _).trans ?_
    · exact fun i hi _ => ⟨hi, search_none hover.1 hi⟩
    · rw [set_advertised _ _ (ha.named _ ha.overlap)]
      exact ⟨fun h _ => h, fun h => h hover⟩
  · exact iff_of_true ⟨hs.nr, hs.unique, fun i hi => (hs.heard i hi).mono _⟩
      fun h => absurd h hover

theorem set_answered (ha : Beside b s) (pAd : RTMP_ADAPTER) (frame : Frame) :
    Answered b s (.set pAd frame) := by
  have hset : ∀ Idx, (Function.update s.Tab.BssEntry Idx
      (BssEntrySet frame (s.Tab.BssEntry Idx)) Idx).Bssid = frame.Bssid ∧
      (Function.update s.Tab.BssEntry Idx
        (BssEntrySet frame (s.Tab.BssEntry Idx)) Idx).Channel = frame.Channel := by
    intro Idx
    rw [Function.update_self]
    exact ⟨BssEntrySet_Bssid _ _, BssEntrySet_Channel _ _⟩
  rcases set_cases b pAd frame s.Tab with ⟨Idx, hlt, -, heq⟩ | ⟨-, -, heq⟩ |
    ⟨hover, heq⟩ | ⟨-, heq⟩ <;> simp only [Answered, heq] <;> intro i hi
  · obtain rfl := Option.some.inj hi
    exact ⟨hlt, hset Idx⟩
  · obtain rfl := Option.some.inj hi
    exact ⟨Nat.lt_succ_self _, hset _⟩
  · obtain rfl := Option.some.inj hi
    exact ⟨ha.overlap.trans_le hover.2.1, hset _⟩
  · exact (Option.not_mem_none _ hi).elim

def origin (i j : Nat) : Nat := if j < i then j else j + 1

theorem origin_injective {k : Nat} (h : origin i j = origin i k) : j = k := by
  unfold origin at h
  split at h <;> split at h <;> omega

theorem Deleted.content (h : Deleted Tab Tab' i) (hj : j < Tab'.BssNr) :
    origin i j < Tab.BssNr ∧
      (Tab'.BssEntry j).content = (Tab.BssEntry (origin i j)).content := by
  have hnr := h.nr
  unfold origin
  by_cases hlt : j < i
  · rw [if_pos hlt]
    exact ⟨hlt.trans h.index, congrArg BSS_ENTRY.content (h.before j hlt)⟩
  · rw [if_neg hlt]
    exact ⟨by omega, h.after j (by omega) (by omega)⟩

theorem Deleted.truthful (h : Deleted s.Tab Tab' i) (hs : Truthful b s) :
    Truthful b ⟨Tab', s.heard⟩ := by
  have hnr := h.nr
  refine ⟨?_, fun j hj k hk hsame => ?_, fun j hj => ?_⟩
  · exact (Nat.le_of_succ_le hnr.le).trans hs.nr
  · obtain ⟨hlt, hcontent⟩ := h.content hj
    obtain ⟨hlt', hcontent'⟩ := h.content hk
    have hsame : Same (Tab'.BssEntry j).content (Tab'.BssEntry k).content := hsame
    rw [hcontent, hcontent'] at hsame
    exact origin_injective (hs.unique _ hlt _ hlt' hsame)
  · obtain ⟨hlt, hcontent⟩ := h.content hj
    have hheard : Advertised s.heard (s.Tab.BssEntry (origin i j)).content := hs.heard _ hlt
    rw [← hcontent] at hheard
    exact hheard

theorem Deleted.all {P : BSS_ENTRY → Prop} (h : Deleted Tab Tab' i) (hn : Tab.BssNr ≤ n)
    (hzero : P (zeroed none)) (hall : ∀ j < n, P (Tab.BssEntry j).content) :
    ∀ j < n, P (Tab'.BssEntry j).content := by
  intro j hj
  have hnr := h.nr
  rcases Nat.lt_or_ge j Tab'.BssNr with hlt | hge
  · obtain ⟨hlt, hcontent⟩ := h.content hlt
    rw [hcontent]
    exact hall _ (hlt.trans_le hn)
  · rcases eq_or_lt_of_le hge with rfl | hbeyond
    · have hlast := h.last
      rw [← hnr, Nat.add_sub_cancel] at hlast
      rw [hlast]
      exact hzero
    · rw [h.beyond j (by omega)]
      exact hall j hj

theorem Deleted.beside (h : Deleted s.Tab Tab' i) (ha : Beside b s) : Beside b ⟨Tab', s.heard⟩ := by
  have hnr := h.nr
  refine ⟨?_, ?_, fun j hj hlt => ?_, ?_, ?_⟩
  · exact (Nat.le_of_succ_le hnr.le).trans ha.nr
  · rw [h.overlap]
    exact ha.overlap
  · have hj : Tab'.BssNr ≤ j := hj
    rcases eq_or_lt_of_le hj with rfl | hbeyond
    · have hlast := h.last
      rw [← hnr, Nat.add_sub_cancel] at hlast
      exact congrArg BSS_ENTRY.ssid hlast
    · show (Tab'.BssEntry j).ssid = []
      rw [h.beyond j (by omega)]
      exact ha.blank j (by omega) hlt
  · exact h.all ha.nr (P := fun e => e.ssid ≠ [] → zeroSsid e.ssid = false)
      (fun hne => absurd rfl hne) ha.named
  · exact h.all ha.nr (P := fun e => e.VarIeFromProbeRspLen = 0) rfl ha.len

theorem delete_none {pBssid : BitVec 48} {Channel : Byte}
    (h : deleteIndex Tab pBssid Channel = none) : BssTableDeleteEntry Tab pBssid Channel = Tab := by
  simp only [BssTableDeleteEntry, h]

theorem probeRsp_nil (h : (Tab.BssEntry i).VarIeFromProbeRspLen = 0) : Tab.probeRsp i = [] := by
  unfold BSS_TABLE.probeRsp
  split
  · rfl
  · rw [h]
    rfl

theorem delete_answered (ha : Beside b s) (pBssid : BitVec 48) (Channel : Byte) :
    Answered b s (.delete pBssid Channel) := by
  cases hindex : deleteIndex s.Tab pBssid Channel with
  | none =>
    refine .inl ⟨delete_none hindex, fun i hi hmatch => ?_⟩
    have hmiss := List.find?_eq_none.mp hindex i (List.mem_range.mpr hi)
    rw [Bool.and_eq_true, beq_iff_eq, beq_iff_eq] at hmiss
    exact hmiss hmatch
  | some i =>
    have hdeleted := delete_spec hindex
    obtain ⟨-, hchannel, hbssid⟩ := deleteIndex_some hindex
    have hnr := ha.nr
    have hlt := hdeleted.index
    have hlen := (hdeleted.beside ha).len
    refine .inr ⟨i, hchannel, hbssid, hdeleted, fun j hj => ?_, fun j hij hj => ?_⟩
    · rw [probeRsp_nil (hlen j (by omega)), probeRsp_nil (ha.len j (by omega))]
    · rw [probeRsp_nil (hlen j (by omega)), probeRsp_nil (ha.len (j + 1) (by omega))]

theorem init_beside (b : Build) (Tab : BSS_TABLE) (heard : List (BitVec 48 × List Byte)) :
    Beside b ⟨BssTableInit b Tab, heard⟩ := by
  have hentry : ∀ i < MAX_LEN_OF_BSS_TABLE b,
      ((BssTableInit b Tab).BssEntry i).ssid = [] ∧
        ((BssTableInit b Tab).BssEntry i).VarIeFromProbeRspLen = 0 := by
    intro i hi
    simp only [BssTableInit, if_pos hi]
    exact ⟨rfl, rfl⟩
  refine ⟨Nat.zero_le _, MAX_LEN_pos b, fun i _ hi => (hentry i hi).1, fun i hi hne => ?_,
    fun i hi => (hentry i hi).2⟩
  exact absurd (hentry i hi).1 hne

theorem init_truthful (b : Build) (Tab : BSS_TABLE) (heard : List (BitVec 48 × List Byte)) :
    Truthful b ⟨BssTableInit b Tab, heard⟩ :=
  ⟨Nat.zero_le _, nofun, nofun⟩

theorem step_beside (s : State) (e : Event) (ha : Beside b s) : Beside b (step b s e) := by
  cases e with
  | init => exact init_beside b s.Tab s.heard
  | set pAd frame => exact set_beside ha pAd frame
  | delete pBssid Channel =>
    cases hindex : deleteIndex s.Tab pBssid Channel with
    | none =>
      simp only [step, delete_none hindex]
      exact ha
    | some i => exact (delete_spec hindex).beside ha

theorem step_truthful (s : State) (e : Event) (ha : Beside b s) (hs : Truthful b s) :
    Truthful b (step b s e) ↔ Fresh b s e := by
  cases e with
  | init => exact iff_of_true (init_truthful b s.Tab s.heard) trivial
  | set pAd frame => exact set_truthful hs ha pAd frame
  | delete pBssid Channel =>
    refine iff_of_true ?_ trivial
    cases hindex : deleteIndex s.Tab pBssid Channel with
    | none =>
      simp only [step, delete_none hindex]
      exact hs
    | some i => exact (delete_spec hindex).truthful hs

theorem step_answered (s : State) (e : Event) (ha : Beside b s) : Answered b s e := by
  cases e with
  | init => trivial
  | set pAd frame => exact set_answered ha pAd frame
  | delete pBssid Channel => exact delete_answered ha pBssid Channel

/-- The table keeps one truthful entry for each access point, and every call its promise,
exactly in the runs in which no access point that hides its SSID takes the slot of another
one with an SSID that it has not advertised. -/
theorem run_truthful (b : Build) (Tab : BSS_TABLE) (es : List Event) :
    ((∀ n, Truthful b (Run.exec (step b) (start b Tab) (es.take n))) ∧
      Run.AllSteps (step b) (Answered b) (start b Tab) es) ↔
      Run.AllSteps (step b) (Fresh b) (start b Tab) es := by
  have hall : Run.AllSteps (step b) (fun _ _ => True) (start b Tab) es :=
    Run.AllSteps.of_forall fun _ _ _ => trivial
  have hanswered : Run.AllSteps (step b) (Answered b) (start b Tab) es :=
    Run.AllSteps.of_inv (I := Beside b) (fun s e ha _ => step_beside s e ha)
      (fun s e ha _ => step_answered s e ha) (init_beside b Tab []) hall
  rw [and_iff_left hanswered]
  exact (Run.allSteps_iff (G := Truthful b) (A := Beside b) (Q := fun _ _ => True)
    (fun s e ha _ _ => step_beside s e ha) (fun s e ha hs _ => step_truthful s e ha hs)
    (init_beside b Tab []) (init_truthful b Tab []) hall).symm

def beacon (Bssid : BitVec 48) (Ssid : List Byte) (ssidLen : Ssid.length ≤ MAX_LEN_OF_SSID) :
    Frame where
  Bssid := Bssid
  Ssid := Ssid
  BssType := BSS_INFRA
  BeaconPeriod := 100
  CfParm := ⟨false, 0, 0, 0, 0⟩
  AtimWin := 0
  CapabilityInfo := 1
  SupRate := []
  ExtRate := []
  Ht := ⟨0, 0, false, 0, 0⟩
  NewExtChanOffset := 0
  Channel := 6
  Rssi := -50
  TimeStamp := 0
  CkipFlag := 0
  VIE := []
  upTime := 0
  ssidLen := ssidLen
  vieLen := by decide

def unconnected : RTMP_ADAPTER := ⟨false, false, ⟨0, []⟩, none⟩

def visible (Bssid : BitVec 48) : Event :=
  .set unconnected (beacon Bssid [0x61] (by decide))

def hidden (Bssid : BitVec 48) : Event :=
  .set unconnected (beacon Bssid [] (by decide))

def empty : BSS_TABLE := ⟨0, 0, fun _ => zeroed none, fun _ _ => 0⟩

/-- The table is full, and an access point that hides its SSID gets the entry and the SSID of
the first one. -/
theorem keeps_ssid :
    ¬ ∀ (b : Build) (Tab : BSS_TABLE) (es : List Event),
      Truthful b (Run.exec (step b) (start b Tab) es) := by
  intro h
  have hheard := (h .full empty
    ((List.range 64).map (fun i => visible (BitVec.ofNat 48 (i + 1))) ++ [hidden 100])).heard 0
      (by decide +kernel)
  exact absurd (hheard (by decide +kernel)) (by decide +kernel)

end Ralink.Bss
