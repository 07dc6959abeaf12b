import Ralink.Uapsd.Withheld

/-! The packets that wait in the delivery-enabled access categories, in the order of their priority;
a period takes as many of them from the front as its length allows. -/
namespace Ralink.Uapsd
open Function

abbrev Frame := QID_AC × NDIS_PACKET

namespace Frame

/-- More packets follow, and the packet is one of a service period. -/
def marked (x : Frame) : Frame :=
  (x.1, { x.2 with MOREDATA := true, UAPSD_Flag := true, UAPSD_QUE_ID := x.1 })

def ended (more : Bool) (x : Frame) : Frame :=
  (x.1, { x.marked.2 with MOREDATA := more, EOSP := true })

end Frame

def ofAc (ac : QID_AC) (xs : List Frame) : List NDIS_PACKET :=
  (xs.filter fun x => x.1 = ac).map Prod.snd

/-- What waits in the categories, one category behind the other. -/
def waitingIn (enabled : QID_AC → Bool) (acs : List QID_AC)
    (UAPSDQueue : QID_AC → List NDIS_PACKET) : List Frame :=
  acs.flatMap fun ac => if enabled ac then (UAPSDQueue ac).map (ac, ·) else []

def waiting (e : MAC_TABLE_ENTRY) : List Frame :=
  waitingIn e.bAPSDDeliverEnabledPerAC [QID_AC_VO, QID_AC_VI, QID_AC_BE, QID_AC_BK] e.UAPSDQueue

def periodLength (e : MAC_TABLE_ENTRY) : Nat :=
  if SpLenMap e.MaxSPLength = 0 then (waiting e).length
  else min (waiting e).length (SpLenMap e.MaxSPLength)

def room (limit used waits : Nat) : Nat := if limit = 0 then waits else min waits (limit - used)

def periodFrames (more : Bool) (taken : List Frame) : List Frame :=
  taken.dropLast.map Frame.marked ++ (taken.getLast?.map (Frame.ended more)).toList

/-- The statistics of the hardware do not tell of the lowest rates and of management frames. -/
def roughUse (e : MAC_TABLE_ENTRY) (Mode : MODE) (MCS : Nat) (taken : List Frame) : Bool :=
  decide ((Mode = .MODE_CCK ∨ Mode = .MODE_OFDM) ∧ MCS = 0 ∧ e.bAPSDAllAC) ||
    taken.any fun x => x.2.MGMT_PKT

/-- A period of the packets `taken`, behind which the packets `left` still wait. -/
structure Delivers (pAd pAd' : RTMP_ADAPTER) (rough : Bool) (UpOfFrame : Nat)
    (taken left : List Frame) : Prop where
  queues : ∀ ac, pAd'.entry.UAPSDQueue ac =
    if pAd.entry.bAPSDDeliverEnabledPerAC ac then ofAc ac left else pAd.entry.UAPSDQueue ac
  sent : ∀ ac, pAd'.TxSwQueue ac = pAd.TxSwQueue ac ++
    ofAc ac ((periodFrames (left ≠ []) taken).take
      (if 2 ≤ taken.length then taken.length - 1 else taken.length))
  withheld : pAd'.entry.pUAPSDEOSPFrame =
    if 2 ≤ taken.length then (periodFrames (left ≠ []) taken).getLast?.map Prod.snd else none
  count : pAd'.entry.UAPSDTxNum =
    (taken.length - 1 + if rough = false ∧ pAd.entry.bAPSDFlagLegacySent then 1 else 0) % 2 ^ 16
  null : pAd'.QosNull = pAd.QosNull ++ if taken = [] then [UpOfFrame] else []

section Taken

variable {q : QID_AC → List NDIS_PACKET} {xs ys : List Frame} {ac : QID_AC} {p : NDIS_PACKET}

theorem ofAc_append (ac : QID_AC) (xs ys : List Frame) :
    ofAc ac (xs ++ ys) = ofAc ac xs ++ ofAc ac ys := by
  rw [ofAc, List.filter_append, List.map_append]
  rfl

theorem ofAc_cons_self (x : Frame) (xs : List Frame) : ofAc x.1 (x :: xs) = x.2 :: ofAc x.1 xs := by
  simp [ofAc]

theorem ofAc_cons_ne {x : Frame} (h : x.1 ≠ ac) (xs : List Frame) :
    ofAc ac (x :: xs) = ofAc ac xs := by
  simp [ofAc, h]

theorem ofAc_map_self (ac : QID_AC) (ps : List NDIS_PACKET) : ofAc ac (ps.map (ac, ·)) = ps := by
  induction ps with
  | nil => rfl
  | cons p ps ih => exact (ofAc_cons_self (ac, p) _).trans (congrArg (p :: ·) ih)

theorem ofAc_map_ne {ac' : QID_AC} (h : ac' ≠ ac) (ps : List NDIS_PACKET) :
    ofAc ac (ps.map (ac', ·)) = [] := by
  induction ps with
  | nil => rfl
  | cons p ps ih => exact (ofAc_cons_ne h _).trans ih

def puts (q : QID_AC → List NDIS_PACKET) (xs : List Frame) : QID_AC → List NDIS_PACKET :=
  fun ac => q ac ++ ofAc ac xs

theorem insertTail_puts (q : QID_AC → List NDIS_PACKET) (xs : List Frame) (x : Frame) :
    InsertTailQueueAc (puts q xs) x.1 x.2 = puts q (xs ++ [x]) := by
  funext ac
  rw [puts, ofAc_append, ← List.append_assoc]
  by_cases h : ac = x.1
  · subst h
    rw [InsertTailQueueAc, update_self, ofAc_cons_self]
    rfl
  · rw [InsertTailQueueAc, update_of_ne h, ofAc_cons_ne (Ne.symm h)]
    exact (List.append_nil _).symm

def Taken.of (q : QID_AC → List NDIS_PACKET) (xs : List Frame) : Taken where
  TxSwQueue := puts q (xs.dropLast.map Frame.marked)
  last := xs.getLast?.map Frame.marked
  TxPktNum := xs.length
  FlgMgmtFrame := xs.any fun x => x.2.MGMT_PKT

theorem Taken.sendLast_of (q : QID_AC → List NDIS_PACKET) (xs : List Frame) :
    (Taken.of q xs).sendLast = puts q (xs.map Frame.marked) := by
  induction xs using List.reverseRecOn with
  | nil => rfl
  | append_singleton xs x =>
    have hlast : (xs ++ [x]).getLast?.map Frame.marked = some x.marked := by
      rw [List.getLast?_concat]
      rfl
    rw [sendLast, of, hlast, List.dropLast_concat, List.map_append]
    exact insertTail_puts q (xs.map Frame.marked) x.marked

theorem Taken.take_of (q : QID_AC → List NDIS_PACKET) (xs : List Frame) (ac : QID_AC)
    (p : NDIS_PACKET) : (Taken.of q xs).take ac p = Taken.of q (xs ++ [(ac, p)]) := by
  rw [take, sendLast_of, of, of, List.dropLast_concat, List.getLast?_concat, List.length_append,
    List.any_append]
  simp [Frame.marked]

end Taken

section Loops

variable {limit used waits : Nat} {enabled : QID_AC → Bool} {acs : List QID_AC}
  {UAPSDQueue q : QID_AC → List NDIS_PACKET} {xs : List Frame} {ac : QID_AC}

theorem room_full (h : limit ≠ 0 ∧ used ≥ limit) : room limit used waits = 0 := by
  rw [room, if_neg h.1, Nat.sub_eq_zero_of_le h.2, Nat.min_zero]

theorem room_succ (h : ¬ (limit ≠ 0 ∧ used ≥ limit)) :
    room limit used (waits + 1) = room limit (used + 1) waits + 1 := by
  unfold room
  split <;> omega

theorem room_le (limit used waits : Nat) : room limit used waits ≤ waits := by
  unfold room
  split <;> omega

theorem room_add_of_lt {waits' : Nat} (h : room limit used waits < waits) :
    room limit used (waits + waits') = room limit used waits := by
  unfold room at *
  split_ifs at * <;> omega

theorem room_add_of_eq {waits' : Nat} (h : room limit used waits = waits) :
    room limit used (waits + waits') = waits + room limit (used + waits) waits' := by
  unfold room at *
  split_ifs at * <;> omega

theorem takeAc_of (limit : Nat) (ac : QID_AC) (ps : List NDIS_PACKET)
    (q : QID_AC → List NDIS_PACKET) (xs : List Frame) :
    takeAc limit ac ps (Taken.of q xs) =
      (ps.drop (room limit xs.length ps.length),
        Taken.of q (xs ++ (ps.take (room limit xs.length ps.length)).map (ac, ·))) := by
  induction ps generalizing xs with
  | nil => rw [takeAc, List.drop_nil, List.take_nil, List.map_nil, List.append_nil]
  | cons p ps ih =>
    rw [takeAc]
    change (if limit ≠ 0 ∧ xs.length ≥ limit then _ else _) = _
    by_cases hfull : limit ≠ 0 ∧ xs.length ≥ limit
    · rw [if_pos hfull, room_full hfull, List.drop_zero, List.take_zero, List.map_nil,
        List.append_nil]
    · rw [if_neg hfull, List.length_cons, room_succ hfull, List.drop_succ_cons,
        List.take_succ_cons, List.map_cons, Taken.take_of, ih, List.length_append,
        List.append_assoc]
      rfl

theorem mem_waitingIn {x : Frame} (h : x ∈ waitingIn enabled acs UAPSDQueue) : x.1 ∈ acs := by
  obtain ⟨ac, hac, hx⟩ := List.mem_flatMap.mp h
  split at hx
  · obtain ⟨p, -, rfl⟩ := List.mem_map.mp hx
    exact hac
  · exact absurd hx List.not_mem_nil

theorem ofAc_eq_nil (h : ∀ x ∈ xs, x.1 ≠ ac) : ofAc ac xs = [] := by
  rw [ofAc, List.filter_eq_nil_iff.mpr fun x hx => by simpa using h x hx]
  rfl

theorem ofAc_waitingIn (hnodup : acs.Nodup) (hac : ac ∈ acs) (hen : enabled ac = true) :
    ofAc ac (waitingIn enabled acs UAPSDQueue) = UAPSDQueue ac := by
  induction acs with
  | nil => exact absurd hac List.not_mem_nil
  | cons a acs ih =>
    obtain ⟨hnot, hnodup⟩ := List.nodup_cons.mp hnodup
    rw [waitingIn, List.flatMap_cons, ofAc_append]
    rcases List.mem_cons.mp hac with rfl | hmem
    · rw [if_pos hen, ofAc_map_self]
      have hnil : ofAc ac (waitingIn enabled acs UAPSDQueue) = [] :=
        ofAc_eq_nil fun x hx heq => hnot (heq ▸ mem_waitingIn hx)
      exact (congrArg (UAPSDQueue ac ++ ·) hnil).trans (List.append_nil _)
    · have hne : a ≠ ac := fun heq => hnot (heq ▸ hmem)
      have hnil : ofAc ac (if enabled a then (UAPSDQueue a).map (a, ·) else []) = [] := by
        split
        · exact ofAc_map_ne hne _
        · rfl
      rw [hnil]
      exact ih hnodup hmem

theorem waitingIn_update (h : ac ∉ acs) (ps : List NDIS_PACKET) :
    waitingIn enabled acs (update UAPSDQueue ac ps) = waitingIn enabled acs UAPSDQueue := by
  induction acs with
  | nil => rfl
  | cons a acs ih =>
    obtain ⟨hne, hnot⟩ := not_or.mp (mt List.mem_cons.mpr h)
    rw [waitingIn, List.flatMap_cons, update_of_ne (Ne.symm hne)]
    exact congrArg (_ ++ ·) (ih hnot)

def drained (enabled : QID_AC → Bool) (acs : List QID_AC) (left : List Frame)
    (UAPSDQueue : QID_AC → List NDIS_PACKET) : QID_AC → List NDIS_PACKET :=
  fun ac => if ac ∈ acs ∧ enabled ac = true then ofAc ac left else UAPSDQueue ac

theorem drained_of_disabled (h : enabled ac = false) (left : List Frame) :
    drained enabled (ac :: acs) left UAPSDQueue = drained enabled acs left UAPSDQueue := by
  funext ac'
  have hiff : ac' ∈ ac :: acs ∧ enabled ac' = true ↔ ac' ∈ acs ∧ enabled ac' = true := by
    constructor
    · rintro ⟨hmem, hac⟩
      rcases List.mem_cons.mp hmem with rfl | hmem
      · exact absurd (hac.symm.trans h) nofun
      · exact ⟨hmem, hac⟩
    · exact fun hac => ⟨List.mem_cons_of_mem ac hac.1, hac.2⟩
  simp only [drained, hiff]

theorem drained_first (hnodup : (ac :: acs).Nodup) (hen : enabled ac = true)
    (ps : List NDIS_PACKET) :
    drained enabled (ac :: acs) (ps.map (ac, ·) ++ waitingIn enabled acs UAPSDQueue) UAPSDQueue =
      update UAPSDQueue ac ps := by
  obtain ⟨hnot, hnodup⟩ := List.nodup_cons.mp hnodup
  funext ac'
  rw [drained, ofAc_append]
  by_cases heq : ac' = ac
  · subst heq
    have hnil : ofAc ac' (waitingIn enabled acs UAPSDQueue) = [] :=
      ofAc_eq_nil fun x hx heq => hnot (heq ▸ mem_waitingIn hx)
    rw [update_self, if_pos ⟨List.mem_cons_self, hen⟩, ofAc_map_self, hnil, List.append_nil]
  · rw [update_of_ne heq, ofAc_map_ne (Ne.symm heq), List.nil_append]
    split
    · next h => exact ofAc_waitingIn hnodup ((List.mem_cons.mp h.1).resolve_left heq) h.2
    · rfl

theorem drained_behind (hnot : ac ∉ acs) (hen : enabled ac = true) {left : List Frame}
    (hleft : ∀ x ∈ left, x.1 ∈ acs) :
    drained enabled acs left (update UAPSDQueue ac []) =
      drained enabled (ac :: acs) left UAPSDQueue := by
  funext ac'
  unfold drained
  by_cases heq : ac' = ac
  · subst heq
    have hnil : ofAc ac' left = [] := ofAc_eq_nil fun x hx heq => hnot (heq ▸ hleft x hx)
    rw [if_neg fun h => hnot h.1, if_pos ⟨List.mem_cons_self, hen⟩, update_self, hnil]
  · have hiff : ac' ∈ ac :: acs ↔ ac' ∈ acs := by
      rw [List.mem_cons, or_iff_right heq]
    simp only [update_of_ne heq, hiff]

theorem takeAcs_of (hnodup : acs.Nodup) (limit : Nat) (enabled : QID_AC → Bool)
    (UAPSDQueue q : QID_AC → List NDIS_PACKET) (xs : List Frame) {waits : List Frame}
    (hwaits : waitingIn enabled acs UAPSDQueue = waits) {n : Nat}
    (hn : room limit xs.length waits.length = n) :
    takeAcs limit enabled acs UAPSDQueue (Taken.of q xs) =
      (decide (waits.drop n = []), drained enabled acs (waits.drop n) UAPSDQueue,
        Taken.of q (xs ++ waits.take n)) := by
  induction acs generalizing UAPSDQueue xs waits n with
  | nil =>
    subst hwaits
    have hdrained : drained enabled [] [] UAPSDQueue = UAPSDQueue :=
      funext fun ac => if_neg fun h => absurd h.1 List.not_mem_nil
    rw [takeAcs, waitingIn, List.flatMap_nil, List.drop_nil, List.take_nil, List.append_nil,
      hdrained]
    rfl
  | cons a acs ih =>
    obtain ⟨hnot, hnodup'⟩ := List.nodup_cons.mp hnodup
    rw [takeAcs]
    by_cases hen : enabled a = false
    · have hskip : waitingIn enabled (a :: acs) UAPSDQueue = waitingIn enabled acs UAPSDQueue := by
        simp [waitingIn, hen]
      rw [if_pos hen, ih hnodup' UAPSDQueue xs (hskip ▸ hwaits) hn, drained_of_disabled hen]
    · have hen' : enabled a = true := Bool.eq_true_of_not_eq_false hen
      have hsplit : waitingIn enabled (a :: acs) UAPSDQueue =
          (UAPSDQueue a).map (a, ·) ++ waitingIn enabled acs UAPSDQueue := by
        simp [waitingIn, hen']
      rw [hsplit] at hwaits
      subst hwaits
      rw [List.length_append, List.length_map] at hn
      rw [if_neg hen, takeAc_of]
      have hle := room_le limit xs.length (UAPSDQueue a).length
      rcases hle.lt_or_eq with hlt | heq
      · rw [room_add_of_lt hlt] at hn
        rw [hn] at hlt hle ⊢
        have hmap : n ≤ ((UAPSDQueue a).map (a, ·)).length := by
          rw [List.length_map]
          exact hle
        have hne : (UAPSDQueue a).drop n ≠ [] := by
          intro hnil
          have := List.drop_eq_nil_iff.mp hnil
          omega
        rw [List.take_append_of_le_length hmap, List.drop_append_of_le_length hmap,
          ← List.map_take, ← List.map_drop, drained_first hnodup hen']
        have hfull : decide (((UAPSDQueue a).drop n).map (a, ·) ++
            waitingIn enabled acs UAPSDQueue = []) = false := by
          refine decide_eq_false fun hnil => hne ?_
          exact List.map_eq_nil_iff.mp (List.append_eq_nil_iff.mp hnil).1
        rw [hfull]
        exact if_pos hne
      · rw [room_add_of_eq heq] at hn
        have hmap : ((UAPSDQueue a).map fun p => (a, p)).length = (UAPSDQueue a).length :=
          List.length_map ..
        have hdrop : (UAPSDQueue a).drop (UAPSDQueue a).length = [] := List.drop_length
        rw [heq, List.take_length, hdrop, ← hn, ← hmap, List.drop_length_add_append,
          List.take_length_add_append, hmap, ← List.append_assoc,
          ← drained_behind hnot hen' fun x hx => mem_waitingIn (List.mem_of_mem_drop hx)]
        refine (if_neg fun h => h rfl).trans ?_
        refine ih hnodup' _ _ (waitingIn_update hnot []) ?_
        rw [List.length_append, hmap]

end Loops

section Periods

variable {cfg : Config} {pAd : RTMP_ADAPTER}

theorem Taken.of_nil (q : QID_AC → List NDIS_PACKET) : Taken.of q [] = ⟨q, none, 0, false⟩ := by
  have hputs : puts q [] = q := funext fun ac => List.append_nil (q ac)
  rw [of, List.dropLast_nil, List.map_nil, hputs]
  rfl

theorem count_of_single (c : Prop) [Decidable c] :
    (if c then 1 else 0) = (0 + if c then 1 else 0) % 2 ^ 16 := by
  split <;> rfl

theorem startPeriod_delivers (pAd : RTMP_ADAPTER) (UpOfFrame : Nat) {taken left : List Frame}
    (htake : takeAcs (SpLenMap pAd.entry.MaxSPLength) pAd.entry.bAPSDDeliverEnabledPerAC AcPriority
      pAd.entry.UAPSDQueue ⟨pAd.TxSwQueue, none, 0, false⟩ = (decide (left = []),
        drained pAd.entry.bAPSDDeliverEnabledPerAC AcPriority left pAd.entry.UAPSDQueue,
        Taken.of pAd.TxSwQueue taken)) :
    Delivers pAd (startPeriod pAd UpOfFrame)
      (pAd.entry.bAPSDFlagSpRoughUse || taken.any fun x => x.2.MGMT_PKT) UpOfFrame taken left := by
  have hdrained : ∀ ac, drained pAd.entry.bAPSDDeliverEnabledPerAC AcPriority left
      pAd.entry.UAPSDQueue ac =
        if pAd.entry.bAPSDDeliverEnabledPerAC ac then ofAc ac left else pAd.entry.UAPSDQueue ac := by
    intro ac
    have hmem : ac ∈ AcPriority := by decide +revert
    simp only [drained, hmem, true_and]
  unfold startPeriod
  dsimp only
  rw [htake]
  induction taken using List.reverseRecOn with
  | nil =>
    exact ⟨hdrained, fun ac => rfl, rfl, count_of_single _, rfl⟩
  | append_singleton xs x _ =>
    have hlast : (Taken.of pAd.TxSwQueue (xs ++ [x])).last = some x.marked := by
      show (xs ++ [x]).getLast?.map _ = _
      rw [List.getLast?_concat]
      rfl
    have hframes : periodFrames (left ≠ []) (xs ++ [x]) =
        xs.map Frame.marked ++ [x.ended (left ≠ [])] := by
      rw [periodFrames, List.dropLast_concat, List.getLast?_concat]
      rfl
    have hsent : (Taken.of pAd.TxSwQueue (xs ++ [x])).TxSwQueue =
        puts pAd.TxSwQueue (xs.map Frame.marked) := by
      rw [Taken.of, List.dropLast_concat]
    have hmore : (true && !decide (left = [])) = decide (left ≠ []) := by
      rw [Bool.true_and, ← decide_not]
    have hlen : (xs ++ [x]).length = xs.length + 1 := List.length_append
    dsimp only
    rw [hlast]
    dsimp only [Frame.marked]
    rw [hsent, hmore]
    by_cases hone : xs.length = 0
    · obtain rfl := List.eq_nil_of_length_eq_zero hone
      refine ⟨hdrained, fun ac => ?_, rfl, count_of_single _, (List.append_nil _).symm⟩
      rw [hframes]
      exact congrFun (insertTail_puts pAd.TxSwQueue [] (x.ended (left ≠ []))) ac
    · have hmany : ¬ (Taken.of pAd.TxSwQueue (xs ++ [x])).TxPktNum ≤ 1 := by
        show ¬ (xs ++ [x]).length ≤ 1
        omega
      have htwo : 2 ≤ (xs ++ [x]).length := by omega
      rw [if_neg hmany]
      refine ⟨hdrained, fun ac => ?_, ?_, rfl, ?_⟩
      · rw [hframes, if_pos htwo, hlen, List.take_left' (by rw [List.length_map]; rfl)]
        rfl
      · rw [hframes, if_pos htwo, List.getLast?_concat]
        rfl
      · rw [if_neg (List.concat_ne_nil _ _)]
        exact (List.append_nil _).symm

theorem spLenMap_reset (n : Nat) : SpLenMap (if n ≥ 4 then 0 else n) = SpLenMap n := by
  split
  · next h =>
    obtain ⟨k, rfl⟩ := Nat.exists_eq_add_of_le' h
    rfl
  · rfl

/-- With no period underway. -/
theorem trigger_delivers (cfg : Config) (pAd : RTMP_ADAPTER) (TimeNow TimeStart : Nat) (Mode : MODE)
    (MCS UpOfFrame : Nat) (hidle : pAd.entry.bAPSDFlagSPStart = false)
    (hcap : triggers pAd UpOfFrame = true) :
    Delivers pAd (UAPSD_TriggerFrameHandle cfg pAd TimeNow TimeStart Mode MCS UpOfFrame)
      (roughUse pAd.entry Mode MCS ((waiting pAd.entry).take (periodLength pAd.entry)))
      (if UpOfFrame ≥ 8 then 1 else UpOfFrame)
      ((waiting pAd.entry).take (periodLength pAd.entry))
      ((waiting pAd.entry).drop (periodLength pAd.entry)) := by
  have hclose : closeStale cfg pAd TimeNow = some pAd := if_neg (by rw [hidle]; nofun)
  have hprepared : triggers (prepare pAd TimeStart Mode MCS) UpOfFrame = true := hcap
  rw [UAPSD_TriggerFrameHandle, hclose]
  show Delivers _ (if _ then _ else _) _ _ _ _
  rw [if_pos hprepared]
  have hn : room (SpLenMap (prepare pAd TimeStart Mode MCS).entry.MaxSPLength) 0
      (waiting pAd.entry).length = periodLength pAd.entry := by
    show room (SpLenMap (if pAd.entry.MaxSPLength ≥ 4 then 0 else _)) _ _ = _
    rw [spLenMap_reset]
    rfl
  have hnodup : AcPriority.Nodup := by decide
  have htake := takeAcs_of hnodup _ pAd.entry.bAPSDDeliverEnabledPerAC
    pAd.entry.UAPSDQueue pAd.TxSwQueue [] rfl hn
  rw [Taken.of_nil] at htake
  have h := startPeriod_delivers (prepare pAd TimeStart Mode MCS)
    (if UpOfFrame ≥ 8 then 1 else UpOfFrame) htake
  exact ⟨h.queues, h.sent, h.withheld, h.count, h.null⟩

/-- A station of which some categories save power the old way, and which has been sent a packet of
these. A management frame and a packet wait for it. -/
def mixedStation : RTMP_ADAPTER :=
  let e : MAC_TABLE_ENTRY :=
    { (default : MAC_TABLE_ENTRY) with
      PsMode := .PWR_SAVE
      bAPSDCapablePerAC := fun ac => ac = QID_AC_VO
      bAPSDDeliverEnabledPerAC := fun ac => ac = QID_AC_VO
      UAPSDQueue := fun ac =>
        if ac = QID_AC_VO then [{ (default : NDIS_PACKET) with MGMT_PKT := true }, default] else []
      bAPSDFlagLegacySent := true }
  { (default : RTMP_ADAPTER) with entry := e }

def anyConfig : Config where
  MsduLifeTime := 60
  UAPSD_EPT_SP_INT := 1000

theorem trigger_delivers_mixedStation :
    (waiting mixedStation.entry).length = 2 ∧
      Delivers mixedStation (UAPSD_TriggerFrameHandle anyConfig mixedStation 0 0 .MODE_HTMIX 7 6)
        true 6 (waiting mixedStation.entry) [] :=
  ⟨by decide, trigger_delivers anyConfig mixedStation 0 0 .MODE_HTMIX 7 6 rfl (by decide)⟩

/-- The packet that was sent before is not counted when the period is told from the descriptors. -/
theorem legacy_not_counted :
    mixedStation.entry.bAPSDFlagSPStart = false ∧ triggers mixedStation 6 = true ∧
      mixedStation.entry.bAPSDFlagLegacySent = true ∧
      (UAPSD_TriggerFrameHandle anyConfig mixedStation 0 0 .MODE_HTMIX 7 6).entry.UAPSDTxNum ≠
        periodLength mixedStation.entry - 1 + 1 := by
  decide +kernel

end Periods

end Ralink.Uapsd
