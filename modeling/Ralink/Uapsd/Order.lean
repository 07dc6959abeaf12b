import Ralink.Uapsd.Withheld

/-! A frame is withheld only in a period of which others are still to be sent, no period is started
over a withheld frame, and the frame goes out behind as many reports as there were frames before it.
-/
namespace Ralink.Uapsd
open Function

variable {cfg : Config} {pAd pAd' : RTMP_ADAPTER} {start done : Nat} {s : Watched}

def starts (cfg : Config) (pAd : RTMP_ADAPTER) : Event → Bool
  | .trigger TimeNow _ _ _ UpOfFrame =>
    (closeStale cfg pAd TimeNow).any fun pAd => triggers pAd UpOfFrame
  | _ => false

/-- Beside the adapter stands how many frames were to be sent when the period was started, and how
many have been reported since. -/
structure Watched where
  pAd : RTMP_ADAPTER
  start : Nat
  done : Nat

def watch (cfg : Config) (s : Watched) (e : Event) : Watched :=
  let pAd := step cfg s.pAd e
  if starts cfg s.pAd e then ⟨pAd, pAd.entry.UAPSDTxNum, 0⟩
  else ⟨pAd, s.start, s.done + if reports s.pAd e then 1 else 0⟩

/-- The withheld frame has left its place, and has not been given back. -/
def Handed (pAd pAd' : RTMP_ADAPTER) : Prop :=
  pAd.entry.pUAPSDEOSPFrame ≠ none ∧
    pAd'.entry.pUAPSDEOSPFrame ≠ pAd.entry.pUAPSDEOSPFrame ∧ pAd'.released = pAd.released

/-- A withheld frame goes to its software queue only behind as many reports as there were frames
to be sent before it. -/
def InOrder (cfg : Config) (s : Watched) (e : Event) : Prop :=
  Handed s.pAd (step cfg s.pAd e) → (watch cfg s e).done = (watch cfg s e).start

/-- No frame is withheld where a trigger frame may start a period. -/
def NoOverlap (cfg : Config) (s : Watched) : Event → Prop
  | .trigger TimeNow _ _ _ _ =>
    ∀ pAd ∈ closeStale cfg s.pAd TimeNow, pAd.entry.pUAPSDEOSPFrame = none
  | _ => True

structure Withheld (start done : Nat) (e : MAC_TABLE_ENTRY) : Prop where
  period : e.bAPSDFlagSPStart = true
  waiting : e.bAPSDFlagEOSPOK = false
  more : 1 ≤ e.UAPSDTxNum
  count : e.UAPSDTxNum + done = start

structure Good (s : Watched) : Prop where
  psMode : s.pAd.entry.PsMode = .PWR_SAVE
  room : Room s.pAd.entry.UAPSDQueue
  withheld : s.pAd.entry.pUAPSDEOSPFrame ≠ none → Withheld s.start s.done s.pAd.entry

structure Kept (start done : Nat) (pAd pAd' : RTMP_ADAPTER) : Prop where
  psMode : pAd'.entry.PsMode = pAd.entry.PsMode
  room : Room pAd.entry.UAPSDQueue → Room pAd'.entry.UAPSDQueue
  withheld : pAd'.entry.pUAPSDEOSPFrame ≠ none → Withheld start done pAd'.entry
  handed : Handed pAd pAd' → done = start

theorem Kept.of_same
    (h : pAd.entry.pUAPSDEOSPFrame ≠ none → Withheld start done pAd.entry)
    (hroom : Room pAd.entry.UAPSDQueue → Room pAd'.entry.UAPSDQueue)
    (hmode : pAd'.entry.PsMode = pAd.entry.PsMode)
    (hframe : pAd'.entry.pUAPSDEOSPFrame = pAd.entry.pUAPSDEOSPFrame)
    (hSP : pAd'.entry.bAPSDFlagSPStart = pAd.entry.bAPSDFlagSPStart)
    (hok : pAd'.entry.bAPSDFlagEOSPOK = pAd.entry.bAPSDFlagEOSPOK)
    (hnum : pAd'.entry.UAPSDTxNum = pAd.entry.UAPSDTxNum) : Kept start done pAd pAd' := by
  refine ⟨hmode, hroom, fun hsome => ?_, fun hhanded => (hhanded.2.1 hframe).elim⟩
  rw [hframe] at hsome
  obtain ⟨hperiod, hopen, hmore, hcount⟩ := h hsome
  exact ⟨hSP.trans hperiod, hok.trans hopen, hnum ▸ hmore, hnum ▸ hcount⟩

theorem Kept.of_none (hroom : Room pAd.entry.UAPSDQueue → Room pAd'.entry.UAPSDQueue)
    (hmode : pAd'.entry.PsMode = pAd.entry.PsMode)
    (hframe : pAd'.entry.pUAPSDEOSPFrame = none)
    (hback : pAd.entry.pUAPSDEOSPFrame ≠ none → pAd'.released ≠ pAd.released) :
    Kept start done pAd pAd' :=
  ⟨hmode, hroom, fun hsome => (hsome hframe).elim, fun hhanded => (hback hhanded.1 hhanded.2.2).elim⟩

theorem releaseEosp_released (h : pAd.entry.pUAPSDEOSPFrame ≠ none) :
    ∃ pPkt, (releaseEosp pAd).released = pAd.released ++ [pPkt] := by
  obtain ⟨pPkt, hsome⟩ := Option.ne_none_iff_exists'.mp h
  use pPkt
  unfold releaseEosp
  rw [hsome]

theorem releaseEosp_ne (h : pAd.entry.pUAPSDEOSPFrame ≠ none) :
    (releaseEosp pAd).released ≠ pAd.released := by
  obtain ⟨pPkt, heq⟩ := releaseEosp_released h
  intro hsame
  rw [heq] at hsame
  exact List.cons_ne_nil pPkt [] (List.append_right_eq_self.mp hsame)

section

variable (h : pAd.entry.pUAPSDEOSPFrame ≠ none → Withheld start done pAd.entry)
include h

theorem countSent_kept (hmore : pAd.entry.UAPSDTxNum > 0) :
    Kept start (done + 1) pAd (countSent pAd) := by
  unfold countSent
  dsimp only
  split
  · rename_i hone
    refine ⟨?_, ?_, ?_, ?_⟩
    · rw [sendEosp_entry]
    · rw [sendEosp_entry]
      exact id
    · rw [sendEosp_entry]
      exact fun hsome => (hsome rfl).elim
    · intro hhanded
      have hcount := (h hhanded.1).count
      omega
  · rename_i hmany
    refine ⟨rfl, id, fun hsome => ?_, fun hhanded => (hhanded.2.1 rfl).elim⟩
    obtain ⟨hperiod, hopen, -, hcount⟩ := h hsome
    refine ⟨hperiod, hopen, ?_, ?_⟩
    · show 1 ≤ pAd.entry.UAPSDTxNum - 1
      omega
    · show pAd.entry.UAPSDTxNum - 1 + (done + 1) = start
      omega

theorem none_of_zero (hzero : pAd.entry.UAPSDTxNum = 0) : pAd.entry.pUAPSDEOSPFrame = none := by
  by_contra hsome
  have hmore := (h hsome).more
  omega

end

theorem Kept.before {pAd₁ : RTMP_ADAPTER} (h : Kept start done pAd₁ pAd')
    (hmode : pAd₁.entry.PsMode = pAd.entry.PsMode)
    (hqueue : pAd₁.entry.UAPSDQueue = pAd.entry.UAPSDQueue)
    (hframe : pAd₁.entry.pUAPSDEOSPFrame = pAd.entry.pUAPSDEOSPFrame)
    (hreleased : pAd₁.released = pAd.released) : Kept start done pAd pAd' := by
  refine ⟨h.psMode.trans hmode, fun hroom => h.room (hqueue ▸ hroom), h.withheld, ?_⟩
  rintro ⟨hsome, hleft, hback⟩
  apply h.handed
  rw [Handed, hframe, hreleased]
  exact ⟨hsome, hleft, hback⟩

theorem endPeriod_kept (RxDone : Bool) (hnone : pAd.entry.pUAPSDEOSPFrame = none) :
    Kept start done pAd (endPeriod pAd RxDone) := by
  unfold endPeriod
  split
  · exact Kept.of_none id rfl hnone fun hsome => (hsome hnone).elim
  · exact Kept.of_none id rfl hnone fun hsome => (hsome hnone).elim

section

variable (h : pAd.entry.pUAPSDEOSPFrame ≠ none → Withheld start done pAd.entry)
include h

theorem Report.kept {reported : Bool} (hreport : Report pAd pAd' reported) :
    Kept start (done + if reported then 1 else 0) pAd pAd' := by
  cases hreport with
  | ignored => exact Kept.of_same h id rfl rfl rfl rfl rfl
  | counted hmore => exact countSent_kept h hmore
  | ended RxDone hzero => exact endPeriod_kept RxDone (none_of_zero h hzero)
  | outside hzero =>
    have hnone := none_of_zero h hzero
    exact Kept.of_none id rfl hnone fun hsome => (hsome hnone).elim
  | null RxDone =>
    have hframe : (endPeriod
        { releaseEosp pAd with entry := { (releaseEosp pAd).entry with UAPSDTxNum := 0 } }
        RxDone).released = (releaseEosp pAd).released := by
      unfold endPeriod
      split <;> rfl
    have hend : Kept start (done + if false = true then 1 else 0)
        { releaseEosp pAd with entry := { (releaseEosp pAd).entry with UAPSDTxNum := 0 } }
        (endPeriod
          { releaseEosp pAd with
            entry := { (releaseEosp pAd).entry with UAPSDTxNum := 0 } } RxDone) := by
      apply endPeriod_kept
      rw [releaseEosp_entry]
    refine ⟨hend.psMode.trans ?_, fun hroom => hend.room ?_, hend.withheld, ?_⟩
    · rw [releaseEosp_entry]
    · rwa [releaseEosp_entry]
    · rintro ⟨hsome, -, hback⟩
      exact (releaseEosp_ne hsome (hframe.symm.trans hback)).elim

theorem close_kept (hmode : pAd.entry.PsMode = .PWR_SAVE) :
    (UAPSD_SP_Close pAd).entry.pUAPSDEOSPFrame = none ∧
      Kept start done pAd (UAPSD_SP_Close pAd) := by
  unfold UAPSD_SP_Close
  split
  · have hframe : (releaseEosp pAd).entry.pUAPSDEOSPFrame = none := by rw [releaseEosp_entry]
    refine ⟨hframe, Kept.of_none ?_ ?_ hframe releaseEosp_ne⟩
    · rw [releaseEosp_entry]
      exact id
    · rw [releaseEosp_entry]
  · rename_i hno
    have hnone : pAd.entry.pUAPSDEOSPFrame = none := by
      by_contra hsome
      exact hno ⟨hmode, (h hsome).period⟩
    exact ⟨hnone, Kept.of_none id rfl hnone fun hsome => (hsome hnone).elim⟩

theorem closeStale_kept {TimeNow : Nat} (hmode : pAd.entry.PsMode = .PWR_SAVE)
    (hpAd' : pAd' ∈ closeStale cfg pAd TimeNow) :
    pAd'.entry.pUAPSDEOSPFrame = none ∧ Kept start done pAd pAd' := by
  unfold closeStale at hpAd'
  split at hpAd'
  · split at hpAd'
    · cases hpAd'
      exact close_kept h hmode
    · cases hpAd'
  · rename_i hno
    cases hpAd'
    have hnone : pAd.entry.pUAPSDEOSPFrame = none := by
      by_contra hsome
      exact hno (h hsome).period
    exact ⟨hnone, Kept.of_none id rfl hnone fun hsome => (hsome hnone).elim⟩

theorem enqueue_kept (p : NDIS_PACKET) (IdAc : QID_AC) :
    Kept start done pAd (UAPSD_PacketEnqueue pAd p IdAc) := by
  unfold UAPSD_PacketEnqueue
  dsimp only
  split
  · exact Kept.of_same h id rfl rfl rfl rfl rfl
  · rename_i hroom
    refine Kept.of_same h (fun hq => hq.update ?_) rfl rfl rfl rfl rfl
    rw [List.length_append, List.length_singleton]
    omega

theorem aue_kept (hmode : pAd.entry.PsMode = .PWR_SAVE) (TimeNow : Nat) :
    Kept start (done + if reports pAd (.aue TimeNow) then 1 else 0) pAd
      (UAPSD_SP_AUE_Handle pAd TimeNow) := by
  unfold UAPSD_SP_AUE_Handle
  rw [hmode]
  dsimp only
  by_cases hrough : pAd.entry.bAPSDFlagSpRoughUse = true
  · simp only [reports, hrough, if_true, hmode, Bool.true_eq_false, and_false, decide_false,
      Bool.false_eq_true, if_false]
    exact Kept.of_same h id rfl rfl rfl rfl rfl
  · have hreports : reports pAd (.aue TimeNow) = true := by
      simp only [reports, hmode, hrough, and_self, decide_true]
    rw [if_neg hrough, if_pos hreports]
    split
    · rename_i hmore
      refine Kept.before (countSent_kept ?_ hmore) ?_ ?_ ?_ ?_
      · intro hsome
        obtain ⟨hperiod, hopen, hmore, hcount⟩ := h hsome
        exact ⟨hperiod, hopen, hmore, hcount⟩
      · rfl
      · rfl
      · rfl
      · rfl
    · rename_i hzero
      have hnone := none_of_zero h (Nat.eq_zero_of_not_pos hzero)
      split_ifs
      · exact Kept.of_none id rfl hnone fun hsome => (hsome hnone).elim
      · exact Kept.of_none id rfl hnone fun hsome => (hsome hnone).elim
      · exact Kept.of_none id rfl hnone fun hsome => (hsome hnone).elim

theorem closeInRVDone_kept (bAPSDCapable fAnyStationInPsm : Bool) :
    Kept start done pAd (UAPSD_SP_CloseInRVDone pAd bAPSDCapable fAnyStationInPsm) := by
  unfold UAPSD_SP_CloseInRVDone
  split_ifs with hoff hclosed
  · exact Kept.of_same h id rfl rfl rfl rfl rfl
  · have hnone : pAd.entry.pUAPSDEOSPFrame = none := by
      by_contra hsome
      have hwaiting := (h hsome).waiting
      rw [hclosed.2] at hwaiting
      cases hwaiting
    exact Kept.of_none id rfl hnone fun hsome => (hsome hnone).elim
  · exact Kept.of_same h id rfl rfl rfl rfl rfl

end

theorem foldl_room {f : RTMP_ADAPTER → QID_AC → RTMP_ADAPTER}
    (hf : ∀ pAd ac, (f pAd ac).entry.UAPSDQueue = update pAd.entry.UAPSDQueue ac [])
    (acs : List QID_AC) (hroom : Room pAd.entry.UAPSDQueue) :
    Room (acs.foldl f pAd).entry.UAPSDQueue := by
  apply List.foldlRecOn (motive := fun pAd => Room pAd.entry.UAPSDQueue) acs f hroom
  intro pAd hq ac _
  rw [hf]
  exact hq.update (Nat.zero_le _)

theorem cleanup_released (acs : List QID_AC) (pAd : RTMP_ADAPTER) :
    pAd.released.length ≤ (acs.foldl APCleanupPsQueue pAd).released.length := by
  apply List.foldlRecOn (motive := fun s => pAd.released.length ≤ s.released.length) acs
    APCleanupPsQueue (le_refl _)
  intro s hs ac _
  exact hs.trans (by simp [APCleanupPsQueue])

theorem timeout_kept : Kept start done pAd (uapsdTimeout pAd) := by
  have hframe := foldl_keeps (fun pAd => pAd.entry.pUAPSDEOSPFrame) (f := APCleanupPsQueue)
    (fun _ _ => rfl) [QID_AC_BE, QID_AC_BK, QID_AC_VI, QID_AC_VO] pAd
  have hmode := foldl_keeps (fun pAd => pAd.entry.PsMode) (f := APCleanupPsQueue)
    (fun _ _ => rfl) [QID_AC_BE, QID_AC_BK, QID_AC_VI, QID_AC_VO] pAd
  have hroom : Room pAd.entry.UAPSDQueue → Room ([QID_AC_BE, QID_AC_BK, QID_AC_VI,
      QID_AC_VO].foldl APCleanupPsQueue pAd).entry.UAPSDQueue :=
    foldl_room (fun _ _ => rfl) _
  have hlength := cleanup_released [QID_AC_BE, QID_AC_BK, QID_AC_VI, QID_AC_VO] pAd
  unfold uapsdTimeout
  generalize [QID_AC_BE, QID_AC_BK, QID_AC_VI, QID_AC_VO].foldl APCleanupPsQueue pAd = cleaned
    at hframe hmode hroom hlength
  apply Kept.of_none
  · intro hq
    simp only [releaseEosp_entry]
    exact hroom hq
  · simp only [releaseEosp_entry]
    exact hmode
  · simp only [releaseEosp_entry]
  · intro hsome
    have hleft : cleaned.entry.pUAPSDEOSPFrame ≠ none := hframe ▸ hsome
    obtain ⟨pPkt, hback⟩ := releaseEosp_released hleft
    intro hsame
    have hlong := congrArg List.length (hback.symm.trans hsame)
    rw [List.length_append, List.length_singleton] at hlong
    omega

theorem maintenance_kept
    (h : pAd.entry.pUAPSDEOSPFrame ≠ none → Withheld start done pAd.entry)
    (gUAPSD_FlgNotQueueMaintain : Bool) :
    Kept start done pAd (UAPSD_QueueMaintenance cfg pAd gUAPSD_FlgNotQueueMaintain) := by
  have hsame : ∀ count, Kept start done pAd { pAd with entry.UAPSDQIdleCount := count } := by
    intro count
    refine Kept.of_same h ?_ ?_ ?_ ?_ ?_ ?_
    · exact id
    · rfl
    · rfl
    · rfl
    · rfl
    · rfl
  unfold UAPSD_QueueMaintenance
  dsimp only
  split_ifs
  · exact Kept.of_same h id rfl rfl rfl rfl rfl
  · refine Kept.before timeout_kept ?_ ?_ ?_ ?_
    · rfl
    · rfl
    · rfl
    · rfl
  · exact hsame _
  · exact hsame _

theorem allPacketDeliver_spec (pAd : RTMP_ADAPTER) :
    (UAPSD_AllPacketDeliver pAd).entry.pUAPSDEOSPFrame = none ∧
      (UAPSD_AllPacketDeliver pAd).entry.PsMode = pAd.entry.PsMode ∧
      (Room pAd.entry.UAPSDQueue → Room (UAPSD_AllPacketDeliver pAd).entry.UAPSDQueue) := by
  have hsent : ∀ pAd' : RTMP_ADAPTER,
      (if pAd.entry.pUAPSDEOSPFrame ≠ none then
        { sendEosp pAd with entry := { (sendEosp pAd).entry with UAPSDTxNum := 0 } }
      else pAd) = pAd' →
      pAd'.entry.pUAPSDEOSPFrame = none ∧ pAd'.entry.PsMode = pAd.entry.PsMode ∧
        pAd'.entry.UAPSDQueue = pAd.entry.UAPSDQueue := by
    rintro pAd' rfl
    split
    · simp only [sendEosp_entry, and_self]
    · rename_i hnone
      exact ⟨not_not.mp hnone, rfl, rfl⟩
  unfold UAPSD_AllPacketDeliver
  dsimp only
  generalize heq : (if pAd.entry.pUAPSDEOSPFrame ≠ none then
    { sendEosp pAd with entry := { (sendEosp pAd).entry with UAPSDTxNum := 0 } }
    else pAd) = pAd'
  obtain ⟨hframe, hmode, hqueue⟩ := hsent pAd' heq
  have hkeptFrame := foldl_keeps (fun pAd => pAd.entry.pUAPSDEOSPFrame) (f := deliverAc)
    (fun _ _ => rfl) [QID_AC_VO, QID_AC_VI, QID_AC_BK, QID_AC_BE] pAd'
  have hkeptMode := foldl_keeps (fun pAd => pAd.entry.PsMode) (f := deliverAc)
    (fun _ _ => rfl) [QID_AC_VO, QID_AC_VI, QID_AC_BK, QID_AC_BE] pAd'
  refine ⟨hkeptFrame.trans hframe, hkeptMode.trans hmode, fun hroom => ?_⟩
  exact foldl_room (fun _ _ => rfl) _ (hqueue ▸ hroom)

theorem startPeriod_released (pAd : RTMP_ADAPTER) (UpOfFrame : Nat) :
    (startPeriod pAd UpOfFrame).released = pAd.released := by
  unfold startPeriod
  dsimp only
  split
  · rfl
  · split <;> rfl

theorem not_handed (h : pAd.entry.pUAPSDEOSPFrame ≠ none → Withheld start done pAd.entry)
    (hkept : Kept start done pAd pAd') : ¬ Handed pAd pAd' := by
  intro hhanded
  obtain ⟨-, -, hmore, hcount⟩ := h hhanded.1
  have heq := hkept.handed hhanded
  omega

theorem step_kept {s : Watched} (h : Good s) {e : Event} (hstart : starts cfg s.pAd e = false)
    (he : e ≠ .deliver) :
    Kept s.start (s.done + if reports s.pAd e then 1 else 0) s.pAd (step cfg s.pAd e) := by
  cases e with
  | enqueue p IdAc => exact enqueue_kept h.withheld p IdAc
  | trigger TimeNow TimeStart Mode MCS UpOfFrame =>
    simp only [step, UAPSD_TriggerFrameHandle]
    cases hclose : closeStale cfg s.pAd TimeNow with
    | none => exact Kept.of_same h.withheld id rfl rfl rfl rfl rfl
    | some pAd =>
      obtain ⟨hnone, hkept⟩ := closeStale_kept h.withheld h.psMode hclose
      simp only [starts, hclose, Option.any_some] at hstart
      have hno : triggers (prepare pAd TimeStart Mode MCS) UpOfFrame = false := hstart
      simp only [hno, Bool.false_eq_true, if_false]
      exact ⟨hkept.psMode, hkept.room, fun hsome => (hsome hnone).elim, hkept.handed⟩
  | packetCheck pPacket pDstMac RxDone =>
    exact (packetCheck_report pPacket pDstMac RxDone).kept h.withheld
  | qosNullMgmtDone pPacket pDstMac RxDone =>
    exact (qosNullMgmtDone_report pPacket pDstMac RxDone).kept h.withheld
  | aue TimeNow => exact aue_kept h.withheld h.psMode TimeNow
  | closeInRVDone bAPSDCapable fAnyStationInPsm =>
    exact closeInRVDone_kept h.withheld bAPSDCapable fAnyStationInPsm
  | close => exact (close_kept h.withheld h.psMode).2
  | deliver => exact (he rfl).elim
  | maintenance gUAPSD_FlgNotQueueMaintain =>
    exact maintenance_kept h.withheld gUAPSD_FlgNotQueueMaintain
  | suspend bAPSDFlagSPSuspend =>
    refine Kept.of_same h.withheld ?_ ?_ ?_ ?_ ?_ ?_
    · exact id
    · rfl
    · rfl
    · rfl
    · rfl
    · rfl

theorem watch_of_not_starts {e : Event} (hstart : starts cfg s.pAd e = false) :
    watch cfg s e = ⟨step cfg s.pAd e, s.start, s.done + if reports s.pAd e then 1 else 0⟩ := by
  simp only [watch, hstart, Bool.false_eq_true, if_false]

theorem watch_starts (h : Good s) {e : Event} (hstart : starts cfg s.pAd e = true) :
    Good (watch cfg s e) ∧ ¬ Handed s.pAd (step cfg s.pAd e) := by
  cases e with
  | trigger TimeNow TimeStart Mode MCS UpOfFrame =>
    have hwatch : watch cfg s (.trigger TimeNow TimeStart Mode MCS UpOfFrame) =
        ⟨step cfg s.pAd (.trigger TimeNow TimeStart Mode MCS UpOfFrame),
          (step cfg s.pAd (.trigger TimeNow TimeStart Mode MCS UpOfFrame)).entry.UAPSDTxNum,
          0⟩ := by
      simp only [watch, hstart, if_true]
    rw [hwatch]
    simp only [step, UAPSD_TriggerFrameHandle]
    cases hclose : closeStale cfg s.pAd TimeNow with
    | none =>
      simp only [starts, hclose, Option.any_none, Bool.false_eq_true] at hstart
    | some pAd =>
      obtain ⟨hnone, hkept⟩ := closeStale_kept h.withheld h.psMode hclose
      simp only [starts, hclose, Option.any_some] at hstart
      have htriggers : triggers (prepare pAd TimeStart Mode MCS) UpOfFrame = true := hstart
      simp only [htriggers, if_true]
      obtain ⟨-, hroom, hmode, hperiod, hwaiting, hmore⟩ :=
        startPeriod_spec (prepare pAd TimeStart Mode MCS)
          (if UpOfFrame ≥ 8 then 1 else UpOfFrame) hnone (hkept.room h.room)
      constructor
      · refine ⟨?_, hroom, fun hsome => ⟨hperiod, hwaiting, hmore hsome, rfl⟩⟩
        exact hmode.trans (hkept.psMode.trans h.psMode)
      · rintro ⟨hsome, hleft, hback⟩
        rw [startPeriod_released] at hback
        apply not_handed h.withheld hkept
        exact ⟨hsome, fun heq => hsome (heq.symm.trans hnone), hback⟩
  | _ => cases hstart

theorem watch_good (h : Good s) (e : Event) : Good (watch cfg s e) := by
  cases hstart : starts cfg s.pAd e with
  | true => exact (watch_starts h hstart).1
  | false =>
    rw [watch_of_not_starts hstart]
    by_cases he : e = .deliver
    · subst he
      obtain ⟨hnone, hmode, hroom⟩ := allPacketDeliver_spec s.pAd
      exact ⟨hmode.trans h.psMode, hroom h.room, fun hsome => (hsome hnone).elim⟩
    · have hkept := step_kept h hstart he
      exact ⟨hkept.psMode.trans h.psMode, hkept.room h.room, hkept.withheld⟩

theorem watch_order (h : Good s) (e : Event) :
    NoOverlap cfg s e ∧ (e ≠ .deliver → InOrder cfg s e) := by
  constructor
  · cases e with
    | trigger TimeNow TimeStart Mode MCS UpOfFrame =>
      exact fun pAd hpAd => (closeStale_kept h.withheld h.psMode hpAd).1
    | _ => trivial
  · intro he hhanded
    cases hstart : starts cfg s.pAd e with
    | true => exact ((watch_starts h hstart).2 hhanded).elim
    | false =>
      rw [watch_of_not_starts hstart]
      exact (step_kept h hstart he).handed hhanded

theorem step_places (h : Good s) (e : Event) :
    places (step cfg s.pAd e) = places s.pAd + e.enqueued := by
  cases e with
  | enqueue p IdAc => exact enqueue_places p IdAc
  | trigger TimeNow TimeStart Mode MCS UpOfFrame =>
    simp only [step, UAPSD_TriggerFrameHandle, Event.enqueued, add_zero]
    cases hclose : closeStale cfg s.pAd TimeNow with
    | none => rfl
    | some pAd =>
      obtain ⟨hnone, hkept⟩ := closeStale_kept h.withheld h.psMode hclose
      have hclosed : places pAd = places s.pAd := by
        unfold closeStale at hclose
        split_ifs at hclose
        · cases hclose
          exact close_places
        · cases hclose
          rfl
      dsimp only
      split
      · have hperiod := startPeriod_spec (prepare pAd TimeStart Mode MCS)
          (if UpOfFrame ≥ 8 then 1 else UpOfFrame) hnone (hkept.room h.room)
        exact hperiod.1.trans hclosed
      · exact hclosed
  | packetCheck pPacket pDstMac RxDone =>
    exact (packetCheck_report pPacket pDstMac RxDone).places.trans (add_zero _).symm
  | qosNullMgmtDone pPacket pDstMac RxDone =>
    exact (qosNullMgmtDone_report pPacket pDstMac RxDone).places.trans (add_zero _).symm
  | aue TimeNow => exact (aue_places TimeNow).trans (add_zero _).symm
  | closeInRVDone bAPSDCapable fAnyStationInPsm =>
    simp only [step, UAPSD_SP_CloseInRVDone, Event.enqueued, add_zero]
    split_ifs <;> rfl
  | close => exact close_places.trans (add_zero _).symm
  | deliver => exact allPacketDeliver_places.trans (add_zero _).symm
  | maintenance gUAPSD_FlgNotQueueMaintain =>
    exact (maintenance_places gUAPSD_FlgNotQueueMaintain).trans (add_zero _).symm
  | suspend bAPSDFlagSPSuspend => exact (add_zero _).symm

/-- The packets that are put into the queues of the station. -/
def enqueuedBy (es : List Event) : Multiset Nat := (es.map Event.enqueued).sum

/-- A frame is withheld only in a period of which others are still to be sent, and every packet
is in one place. -/
def Sound (start s : Watched) (es : List Event) : Prop :=
  (s.pAd.entry.pUAPSDEOSPFrame ≠ none →
      s.pAd.entry.bAPSDFlagSPStart = true ∧ 1 ≤ s.pAd.entry.UAPSDTxNum) ∧
    places s.pAd = places start.pAd + enqueuedBy es

theorem watch_pAd (s : Watched) (e : Event) : (watch cfg s e).pAd = step cfg s.pAd e := by
  unfold watch
  dsimp only
  split <;> rfl

theorem exec_sound (cfg : Config) {start : Watched} (h : Good start) (es : List Event) :
    Sound start (Run.exec (watch cfg) start es) es := by
  have hrun : Good (Run.exec (watch cfg) start es) ∧
      places (Run.exec (watch cfg) start es).pAd = places start.pAd + enqueuedBy ([] ++ es) := by
    apply Run.exec_trace (P := fun _ _ => True)
      (J := fun past s => Good s ∧ places s.pAd = places start.pAd + enqueuedBy past)
    · rintro past s e ⟨hgood, hplaces⟩ -
      refine ⟨watch_good hgood e, ?_⟩
      rw [watch_pAd, step_places hgood, hplaces, add_assoc]
      simp only [enqueuedBy, List.map_append, List.map_cons, List.map_nil, List.sum_append,
        List.sum_cons, List.sum_nil, add_zero]
    · exact ⟨h, (add_zero _).symm⟩
    · exact .of_forall fun _ _ _ => trivial
  obtain ⟨hgood, hplaces⟩ := hrun
  constructor
  · intro hsome
    obtain ⟨hperiod, -, hmore, -⟩ := hgood.withheld hsome
    exact ⟨hperiod, hmore⟩
  · exact hplaces

/-- A station that saves power and of which no frame is withheld. -/
structure Idle (s : Watched) : Prop where
  psMode : s.pAd.entry.PsMode = .PWR_SAVE
  room : Room s.pAd.entry.UAPSDQueue
  none : s.pAd.entry.pUAPSDEOSPFrame = none

/-- A frame is withheld only in a period of which others are still to be sent, every packet is in
one place, no period is started over a withheld frame, and unless all packets are delivered at
once the withheld frame goes out behind as many reports as there were frames before it. -/
theorem periods_end_in_order (cfg : Config) {s : Watched} (h : Idle s) (es : List Event) :
    (∀ n, Sound s (Run.exec (watch cfg) s (es.take n)) (es.take n)) ∧
      Run.AllSteps (watch cfg)
        (fun s e => NoOverlap cfg s e ∧ (e ≠ .deliver → InOrder cfg s e)) s es := by
  have hgood : Good s := ⟨h.psMode, h.room, fun hsome => (hsome h.none).elim⟩
  constructor
  · exact fun n => exec_sound cfg hgood (es.take n)
  · apply Run.AllSteps.of_inv (I := Good) (P := fun _ _ => True)
    · exact fun s e hs _ => watch_good hs e
    · exact fun s e hs _ => watch_order hs e
    · exact hgood
    · exact .of_forall fun _ _ _ => trivial

/-- A station that saves power and in all categories starts periods. -/
def asleep : Watched :=
  let e : MAC_TABLE_ENTRY :=
    { (default : MAC_TABLE_ENTRY) with
      PsMode := .PWR_SAVE
      bAPSDCapablePerAC := fun _ => true
      bAPSDDeliverEnabledPerAC := fun _ => true
      bAPSDAllAC := true
      UAPSDQueue := fun _ => [] }
  ⟨{ (default : RTMP_ADAPTER) with entry := e }, 0, 0⟩

/-- Two packets wait, and the second one is withheld. -/
def twoPackets : List Event :=
  [.enqueue default QID_AC_BE, .enqueue default QID_AC_BE, .trigger 0 0 .MODE_HTMIX 7 0]

def shortLife : Config where
  MsduLifeTime := 60
  UAPSD_EPT_SP_INT := 1000

theorem asleep_idle : Idle asleep :=
  ⟨rfl, fun _ => Nat.zero_le _, rfl⟩

theorem periods_end_in_order_twoPackets :
    (Run.exec (watch shortLife) asleep twoPackets).pAd.entry.pUAPSDEOSPFrame ≠ none ∧
      (∀ n, Sound asleep (Run.exec (watch shortLife) asleep (twoPackets.take n))
        (twoPackets.take n)) ∧
      Run.AllSteps (watch shortLife)
        (fun s e => NoOverlap shortLife s e ∧ (e ≠ .deliver → InOrder shortLife s e))
        asleep twoPackets :=
  ⟨by decide +kernel, periods_end_in_order shortLife asleep_idle twoPackets⟩

/-- When all packets are delivered at once, so is the withheld frame, ahead of the reports. -/
theorem withheld_delivered_early :
    ¬ ∀ (cfg : Config) (s : Watched) (es : List Event), Idle s →
      (∀ n, Sound s (Run.exec (watch cfg) s (es.take n)) (es.take n)) ∧
        Run.AllSteps (watch cfg) (fun s e => NoOverlap cfg s e ∧ InOrder cfg s e) s es := by
  intro h
  obtain ⟨-, hsteps⟩ := h shortLife asleep (twoPackets ++ [.deliver]) asleep_idle
  have horder : InOrder shortLife (Run.exec (watch shortLife) asleep twoPackets) .deliver :=
    hsteps.2.2.2.1.2
  have hhanded : Handed (Run.exec (watch shortLife) asleep twoPackets).pAd
      (step shortLife (Run.exec (watch shortLife) asleep twoPackets).pAd .deliver) := by
    refine ⟨?_, ?_, ?_⟩
    · decide +kernel
    · decide +kernel
    · decide +kernel
  have hstart : (watch shortLife (Run.exec (watch shortLife) asleep twoPackets)
      .deliver).start = 1 := by decide +kernel
  have hdone : (watch shortLife (Run.exec (watch shortLife) asleep twoPackets)
      .deliver).done = 0 := by decide +kernel
  have heq := horder hhanded
  omega

end Ralink.Uapsd
