import Ralink.Lib.Run
import Ralink.Uapsd.Period

/-! Every packet that has been queued is in one place, the frame that ends a period is withheld only
while others of the period are on their way, and it goes out behind them. -/
namespace Ralink.Uapsd
open Function

variable {cfg : Config} {pAd : RTMP_ADAPTER} (SpMaxLen : Nat) (pPacket : Option NDIS_PACKET)
  (q : QID_AC → List NDIS_PACKET) (ac QueId : QID_AC) (enabled : QID_AC → Bool)
  (pDstMac : Option HEADER_802_11) (p : NDIS_PACKET) (RxDone : Bool) (ps : List NDIS_PACKET)
  (t : Taken) (acs : List QID_AC)

def bag (ps : List NDIS_PACKET) : Multiset Nat := (ps.map NDIS_PACKET.id : List Nat)

def queued (q : QID_AC → List NDIS_PACKET) : Multiset Nat := ∑ ac, bag (q ac)

/-- The packets in the queues of the station, the withheld frame, the packets in the software
queues, and those that have been given back. -/
def places (pAd : RTMP_ADAPTER) : Multiset Nat :=
  queued pAd.entry.UAPSDQueue + bag pAd.entry.pUAPSDEOSPFrame.toList + queued pAd.TxSwQueue +
    bag pAd.released

def Event.enqueued : Event → Multiset Nat
  | .enqueue pPacket _ => {pPacket.id}
  | _ => 0

@[simp] theorem bag_nil : bag [] = 0 := rfl

theorem bag_cons : bag (p :: ps) = {p.id} + bag ps := rfl

@[simp] theorem bag_singleton : bag [p] = {p.id} := rfl

@[simp] theorem bag_append (qs : List NDIS_PACKET) : bag (ps ++ qs) = bag ps + bag qs := by
  simp [bag]

theorem queued_update : queued (update q ac ps) + bag (q ac) = queued q + bag ps := by
  have hnew : queued (update q ac ps) = bag ps + ∑ i ∈ Finset.univ.erase ac, bag (q i) := by
    rw [queued, ← Finset.add_sum_erase _ _ (Finset.mem_univ ac), update_self]
    congr 1
    apply Finset.sum_congr rfl
    intro i hi
    rw [update_of_ne (Finset.ne_of_mem_erase hi)]
  have hold : queued q = bag (q ac) + ∑ i ∈ Finset.univ.erase ac, bag (q i) :=
    (Finset.add_sum_erase _ _ (Finset.mem_univ ac)).symm
  rw [hnew, hold]
  abel

@[simp] theorem queued_insert : queued (InsertTailQueueAc q ac p) = queued q + {p.id} := by
  have h := queued_update q ac (q ac ++ [p])
  rw [bag_append, bag_singleton, ← add_assoc, add_right_comm] at h
  exact add_right_cancel h

theorem queued_foldl (q : QID_AC → List NDIS_PACKET) :
    queued (ps.foldl (fun q p => InsertTailQueueAc q ac p) q) = queued q + bag ps := by
  induction ps generalizing q with
  | nil => rw [List.foldl_nil, bag_nil, add_zero]
  | cons p ps ih => rw [List.foldl_cons, ih, queued_insert, bag_cons, add_assoc]

theorem queued_clear : queued (update q ac []) + bag (q ac) = queued q := by
  rw [queued_update, bag_nil, add_zero]

@[simp] theorem sendEosp_entry :
    (sendEosp pAd).entry = { pAd.entry with pUAPSDEOSPFrame := none } := by
  unfold sendEosp
  split
  · rfl
  · rename_i h
    rw [← h]

@[simp] theorem releaseEosp_entry :
    (releaseEosp pAd).entry = { pAd.entry with pUAPSDEOSPFrame := none } := by
  unfold releaseEosp
  split
  · rfl
  · rename_i h
    rw [← h]

theorem sendEosp_places : places (sendEosp pAd) = places pAd := by
  unfold places
  rw [sendEosp_entry]
  unfold sendEosp
  cases h : pAd.entry.pUAPSDEOSPFrame with
  | none => rfl
  | some p =>
    simp only [Option.toList, bag_nil, queued_insert, bag_singleton]
    abel

theorem releaseEosp_places : places (releaseEosp pAd) = places pAd := by
  unfold places
  rw [releaseEosp_entry]
  unfold releaseEosp
  cases h : pAd.entry.pUAPSDEOSPFrame with
  | none => rfl
  | some p =>
    simp only [Option.toList, bag_nil, bag_append, bag_singleton]
    abel

theorem countSent_places : places (countSent pAd) = places pAd := by
  unfold countSent
  split
  · exact sendEosp_places
  · rfl

def Taken.bag (t : Taken) : Multiset Nat :=
  queued t.TxSwQueue + Uapsd.bag (t.last.map Prod.snd).toList

theorem Taken.sendLast_bag : queued t.sendLast = t.bag := by
  unfold sendLast Taken.bag
  cases h : t.last with
  | none => exact (add_zero _).symm
  | some last => exact queued_insert t.TxSwQueue last.1 last.2

theorem Taken.take_bag (QueId : QID_AC) (p : NDIS_PACKET) :
    (t.take QueId p).bag = t.bag + {p.id} := by
  rw [← t.sendLast_bag]
  rfl

theorem takeAc_bag :
    bag (takeAc SpMaxLen QueId ps t).1 + (takeAc SpMaxLen QueId ps t).2.bag = bag ps + t.bag := by
  induction ps generalizing t with
  | nil => rfl
  | cons p ps ih =>
    unfold takeAc
    split
    · rfl
    · rw [ih, Taken.take_bag, bag_cons]
      abel

theorem takeAcs_bag (q : QID_AC → List NDIS_PACKET) (t : Taken) :
    queued (takeAcs SpMaxLen enabled acs q t).2.1 + (takeAcs SpMaxLen enabled acs q t).2.2.bag =
      queued q + t.bag := by
  induction acs generalizing q t with
  | nil => rfl
  | cons ac acs ih =>
    have htaken : ∀ taken, takeAc SpMaxLen ac (q ac) t = taken →
        queued (update q ac taken.1) + taken.2.bag = queued q + t.bag := by
      rintro taken rfl
      apply add_right_cancel (b := bag (q ac))
      have hac := takeAc_bag SpMaxLen ac (q ac) t
      have hupdate := queued_update q ac (takeAc SpMaxLen ac (q ac) t).1
      rw [add_right_comm, hupdate, add_assoc, hac]
      abel
    unfold takeAcs
    split
    · exact ih q t
    · dsimp only
      split
      · exact htaken _ rfl
      · rw [ih]
        exact htaken _ rfl

def Taken.Counted (t : Taken) : Prop := t.last = none ↔ t.TxPktNum = 0

@[simp] theorem Taken.take_num (QueId : QID_AC) (p : NDIS_PACKET) :
    (t.take QueId p).TxPktNum = t.TxPktNum + 1 := rfl

theorem Taken.take_counted (QueId : QID_AC) (p : NDIS_PACKET) : (t.take QueId p).Counted :=
  iff_of_false (Option.some_ne_none _) (Nat.succ_ne_zero _)

theorem takeAc_counted {t : Taken} (h : t.Counted) : (takeAc SpMaxLen QueId ps t).2.Counted := by
  induction ps generalizing t with
  | nil => exact h
  | cons p ps ih =>
    unfold takeAc
    split
    · exact h
    · exact ih (t.take_counted QueId p)

theorem takeAc_length :
    (takeAc SpMaxLen QueId ps t).1.length ≤ ps.length ∧
      (takeAc SpMaxLen QueId ps t).1.length + (takeAc SpMaxLen QueId ps t).2.TxPktNum =
        ps.length + t.TxPktNum := by
  induction ps generalizing t with
  | nil => exact ⟨le_refl _, rfl⟩
  | cons p ps ih =>
    obtain ⟨hle, hsum⟩ := ih (t.take QueId p)
    unfold takeAc
    split
    · exact ⟨le_refl _, rfl⟩
    · rw [List.length_cons, hsum, Taken.take_num]
      omega

def Room (q : QID_AC → List NDIS_PACKET) : Prop :=
  ∀ ac, (q ac).length ≤ MAX_PACKETS_IN_UAPSD_QUEUE

theorem Room.update {q : QID_AC → List NDIS_PACKET} (h : Room q) {ac : QID_AC}
    {ps : List NDIS_PACKET} (hps : ps.length ≤ MAX_PACKETS_IN_UAPSD_QUEUE) :
    Room (update q ac ps) := by
  intro i
  rcases eq_or_ne i ac with rfl | hne
  · rwa [update_self]
  · rw [update_of_ne hne]
    exact h i

theorem takeAcs_spec {q : QID_AC → List NDIS_PACKET} (hq : Room q) {t : Taken} (ht : t.Counted) :
    Room (takeAcs SpMaxLen enabled acs q t).2.1 ∧
      (takeAcs SpMaxLen enabled acs q t).2.2.Counted ∧
      (takeAcs SpMaxLen enabled acs q t).2.2.TxPktNum ≤
        t.TxPktNum + MAX_PACKETS_IN_UAPSD_QUEUE * acs.length := by
  induction acs generalizing q t with
  | nil => exact ⟨hq, ht, le_refl _⟩
  | cons ac acs ih =>
    obtain ⟨hle, hsum⟩ := takeAc_length SpMaxLen ac (q ac) t
    have hcounted := takeAc_counted SpMaxLen ac (q ac) ht
    have hac := hq ac
    have hrest : Room (update q ac (takeAc SpMaxLen ac (q ac) t).1) := hq.update (by omega)
    rw [List.length_cons, Nat.mul_succ]
    unfold takeAcs
    split
    · obtain ⟨hroom, hcount, hnum⟩ := ih hq ht
      exact ⟨hroom, hcount, by omega⟩
    · dsimp only
      split
      · refine ⟨hrest, hcounted, ?_⟩
        dsimp only
        omega
      · obtain ⟨hroom, hcount, hnum⟩ := ih hrest hcounted
        exact ⟨hroom, hcount, by omega⟩

theorem startPeriod_spec (pAd : RTMP_ADAPTER) (UpOfFrame : Nat)
    (hnone : pAd.entry.pUAPSDEOSPFrame = none) (hroom : Room pAd.entry.UAPSDQueue) :
    places (startPeriod pAd UpOfFrame) = places pAd ∧
      Room (startPeriod pAd UpOfFrame).entry.UAPSDQueue ∧
      (startPeriod pAd UpOfFrame).entry.PsMode = pAd.entry.PsMode ∧
      (startPeriod pAd UpOfFrame).entry.bAPSDFlagSPStart = true ∧
      (startPeriod pAd UpOfFrame).entry.bAPSDFlagEOSPOK = false ∧
      ((startPeriod pAd UpOfFrame).entry.pUAPSDEOSPFrame ≠ none →
        1 ≤ (startPeriod pAd UpOfFrame).entry.UAPSDTxNum) := by
  have hspec := takeAcs_spec (SpLenMap pAd.entry.MaxSPLength)
    pAd.entry.bAPSDDeliverEnabledPerAC AcPriority hroom (t := ⟨pAd.TxSwQueue, none, 0, false⟩)
    (iff_of_true rfl rfl)
  have hbag := takeAcs_bag (SpLenMap pAd.entry.MaxSPLength)
    pAd.entry.bAPSDDeliverEnabledPerAC AcPriority pAd.entry.UAPSDQueue
    ⟨pAd.TxSwQueue, none, 0, false⟩
  unfold startPeriod
  dsimp only
  generalize takeAcs _ _ _ _ _ = taken at hspec hbag
  obtain ⟨FlgQueEmpty, UAPSDQueue, t⟩ := taken
  obtain ⟨hroom', hcounted, hnum⟩ := hspec
  have hall : queued UAPSDQueue + t.bag + bag pAd.released = places pAd := by
    have hstart : (⟨pAd.TxSwQueue, none, 0, false⟩ : Taken).bag = queued pAd.TxSwQueue :=
      add_zero _
    rw [hstart] at hbag
    simp only [places, hnone, Option.toList, bag_nil, add_zero]
    exact congrArg (· + bag pAd.released) hbag
  dsimp only at hroom' hnum ⊢
  cases hlast : t.last with
  | none =>
    refine ⟨?_, hroom', rfl, rfl, rfl, fun hsome => (hsome rfl).elim⟩
    rw [← hall]
    simp [places, Taken.bag, hlast]
  | some last =>
    obtain ⟨QueId, p⟩ := last
    have hsome : t.TxPktNum ≠ 0 := fun hzero => by
      rw [hcounted.mpr hzero] at hlast
      cases hlast
    dsimp only
    split
    · refine ⟨?_, hroom', rfl, rfl, rfl, fun hsome => (hsome rfl).elim⟩
      rw [← hall]
      simp only [places, Taken.bag, hlast, queued_insert, Option.toList, Option.map_some,
        bag_nil, bag_singleton]
      abel
    · rename_i hmore
      refine ⟨?_, hroom', rfl, rfl, rfl, fun _ => ?_⟩
      · rw [← hall]
        simp only [places, Taken.bag, hlast, Option.toList, Option.map_some, bag_singleton]
        abel
      · have hlegacy : ∀ b : Prop, [Decidable b] → (if b then 1 else 0) ≤ 1 := by
          intro b _
          split <;> decide
        have hfew : MAX_PACKETS_IN_UAPSD_QUEUE * AcPriority.length = 64 := rfl
        rw [hfew] at hnum
        rw [Nat.mod_eq_of_lt]
        · exact le_trans (by omega) (Nat.le_add_right (t.TxPktNum - 1) _)
        · exact lt_of_le_of_lt (Nat.add_le_add_left (hlegacy _) _) (by omega)

theorem endPeriod_places : places (endPeriod pAd RxDone) = places pAd := by
  unfold endPeriod
  split <;> rfl

theorem enqueue_places (IdAc : QID_AC) :
    places (UAPSD_PacketEnqueue pAd p IdAc) = places pAd + {p.id} := by
  unfold UAPSD_PacketEnqueue
  dsimp only
  split
  · simp only [places, bag_append, bag_singleton]
    abel
  · have h := queued_insert pAd.entry.UAPSDQueue IdAc p
    unfold InsertTailQueueAc at h
    simp only [places, h]
    abel

theorem close_places : places (UAPSD_SP_Close pAd) = places pAd := by
  unfold UAPSD_SP_Close
  split
  · exact releaseEosp_places
  · rfl

theorem deliverAc_places (pAd : RTMP_ADAPTER) (ac : QID_AC) :
    places (deliverAc pAd ac) = places pAd := by
  have h := queued_clear pAd.entry.UAPSDQueue ac
  simp only [places, deliverAc, queued_foldl]
  rw [← h]
  abel

theorem cleanup_places (pAd : RTMP_ADAPTER) (ac : QID_AC) :
    places (APCleanupPsQueue pAd ac) = places pAd := by
  have h := queued_clear pAd.entry.UAPSDQueue ac
  simp only [places, APCleanupPsQueue, bag_append]
  rw [← h]
  abel

theorem foldl_keeps {α : Type*} (value : RTMP_ADAPTER → α) {f : RTMP_ADAPTER → QID_AC → RTMP_ADAPTER}
    (hf : ∀ pAd ac, value (f pAd ac) = value pAd) (acs : List QID_AC) (pAd : RTMP_ADAPTER) :
    value (acs.foldl f pAd) = value pAd := by
  induction acs generalizing pAd with
  | nil => rfl
  | cons ac acs ih => exact (ih (f pAd ac)).trans (hf pAd ac)

theorem allPacketDeliver_places : places (UAPSD_AllPacketDeliver pAd) = places pAd := by
  unfold UAPSD_AllPacketDeliver
  rw [foldl_keeps places deliverAc_places]
  split
  · exact sendEosp_places
  · rfl

theorem maintenance_places (gUAPSD_FlgNotQueueMaintain : Bool) :
    places (UAPSD_QueueMaintenance cfg pAd gUAPSD_FlgNotQueueMaintain) = places pAd := by
  have htimeout : ∀ pAd, places (uapsdTimeout pAd) = places pAd := by
    intro pAd
    exact releaseEosp_places.trans (foldl_keeps places cleanup_places _ pAd)
  unfold UAPSD_QueueMaintenance
  split
  · rfl
  · dsimp only
    split_ifs
    · exact htimeout _
    · rfl
    · rfl

/-- A frame of the period is reported as sent, by the hardware that the period goes by. A frame
without data ends the period and is none of these. -/
def reports (pAd : RTMP_ADAPTER) : Event → Bool
  | .packetCheck (some p) (some pHeader) _ =>
    p.UAPSD_Flag ∧ pHeader.toEntry ∧ pAd.entry.bAPSDFlagSpRoughUse ∧
      (pHeader.kind = .other ∨ pHeader.kind = .action ∧ pAd.entry.bAPSDFlagSPStart)
  | .qosNullMgmtDone (some p) (some pHeader) _ =>
    p.UAPSD_Flag ∧ pHeader.toEntry ∧ pAd.entry.bAPSDFlagSpRoughUse ∧
      pHeader.kind = .action ∧ pAd.entry.bAPSDFlagSPStart
  | .aue _ => pAd.entry.PsMode = .PWR_SAVE ∧ pAd.entry.bAPSDFlagSpRoughUse = false
  | _ => false

inductive Report (pAd : RTMP_ADAPTER) : RTMP_ADAPTER → Bool → Prop where
  | ignored : Report pAd pAd false
  | counted : pAd.entry.UAPSDTxNum > 0 → Report pAd (countSent pAd) true
  | ended (RxDone : Bool) : pAd.entry.UAPSDTxNum = 0 → Report pAd (endPeriod pAd RxDone) true
  | outside : pAd.entry.UAPSDTxNum = 0 → Report pAd pAd true
  | null (RxDone : Bool) :
    Report pAd
      (endPeriod
        { releaseEosp pAd with entry := { (releaseEosp pAd).entry with UAPSDTxNum := 0 } } RxDone)
      false

theorem qosNullMgmtDone_report :
    Report pAd (UAPSD_QoSNullTxMgmtTxDoneHandle pAd pPacket pDstMac RxDone)
      (reports pAd (.qosNullMgmtDone pPacket pDstMac RxDone)) := by
  cases pPacket with
  | none => exact .ignored
  | some p =>
    cases pDstMac with
    | none => exact .ignored
    | some pHeader =>
      obtain ⟨kind, toEntry⟩ := pHeader
      simp only [UAPSD_QoSNullTxMgmtTxDoneHandle, reports]
      cases hflag : p.UAPSD_Flag with
      | false => exact .ignored
      | true =>
        by_cases hSP : toEntry = true ∧ pAd.entry.bAPSDFlagSpRoughUse = true ∧
          pAd.entry.bAPSDFlagSPStart = true
        · cases kind with
          | qosNull =>
            simp only [hSP, and_self, decide_true, if_true, Bool.true_eq_false, if_false,
              reduceCtorEq, and_false, false_and, decide_false]
            exact .null RxDone
          | action =>
            simp only [hSP, and_self, decide_true, if_true, Bool.true_eq_false, if_false]
            split
            · rename_i hmore
              exact .counted hmore
            · rename_i hnone
              exact .ended RxDone (Nat.eq_zero_of_not_pos hnone)
          | other =>
            simp only [Bool.true_eq_false, if_false, reduceCtorEq, false_and, and_false,
              decide_false]
            exact .ignored
        · have hno : ¬ (toEntry = true ∧ pAd.entry.bAPSDFlagSpRoughUse = true ∧
              kind = .action ∧ pAd.entry.bAPSDFlagSPStart = true) :=
            fun h => hSP ⟨h.1, h.2.1, h.2.2.2⟩
          simp only [hSP, hno, decide_false, Bool.true_eq_false, if_false, true_and,
            Bool.false_eq_true]
          cases kind <;> exact .ignored

theorem packetCheck_report :
    Report pAd (UAPSD_SP_PacketCheck pAd pPacket pDstMac RxDone)
      (reports pAd (.packetCheck pPacket pDstMac RxDone)) := by
  cases pPacket with
  | none => exact .ignored
  | some p =>
    cases pDstMac with
    | none => exact .ignored
    | some pHeader =>
      have hdone : Report pAd
          (UAPSD_QoSNullTxMgmtTxDoneHandle pAd (some p) (some pHeader) RxDone)
          (reports pAd (.qosNullMgmtDone (some p) (some pHeader) RxDone)) :=
        qosNullMgmtDone_report (some p) (some pHeader) RxDone
      obtain ⟨kind, toEntry⟩ := pHeader
      simp only [UAPSD_SP_PacketCheck]
      cases hflag : p.UAPSD_Flag with
      | false =>
        simp only [reports, hflag, Bool.false_eq_true, false_and, decide_false, if_true]
        exact .ignored
      | true =>
        rw [if_neg (by decide)]
        cases kind with
        | qosNull =>
          simp only [reports, reduceCtorEq, false_and, and_false, false_or] at hdone ⊢
          exact hdone
        | action =>
          simp only [reports, reduceCtorEq, false_or] at hdone ⊢
          exact hdone
        | other =>
          simp only [reports, reduceCtorEq, or_self, if_false, hflag, true_and, true_or,
            and_true]
          by_cases hours : toEntry = true ∧ pAd.entry.bAPSDFlagSpRoughUse = true
          · rw [if_pos hours, decide_eq_true hours]
            split_ifs with hmore hSP
            · exact .counted hmore
            · exact .ended RxDone (Nat.eq_zero_of_not_pos hmore)
            · exact .outside (Nat.eq_zero_of_not_pos hmore)
          · rw [if_neg hours, decide_eq_false hours]
            exact .ignored

theorem Report.places {pAd' : RTMP_ADAPTER} {reported : Bool} (h : Report pAd pAd' reported) :
    places pAd' = places pAd := by
  cases h with
  | ignored => rfl
  | counted _ => exact countSent_places
  | ended RxDone _ => exact endPeriod_places RxDone
  | outside _ => rfl
  | null RxDone => exact (endPeriod_places RxDone).trans releaseEosp_places

theorem aue_places (TimeNow : Nat) : places (UAPSD_SP_AUE_Handle pAd TimeNow) = places pAd := by
  unfold UAPSD_SP_AUE_Handle
  split
  · rfl
  · rfl
  · dsimp only
    split_ifs
    · rfl
    · exact countSent_places
    · rfl
    · rfl
    · rfl

end Ralink.Uapsd
