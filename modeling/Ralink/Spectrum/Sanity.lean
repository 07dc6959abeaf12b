import Ralink.Lib.Elements
import Ralink.Lib.Sized

/-! Behind the header stand the category and the code of the action, mostly a token, and elements.
Each of the five checks takes its values from the last element of one kind, and does not compare
where they lie with its length. No caller passes a null pointer for the values. -/
namespace Ralink.Spectrum
open Elements (Element)
open Sized (slice isSome_slice)

def HEADER_802_11_SIZE : Nat := 24

def IE_TPC_REQUEST : UInt8 := 34
def IE_TPC_REPORT : UInt8 := 35
def IE_CHANNEL_SWITCH_ANNOUNCEMENT : UInt8 := 37
def IE_MEASUREMENT_REQUEST : UInt8 := 38
def IE_MEASUREMENT_REPORT : UInt8 := 39

def RM_BASIC : UInt8 := 0
def RM_CCA : UInt8 := 1
def RM_RPI_HISTOGRAM : UInt8 := 2

section Loop

variable {φ α : Type*} (Eid : UInt8) (fields : List UInt8 → Option φ) (move : φ → α → α)

/-- An element of the kind sets the result, and moves its fields over what is there. -/
def eidCase (s : Bool × α) (eid_ptr : Element) : Option (Empty ⊕ Bool × α) :=
  if eid_ptr.id = Eid then (fields eid_ptr.rest).map fun v => .inr (true, move v s.2)
  else some (.inr s)

/-- `pFramePtr` points behind what has been skipped, and `MsgLen` is less by as much. When it wraps,
the sum of both is the end of the frame all the same, and no element is taken. -/
def eidLoop (skipped MsgLen : Nat) (pMsg : List UInt8) (out : α) : Option (Bool × α) :=
  (Elements.walk (eidCase Eid fields move) (MsgLen - skipped) (pMsg.drop skipped)
    (false, out)).bind Sum.getRight?

end Loop

structure CH_SW_ANN_INFO where
  ChSwMode : UInt8
  Channel : UInt8
  ChSwCnt : UInt8
  deriving DecidableEq

def chSwAnn : List UInt8 → Option CH_SW_ANN_INFO
  | ChSwMode :: Channel :: ChSwCnt :: _ => some ⟨ChSwMode, Channel, ChSwCnt⟩
  | _ => none

def PeerChSwAnnSanity (pMsg : List UInt8) (MsgLen : Nat) (pChSwAnnInfo : CH_SW_ANN_INFO) :
    Option (Bool × CH_SW_ANN_INFO) :=
  eidLoop IE_CHANNEL_SWITCH_ANNOUNCEMENT chSwAnn (fun v _ => v) (HEADER_802_11_SIZE + 2) MsgLen pMsg
    pChSwAnnInfo

def dialogToken (pMsg : List UInt8) : Option UInt8 := pMsg[HEADER_802_11_SIZE + 2]?

structure MEASURE_REQ_INFO where
  Token : UInt8
  ReqMode : UInt8
  ReqType : UInt8
  deriving DecidableEq

/-- The bytes of the numbers as they lie in memory. -/
structure MEASURE_REQ where
  ChNum : UInt8
  MeasureStartTime : List UInt8
  MeasureDuration : List UInt8
  deriving DecidableEq

def SWAP (bytes : List UInt8) : List UInt8 := bytes.reverse

def measureReq : List UInt8 → Option (MEASURE_REQ_INFO × MEASURE_REQ)
  | Token :: ReqMode :: ReqType :: ChNum :: ptr => do
    let start ← slice ptr 8
    let duration ← slice (ptr.drop 8) 2
    return (⟨Token, ReqMode, ReqType⟩, ⟨ChNum, SWAP start, SWAP duration⟩)
  | _ => none

def PeerMeasureReqSanity (pMsg : List UInt8) (MsgLen : Nat)
    (out : MEASURE_REQ_INFO × MEASURE_REQ) :
    Option (UInt8 × Bool × MEASURE_REQ_INFO × MEASURE_REQ) := do
  let DialogToken ← dialogToken pMsg
  let r ← eidLoop IE_MEASUREMENT_REQUEST measureReq (fun v _ => v) (HEADER_802_11_SIZE + 3) MsgLen
    pMsg out
  return (DialogToken, r)

structure MEASURE_REPORT_INFO where
  Token : UInt8
  ReportMode : UInt8
  ReportType : UInt8
  deriving DecidableEq

/-- The fields of a report lie one behind the other: the channel, eight bytes of start time, two of
duration, and one or eight more. -/
def reportLen (ReportType : UInt8) : Nat :=
  if ReportType = RM_BASIC then 12
  else if ReportType = RM_CCA then 12
  else if ReportType = RM_RPI_HISTOGRAM then 19
  else 0

def measureReport : List UInt8 → Option (MEASURE_REPORT_INFO × List UInt8)
  | Token :: ReportMode :: ReportType :: ptr =>
    (slice ptr (reportLen ReportType)).map fun report => (⟨Token, ReportMode, ReportType⟩, report)
  | _ => none

/-- What is moved to `pMeasureReportInfo` and to the front of `pReportBuf`, in which the longest
report has room. -/
def moveReport (v out : MEASURE_REPORT_INFO × List UInt8) : MEASURE_REPORT_INFO × List UInt8 :=
  (v.1, v.2 ++ out.2.drop v.2.length)

def PeerMeasureReportSanity (pMsg : List UInt8) (MsgLen : Nat)
    (out : MEASURE_REPORT_INFO × List UInt8) :
    Option (UInt8 × Bool × MEASURE_REPORT_INFO × List UInt8) := do
  let DialogToken ← dialogToken pMsg
  let r ← eidLoop IE_MEASUREMENT_REPORT measureReport moveReport (HEADER_802_11_SIZE + 3) MsgLen pMsg
    out
  return (DialogToken, r)

def PeerTpcReqSanity (pMsg : List UInt8) (MsgLen : Nat) : Option (UInt8 × Bool × Unit) := do
  let DialogToken ← dialogToken pMsg
  let r ← eidLoop IE_TPC_REQUEST (fun _ => some ()) (fun v _ => v) (HEADER_802_11_SIZE + 3) MsgLen
    pMsg ()
  return (DialogToken, r)

structure TPC_REPORT_INFO where
  TxPwr : UInt8
  LinkMargin : UInt8
  deriving DecidableEq

def tpcReport : List UInt8 → Option TPC_REPORT_INFO
  | TxPwr :: LinkMargin :: _ => some ⟨TxPwr, LinkMargin⟩
  | _ => none

def PeerTpcRepSanity (pMsg : List UInt8) (MsgLen : Nat) (pTpcRepInfo : TPC_REPORT_INFO) :
    Option (UInt8 × Bool × TPC_REPORT_INFO) := do
  let DialogToken ← dialogToken pMsg
  let r ← eidLoop IE_TPC_REPORT tpcReport (fun v _ => v) (HEADER_802_11_SIZE + 3) MsgLen pMsg
    pTpcRepInfo
  return (DialogToken, r)

section Loop

variable {φ α : Type*} {Eid : UInt8} {fields : List UInt8 → Option φ} {move : φ → α → α}
  {es : List Element} {result : Bool} {out : α} {s : Bool × α}

def ofKind (Eid : UInt8) (es : List Element) : List Element := es.filter fun e => e.id = Eid

theorem isSome_run :
    (Elements.run (eidCase Eid fields move) s es).isSome ↔
      ∀ e ∈ es, e.id = Eid → (fields e.rest).isSome := by
  refine Elements.isSome_run_of_forall (fun s e r h => ?_) (fun s e => ?_) s es
  · cases r with
    | inl r => exact r.elim
    | inr r => rfl
  · unfold eidCase
    split
    · next he => rw [Option.isSome_map, forall_prop_of_true he]
    · next he => exact iff_of_true rfl fun h => absurd h he

theorem run_last (h : Elements.run (eidCase Eid fields move) s es = some (.inr (result, out))) :
    match (ofKind Eid es).getLast? with
    | none => (result, out) = s
    | some e => result = true ∧ ∃ v before, fields e.rest = some v ∧ out = move v before := by
  induction es generalizing s with
  | nil => exact (Sum.inr.inj (Option.some.inj h)).symm
  | cons e es ih =>
    rw [Elements.run] at h
    obtain ⟨r, hr, hrest⟩ := Option.bind_eq_some_iff.mp h
    cases r with
    | inl r => exact r.elim
    | inr next =>
      have hlast := ih hrest
      unfold eidCase at hr
      by_cases he : e.id = Eid
      · rw [if_pos he] at hr
        obtain ⟨v, hv, hnext⟩ := Option.map_eq_some_iff.mp hr
        rw [ofKind, List.filter_cons_of_pos (by simpa using he), List.getLast?_cons]
        rw [ofKind] at hlast
        cases hes : (es.filter fun e => e.id = Eid).getLast? with
        | none =>
          rw [hes] at hlast
          obtain ⟨hresult, hout⟩ := Prod.mk.inj (hlast.trans (Sum.inr.inj hnext).symm)
          exact ⟨hresult, v, s.2, hv, hout⟩
        | some e' =>
          rw [hes] at hlast
          exact hlast
      · rw [if_neg he] at hr
        have hnext := Sum.inr.inj (Option.some.inj hr)
        rw [ofKind, List.filter_cons_of_neg (by simpa using he)]
        rw [← hnext] at hlast
        exact hlast

end Loop

section Contained

variable {φ α : Type*} (Eid : UInt8) (fields : List UInt8 → Option φ) (values : α → φ)
  (skipped : Nat) (pMsg : List UInt8)

/-- The elements of the kind that are in the frame in full. -/
def inFrame : List Element :=
  ofKind Eid (Elements.elements (pMsg.length - skipped) (pMsg.drop skipped))

/-- Nothing behind the frame has been read, and if the result is TRUE then the values are those in
the data of the last element of the kind. -/
def Contained (run : Option (Bool × α)) : Prop :=
  ∃ result out, run = some (result, out) ∧ (result = true →
    ∃ e, (inFrame Eid skipped pMsg).getLast? = some e ∧ fields e.data = some (values out))

/-- There is one more header behind the last element, the fields of each element of the kind end in
the frame, and those of the last one in the element. -/
structure Carried (need : List UInt8 → Nat) : Prop where
  header : 2 ≤ Elements.left (pMsg.length - skipped) (pMsg.drop skipped)
  fields : ∀ e ∈ inFrame Eid skipped pMsg, need e.rest ≤ e.rest.length
  last : ∀ e, (inFrame Eid skipped pMsg).getLast? = some e → need e.data ≤ e.data.length

variable {Eid fields values skipped pMsg} {move : φ → α → α} {need : List UInt8 → Nat} {out : α}

theorem isSome_eidLoop (hfields : ∀ bs, (fields bs).isSome ↔ need bs ≤ bs.length) :
    (eidLoop Eid fields move skipped pMsg.length pMsg out).isSome ↔
      2 ≤ Elements.left (pMsg.length - skipped) (pMsg.drop skipped) ∧
        ∀ e ∈ inFrame Eid skipped pMsg, need e.rest ≤ e.rest.length := by
  have hwalk := @Elements.walk_exact _ _ (eidCase Eid fields move) (pMsg.drop skipped) (false, out)
  rw [List.length_drop] at hwalk
  rw [eidLoop, hwalk, and_comm, Option.bind_assoc]
  refine Sized.isSome_bind_iff (isSome_run.trans ?_) fun r hr => ?_
  · simp only [inFrame, ofKind, List.mem_filter, decide_eq_true_eq, and_imp, hfields]
  · cases r with
    | inl r => exact r.elim
    | inr s =>
      dsimp only
      split
      · next hleft => exact iff_of_true rfl hleft
      · next hleft => exact iff_of_false Bool.noConfusion hleft

theorem eidLoop_last {result : Bool} {out' : α}
    (h : eidLoop Eid fields move skipped pMsg.length pMsg out = some (result, out')) :
    match (inFrame Eid skipped pMsg).getLast? with
    | none => (result, out') = (false, out)
    | some e => result = true ∧ ∃ v before, fields e.rest = some v ∧ out' = move v before := by
  have hwalk := @Elements.walk_exact _ _ (eidCase Eid fields move) (pMsg.drop skipped) (false, out)
  rw [List.length_drop] at hwalk
  rw [eidLoop, hwalk, Option.bind_assoc] at h
  obtain ⟨r, hr, hend⟩ := Option.bind_eq_some_iff.mp h
  cases r with
  | inl r => exact r.elim
  | inr s =>
    obtain ⟨t, ht, hs⟩ := Option.bind_eq_some_iff.mp hend
    dsimp only at ht
    split at ht
    · rw [← Option.some.inj ht] at hs
      rw [Option.some.inj hs] at hr
      exact run_last hr
    · cases ht

theorem Carried.contained (hcarried : Carried Eid skipped pMsg need)
    (hfields : ∀ bs, (fields bs).isSome ↔ need bs ≤ bs.length)
    (hfront : ∀ bs behind v, fields bs = some v → fields (bs ++ behind) = some v)
    (hvalues : ∀ bs v before, fields bs = some v → values (move v before) = v) :
    Contained Eid fields values skipped pMsg
      (eidLoop Eid fields move skipped pMsg.length pMsg out) := by
  have hsome : (eidLoop Eid fields move skipped pMsg.length pMsg out).isSome :=
    (isSome_eidLoop hfields).mpr ⟨hcarried.header, hcarried.fields⟩
  obtain ⟨⟨result, out'⟩, hrun⟩ := Option.isSome_iff_exists.mp hsome
  refine ⟨result, out', hrun, fun hresult => ?_⟩
  have hlast := eidLoop_last hrun
  cases he : (inFrame Eid skipped pMsg).getLast? with
  | none =>
    rw [he, hresult] at hlast
    exact Bool.noConfusion (Prod.mk.inj hlast).1
  | some e =>
    rw [he] at hlast
    obtain ⟨-, v, before, hv, hout⟩ := hlast
    obtain ⟨v', hv'⟩ := Option.isSome_iff_exists.mp ((hfields _).mpr (hcarried.last e he))
    have hsame : fields e.rest = some v' := by
      have := hfront e.data e.behind v' hv'
      rwa [Element.data, Element.behind, List.take_append_drop] at this
    rw [hsame] at hv
    refine ⟨e, rfl, ?_⟩
    rw [hv', hout, ← Option.some.inj hv, hvalues _ _ _ hsame]

theorem Contained.carried (hfields : ∀ bs, (fields bs).isSome ↔ need bs ≤ bs.length)
    (h : Contained Eid fields values skipped pMsg
      (eidLoop Eid fields move skipped pMsg.length pMsg out)) : Carried Eid skipped pMsg need := by
  obtain ⟨result, out', hrun, hcontained⟩ := h
  have hsome := Option.isSome_of_eq_some hrun
  obtain ⟨hheader, hinside⟩ := (isSome_eidLoop hfields).mp hsome
  refine ⟨hheader, hinside, fun e he => ?_⟩
  have hlast := eidLoop_last hrun
  rw [he] at hlast
  obtain ⟨e', he', hv⟩ := hcontained hlast.1
  obtain rfl := Option.some.inj (he.symm.trans he')
  exact (hfields _).mp (Option.isSome_of_eq_some hv)

theorem dialogToken_bind {run : Option (Bool × α)}
    (hrun : run.isSome → HEADER_802_11_SIZE + 3 ≤ pMsg.length) :
    ((dialogToken pMsg).bind fun DialogToken => run.bind fun r => some (DialogToken, r)).map
      Prod.snd = run := by
  cases run with
  | none => cases dialogToken pMsg <;> rfl
  | some r =>
    have hlen : HEADER_802_11_SIZE + 2 < pMsg.length := hrun rfl
    rw [dialogToken, List.getElem?_eq_getElem hlen]
    rfl

section

variable (hfields : ∀ bs, (fields bs).isSome ↔ need bs ≤ bs.length)
include hfields

theorem length_of_eidLoop (h : (eidLoop Eid fields move skipped pMsg.length pMsg out).isSome) :
    skipped ≤ pMsg.length := by
  have hleft := ((isSome_eidLoop hfields).mp h).1
  have hle := Elements.left_le (pMsg.length - skipped) (pMsg.drop skipped)
  omega

variable (hfront : ∀ bs behind v, fields bs = some v → fields (bs ++ behind) = some v)
include hfront

theorem eidLoop_contained (hvalues : ∀ bs v before, fields bs = some v → values (move v before) = v) :
    Contained Eid fields values skipped pMsg
      (eidLoop Eid fields move skipped pMsg.length pMsg out) ↔ Carried Eid skipped pMsg need :=
  ⟨Contained.carried hfields, fun h => h.contained hfields hfront hvalues⟩

theorem token_contained (hvalues : ∀ bs v before, fields bs = some v → values (move v before) = v) :
    Contained Eid fields values (HEADER_802_11_SIZE + 3) pMsg
      (((dialogToken pMsg).bind fun DialogToken =>
        (eidLoop Eid fields move (HEADER_802_11_SIZE + 3) pMsg.length pMsg out).bind fun r =>
          some (DialogToken, r)).map Prod.snd) ↔
      Carried Eid (HEADER_802_11_SIZE + 3) pMsg need := by
  rw [dialogToken_bind (length_of_eidLoop hfields)]
  exact eidLoop_contained hfields hfront hvalues

end

end Contained

def measureReportNeed (Octet : List UInt8) : Nat := 3 + reportLen (Octet.getD 2 0)

section Fields

variable {bs : List UInt8}

theorem isSome_chSwAnn (bs : List UInt8) : (chSwAnn bs).isSome ↔ 3 ≤ bs.length := by
  match bs with
  | [] | [_] | [_, _] => simp [chSwAnn]
  | _ :: _ :: _ :: _ => simp [chSwAnn]

theorem chSwAnn_append (bs behind : List UInt8) (v : CH_SW_ANN_INFO) (h : chSwAnn bs = some v) :
    chSwAnn (bs ++ behind) = some v := by
  match bs with
  | [] | [_] | [_, _] => cases h
  | _ :: _ :: _ :: _ => exact h

theorem isSome_tpcReport (bs : List UInt8) : (tpcReport bs).isSome ↔ 2 ≤ bs.length := by
  match bs with
  | [] | [_] => simp [tpcReport]
  | _ :: _ :: _ => simp [tpcReport]

theorem tpcReport_append (bs behind : List UInt8) (v : TPC_REPORT_INFO)
    (h : tpcReport bs = some v) : tpcReport (bs ++ behind) = some v := by
  match bs with
  | [] | [_] => cases h
  | _ :: _ :: _ => exact h

theorem slice_append {n : Nat} {front : List UInt8} (h : slice bs n = some front)
    (behind : List UInt8) : slice (bs ++ behind) n = some front := by
  have hn := isSome_slice.mp (Option.isSome_of_eq_some h)
  rw [slice, if_pos (by rw [List.length_append]; omega), List.take_append_of_le_length hn,
    Sized.slice_eq_some h]

theorem isSome_measureReport (bs : List UInt8) :
    (measureReport bs).isSome ↔ measureReportNeed bs ≤ bs.length := by
  match bs with
  | [] | [_] | [_, _] =>
    refine iff_of_false Bool.noConfusion ?_
    simp only [measureReportNeed, List.length_cons, List.length_nil]
    omega
  | Token :: ReportMode :: ReportType :: ptr =>
    rw [measureReport, Option.isSome_map, isSome_slice]
    simp only [measureReportNeed, List.getD_cons_succ, List.getD_cons_zero, List.length_cons]
    omega

theorem measureReport_append (bs behind : List UInt8) (v : MEASURE_REPORT_INFO × List UInt8)
    (h : measureReport bs = some v) : measureReport (bs ++ behind) = some v := by
  match bs with
  | [] | [_] | [_, _] => cases h
  | Token :: ReportMode :: ReportType :: ptr =>
    obtain ⟨report, hreport, rfl⟩ := Option.map_eq_some_iff.mp h
    exact Option.map_eq_some_iff.mpr ⟨report, slice_append hreport behind, rfl⟩

def reported (out : MEASURE_REPORT_INFO × List UInt8) : MEASURE_REPORT_INFO × List UInt8 :=
  (out.1, out.2.take (reportLen out.1.ReportType))

theorem reported_moveReport (bs : List UInt8) (v before : MEASURE_REPORT_INFO × List UInt8)
    (h : measureReport bs = some v) : reported (moveReport v before) = v := by
  match bs with
  | [] | [_] | [_, _] => cases h
  | Token :: ReportMode :: ReportType :: ptr =>
    obtain ⟨report, hreport, rfl⟩ := Option.map_eq_some_iff.mp h
    rw [reported, moveReport, ← Sized.length_of_slice hreport, List.take_left]

theorem isSome_measureReq (bs : List UInt8) : (measureReq bs).isSome ↔ 14 ≤ bs.length := by
  match bs with
  | [] | [_] | [_, _] | [_, _, _] => simp [measureReq]
  | Token :: ReqMode :: ReqType :: ChNum :: ptr =>
    have hsome : (measureReq (Token :: ReqMode :: ReqType :: ChNum :: ptr)).isSome ↔
        8 ≤ ptr.length ∧ 2 ≤ (ptr.drop 8).length :=
      Sized.isSome_bind_iff isSome_slice fun start _ =>
        Sized.isSome_bind_left isSome_slice fun _ _ => rfl
    rw [hsome, List.length_drop]
    simp only [List.length_cons]
    omega

theorem measureReq_append (bs behind : List UInt8) (v : MEASURE_REQ_INFO × MEASURE_REQ)
    (h : measureReq bs = some v) : measureReq (bs ++ behind) = some v := by
  match bs with
  | [] | [_] | [_, _] | [_, _, _] => cases h
  | Token :: ReqMode :: ReqType :: ChNum :: ptr =>
    obtain ⟨start, hstart, hrest⟩ := Option.bind_eq_some_iff.mp h
    obtain ⟨duration, hduration, hv⟩ := Option.bind_eq_some_iff.mp hrest
    have hlen := isSome_slice.mp (Option.isSome_of_eq_some hstart)
    have hdrop : (ptr ++ behind).drop 8 = ptr.drop 8 ++ behind :=
      List.drop_append_of_le_length hlen
    refine Option.bind_eq_some_iff.mpr ⟨start, slice_append hstart behind, ?_⟩
    refine Option.bind_eq_some_iff.mpr ⟨duration, ?_, hv⟩
    exact (congrArg (slice · 2) hdrop).trans (slice_append hduration behind)

end Fields

theorem PeerChSwAnnSanity_contained (pMsg : List UInt8) (pChSwAnnInfo : CH_SW_ANN_INFO) :
    Contained IE_CHANNEL_SWITCH_ANNOUNCEMENT chSwAnn id (HEADER_802_11_SIZE + 2) pMsg
        (PeerChSwAnnSanity pMsg pMsg.length pChSwAnnInfo) ↔
      Carried IE_CHANNEL_SWITCH_ANNOUNCEMENT (HEADER_802_11_SIZE + 2) pMsg fun _ => 3 :=
  eidLoop_contained isSome_chSwAnn chSwAnn_append fun _ _ _ _ => rfl

/-- Each check ends, reads nothing behind the frame and only reports what an element contains,
exactly for the frames whose elements are carried. -/
theorem sanity_contained_iff (pMsg : List UInt8) (pChSwAnnInfo : CH_SW_ANN_INFO)
    (req : MEASURE_REQ_INFO × MEASURE_REQ) (rep : MEASURE_REPORT_INFO × List UInt8)
    (pTpcRepInfo : TPC_REPORT_INFO) :
    (Contained IE_CHANNEL_SWITCH_ANNOUNCEMENT chSwAnn id (HEADER_802_11_SIZE + 2) pMsg
        (PeerChSwAnnSanity pMsg pMsg.length pChSwAnnInfo) ↔
      Carried IE_CHANNEL_SWITCH_ANNOUNCEMENT (HEADER_802_11_SIZE + 2) pMsg fun _ => 3) ∧
    (Contained IE_MEASUREMENT_REQUEST measureReq id (HEADER_802_11_SIZE + 3) pMsg
        ((PeerMeasureReqSanity pMsg pMsg.length req).map Prod.snd) ↔
      Carried IE_MEASUREMENT_REQUEST (HEADER_802_11_SIZE + 3) pMsg fun _ => 14) ∧
    (Contained IE_MEASUREMENT_REPORT measureReport reported (HEADER_802_11_SIZE + 3) pMsg
        ((PeerMeasureReportSanity pMsg pMsg.length rep).map Prod.snd) ↔
      Carried IE_MEASUREMENT_REPORT (HEADER_802_11_SIZE + 3) pMsg measureReportNeed) ∧
    (Contained IE_TPC_REQUEST (fun _ => some ()) id (HEADER_802_11_SIZE + 3) pMsg
        ((PeerTpcReqSanity pMsg pMsg.length).map Prod.snd) ↔
      Carried IE_TPC_REQUEST (HEADER_802_11_SIZE + 3) pMsg fun _ => 0) ∧
    (Contained IE_TPC_REPORT tpcReport id (HEADER_802_11_SIZE + 3) pMsg
        ((PeerTpcRepSanity pMsg pMsg.length pTpcRepInfo).map Prod.snd) ↔
      Carried IE_TPC_REPORT (HEADER_802_11_SIZE + 3) pMsg fun _ => 2) := by
  refine ⟨PeerChSwAnnSanity_contained pMsg pChSwAnnInfo, ?_, ?_, ?_, ?_⟩
  · exact token_contained isSome_measureReq measureReq_append fun _ _ _ _ => rfl
  · exact token_contained isSome_measureReport measureReport_append reported_moveReport
  · exact token_contained (fun _ => iff_of_true rfl (Nat.zero_le _)) (fun _ _ _ h => h)
      fun _ _ _ _ => rfl
  · exact token_contained isSome_tpcReport tpcReport_append fun _ _ _ _ => rfl

/-- An announcement that ends with its element: one more header is looked at. -/
theorem announcement_not_contained :
    ¬ ∀ pMsg : List UInt8, ∀ pChSwAnnInfo : CH_SW_ANN_INFO,
      Contained IE_CHANNEL_SWITCH_ANNOUNCEMENT chSwAnn id (HEADER_802_11_SIZE + 2) pMsg
        (PeerChSwAnnSanity pMsg pMsg.length pChSwAnnInfo) := by
  intro h
  have hcarried := (PeerChSwAnnSanity_contained _ _).mp
    (h (List.replicate 24 0 ++ [0, 4, 37, 3, 1, 36, 0]) ⟨0, 0, 0⟩)
  exact absurd hcarried.header (by decide +kernel)

end Ralink.Spectrum
