import Ralink.Lib.CString
import Ralink.Spectrum.Sanity

/-! A frame is made in the buffer from the pool piece by piece. Each helper is given the place of
its piece and the length so far, which it adds to. -/
namespace Ralink.Spectrum
open CArray (Chars store)
open Elements (Element Written)
open Sized (slice isSome_slice)

def MGMT_DMA_BUFFER_SIZE : Nat := 1600

def CATEGORY_SPECTRUM : UInt8 := 0

def SPEC_MRP : UInt8 := 1
def SPEC_TPCRQ : UInt8 := 2
def SPEC_TPCRP : UInt8 := 3
def SPEC_CHANNEL_SWITCH : UInt8 := 4

/-- The pairs of a length and a pointer, up to `END_OF_ARGS`; it gives the buffer and `TotLeng`. -/
def MakeOutgoingFrame (Buffer : Chars) (place TotLeng : Nat) :
    List (Nat × List UInt8) → Option (Chars × Nat)
  | [] => some (Buffer, TotLeng)
  | (leng, p) :: Args => do
    let bs ← slice p leng
    let Buffer ← store Buffer (place + TotLeng) bs
    MakeOutgoingFrame Buffer place (TotLeng + leng) Args

/-- What every helper does with its place and the length. -/
def insert (Args : List (Nat × List UInt8)) (pFrameBuf : Nat) (out : Chars × Nat) :
    Option (Chars × Nat) := do
  let (Buffer, TempLen) ← MakeOutgoingFrame out.1 pFrameBuf 0 Args
  return (Buffer, out.2 + TempLen)

def InsertActField (Category ActCode : UInt8) : Nat → Chars × Nat → Option (Chars × Nat) :=
  insert [(1, [Category]), (1, [ActCode])]

def InsertDialogToken (DialogToken : UInt8) : Nat → Chars × Nat → Option (Chars × Nat) :=
  insert [(1, [DialogToken])]

def InsertTpcReqIE : Nat → Chars × Nat → Option (Chars × Nat) :=
  insert [(1, [IE_TPC_REQUEST]), (1, [0])]

def TPC_REPORT_INFO.bytes (info : TPC_REPORT_INFO) : List UInt8 := [info.TxPwr, info.LinkMargin]

def InsertTpcReportIE (TxPwr LinkMargin : UInt8) : Nat → Chars × Nat → Option (Chars × Nat) :=
  insert [(1, [IE_TPC_REPORT]), (1, [2]), (2, (TPC_REPORT_INFO.mk TxPwr LinkMargin).bytes)]

def CH_SW_ANN_INFO.bytes (info : CH_SW_ANN_INFO) : List UInt8 :=
  [info.ChSwMode, info.Channel, info.ChSwCnt]

/-- The length is held in four bytes, the low one first, and the first of them is sent. -/
def InsertChSwAnnIE (ChSwMode NewChannel ChSwCnt : UInt8) :
    Nat → Chars × Nat → Option (Chars × Nat) :=
  insert [(1, [IE_CHANNEL_SWITCH_ANNOUNCEMENT]), (1, [3, 0, 0, 0]),
    (3, (CH_SW_ANN_INFO.mk ChSwMode NewChannel ChSwCnt).bytes)]

def MEASURE_REPORT_INFO.bytes (info : MEASURE_REPORT_INFO) : List UInt8 :=
  [info.Token, info.ReportMode, info.ReportType]

/-- The length counts the report as well, and as many bytes are copied from the structure. The
report goes to a place that is further behind by the length so far. -/
def InsertMeasureReportIE (pMeasureReportIE : MEASURE_REPORT_INFO) (ReportLnfoLen : UInt8)
    (pReportInfo : Option (List UInt8)) (pFrameBuf : Nat) (out : Chars × Nat) :
    Option (Chars × Nat) := do
  let Len := 3 + ReportLnfoLen
  let out ← insert [(1, [IE_MEASUREMENT_REPORT]), (1, [Len]), (Len.toNat, pMeasureReportIE.bytes)]
    pFrameBuf out
  match pReportInfo with
  | some report =>
    if 0 < ReportLnfoLen then insert [(ReportLnfoLen.toNat, report)] (pFrameBuf + out.2) out
    else return out
  | none => return out

/-- The header is put in front, and each helper is given the place behind what is there. -/
def headed (pOutBuffer : Chars) (ActHdr : Vector UInt8 HEADER_802_11_SIZE) : Option (Chars × Nat) := do
  let pOutBuffer ← store pOutBuffer 0 ActHdr.toList
  return (pOutBuffer, HEADER_802_11_SIZE)

def EnqueueMeasurementRep (ActHdr : Vector UInt8 HEADER_802_11_SIZE)
    (DialogToken MeasureToken MeasureReqMode MeasureReqType ReportInfoLen : UInt8)
    (pReportInfo : Option (List UInt8)) (pOutBuffer : Chars) : Option (Chars × Nat) := do
  let out ← headed pOutBuffer ActHdr
  let out ← InsertActField CATEGORY_SPECTRUM SPEC_MRP out.2 out
  let out ← InsertDialogToken DialogToken out.2 out
  InsertMeasureReportIE ⟨MeasureToken, MeasureReqMode, MeasureReqType⟩ ReportInfoLen pReportInfo out.2
    out

def EnqueueTPCReq (ActHdr : Vector UInt8 HEADER_802_11_SIZE) (DialogToken : UInt8)
    (pOutBuffer : Chars) : Option (Chars × Nat) := do
  let out ← headed pOutBuffer ActHdr
  let out ← InsertActField CATEGORY_SPECTRUM SPEC_TPCRQ out.2 out
  let out ← InsertDialogToken DialogToken out.2 out
  InsertTpcReqIE out.2 out

def EnqueueTPCRep (ActHdr : Vector UInt8 HEADER_802_11_SIZE)
    (DialogToken TxPwr LinkMargin : UInt8) (pOutBuffer : Chars) : Option (Chars × Nat) := do
  let out ← headed pOutBuffer ActHdr
  let out ← InsertActField CATEGORY_SPECTRUM SPEC_TPCRP out.2 out
  let out ← InsertDialogToken DialogToken out.2 out
  InsertTpcReportIE TxPwr LinkMargin out.2 out

def EnqueueChSwAnn (ActHdr : Vector UInt8 HEADER_802_11_SIZE) (ChSwMode NewCh : UInt8)
    (pOutBuffer : Chars) : Option (Chars × Nat) := do
  let out ← headed pOutBuffer ActHdr
  let out ← InsertActField CATEGORY_SPECTRUM SPEC_CHANNEL_SWITCH out.2 out
  InsertChSwAnnIE ChSwMode NewCh 0 out.2 out

section Pieces

variable {heap : Chars} {frame bs : List UInt8} {Args : List (Nat × List UInt8)}

def made (heap : Chars) (frame : List UInt8) : Chars × Nat :=
  (frame ++ heap.drop frame.length, frame.length)

theorem store_made (heap : Chars) (frame bs : List UInt8) (h : frame.length + bs.length ≤ heap.length) :
    store (made heap frame).1 frame.length bs = some (made heap (frame ++ bs)).1 := by
  have hrest : heap.drop frame.length =
      (heap.drop frame.length).take bs.length ++ heap.drop (frame.length + bs.length) := by
    rw [← List.drop_drop, List.take_append_drop]
  have hold : ((heap.drop frame.length).take bs.length).length = bs.length := by
    rw [List.length_take, List.length_drop]
    omega
  rw [made, made, List.length_append, hrest, ← List.append_assoc, CArray.store_append hold]

def pieces (Args : List (Nat × List UInt8)) : List UInt8 := Args.flatMap fun a => a.2.take a.1

theorem MakeOutgoingFrame_made (heap : Chars) (before piece : List UInt8)
    (hArgs : ∀ a ∈ Args, a.1 ≤ a.2.length)
    (hroom : before.length + piece.length + (pieces Args).length ≤ heap.length) :
    MakeOutgoingFrame (made heap (before ++ piece)).1 before.length piece.length Args =
      some ((made heap (before ++ piece ++ pieces Args)).1, piece.length + (pieces Args).length) := by
  induction Args generalizing piece with
  | nil => rw [MakeOutgoingFrame, pieces, List.flatMap_nil, List.append_nil, List.length_nil, Nat.add_zero]
  | cons a Args ih =>
    obtain ⟨hfirst, hArgs⟩ := List.forall_mem_cons.mp hArgs
    have hlen : (a.2.take a.1).length = a.1 := by rw [List.length_take, Nat.min_eq_left hfirst]
    have hpieces : pieces (a :: Args) = a.2.take a.1 ++ pieces Args := List.flatMap_cons
    rw [hpieces, List.length_append, hlen] at hroom
    have hstore := store_made heap (before ++ piece) (a.2.take a.1)
      (by rw [List.length_append, hlen]; omega)
    rw [List.length_append] at hstore
    rw [MakeOutgoingFrame, slice, if_pos hfirst, Option.bind_eq_bind, Option.bind_some, hstore,
      Option.bind_some, List.append_assoc before]
    have hnext := ih (piece ++ a.2.take a.1) hArgs
      (by rw [List.length_append, hlen]; omega)
    rw [List.length_append, hlen] at hnext
    rw [hnext, hpieces, List.length_append, hlen]
    simp only [List.append_assoc, Nat.add_assoc]

theorem insert_made (hArgs : ∀ a ∈ Args, a.1 ≤ a.2.length)
    (hroom : frame.length + (pieces Args).length ≤ heap.length) :
    insert Args frame.length (made heap frame) = some (made heap (frame ++ pieces Args)) := by
  have hmake := MakeOutgoingFrame_made heap frame [] hArgs
    (by simpa using hroom)
  rw [List.append_nil, List.length_nil, Nat.zero_add] at hmake
  rw [insert, hmake]
  simp [made]

theorem insert_short (hArgs : ∃ a ∈ Args, a.2.length < a.1) (place : Nat) (out : Chars × Nat) :
    insert Args place out = none := by
  have hnone : ∀ (Buffer : Chars) (TotLeng : Nat), MakeOutgoingFrame Buffer place TotLeng Args = none := by
    induction Args with
    | nil =>
      obtain ⟨a, ha, -⟩ := hArgs
      exact absurd ha List.not_mem_nil
    | cons a Args ih =>
      intro Buffer TotLeng
      rw [MakeOutgoingFrame, slice]
      split
      · next hle =>
        have htail : ∃ a ∈ Args, a.2.length < a.1 := by
          obtain ⟨a', ha', hlt⟩ := hArgs
          rcases List.mem_cons.mp ha' with rfl | ha'
          · omega
          · exact ⟨a', ha', hlt⟩
        rw [Option.bind_eq_bind, Option.bind_some]
        cases store Buffer (place + TotLeng) (a.2.take a.1) with
        | none => rfl
        | some Buffer => exact ih htail _ _
      · rfl
  rw [insert, hnone]
  rfl

theorem headed_made (ActHdr : Vector UInt8 HEADER_802_11_SIZE) (h : HEADER_802_11_SIZE ≤ heap.length) :
    headed heap ActHdr = some (made heap ActHdr.toList) := by
  have hlen : ActHdr.toList.length = HEADER_802_11_SIZE := ActHdr.length_toList
  have hstore := store_made heap [] ActHdr.toList (by simpa [hlen] using h)
  rw [List.nil_append] at hstore
  have hmade : made heap ActHdr.toList = ((made heap ActHdr.toList).1, HEADER_802_11_SIZE) :=
    Prod.ext rfl hlen
  rw [hmade]
  exact Option.bind_eq_some_iff.mpr ⟨_, hstore, rfl⟩

end Pieces

section Understood

variable {α : Type*}

/-- Only the bytes of the frame are written, and the values are found in it, whatever is behind
the frame in the buffer of the other side. -/
def Understood (Enqueue : Chars → Option (Chars × Nat)) (sanity : List UInt8 → Nat → Option α)
    (same : α → Prop) : Prop :=
  ∀ heap : Chars, heap.length = MGMT_DMA_BUFFER_SIZE → ∃ pOutBuffer FrameLen,
    Enqueue heap = some (pOutBuffer, FrameLen) ∧ pOutBuffer.length = heap.length ∧
    pOutBuffer.drop FrameLen = heap.drop FrameLen ∧
    ∀ behind : List UInt8, FrameLen + behind.length = MGMT_DMA_BUFFER_SIZE →
      ∃ v, sanity (pOutBuffer.take FrameLen ++ behind) FrameLen = some v ∧ same v

variable {Enqueue : Chars → Option (Chars × Nat)} {sanity : List UInt8 → Nat → Option α}
  {same : α → Prop} {frame : List UInt8}

theorem understood_made_iff (hframe : frame.length + 2 ≤ MGMT_DMA_BUFFER_SIZE)
    (henqueue : ∀ heap : Chars, heap.length = MGMT_DMA_BUFFER_SIZE → Enqueue heap = some (made heap frame)) :
    Understood Enqueue sanity same ↔
      ∀ behind : List UInt8, frame.length + behind.length = MGMT_DMA_BUFFER_SIZE →
        ∃ v, sanity (frame ++ behind) frame.length = some v ∧ same v := by
  constructor
  · intro h behind hbehind
    have hlen : (List.replicate MGMT_DMA_BUFFER_SIZE (0 : UInt8)).length = MGMT_DMA_BUFFER_SIZE :=
      List.length_replicate
    obtain ⟨pOutBuffer, FrameLen, hrun, -, -, hfound⟩ := h _ hlen
    obtain ⟨rfl, rfl⟩ := Prod.mk.inj (Option.some.inj ((henqueue _ hlen).symm.trans hrun))
    simpa only [List.take_left] using hfound behind hbehind
  · intro h heap hheap
    refine ⟨_, _, henqueue heap hheap, ?_, List.drop_left, ?_⟩
    · rw [List.length_append, List.length_drop]
      omega
    · simpa only [List.take_left] using h

end Understood

section Element

variable {φ α : Type*} {fields : List UInt8 → Option φ} {behind : List UInt8} {v : φ}

theorem elements_zero (mem : List UInt8) : Elements.elements 0 mem = [] := by
  cases h : Elements.front? mem with
  | none => exact Elements.elements_none h
  | some e => rw [Elements.elements_some h, if_neg (by rw [Element.size]; omega)]

theorem eidLoop_written (move : φ → α → α) (head : List UInt8) (out : α) (x : Written)
    (hbehind : 2 ≤ behind.length)
    (hv : fields (x.data ++ behind) = some v) :
    eidLoop x.id fields move head.length (head ++ x.bytes).length (head ++ x.bytes ++ behind) out =
      some (true, move v out) := by
  have hencode : Elements.encode [x] = x.bytes := List.append_nil _
  have helements := (Elements.elements_encode [x] 0 behind).1
  rw [hencode, elements_zero, Nat.add_zero, List.append_nil] at helements
  rw [eidLoop, List.length_append, Nat.add_sub_cancel_left, List.append_assoc, List.drop_left,
    Elements.walk_inside (by rw [List.length_append]; omega), helements, Elements.found,
    Elements.run, eidCase, Written.id_element, if_pos rfl]
  have hrest : (x.element (Elements.encode [] ++ behind)).rest = x.data ++ behind := rfl
  rw [hrest, hv]
  rfl

theorem dialogToken_head {front : List UInt8} {token : UInt8} (rest : List UInt8)
    (h : front.length = HEADER_802_11_SIZE + 2) :
    dialogToken (front ++ token :: rest) = some token := by
  rw [dialogToken, ← h, List.getElem?_append_right (Nat.le_refl _), Nat.sub_self]
  rfl

end Element

section Frames

variable {heap : Chars} (ActHdr : Vector UInt8 HEADER_802_11_SIZE)
  (ActCode DialogToken MeasureToken MeasureReqMode : UInt8) {β : Type*} (k : Chars × Nat → Option β)
  (MeasureReqType : UInt8) (pReportInfo : Option (List UInt8))

theorem bind_insert {frame : List UInt8} {Args : List (Nat × List UInt8)}
    (hArgs : ∀ a ∈ Args, a.1 ≤ a.2.length)
    (hroom : frame.length + (pieces Args).length ≤ heap.length) :
    (insert Args (made heap frame).2 (made heap frame)).bind k = k (made heap (frame ++ pieces Args)) := by
  have hinsert : insert Args (made heap frame).2 (made heap frame) =
      some (made heap (frame ++ pieces Args)) := insert_made hArgs hroom
  rw [hinsert, Option.bind_some]

def actionHead (ActCode : UInt8) : List UInt8 := ActHdr.toList ++ [CATEGORY_SPECTRUM, ActCode]

def tokenHead (ActCode DialogToken : UInt8) : List UInt8 := actionHead ActHdr ActCode ++ [DialogToken]

theorem length_actionHead : (actionHead ActHdr ActCode).length = HEADER_802_11_SIZE + 2 := by
  rw [actionHead, List.length_append, Vector.length_toList]
  rfl

theorem length_tokenHead :
    (tokenHead ActHdr ActCode DialogToken).length = HEADER_802_11_SIZE + 3 := by
  rw [tokenHead, List.length_append, length_actionHead]
  rfl

theorem TPC_REPORT_INFO.length_bytes (info : TPC_REPORT_INFO) : info.bytes.length < 256 := by
  simp [TPC_REPORT_INFO.bytes]

theorem CH_SW_ANN_INFO.length_bytes (info : CH_SW_ANN_INFO) : info.bytes.length < 256 := by
  simp [CH_SW_ANN_INFO.bytes]

theorem MEASURE_REPORT_INFO.length_bytes (info : MEASURE_REPORT_INFO) : info.bytes.length < 256 := by
  simp [MEASURE_REPORT_INFO.bytes]

theorem length_nil_lt : ([] : List UInt8).length < 256 := by simp

def tpcReqElement : Written := ⟨IE_TPC_REQUEST, [], length_nil_lt⟩

def tpcReportElement (info : TPC_REPORT_INFO) : Written :=
  ⟨IE_TPC_REPORT, info.bytes, info.length_bytes⟩

def chSwAnnElement (info : CH_SW_ANN_INFO) : Written :=
  ⟨IE_CHANNEL_SWITCH_ANNOUNCEMENT, info.bytes, info.length_bytes⟩

def emptyReportElement (info : MEASURE_REPORT_INFO) : Written :=
  ⟨IE_MEASUREMENT_REPORT, info.bytes, info.length_bytes⟩

section

variable (hheap : heap.length = MGMT_DMA_BUFFER_SIZE)
include hheap

theorem action_made :
    ((headed heap ActHdr).bind fun out =>
        (InsertActField CATEGORY_SPECTRUM ActCode out.2 out).bind k) =
      k (made heap (actionHead ActHdr ActCode)) := by
  have hlen : ActHdr.toList.length = HEADER_802_11_SIZE := ActHdr.length_toList
  rw [headed_made ActHdr (by rw [hheap]; decide), Option.bind_some]
  refine bind_insert k (by simp) ?_
  rw [hlen, hheap]
  exact Nat.le_of_ble_eq_true rfl

theorem token_made :
    ((headed heap ActHdr).bind fun out =>
        (InsertActField CATEGORY_SPECTRUM ActCode out.2 out).bind fun out =>
          (InsertDialogToken DialogToken out.2 out).bind k) =
      k (made heap (tokenHead ActHdr ActCode DialogToken)) := by
  rw [action_made ActHdr ActCode _ hheap]
  refine bind_insert k (by simp) ?_
  rw [length_actionHead, hheap]
  exact Nat.le_of_ble_eq_true rfl

theorem EnqueueTPCReq_made :
    EnqueueTPCReq ActHdr DialogToken heap =
      some (made heap (tokenHead ActHdr SPEC_TPCRQ DialogToken ++ tpcReqElement.bytes)) := by
  refine (token_made ActHdr SPEC_TPCRQ DialogToken _ hheap).trans (insert_made (by simp) ?_)
  rw [length_tokenHead, hheap]
  exact Nat.le_of_ble_eq_true rfl

end

theorem EnqueueTPCRep_made (TxPwr LinkMargin : UInt8) (hheap : heap.length = MGMT_DMA_BUFFER_SIZE) :
    EnqueueTPCRep ActHdr DialogToken TxPwr LinkMargin heap =
      some (made heap (tokenHead ActHdr SPEC_TPCRP DialogToken ++
        (tpcReportElement ⟨TxPwr, LinkMargin⟩).bytes)) := by
  refine (token_made ActHdr SPEC_TPCRP DialogToken _ hheap).trans
    (insert_made (by simp [TPC_REPORT_INFO.bytes]) ?_)
  rw [length_tokenHead, hheap]
  exact Nat.le_of_ble_eq_true rfl

theorem EnqueueChSwAnn_made (ChSwMode NewCh : UInt8) (hheap : heap.length = MGMT_DMA_BUFFER_SIZE) :
    EnqueueChSwAnn ActHdr ChSwMode NewCh heap =
      some (made heap (actionHead ActHdr SPEC_CHANNEL_SWITCH ++
        (chSwAnnElement ⟨ChSwMode, NewCh, 0⟩).bytes)) := by
  refine (action_made ActHdr SPEC_CHANNEL_SWITCH _ hheap).trans
    (insert_made (by simp [CH_SW_ANN_INFO.bytes]) ?_)
  rw [length_actionHead, hheap]
  exact Nat.le_of_ble_eq_true rfl

theorem EnqueueMeasurementRep_made (hheap : heap.length = MGMT_DMA_BUFFER_SIZE) :
    EnqueueMeasurementRep ActHdr DialogToken MeasureToken MeasureReqMode MeasureReqType 0 pReportInfo
        heap =
      some (made heap (tokenHead ActHdr SPEC_MRP DialogToken ++
        (emptyReportElement ⟨MeasureToken, MeasureReqMode, MeasureReqType⟩).bytes)) := by
  refine (token_made ActHdr SPEC_MRP DialogToken _ hheap).trans ?_
  refine (bind_insert _ (by simp [MEASURE_REPORT_INFO.bytes]) ?_).trans ?_
  · rw [length_tokenHead, hheap]
    exact Nat.le_of_ble_eq_true rfl
  · cases pReportInfo with
    | none => rfl
    | some report => rfl

theorem EnqueueMeasurementRep_none {ReportInfoLen : UInt8} (hlen : 3 < (3 + ReportInfoLen).toNat)
    (hheap : heap.length = MGMT_DMA_BUFFER_SIZE) :
    EnqueueMeasurementRep ActHdr DialogToken MeasureToken MeasureReqMode MeasureReqType ReportInfoLen
      pReportInfo heap = none := by
  refine (token_made ActHdr SPEC_MRP DialogToken _ hheap).trans ?_
  refine Option.bind_eq_none_iff.mpr fun out hout => ?_
  rw [insert_short ⟨((3 + ReportInfoLen).toNat,
    MEASURE_REPORT_INFO.bytes ⟨MeasureToken, MeasureReqMode, MeasureReqType⟩),
    List.mem_cons_of_mem _ (List.mem_cons_of_mem _ List.mem_cons_self), hlen⟩] at hout
  cases hout

end Frames

theorem reportLen_eq_zero {ReportType : UInt8} :
    reportLen ReportType = 0 ↔
      ReportType ≠ RM_BASIC ∧ ReportType ≠ RM_CCA ∧ ReportType ≠ RM_RPI_HISTOGRAM := by
  unfold reportLen
  split
  · next h => simp [h]
  · next h =>
    split
    · next h' => simp [h']
    · next h' =>
      split
      · next h'' => simp [h'']
      · next h'' => simp [h, h', h'']

theorem reportLen_le (ReportType : UInt8) : reportLen ReportType ≤ 19 := by
  unfold reportLen
  split_ifs <;> decide

/-- Information of the length of its type, or none at all. -/
abbrev ReportInfo (ReportType : UInt8) : Type := Option (Vector UInt8 (reportLen ReportType))

section Reports

variable (ActHdr : Vector UInt8 HEADER_802_11_SIZE) (DialogToken : UInt8)

def ReportInfo.bytes {ReportType : UInt8} (info : ReportInfo ReportType) : List UInt8 :=
  (info.map Vector.toList).getD []

def ReportInfo.len {ReportType : UInt8} (info : ReportInfo ReportType) : UInt8 :=
  UInt8.ofNat info.bytes.length

/-- The token, the information and the bytes of the report, and no others. -/
def ReportUnderstood (info : MEASURE_REPORT_INFO) (pReportInfo : ReportInfo info.ReportType)
    (before : MEASURE_REPORT_INFO × List UInt8) : Prop :=
  Understood
    (EnqueueMeasurementRep ActHdr DialogToken info.Token info.ReportMode info.ReportType
      pReportInfo.len (pReportInfo.map Vector.toList))
    (fun pMsg MsgLen => PeerMeasureReportSanity pMsg MsgLen before)
    fun v => v.1 = DialogToken ∧ v.2.1 = true ∧ reported v.2.2 = (info, pReportInfo.bytes)

def TpcReqUnderstood : Prop :=
  Understood (EnqueueTPCReq ActHdr DialogToken) PeerTpcReqSanity (· = (DialogToken, true, ()))

def TpcRepUnderstood (info before : TPC_REPORT_INFO) : Prop :=
  Understood (EnqueueTPCRep ActHdr DialogToken info.TxPwr info.LinkMargin)
    (fun pMsg MsgLen => PeerTpcRepSanity pMsg MsgLen before) (· = (DialogToken, true, info))

def ChSwAnnUnderstood (ChSwMode NewCh : UInt8) (before : CH_SW_ANN_INFO) : Prop :=
  Understood (EnqueueChSwAnn ActHdr ChSwMode NewCh)
    (fun pMsg MsgLen => PeerChSwAnnSanity pMsg MsgLen before) (· = (true, ⟨ChSwMode, NewCh, 0⟩))

variable {ActHdr DialogToken}

theorem token_written {φ α : Type*} {fields : List UInt8 → Option φ} {move : φ → α → α} {out : α}
    {v : φ} {behind : List UInt8} (ActCode : UInt8) (x : Written) (hbehind : 2 ≤ behind.length)
    (hv : fields (x.data ++ behind) = some v) :
    ((dialogToken (tokenHead ActHdr ActCode DialogToken ++ x.bytes ++ behind)).bind fun token =>
        (eidLoop x.id fields move (HEADER_802_11_SIZE + 3)
          (tokenHead ActHdr ActCode DialogToken ++ x.bytes).length
          (tokenHead ActHdr ActCode DialogToken ++ x.bytes ++ behind) out).bind fun r =>
            some (token, r)) = some (DialogToken, true, move v out) := by
  have htoken : dialogToken (tokenHead ActHdr ActCode DialogToken ++ x.bytes ++ behind) =
      some DialogToken := by
    rw [tokenHead]
    simp only [List.append_assoc, List.singleton_append]
    exact dialogToken_head _ (length_actionHead ActHdr ActCode)
  have hloop := eidLoop_written move (tokenHead ActHdr ActCode DialogToken) out x hbehind hv
  rw [length_tokenHead] at hloop
  rw [htoken, hloop]
  rfl

theorem length_le_of_written {head : List UInt8} (x : Written)
    (hhead : head.length ≤ HEADER_802_11_SIZE + 3) (hx : x.data.length ≤ 3) :
    (head ++ x.bytes).length ≤ 32 := by
  rw [List.length_append, Written.length_bytes]
  unfold HEADER_802_11_SIZE at hhead
  omega

theorem le_length_behind {frame behind : List UInt8} (hframe : frame.length ≤ 32)
    (h : frame.length + behind.length = MGMT_DMA_BUFFER_SIZE) : 19 ≤ behind.length := by
  unfold MGMT_DMA_BUFFER_SIZE at h
  omega

theorem add_two_le {n : Nat} (h : n ≤ 32) : n + 2 ≤ MGMT_DMA_BUFFER_SIZE := by
  unfold MGMT_DMA_BUFFER_SIZE
  omega

theorem tpcReq_understood : TpcReqUnderstood ActHdr DialogToken := by
  have hframe := length_le_of_written tpcReqElement
    (Nat.le_of_eq (length_tokenHead ActHdr SPEC_TPCRQ DialogToken)) (by decide)
  refine (understood_made_iff (add_two_le hframe) fun heap => EnqueueTPCReq_made ActHdr DialogToken).mpr
    fun behind hlen => ?_
  have hbehind := le_length_behind hframe hlen
  exact ⟨_, token_written SPEC_TPCRQ tpcReqElement (by omega) rfl, rfl⟩

theorem tpcRep_understood (info before : TPC_REPORT_INFO) :
    TpcRepUnderstood ActHdr DialogToken info before := by
  have hframe := length_le_of_written (tpcReportElement info)
    (Nat.le_of_eq (length_tokenHead ActHdr SPEC_TPCRP DialogToken)) (Nat.le_of_ble_eq_true rfl)
  refine (understood_made_iff (add_two_le hframe) fun heap =>
    EnqueueTPCRep_made ActHdr DialogToken info.TxPwr info.LinkMargin).mpr fun behind hlen => ?_
  have hbehind := le_length_behind hframe hlen
  exact ⟨_, token_written SPEC_TPCRP (tpcReportElement info) (by omega) rfl, rfl⟩

theorem chSwAnn_understood (ChSwMode NewCh : UInt8) (before : CH_SW_ANN_INFO) :
    ChSwAnnUnderstood ActHdr ChSwMode NewCh before := by
  have hhead := length_actionHead ActHdr SPEC_CHANNEL_SWITCH
  have hframe := length_le_of_written (chSwAnnElement ⟨ChSwMode, NewCh, 0⟩)
    (Nat.le_of_lt (Nat.lt_of_le_of_lt (Nat.le_of_eq hhead) (Nat.lt_succ_self _)))
    (Nat.le_of_ble_eq_true rfl)
  refine (understood_made_iff (add_two_le hframe) fun heap =>
    EnqueueChSwAnn_made ActHdr ChSwMode NewCh).mpr fun behind hlen => ?_
  have hbehind := le_length_behind hframe hlen
  have hfields : chSwAnn ((chSwAnnElement ⟨ChSwMode, NewCh, 0⟩).data ++ behind) =
      some ⟨ChSwMode, NewCh, 0⟩ := rfl
  have hloop := eidLoop_written (fun v _ => v) (actionHead ActHdr SPEC_CHANNEL_SWITCH) before
    (chSwAnnElement ⟨ChSwMode, NewCh, 0⟩) (by omega) hfields
  rw [hhead] at hloop
  exact ⟨_, hloop, rfl⟩

theorem ReportInfo.length_bytes {ReportType : UInt8} (info : ReportInfo ReportType) :
    info.bytes.length = if info.isSome then reportLen ReportType else 0 := by
  cases info with
  | none => rfl
  | some report => exact report.length_toList

theorem emptyReport_found (ActHdr : Vector UInt8 HEADER_802_11_SIZE) (DialogToken : UInt8)
    (info : MEASURE_REPORT_INFO) (before : MEASURE_REPORT_INFO × List UInt8) {behind : List UInt8}
    (hbehind : 19 ≤ behind.length) :
    ∃ out, PeerMeasureReportSanity
        (tokenHead ActHdr SPEC_MRP DialogToken ++ (emptyReportElement info).bytes ++ behind)
        (tokenHead ActHdr SPEC_MRP DialogToken ++ (emptyReportElement info).bytes).length before =
      some (DialogToken, true, out) ∧
      reported out = (info, behind.take (reportLen info.ReportType)) := by
  have hroom : reportLen info.ReportType ≤ behind.length :=
    Nat.le_trans (reportLen_le _) hbehind
  have hfields : measureReport ((emptyReportElement info).data ++ behind) =
      some (info, behind.take (reportLen info.ReportType)) := by
    refine Option.map_eq_some_iff.mpr ⟨_, ?_, rfl⟩
    exact if_pos hroom
  refine ⟨_, token_written SPEC_MRP (emptyReportElement info) (by omega) hfields, ?_⟩
  exact reported_moveReport _ _ _ hfields

theorem report_understood_iff (info : MEASURE_REPORT_INFO) (pReportInfo : ReportInfo info.ReportType)
    (before : MEASURE_REPORT_INFO × List UInt8) :
    ReportUnderstood ActHdr DialogToken info pReportInfo before ↔ reportLen info.ReportType = 0 := by
  have hframe := length_le_of_written (emptyReportElement info)
    (Nat.le_of_eq (length_tokenHead ActHdr SPEC_MRP DialogToken)) (Nat.le_of_ble_eq_true rfl)
  by_cases hbytes : pReportInfo.bytes.length = 0
  · have hlen : pReportInfo.len = 0 := by
      rw [ReportInfo.len, hbytes]
      rfl
    rw [ReportUnderstood, hlen, understood_made_iff (add_two_le hframe) fun heap =>
      EnqueueMeasurementRep_made ActHdr DialogToken info.Token info.ReportMode info.ReportType _,
      List.length_eq_zero_iff.mp hbytes]
    constructor
    · intro h
      have hroom : (tokenHead ActHdr SPEC_MRP DialogToken ++ (emptyReportElement info).bytes).length +
          (List.replicate (MGMT_DMA_BUFFER_SIZE - (tokenHead ActHdr SPEC_MRP DialogToken ++
            (emptyReportElement info).bytes).length) (0 : UInt8)).length = MGMT_DMA_BUFFER_SIZE := by
        rw [List.length_replicate]
        have := add_two_le hframe
        omega
      obtain ⟨v, hv, -, -, hreported⟩ := h _ hroom
      have hbehind := le_length_behind hframe hroom
      obtain ⟨out, hout, hfound⟩ := emptyReport_found ActHdr DialogToken info before hbehind
      obtain rfl := Option.some.inj (hv.symm.trans hout)
      have hnone := congrArg List.length (Prod.mk.inj (hfound.symm.trans hreported)).2
      have hle := reportLen_le info.ReportType
      rw [List.length_take, List.length_nil] at hnone
      omega
    · intro hzero behind hroom
      obtain ⟨out, hout, hfound⟩ := emptyReport_found ActHdr DialogToken info before
        (le_length_behind hframe hroom)
      refine ⟨_, hout, rfl, rfl, ?_⟩
      rw [hfound, hzero]
      rfl
  · have hsome := pReportInfo.length_bytes
    have hle := reportLen_le info.ReportType
    split at hsome
    · refine iff_of_false (fun h => ?_) (by omega)
      have hheap : (List.replicate MGMT_DMA_BUFFER_SIZE (0 : UInt8)).length = MGMT_DMA_BUFFER_SIZE :=
        List.length_replicate
      obtain ⟨pOutBuffer, FrameLen, hrun, -⟩ := h _ hheap
      have hlen : pReportInfo.len.toNat = pReportInfo.bytes.length := by
        rw [ReportInfo.len, UInt8.toNat_ofNat', Nat.mod_eq_of_lt (by omega)]
      have hlong : 3 < (3 + pReportInfo.len).toNat := by
        rw [UInt8.toNat_add, hlen]
        have : (3 : UInt8).toNat = 3 := rfl
        omega
      rw [EnqueueMeasurementRep_none ActHdr DialogToken info.Token info.ReportMode info.ReportType _
        hlong hheap] at hrun
      cases hrun
    · exact absurd hsome hbytes

end Reports

/-- All frames but reports that carry information, or should, are understood. -/
theorem understood_by_peer_iff (ActHdr : Vector UInt8 HEADER_802_11_SIZE) (DialogToken : UInt8)
    (rep : MEASURE_REPORT_INFO) (pReportInfo : ReportInfo rep.ReportType)
    (before : MEASURE_REPORT_INFO × List UInt8) (tpc tpcBefore : TPC_REPORT_INFO)
    (ChSwMode NewCh : UInt8) (annBefore : CH_SW_ANN_INFO) :
    (ReportUnderstood ActHdr DialogToken rep pReportInfo before ↔
      rep.ReportType ≠ RM_BASIC ∧ rep.ReportType ≠ RM_CCA ∧ rep.ReportType ≠ RM_RPI_HISTOGRAM) ∧
    TpcReqUnderstood ActHdr DialogToken ∧
    TpcRepUnderstood ActHdr DialogToken tpc tpcBefore ∧
    ChSwAnnUnderstood ActHdr ChSwMode NewCh annBefore :=
  ⟨(report_understood_iff rep pReportInfo before).trans reportLen_eq_zero, tpcReq_understood,
    tpcRep_understood tpc tpcBefore, chSwAnn_understood ChSwMode NewCh annBefore⟩

/-- A basic report, whose structure is read twelve bytes behind its end. -/
theorem basic_report_not_understood :
    ¬ ∀ (ActHdr : Vector UInt8 HEADER_802_11_SIZE) (DialogToken : UInt8) (rep : MEASURE_REPORT_INFO)
      (pReportInfo : ReportInfo rep.ReportType) (before : MEASURE_REPORT_INFO × List UInt8),
      ReportUnderstood ActHdr DialogToken rep pReportInfo before := by
  intro h
  have hbasic := (report_understood_iff _ _ _).mp (h (Vector.replicate HEADER_802_11_SIZE 0) 1
    ⟨1, 0, RM_BASIC⟩ (some (Vector.replicate 12 7)) (⟨0, 0, 0⟩, []))
  cases hbasic

end Ralink.Spectrum
