import Mathlib.Tactic

/-! A scan fills a table with what beacons and probe responses tell of their senders. Its slots are
updated in place, appended, moved down when an entry is deleted, and overwritten in turn when the
table is full. -/
namespace Ralink.Bss

/-- Drivers that save memory have a table of one slot. -/
inductive Build where
  | full
  | memoryOptimization
  deriving DecidableEq

def MAX_LEN_OF_BSS_TABLE : Build → Nat
  | .full => 64
  | .memoryOptimization => 1

theorem MAX_LEN_pos (b : Build) : 0 < MAX_LEN_OF_BSS_TABLE b := by
  cases b <;> decide

def MAX_LEN_OF_SSID : Nat := 32
def MAX_LEN_OF_SUPPORTED_RATES : Nat := 12
def MAX_VIE_LEN : Nat := 1024
def BSS_INFRA : BitVec 8 := 1
def EXTCHA_ABOVE : BitVec 2 := 1
def EXTCHA_BELOW : BitVec 2 := 3

abbrev Byte := BitVec 8

def ZeroSsid : List Byte := List.replicate 32 0

/-- `NdisEqualMemory(Ssid, ZeroSsid, SsidLen)`. -/
def zeroSsid (Ssid : List Byte) : Bool := Ssid == ZeroSsid.take Ssid.length

def NdisMoveMemory (dst src : List Byte) (n : Nat) : List Byte := src.take n ++ dst.drop n

structure CF_PARM where
  bValid : Bool
  CfpCount : BitVec 16
  CfpPeriod : BitVec 16
  CfpMaxDuration : BitVec 16
  CfpDurRemaining : BitVec 16

structure HT_PARM where
  HtCapabilityLen : Byte
  AddHtInfoLen : Byte
  wide : Bool
  ControlChan : Byte
  ExtChanOffset : BitVec 2

/-- What a beacon or a probe response tells, as its sanity check gives it: its SSID and its
other elements fit into the fields they are for. -/
structure Frame where
  Bssid : BitVec 48
  Ssid : List Byte
  BssType : Byte
  BeaconPeriod : BitVec 16
  CfParm : CF_PARM
  AtimWin : BitVec 16
  CapabilityInfo : BitVec 16
  SupRate : List Byte
  ExtRate : List Byte
  Ht : HT_PARM
  NewExtChanOffset : Byte
  Channel : Byte
  Rssi : Byte
  TimeStamp : BitVec 64
  CkipFlag : Byte
  VIE : List Byte
  upTime : BitVec 32
  ssidLen : Ssid.length ≤ MAX_LEN_OF_SSID
  vieLen : VIE.length ≤ MAX_VIE_LEN

structure FIXED_IEs where
  Timestamp : BitVec 64
  BeaconInterval : BitVec 16
  Capabilities : BitVec 16

structure BSS_ENTRY where
  Bssid : BitVec 48
  Channel : Byte
  CentralChannel : Byte
  BssType : Byte
  AtimWin : BitVec 16
  BeaconPeriod : BitVec 16
  SupRate : List Byte
  SupRateLen : Nat
  ExtRate : List Byte
  ExtRateLen : Nat
  HtCapabilityLen : Byte
  AddHtInfoLen : Byte
  NewExtChanOffset : Byte
  Rssi : Byte
  Privacy : Bool
  Hidden : Bool
  CapabilityInfo : BitVec 16
  CfpCount : BitVec 16
  CfpPeriod : BitVec 16
  CfpMaxDuration : BitVec 16
  CfpDurRemaining : BitVec 16
  SsidLen : Nat
  Ssid : List Byte
  LastBeaconRxTime : BitVec 32
  FixIEs : FIXED_IEs
  VarIELen : Nat
  VarIEs : List Byte
  VarIeFromProbeRspLen : Nat
  pVarIeFromProbRsp : Option Nat
  CkipFlag : Byte

/-- The entries, and the memory of the buffers that some of the slots have for the elements of
a probe response. -/
structure BSS_TABLE where
  BssNr : Nat
  BssOverlapNr : Nat
  BssEntry : Nat → BSS_ENTRY
  buffer : Nat → Nat → Byte

/-- Zeroed memory, with the buffer that the slot had. -/
def zeroed (pVarIeFromProbRsp : Option Nat) : BSS_ENTRY where
  Bssid := 0
  Channel := 0
  CentralChannel := 0
  BssType := 0
  AtimWin := 0
  BeaconPeriod := 0
  SupRate := List.replicate MAX_LEN_OF_SUPPORTED_RATES 0
  SupRateLen := 0
  ExtRate := List.replicate MAX_LEN_OF_SUPPORTED_RATES 0
  ExtRateLen := 0
  HtCapabilityLen := 0
  AddHtInfoLen := 0
  NewExtChanOffset := 0
  Rssi := 0
  Privacy := false
  Hidden := false
  CapabilityInfo := 0
  CfpCount := 0
  CfpPeriod := 0
  CfpMaxDuration := 0
  CfpDurRemaining := 0
  SsidLen := 0
  Ssid := List.replicate MAX_LEN_OF_SSID 0
  LastBeaconRxTime := 0
  FixIEs := ⟨0, 0, 0⟩
  VarIELen := 0
  VarIEs := List.replicate MAX_VIE_LEN 0
  VarIeFromProbeRspLen := 0
  pVarIeFromProbRsp := pVarIeFromProbRsp
  CkipFlag := 0

def BSS_ENTRY.ssid (e : BSS_ENTRY) : List Byte := e.Ssid.take e.SsidLen

/-- An entry without the buffer, which stays with the slot. -/
def BSS_ENTRY.content (e : BSS_ENTRY) : BSS_ENTRY := { e with pVarIeFromProbRsp := none }

/-- The elements of a probe response that an entry holds. -/
def BSS_TABLE.probeRsp (Tab : BSS_TABLE) (i : Nat) : List Byte :=
  match (Tab.BssEntry i).pVarIeFromProbRsp with
  | none => []
  | some p => (List.range (Tab.BssEntry i).VarIeFromProbeRspLen).map (Tab.buffer p)

/-- `RTMPZeroMemory(pOldAddr, MAX_VIE_LEN)` of a buffer of that size, if there is one. -/
def zeroBuffer (pOldAddr : Option Nat) (buffer : Nat → Nat → Byte) : Nat → Nat → Byte :=
  match pOldAddr with
  | none => buffer
  | some p => Function.update buffer p fun _ => 0

def BssTableInit (b : Build) (Tab : BSS_TABLE) : BSS_TABLE where
  BssNr := 0
  BssOverlapNr := 0
  BssEntry i :=
    if i < MAX_LEN_OF_BSS_TABLE b then
      { zeroed (Tab.BssEntry i).pVarIeFromProbRsp with Rssi := -127 }
    else Tab.BssEntry i
  buffer :=
    (List.range (MAX_LEN_OF_BSS_TABLE b)).foldl
      (fun buffer i => zeroBuffer (Tab.BssEntry i).pVarIeFromProbRsp buffer) Tab.buffer

/-- Channels of the 2.4 GHz band, or of the 5 GHz band. -/
def sameBand (c c' : Byte) : Bool := (c ≤ 14 && c' ≤ 14) || (14 < c && 14 < c')

/-- `none` is `BSS_NOT_FOUND`. -/
def BssTableSearch (Tab : BSS_TABLE) (pBssid : BitVec 48) (Channel : Byte) : Option Nat :=
  (List.range Tab.BssNr).find? fun i =>
    sameBand (Tab.BssEntry i).Channel Channel && (Tab.BssEntry i).Bssid == pBssid

/-- Entry `j + 1` is moved to slot `j`, the elements of its probe response into the buffer of
that slot. -/
def moveDown (Tab : BSS_TABLE) (j : Nat) : BSS_TABLE :=
  let next := Tab.BssEntry (j + 1)
  match (Tab.BssEntry j).pVarIeFromProbRsp with
  | none => { Tab with BssEntry := Function.update Tab.BssEntry j next }
  | some p =>
    let zeros := zeroBuffer (some p) Tab.buffer
    { Tab with
      BssEntry := Function.update Tab.BssEntry j { next with pVarIeFromProbRsp := some p }
      buffer :=
        match next.pVarIeFromProbRsp with
        | none => zeros
        | some q =>
          Function.update zeros p fun k =>
            if k < next.VarIeFromProbeRspLen then zeros q k else zeros p k }

/-- The loop from `j` on, for this many entries. -/
def moveAllDown (Tab : BSS_TABLE) (j : Nat) : Nat → BSS_TABLE
  | 0 => Tab
  | n + 1 => moveAllDown (moveDown Tab j) (j + 1) n

def clearLast (Tab : BSS_TABLE) : BSS_TABLE :=
  let pOldAddr := (Tab.BssEntry (Tab.BssNr - 1)).pVarIeFromProbRsp
  { Tab with
    BssEntry := Function.update Tab.BssEntry (Tab.BssNr - 1) (zeroed pOldAddr)
    buffer := zeroBuffer pOldAddr Tab.buffer
    BssNr := Tab.BssNr - 1 }

/-- The entry that is to be deleted has this very channel. -/
def deleteIndex (Tab : BSS_TABLE) (pBssid : BitVec 48) (Channel : Byte) : Option Nat :=
  (List.range Tab.BssNr).find? fun i =>
    (Tab.BssEntry i).Channel == Channel && (Tab.BssEntry i).Bssid == pBssid

def BssTableDeleteEntry (Tab : BSS_TABLE) (pBssid : BitVec 48) (Channel : Byte) : BSS_TABLE :=
  match deleteIndex Tab pBssid Channel with
  | none => Tab
  | some i => clearLast (moveAllDown Tab i (Tab.BssNr - 1 - i))

/-- A hidden SSID has no bytes or only zero ones; it leaves the SSID that is in the slot. -/
def setSsid (Ssid : List Byte) (pBss : BSS_ENTRY) : BSS_ENTRY :=
  if 0 < Ssid.length then
    if zeroSsid Ssid then { pBss with Hidden := true }
    else
      { pBss with
        Ssid := NdisMoveMemory (List.replicate MAX_LEN_OF_SSID 0) Ssid Ssid.length
        SsidLen := Ssid.length
        Hidden := false }
  else if zeroSsid pBss.ssid then
    { pBss with Ssid := List.replicate MAX_LEN_OF_SSID 0, SsidLen := 0, Hidden := true }
  else { pBss with Hidden := true }

def setTiming (frame : Frame) (pBss : BSS_ENTRY) : BSS_ENTRY :=
  if frame.BssType = BSS_INFRA then
    if frame.CfParm.bValid then
      { pBss with
        CfpCount := frame.CfParm.CfpCount
        CfpPeriod := frame.CfParm.CfpPeriod
        CfpMaxDuration := frame.CfParm.CfpMaxDuration
        CfpDurRemaining := frame.CfParm.CfpDurRemaining }
    else pBss
  else { pBss with AtimWin := frame.AtimWin }

def CentralChannel (frame : Frame) : Byte :=
  if 0 < frame.Ht.HtCapabilityLen ∧ 0 < frame.Ht.AddHtInfoLen then
    if 2 < frame.Ht.ControlChan ∧ frame.Ht.ExtChanOffset = EXTCHA_BELOW ∧ frame.Ht.wide then
      frame.Ht.ControlChan - 2
    else if frame.Ht.ExtChanOffset = EXTCHA_ABOVE ∧ frame.Ht.wide then
      frame.Ht.ControlChan + 2
    else frame.Channel
  else frame.Channel

def BssEntrySet (frame : Frame) (pBss : BSS_ENTRY) : BSS_ENTRY :=
  let pBss := setTiming frame (setSsid frame.Ssid { pBss with Bssid := frame.Bssid })
  let ExtRateLen := min frame.ExtRate.length MAX_LEN_OF_SUPPORTED_RATES
  { pBss with
    BssType := frame.BssType
    BeaconPeriod := frame.BeaconPeriod
    LastBeaconRxTime := frame.upTime
    CapabilityInfo := frame.CapabilityInfo
    Privacy := frame.CapabilityInfo &&& 0x0010 ≠ 0
    SupRate :=
      NdisMoveMemory pBss.SupRate frame.SupRate
        (min frame.SupRate.length MAX_LEN_OF_SUPPORTED_RATES)
    SupRateLen := frame.SupRate.length
    ExtRate := NdisMoveMemory pBss.ExtRate frame.ExtRate ExtRateLen
    NewExtChanOffset := frame.NewExtChanOffset
    ExtRateLen
    Channel := frame.Channel
    CentralChannel := CentralChannel frame
    Rssi := frame.Rssi
    CkipFlag := frame.CkipFlag
    FixIEs := ⟨frame.TimeStamp, frame.BeaconPeriod, frame.CapabilityInfo⟩
    VarIELen := frame.VIE.length
    VarIEs := NdisMoveMemory pBss.VarIEs frame.VIE frame.VIE.length
    HtCapabilityLen := frame.Ht.HtCapabilityLen
    AddHtInfoLen := if 0 < frame.Ht.HtCapabilityLen then frame.Ht.AddHtInfoLen else 0 }

/-- The access point that the driver wants to join. -/
structure MLME_AUX where
  Bssid : BitVec 48
  Ssid : List Byte

/-- What is read of the adapter; there is an `ApCliMlmeAux` in drivers with AP clients. -/
structure RTMP_ADAPTER where
  MEDIA_STATE_CONNECTED : Bool
  AP_MEDIA_STATE_CONNECTED : Bool
  MlmeAux : MLME_AUX
  ApCliMlmeAux : Option MLME_AUX

def desired (frame : Frame) (aux : MLME_AUX) : Bool :=
  aux.Bssid == frame.Bssid || aux.Ssid == frame.Ssid

/-- A full table is overwritten only for an access point that the driver wants to join. -/
def mayOverwrite (pAd : RTMP_ADAPTER) (frame : Frame) : Bool :=
  (!pAd.MEDIA_STATE_CONNECTED || !pAd.AP_MEDIA_STATE_CONNECTED) &&
    (desired frame pAd.MlmeAux || pAd.ApCliMlmeAux.any (desired frame))

def BSS_TABLE.set (Tab : BSS_TABLE) (Idx : Nat) (frame : Frame) : BSS_TABLE :=
  { Tab with
    BssEntry := Function.update Tab.BssEntry Idx (BssEntrySet frame (Tab.BssEntry Idx)) }

def BssTableSetEntry (b : Build) (pAd : RTMP_ADAPTER) (frame : Frame) (Tab : BSS_TABLE) :
    Option Nat × BSS_TABLE :=
  match BssTableSearch Tab frame.Bssid frame.Channel with
  | none =>
    if MAX_LEN_OF_BSS_TABLE b ≤ Tab.BssNr then
      if mayOverwrite pAd frame then
        let Idx := Tab.BssOverlapNr
        (some Idx,
          { Tab.set Idx frame with
            BssOverlapNr := (Tab.BssOverlapNr + 1) % MAX_LEN_OF_BSS_TABLE b })
      else (none, Tab)
    else (some Tab.BssNr, { Tab.set Tab.BssNr frame with BssNr := Tab.BssNr + 1 })
  | some Idx => (some Idx, Tab.set Idx frame)

@[simp] theorem zeroSsid_nil : zeroSsid [] = true := rfl

theorem sameBand_iff (c c' : Byte) : sameBand c c' = true ↔ (c ≤ 14 ↔ c' ≤ 14) := by
  simp only [sameBand, Bool.or_eq_true, Bool.and_eq_true, decide_eq_true_eq]
  bv_omega

variable {b : Build} {Tab : BSS_TABLE} {pBssid : BitVec 48} {Channel : Byte} {i j : Nat}
  (frame : Frame) {Ssid : List Byte} (pBss : BSS_ENTRY)

def Holds (Tab : BSS_TABLE) (i : Nat) (pBssid : BitVec 48) (Channel : Byte) : Prop :=
  sameBand (Tab.BssEntry i).Channel Channel = true ∧ (Tab.BssEntry i).Bssid = pBssid

theorem search_some (h : BssTableSearch Tab pBssid Channel = some i) :
    i < Tab.BssNr ∧ Holds Tab i pBssid Channel := by
  refine ⟨List.mem_range.mp (List.mem_of_find?_eq_some h), ?_⟩
  have hfound := List.find?_some h
  rw [Bool.and_eq_true, beq_iff_eq] at hfound
  exact hfound

theorem search_none (h : BssTableSearch Tab pBssid Channel = none) (hi : i < Tab.BssNr) :
    ¬ Holds Tab i pBssid Channel := by
  intro hholds
  have hmiss := List.find?_eq_none.mp h i (List.mem_range.mpr hi)
  rw [Bool.and_eq_true, beq_iff_eq] at hmiss
  exact hmiss hholds

@[simp] theorem setTiming_ssid : (setTiming frame pBss).ssid = pBss.ssid := by
  unfold setTiming
  split
  · split <;> rfl
  · rfl

@[simp] theorem setTiming_Bssid : (setTiming frame pBss).Bssid = pBss.Bssid := by
  unfold setTiming
  split
  · split <;> rfl
  · rfl

@[simp] theorem setTiming_VarIeFromProbeRspLen :
    (setTiming frame pBss).VarIeFromProbeRspLen = pBss.VarIeFromProbeRspLen := by
  unfold setTiming
  split
  · split <;> rfl
  · rfl

theorem setSsid_shown (h : zeroSsid Ssid = false) (pBss : BSS_ENTRY) :
    (setSsid Ssid pBss).ssid = Ssid := by
  have hpos : 0 < Ssid.length := by
    refine List.length_pos_of_ne_nil ?_
    rintro rfl
    exact Bool.noConfusion h
  rw [setSsid, if_pos hpos, h]
  simp [BSS_ENTRY.ssid, NdisMoveMemory]

theorem setSsid_hidden (h : zeroSsid Ssid = true) {pBss : BSS_ENTRY}
    (hnamed : pBss.ssid ≠ [] → zeroSsid pBss.ssid = false) :
    (setSsid Ssid pBss).ssid = pBss.ssid := by
  unfold setSsid
  by_cases hpos : 0 < Ssid.length
  · rw [if_pos hpos, if_pos h]
    rfl
  rw [if_neg hpos]
  by_cases hzero : zeroSsid pBss.ssid = true
  · rw [if_pos hzero]
    by_cases hnil : pBss.ssid = []
    · rw [hnil]
      rfl
    · rw [hnamed hnil] at hzero
      exact Bool.noConfusion hzero
  · rw [if_neg hzero]
    rfl

theorem setSsid_Bssid (Ssid : List Byte) (pBss : BSS_ENTRY) :
    (setSsid Ssid pBss).Bssid = pBss.Bssid ∧
      (setSsid Ssid pBss).VarIeFromProbeRspLen = pBss.VarIeFromProbeRspLen := by
  unfold setSsid
  split
  · split <;> exact ⟨rfl, rfl⟩
  · split <;> exact ⟨rfl, rfl⟩

section

variable (frame : Frame) (pBss : BSS_ENTRY)

@[simp] theorem BssEntrySet_Bssid : (BssEntrySet frame pBss).Bssid = frame.Bssid := by
  rw [BssEntrySet, setTiming_Bssid, (setSsid_Bssid _ _).1]

@[simp] theorem BssEntrySet_Channel : (BssEntrySet frame pBss).Channel = frame.Channel := rfl

@[simp] theorem BssEntrySet_VarIeFromProbeRspLen :
    (BssEntrySet frame pBss).VarIeFromProbeRspLen = pBss.VarIeFromProbeRspLen := by
  rw [BssEntrySet, setTiming_VarIeFromProbeRspLen, (setSsid_Bssid _ _).2]

theorem BssEntrySet_ssid :
    (BssEntrySet frame pBss).ssid =
      (setSsid frame.Ssid { pBss with Bssid := frame.Bssid }).ssid :=
  setTiming_ssid frame _

end

/-- What is left of the table when entry `i` is deleted: the entries behind it have moved to the
slot before, but for the buffers, and an empty slot follows them. -/
structure Deleted (Tab Tab' : BSS_TABLE) (i : Nat) : Prop where
  index : i < Tab.BssNr
  nr : Tab'.BssNr + 1 = Tab.BssNr
  overlap : Tab'.BssOverlapNr = Tab.BssOverlapNr
  before : ∀ j < i, Tab'.BssEntry j = Tab.BssEntry j
  after : ∀ j, i ≤ j → j + 1 < Tab.BssNr →
    (Tab'.BssEntry j).content = (Tab.BssEntry (j + 1)).content
  last : (Tab'.BssEntry (Tab.BssNr - 1)).content = zeroed none
  beyond : ∀ j, Tab.BssNr ≤ j → Tab'.BssEntry j = Tab.BssEntry j

theorem moveDown_nr (Tab : BSS_TABLE) (j : Nat) :
    (moveDown Tab j).BssNr = Tab.BssNr ∧ (moveDown Tab j).BssOverlapNr = Tab.BssOverlapNr := by
  unfold moveDown
  split <;> exact ⟨rfl, rfl⟩

theorem moveDown_content (Tab : BSS_TABLE) (j : Nat) :
    ((moveDown Tab j).BssEntry j).content = (Tab.BssEntry (j + 1)).content := by
  unfold moveDown
  split
  · simp only [Function.update_self]
  · simp only [Function.update_self]
    rfl

theorem moveDown_other (Tab : BSS_TABLE) {j k : Nat} (h : k ≠ j) :
    (moveDown Tab j).BssEntry k = Tab.BssEntry k := by
  unfold moveDown
  split
  · exact Function.update_of_ne h _ _
  · exact Function.update_of_ne h _ _

theorem moveAllDown_spec (n : Nat) (Tab : BSS_TABLE) (i : Nat) :
    (moveAllDown Tab i n).BssNr = Tab.BssNr ∧
      (moveAllDown Tab i n).BssOverlapNr = Tab.BssOverlapNr ∧
      (∀ j, j < i ∨ i + n ≤ j → (moveAllDown Tab i n).BssEntry j = Tab.BssEntry j) ∧
      ∀ j, i ≤ j → j < i + n →
        ((moveAllDown Tab i n).BssEntry j).content = (Tab.BssEntry (j + 1)).content := by
  induction n generalizing Tab i with
  | zero => exact ⟨rfl, rfl, fun _ _ => rfl, fun j _ _ => by omega⟩
  | succ n ih =>
    obtain ⟨hnr, hoverlap, hother, hmoved⟩ := ih (moveDown Tab i) (i + 1)
    have hdown := moveDown_nr Tab i
    refine ⟨hnr.trans hdown.1, hoverlap.trans hdown.2, fun j hj => ?_, fun j hij hj => ?_⟩
    · exact (hother j (by omega)).trans (moveDown_other Tab (by omega))
    · rcases eq_or_lt_of_le hij with rfl | hlt
      · have hsame := hother i (.inl (Nat.lt_succ_self i))
        exact (congrArg BSS_ENTRY.content hsame).trans (moveDown_content Tab i)
      · rw [← moveDown_other Tab (show j + 1 ≠ i by omega)]
        exact hmoved j hlt (by omega)

theorem deleteIndex_some (h : deleteIndex Tab pBssid Channel = some i) :
    i < Tab.BssNr ∧ (Tab.BssEntry i).Channel = Channel ∧ (Tab.BssEntry i).Bssid = pBssid := by
  refine ⟨List.mem_range.mp (List.mem_of_find?_eq_some h), ?_⟩
  have hfound := List.find?_some h
  rw [Bool.and_eq_true, beq_iff_eq, beq_iff_eq] at hfound
  exact hfound

theorem delete_spec (h : deleteIndex Tab pBssid Channel = some i) :
    Deleted Tab (BssTableDeleteEntry Tab pBssid Channel) i := by
  have hi := (deleteIndex_some h).1
  obtain ⟨hnr, hoverlap, hother, hmoved⟩ := moveAllDown_spec (Tab.BssNr - 1 - i) Tab i
  have hend : i + (Tab.BssNr - 1 - i) = Tab.BssNr - 1 := by omega
  rw [hend] at hother hmoved
  have hclear : ∀ j, j ≠ Tab.BssNr - 1 →
      (BssTableDeleteEntry Tab pBssid Channel).BssEntry j =
        (moveAllDown Tab i (Tab.BssNr - 1 - i)).BssEntry j := by
    intro j hj
    simp only [BssTableDeleteEntry, h, clearLast, hnr]
    exact Function.update_of_ne hj _ _
  refine ⟨hi, ?_, ?_, fun j hj => ?_, fun j hij hj => ?_, ?_, fun j hj => ?_⟩
  · simp only [BssTableDeleteEntry, h, clearLast, hnr]
    omega
  · simp only [BssTableDeleteEntry, h, clearLast]
    exact hoverlap
  · exact (hclear j (by omega)).trans (hother j (.inl hj))
  · rw [hclear j (by omega)]
    exact hmoved j hij (by omega)
  · simp only [BssTableDeleteEntry, h, clearLast, hnr, Function.update_self]
    rfl
  · exact (hclear j (by omega)).trans (hother j (.inr (by omega)))

variable {p : Nat → Nat}

end Ralink.Bss
