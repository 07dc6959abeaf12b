import Ralink.Lib.ByteStore
import Ralink.Lib.Run

/-! One record holds the fragments of a frame until the last one has come: the bytes so far, the
sequence number, and the number of the last fragment. -/
namespace Ralink.Defrag
open ByteStore

variable {fragFrame : FRAGMENT_FRAME} (pRxBlk : RX_BLK)

def MAX_FRAME_SIZE : Nat := 2346
def RX_BUFFER_NORMSIZE : Nat := 3840
def SNAP_802_1H : List UInt8 := [0xaa, 0xaa, 0x03, 0x00, 0x00, 0x00]

/-- A received frame: what the receive function reads of its 802.11 header, the bytes from
`pHeader` up to `pData`, and the memory from there on. -/
structure RX_BLK where
  Frag : BitVec 4
  MoreFrag : Bool
  Sequence : BitVec 12
  Addr2 : BitVec 48
  header : List UInt8
  pData : Store
  DataSize : Nat
  headerRoom : header.length < 256
  dataSize : DataSize < 2 ^ 16

def RX_BLK.HeaderRoom (pRxBlk : RX_BLK) : Nat := pRxBlk.header.length

def RX_BLK.payload (pRxBlk : RX_BLK) : List UInt8 := readBytes pRxBlk.pData 0 pRxBlk.DataSize

structure FRAGMENT_FRAME where
  pFragPacket : Store
  RxSize : Nat
  Sequence : Nat
  LastFrag : Nat
  Flags : Nat

def RESET_FRAGFRAME (fragFrame : FRAGMENT_FRAME) : FRAGMENT_FRAME :=
  { fragFrame with RxSize := 0, Sequence := 0, LastFrag := 0, Flags := 0 }

/-- What the receive block is made to describe: `pHeader`, the bytes up to `pData`, and the
16-bit size of the data. -/
structure Packet where
  pHeader : Store
  HeaderRoom : Nat
  DataSize : Nat

def Packet.bytes (packet : Packet) : List UInt8 :=
  readBytes packet.pHeader 0 (packet.HeaderRoom + packet.DataSize)

def fits (fragFrame : FRAGMENT_FRAME) (pRxBlk : RX_BLK) : Prop :=
  pRxBlk.Sequence.toNat = fragFrame.Sequence ∧ pRxBlk.Frag.toNat = fragFrame.LastFrag + 1

def tooLarge (fragFrame : FRAGMENT_FRAME) (pRxBlk : RX_BLK) : Prop :=
  MAX_FRAME_SIZE < fragFrame.RxSize + pRxBlk.DataSize

/-- A fragment that starts with a header that only the first one may have. -/
def anotherLLC (pRxBlk : RX_BLK) : Prop := readBytes pRxBlk.pData 0 6 = SNAP_802_1H

instance (fragFrame : FRAGMENT_FRAME) (pRxBlk : RX_BLK) : Decidable (fits fragFrame pRxBlk) :=
  inferInstanceAs (Decidable (_ ∧ _))

instance (fragFrame : FRAGMENT_FRAME) (pRxBlk : RX_BLK) :
    Decidable (tooLarge fragFrame pRxBlk) := inferInstanceAs (Decidable (_ < _))

instance (pRxBlk : RX_BLK) : Decidable (anotherLLC pRxBlk) :=
  inferInstanceAs (Decidable (_ = _))

def record (pRxBlk : RX_BLK) (fragFrame : FRAGMENT_FRAME) : FRAGMENT_FRAME :=
  { fragFrame with
    RxSize := pRxBlk.DataSize + pRxBlk.HeaderRoom
    pFragPacket := writeBytes fragFrame.pFragPacket 0 (pRxBlk.header ++ pRxBlk.payload)
    Sequence := pRxBlk.Sequence.toNat
    LastFrag := pRxBlk.Frag.toNat }

def concatenate (pRxBlk : RX_BLK) (fragFrame : FRAGMENT_FRAME) : FRAGMENT_FRAME :=
  { fragFrame with
    pFragPacket := writeBytes fragFrame.pFragPacket fragFrame.RxSize pRxBlk.payload
    RxSize := fragFrame.RxSize + pRxBlk.DataSize
    LastFrag := pRxBlk.Frag.toNat }

/-- The packet is handed over when there is another buffer for the record; `alloc` is what was
in its memory. -/
def complete (alloc : Option Store) (pRxBlk : RX_BLK) (fragFrame : FRAGMENT_FRAME) :
    Option Packet × FRAGMENT_FRAME :=
  match alloc with
  | some pNewFragPacket =>
    (some
      { pHeader := fragFrame.pFragPacket
        HeaderRoom := pRxBlk.HeaderRoom
        DataSize := (fragFrame.RxSize + 2 ^ 16 - pRxBlk.HeaderRoom) % 2 ^ 16 },
      { fragFrame with pFragPacket := pNewFragPacket })
  | none => (none, RESET_FRAGFRAME fragFrame)

def RTMPDeFragmentDataFrame (alloc : Option Store) (pRxBlk : RX_BLK)
    (fragFrame : FRAGMENT_FRAME) : Option Packet × FRAGMENT_FRAME :=
  if pRxBlk.Frag = 0 then
    if pRxBlk.MoreFrag then (none, record pRxBlk fragFrame) else (none, fragFrame)
  else if ¬ fits fragFrame pRxBlk then (none, RESET_FRAGFRAME fragFrame)
  else if tooLarge fragFrame pRxBlk then (none, RESET_FRAGFRAME fragFrame)
  else if anotherLLC pRxBlk then (none, fragFrame)
  else
    let fragFrame := concatenate pRxBlk fragFrame
    if pRxBlk.MoreFrag then (none, fragFrame) else complete alloc pRxBlk fragFrame

def zeroed (pFragPacket : Store) : FRAGMENT_FRAME := ⟨pFragPacket, 0, 0, 0, 0⟩

@[simp] theorem RX_BLK.length_payload :
    pRxBlk.payload.length = pRxBlk.DataSize := length_readBytes _ _ _

def Holds (fragFrame : FRAGMENT_FRAME) (bytes : List UInt8) : Prop :=
  fragFrame.RxSize = bytes.length ∧ readBytes fragFrame.pFragPacket 0 fragFrame.RxSize = bytes

theorem record_holds (fragFrame : FRAGMENT_FRAME) :
    Holds (record pRxBlk fragFrame) (pRxBlk.header ++ pRxBlk.payload) := by
  have hsize : pRxBlk.DataSize + pRxBlk.HeaderRoom =
      (pRxBlk.header ++ pRxBlk.payload).length := by
    rw [List.length_append, RX_BLK.length_payload, RX_BLK.HeaderRoom, Nat.add_comm]
  refine ⟨hsize, ?_⟩
  simp only [record]
  rw [hsize, readBytes_writeBytes]

theorem Holds.concatenate {bytes : List UInt8} (h : Holds fragFrame bytes) (pRxBlk : RX_BLK) :
    Holds (concatenate pRxBlk fragFrame) (bytes ++ pRxBlk.payload) := by
  obtain ⟨hsize, hbytes⟩ := h
  refine ⟨?_, ?_⟩
  · simp only [Defrag.concatenate]
    rw [List.length_append, RX_BLK.length_payload, hsize]
  · simp only [Defrag.concatenate]
    rw [readBytes_add, readBytes_writeBytes_disjoint (.inl (Nat.zero_add _).le), hbytes,
      Nat.zero_add]
    have hread := readBytes_writeBytes fragFrame.pFragPacket fragFrame.RxSize pRxBlk.payload
    rw [RX_BLK.length_payload] at hread
    rw [hread]

theorem Holds.bytes_eq {bytes : List UInt8} (h : Holds fragFrame bytes) {HeaderRoom : Nat}
    (hroom : HeaderRoom ≤ fragFrame.RxSize) (hsize : fragFrame.RxSize < 2 ^ 16) :
    Packet.bytes ⟨fragFrame.pFragPacket, HeaderRoom,
      (fragFrame.RxSize + 2 ^ 16 - HeaderRoom) % 2 ^ 16⟩ = bytes := by
  have heq : HeaderRoom + (fragFrame.RxSize + 2 ^ 16 - HeaderRoom) % 2 ^ 16 =
      fragFrame.RxSize := by omega
  rw [Packet.bytes, heq]
  exact h.2

end Ralink.Defrag

/-! What a reassembled frame is made of. -/
namespace Ralink.Defrag
open ByteStore

variable {o : Opened} {blk : RX_BLK}

/-- A frame that is received, and whether a buffer can be had when it completes a packet. -/
structure Rx where
  blk : RX_BLK
  alloc : Option Store

/-- A first fragment that is in the record, and what was received since. -/
structure Opened where
  first : RX_BLK
  since : List RX_BLK

def Opened.push (o : Opened) (blk : RX_BLK) : Opened := { o with since := o.since ++ [blk] }

/-- A fragment that is taken into the record behind the first one, if any is. -/
def counted (blk : RX_BLK) : Bool := blk.Frag ≠ 0 ∧ ¬ anotherLLC blk

def Opened.frags (o : Opened) : List RX_BLK := o.since.filter counted

/-- What was received and the first fragment that counts are kept along. -/
structure State where
  fragFrame : FRAGMENT_FRAME
  past : List RX_BLK
  opened : Option Opened

def start (buffer : Store) : State := ⟨zeroed buffer, [], none⟩

/-- A first fragment counts until the record is reset or a packet is complete. -/
def reopen (f : FRAGMENT_FRAME) (blk : RX_BLK) (opened : Option Opened) : Option Opened :=
  if blk.Frag = 0 then
    if blk.MoreFrag then some ⟨blk, []⟩ else opened.map (·.push blk)
  else if ¬ fits f blk ∨ tooLarge f blk then none
  else if anotherLLC blk ∨ blk.MoreFrag then opened.map (·.push blk)
  else none

def step (s : State) (rx : Rx) : State where
  fragFrame := (RTMPDeFragmentDataFrame rx.alloc rx.blk s.fragFrame).2
  past := s.past ++ [rx.blk]
  opened := reopen s.fragFrame rx.blk s.opened

/-- A fragment that is put into the record belongs to the first one that counts: there is one,
from the same transmitter. The header of the last one is no longer than what was gathered. -/
def Sound (s : State) (rx : Rx) : Prop :=
  rx.blk.Frag ≠ 0 → fits s.fragFrame rx.blk → ¬ tooLarge s.fragFrame rx.blk →
    ¬ anotherLLC rx.blk →
    (∃ o ∈ s.opened, rx.blk.Addr2 = o.first.Addr2) ∧
      (rx.blk.MoreFrag = false →
        rx.blk.HeaderRoom ≤ s.fragFrame.RxSize + rx.blk.DataSize)

/-- The fragments `1, 2, …` of a first one, with its transmitter and its sequence number. -/
structure Follow (first : RX_BLK) (frags : List RX_BLK) : Prop where
  isFirst : first.Frag = 0 ∧ first.MoreFrag = true
  numbered : ∀ k (h : k < frags.length), frags[k].Frag.toNat = k + 1
  same : ∀ blk ∈ frags, blk.Addr2 = first.Addr2 ∧ blk.Sequence = first.Sequence

def joined (first : RX_BLK) (frags : List RX_BLK) : List UInt8 :=
  first.header ++ first.payload ++ frags.flatMap (·.payload)

structure Live (s : State) (o : Opened) : Prop where
  past : ∃ before, s.past = before ++ o.first :: o.since
  follow : Follow o.first o.frags
  more : ∀ blk ∈ o.frags, blk.MoreFrag = true
  sequence : s.fragFrame.Sequence = o.first.Sequence.toNat
  lastFrag : s.fragFrame.LastFrag = o.frags.length
  holds : Holds s.fragFrame (joined o.first o.frags)

theorem Follow.snoc {first blk : RX_BLK} {frags : List RX_BLK} (h : Follow first frags)
    (hfrag : blk.Frag.toNat = frags.length + 1)
    (hsame : blk.Addr2 = first.Addr2 ∧ blk.Sequence = first.Sequence) :
    Follow first (frags ++ [blk]) := by
  refine ⟨h.isFirst, fun k hk => ?_, fun b hb => ?_⟩
  · rcases Nat.lt_or_ge k frags.length with hlt | hge
    · rw [List.getElem_append_left hlt]
      exact h.numbered k hlt
    · rw [List.length_append, List.length_singleton] at hk
      obtain rfl : k = frags.length := by omega
      rw [List.getElem_concat_length rfl]
      exact hfrag
  · rcases List.mem_append.mp hb with hb | hb
    · exact h.same b hb
    · rw [List.mem_singleton.mp hb]
      exact hsame

theorem joined_snoc (first blk : RX_BLK) (frags : List RX_BLK) :
    joined first (frags ++ [blk]) = joined first frags ++ blk.payload := by
  simp [joined]

theorem frags_push_counted (h : counted blk = true) : (o.push blk).frags = o.frags ++ [blk] := by
  rw [Opened.frags, Opened.push, List.filter_append, List.filter_singleton, h]
  rfl

theorem frags_push_skipped (h : counted blk = false) : (o.push blk).frags = o.frags := by
  rw [Opened.frags, Opened.push, List.filter_append, List.filter_singleton, h]
  exact List.append_nil _

variable {s : State} {rx : Rx}

theorem live_past (hs : Live s o) (blk : RX_BLK) :
    ∃ before, s.past ++ [blk] = before ++ o.first :: (o.since ++ [blk]) := by
  obtain ⟨before, hpast⟩ := hs.past
  refine ⟨before, ?_⟩
  rw [hpast, List.append_assoc, List.cons_append]

theorem counted_iff : counted blk = true ↔ blk.Frag ≠ 0 ∧ ¬ anotherLLC blk :=
  decide_eq_true_iff

theorem not_counted_iff : counted blk = false ↔ blk.Frag = 0 ∨ anotherLLC blk := by
  rw [← Bool.not_eq_true, counted_iff, not_and_or, not_not, not_not]

theorem step_cases (s : State) (rx : Rx) :
    (rx.blk.Frag = 0 ∧ rx.blk.MoreFrag = true ∧
        (step s rx).fragFrame = record rx.blk s.fragFrame ∧
        (step s rx).opened = some ⟨rx.blk, []⟩) ∨
      (counted rx.blk = false ∧ (step s rx).fragFrame = s.fragFrame ∧
        (step s rx).opened = s.opened.map (·.push rx.blk)) ∨
      (step s rx).opened = none ∨
      (counted rx.blk = true ∧ fits s.fragFrame rx.blk ∧ ¬ tooLarge s.fragFrame rx.blk ∧
        rx.blk.MoreFrag = true ∧ (step s rx).fragFrame = concatenate rx.blk s.fragFrame ∧
        (step s rx).opened = s.opened.map (·.push rx.blk)) := by
  simp only [step, reopen, RTMPDeFragmentDataFrame]
  by_cases hfrag : rx.blk.Frag = 0
  · rw [if_pos hfrag, if_pos hfrag]
    by_cases hmore : rx.blk.MoreFrag = true
    · rw [if_pos hmore, if_pos hmore]
      exact .inl ⟨hfrag, hmore, rfl, rfl⟩
    · rw [if_neg hmore, if_neg hmore]
      exact .inr (.inl ⟨not_counted_iff.mpr (.inl hfrag), rfl, rfl⟩)
  rw [if_neg hfrag, if_neg hfrag]
  by_cases hbad : ¬ fits s.fragFrame rx.blk ∨ tooLarge s.fragFrame rx.blk
  · exact .inr (.inr (.inl (if_pos hbad)))
  obtain ⟨hfits, hsize⟩ := not_or.mp hbad
  rw [if_neg hbad, if_neg hfits, if_neg hsize]
  by_cases hllc : anotherLLC rx.blk
  · rw [if_pos hllc, if_pos (.inl hllc)]
    exact .inr (.inl ⟨not_counted_iff.mpr (.inr hllc), rfl, rfl⟩)
  rw [if_neg hllc]
  by_cases hmore : rx.blk.MoreFrag = true
  · rw [if_pos hmore, if_pos (.inr hmore)]
    exact .inr (.inr (.inr
      ⟨counted_iff.mpr ⟨hfrag, hllc⟩, not_not.mp hfits, hsize, hmore, rfl, rfl⟩))
  · exact .inr (.inr (.inl (if_neg (not_or.mpr ⟨hllc, hmore⟩))))

theorem returned {packet : Packet}
    (h : (RTMPDeFragmentDataFrame rx.alloc rx.blk s.fragFrame).1 = some packet) :
    counted rx.blk = true ∧ fits s.fragFrame rx.blk ∧ ¬ tooLarge s.fragFrame rx.blk ∧
      rx.blk.MoreFrag = false ∧
      packet = ⟨(concatenate rx.blk s.fragFrame).pFragPacket, rx.blk.HeaderRoom,
        ((concatenate rx.blk s.fragFrame).RxSize + 2 ^ 16 - rx.blk.HeaderRoom) % 2 ^ 16⟩ := by
  unfold RTMPDeFragmentDataFrame at h
  by_cases hfrag : rx.blk.Frag = 0
  · rw [if_pos hfrag] at h
    split at h <;> cases h
  by_cases hfits : fits s.fragFrame rx.blk
  · by_cases hsize : tooLarge s.fragFrame rx.blk
    · rw [if_neg hfrag, if_neg (not_not.mpr hfits), if_pos hsize] at h
      cases h
    by_cases hllc : anotherLLC rx.blk
    · rw [if_neg hfrag, if_neg (not_not.mpr hfits), if_neg hsize, if_pos hllc] at h
      cases h
    rw [if_neg hfrag, if_neg (not_not.mpr hfits), if_neg hsize, if_neg hllc] at h
    by_cases hmore : rx.blk.MoreFrag = true
    · rw [if_pos hmore] at h
      cases h
    rw [if_neg hmore] at h
    refine ⟨counted_iff.mpr ⟨hfrag, hllc⟩, hfits, hsize, Bool.not_eq_true _ ▸ hmore, ?_⟩
    cases halloc : rx.alloc with
    | none =>
      rw [halloc, complete] at h
      cases h
    | some pNewFragPacket =>
      rw [halloc, complete] at h
      exact (Option.some.inj h).symm
  · rw [if_neg hfrag, if_pos hfits] at h
    cases h

theorem Live.takes (hs : Live s o) (hfits : fits s.fragFrame blk)
    (haddr : blk.Addr2 = o.first.Addr2) : Follow o.first (o.frags ++ [blk]) := by
  refine hs.follow.snoc ?_ ⟨haddr, BitVec.eq_of_toNat_eq ?_⟩
  · rw [hfits.2, hs.lastFrag]
  · rw [hfits.1, hs.sequence]

theorem step_live (s : State) (rx : Rx) (hs : ∀ o ∈ s.opened, Live s o) (hrx : Sound s rx) :
    ∀ o ∈ (step s rx).opened, Live (step s rx) o := by
  intro o ho
  rcases step_cases s rx with ⟨hfrag, hmore, hrecord, hopened⟩ | ⟨hskip, hrecord, hopened⟩ |
    hopened | ⟨hcounted, hfits, hsize, hmore, hrecord, hopened⟩
  · rw [hopened] at ho
    obtain rfl := Option.some.inj ho
    refine ⟨⟨s.past, rfl⟩, ⟨⟨hfrag, hmore⟩, nofun, nofun⟩, nofun, ?_, ?_, ?_⟩
    · rw [hrecord]
      rfl
    · rw [hrecord, record, hfrag]
      rfl
    · rw [hrecord, joined, Opened.frags, List.filter_nil, List.flatMap_nil, List.append_nil]
      exact record_holds rx.blk s.fragFrame
  · rw [hopened] at ho
    obtain ⟨o', ho', rfl⟩ := Option.map_eq_some_iff.mp ho
    have hlive := hs o' ho'
    have hfrags := frags_push_skipped (o := o') hskip
    refine ⟨live_past hlive rx.blk, ?_, ?_, ?_, ?_, ?_⟩
    · rw [hfrags]
      exact hlive.follow
    · rw [hfrags]
      exact hlive.more
    · rw [hrecord]
      exact hlive.sequence
    · rw [hrecord, hfrags]
      exact hlive.lastFrag
    · rw [hrecord, hfrags]
      exact hlive.holds
  · rw [hopened] at ho
    exact (Option.not_mem_none _ ho).elim
  · rw [hopened] at ho
    obtain ⟨o', ho', rfl⟩ := Option.map_eq_some_iff.mp ho
    have hlive := hs o' ho'
    obtain ⟨hfrag, hllc⟩ := counted_iff.mp hcounted
    obtain ⟨⟨o, ho, haddr⟩, -⟩ := hrx hfrag hfits hsize hllc
    obtain rfl : o = o' := Option.some.inj (ho.symm.trans ho')
    have hfrags := frags_push_counted (o := o) hcounted
    refine ⟨live_past hlive rx.blk, ?_, ?_, ?_, ?_, ?_⟩
    · rw [hfrags]
      exact hlive.takes hfits haddr
    · rw [hfrags]
      intro blk hblk
      rcases List.mem_append.mp hblk with hblk | hblk
      · exact hlive.more blk hblk
      · rw [List.mem_singleton.mp hblk]
        exact hmore
    · rw [hrecord]
      exact hlive.sequence
    · rw [hrecord, hfrags, List.length_append, List.length_singleton, ← hlive.lastFrag, ← hfits.2]
      rfl
    · rw [hrecord, hfrags]
      show Holds _ (joined o.first (o.frags ++ [rx.blk]))
      rw [joined_snoc]
      exact hlive.holds.concatenate rx.blk

/-- The packet is the first fragment and the payloads of those that follow, which end with the
only one that is the last. -/
structure Reassembled (first : RX_BLK) (frags : List RX_BLK) (packet : Packet) : Prop where
  follow : Follow first frags
  last : ∃ init final, frags = init ++ [final] ∧ (∀ blk ∈ init, blk.MoreFrag = true) ∧
    final.MoreFrag = false
  bytes : packet.bytes = joined first frags
  size : packet.bytes.length ≤ RX_BUFFER_NORMSIZE

theorem exec_past (es : List Rx) (s : State) :
    (Run.exec step s es).past = s.past ++ es.map (·.blk) := by
  induction es generalizing s with
  | nil => exact (List.append_nil _).symm
  | cons rx es ih =>
    rw [Run.exec_cons, ih, List.map_cons]
    exact List.append_assoc _ _ _

/-- A packet that is returned is reassembled from the last first fragment and what was received
since: of that, all fragments with a number but those that were given up for their LLC
header. -/
theorem run_reassembled (buffer : Store) (es : List Rx) (rx : Rx) (packet : Packet)
    (hsound : Run.AllSteps step Sound (start buffer) (es ++ [rx]))
    (hreturned : (RTMPDeFragmentDataFrame rx.alloc rx.blk
      (Run.exec step (start buffer) es).fragFrame).1 = some packet) :
    ∃ before first since, es.map (·.blk) = before ++ first :: since ∧
      Reassembled first ((since ++ [rx.blk]).filter counted) packet := by
  obtain ⟨hes, hrx, -⟩ := Run.allSteps_append.mp hsound
  have hlive : ∀ o ∈ (Run.exec step (start buffer) es).opened,
      Live (Run.exec step (start buffer) es) o :=
    Run.exec_inv (I := fun s => ∀ o ∈ s.opened, Live s o) step_live
      (fun _ h => (Option.not_mem_none _ h).elim) hes
  have hpast := exec_past es (start buffer)
  obtain ⟨hcounted, hfits, hsize, hmore, rfl⟩ := returned hreturned
  obtain ⟨hfrag, hllc⟩ := counted_iff.mp hcounted
  obtain ⟨⟨o, ho, haddr⟩, hroom⟩ := hrx hfrag hfits hsize hllc
  have ho := hlive o ho
  obtain ⟨before, hbefore⟩ := ho.past
  have hfrags : (o.since ++ [rx.blk]).filter counted = o.frags ++ [rx.blk] :=
    frags_push_counted (o := o) hcounted
  have hholds := ho.holds.concatenate rx.blk
  rw [← joined_snoc] at hholds
  have hlimit : (concatenate rx.blk (Run.exec step (start buffer) es).fragFrame).RxSize ≤
      MAX_FRAME_SIZE := Nat.not_lt.mp hsize
  have hbytes := hholds.bytes_eq (hroom hmore) (hlimit.trans_lt (by decide))
  refine ⟨before, o.first, o.since, hpast.symm.trans hbefore, ?_⟩
  rw [hfrags]
  refine ⟨ho.takes hfits haddr, ⟨o.frags, rx.blk, rfl, ho.more, hmore⟩, hbytes, ?_⟩
  rw [hbytes, ← hholds.1]
  exact hlimit.trans (by decide)

def fragment (Frag : BitVec 4) (MoreFrag : Bool) (Addr2 : BitVec 48) : RX_BLK where
  Frag := Frag
  MoreFrag := MoreFrag
  Sequence := 5
  Addr2 := Addr2
  header := List.replicate 24 0
  pData _ := 7
  DataSize := 2
  headerRoom := by decide
  dataSize := by decide

theorem run_reassembled_two :
    ∃ packet before first since,
      [fragment 0 true 1] = before ++ first :: since ∧
        Reassembled first ((since ++ [fragment 1 false 1]).filter counted) packet := by
  refine ⟨_, run_reassembled (fun _ => 0) [⟨fragment 0 true 1, none⟩]
    ⟨fragment 1 false 1, some fun _ => 0⟩ _ ?_ rfl⟩
  exact ⟨fun h => absurd rfl h, fun _ _ _ _ => ⟨⟨_, rfl, rfl⟩, fun _ => by decide⟩, trivial⟩

/-- The last fragment is another transmitter's. -/
theorem mixes_transmitters :
    ¬ ∀ (buffer : Store) (es : List Rx) (rx : Rx) (packet : Packet),
      (RTMPDeFragmentDataFrame rx.alloc rx.blk
        (Run.exec step (start buffer) es).fragFrame).1 = some packet →
      ∃ before first since, es.map (·.blk) = before ++ first :: since ∧
        Reassembled first ((since ++ [rx.blk]).filter counted) packet := by
  intro h
  obtain ⟨before, first, since, hsplit, hreassembled⟩ :=
    h (fun _ => 0) [⟨fragment 0 true 1, none⟩] ⟨fragment 1 false 2, some fun _ => 0⟩ _ rfl
  have hone : first = fragment 0 true 1 ∧ since = [] := by
    cases before with
    | nil =>
      obtain ⟨hfirst, hsince⟩ := List.cons.inj hsplit
      exact ⟨hfirst.symm, hsince.symm⟩
    | cons blk before =>
      have := congrArg List.length hsplit
      simp at this
  obtain ⟨rfl, rfl⟩ := hone
  have hcounted : counted (fragment 1 false 2) = true := by decide
  have hmem : fragment 1 false 2 ∈ ([] ++ [fragment 1 false 2]).filter counted :=
    List.mem_filter.mpr ⟨List.mem_singleton.mpr rfl, hcounted⟩
  exact absurd (hreassembled.follow.same _ hmem).1 (by decide)

end Ralink.Defrag
