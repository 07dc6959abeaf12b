import Ralink.Mat.Answers
import Ralink.Mat.Mapped

/-! Frames of the discovery stage with any payload length and tags. The scan ends inside the packet
when the tags follow each other there up to the one that is looked for, or up to where the payload
length, counted in 16 bits, is used up. -/
namespace Ralink.Mat
open Function

section Scan

variable (pkt : Packet) (id : Nat)

def tagIdAt (pos : Nat) : Nat := (ntohs pkt pos).getD 0

def tagLenAt (pos : Nat) : Nat := (ntohs pkt (pos + 2)).getD 0

/-- Where the tag `k` begins when the first one does at `pos`. -/
def tagPos (pos : Nat) : Nat → Nat
  | 0 => pos
  | k + 1 => tagPos pos k + (tagLenAt pkt (tagPos pos k) + 4)

def HeaderInside (pos : Nat) : Prop := pos + 4 ≤ pkt.length

def Wanted (pos : Nat) : Prop := tagIdAt pkt pos = id ∧ 0 < tagLenAt pkt pos

/-- The tags in front of this place take the payload length, in 16 bits. -/
def UsedUp (len pos pos' : Nat) : Prop := (pos' - pos) % 2 ^ 16 = len

def Passed (len pos pos' : Nat) : Prop :=
  HeaderInside pkt pos' ∧ ¬ Wanted pkt id pos' ∧ ¬ UsedUp len pos pos'

/-- The scan ends, with what satisfies `Q`: no tag, or where the contents of the tag are and how
many. -/
def Scan (len pos : Nat) (Q : Option (Nat × Nat) → Prop) : Prop :=
  ∃ n, (∀ k < n, Passed pkt id len pos (tagPos pkt pos k)) ∧
    (UsedUp len pos (tagPos pkt pos n) ∧ Q none ∨
      ¬ UsedUp len pos (tagPos pkt pos n) ∧ HeaderInside pkt (tagPos pkt pos n) ∧
        Wanted pkt id (tagPos pkt pos n) ∧
        Q (some (tagPos pkt pos n + 4, tagLenAt pkt (tagPos pkt pos n))))

end Scan

section Scan

variable {pkt : Packet} {id len pos : Nat} {Q : Option (Nat × Nat) → Prop}

theorem tagLenAt_lt : tagLenAt pkt pos < 2 ^ 16 := by
  unfold tagLenAt
  cases h : ntohs pkt (pos + 2) with
  | none => decide
  | some n => exact ntohs_lt h

theorem tagPos_succ (k : Nat) :
    tagPos pkt pos (k + 1) = tagPos pkt (pos + (tagLenAt pkt pos + 4)) k := by
  induction k with
  | zero => rfl
  | succ k ih => rw [tagPos, ih, tagPos]

theorem le_tagPos (k : Nat) : pos ≤ tagPos pkt pos k := by
  induction k with
  | zero => exact Nat.le_refl pos
  | succ k ih => exact Nat.le_trans ih (Nat.le_add_right _ _)

theorem usedUp_self : UsedUp len pos pos ↔ len = 0 := by
  rw [UsedUp, Nat.sub_self, Nat.zero_mod]
  exact eq_comm

theorem usedUp_next {pos' step : Nat} (hlen : len < 2 ^ 16) (hstep : step < 2 ^ 17)
    (h : pos + step ≤ pos') :
    UsedUp len pos pos' ↔ UsedUp ((len + 2 ^ 32 - step) % 2 ^ 16) (pos + step) pos' := by
  unfold UsedUp
  omega

theorem scan_iff (hlen : len < 2 ^ 16) :
    Scan pkt id len pos Q ↔
      len = 0 ∧ Q none ∨
      len ≠ 0 ∧ HeaderInside pkt pos ∧ Wanted pkt id pos ∧ Q (some (pos + 4, tagLenAt pkt pos)) ∨
      len ≠ 0 ∧ HeaderInside pkt pos ∧ ¬ Wanted pkt id pos ∧
        Scan pkt id ((len + 2 ^ 32 - (tagLenAt pkt pos + 4)) % 2 ^ 16)
          (pos + (tagLenAt pkt pos + 4)) Q := by
  have hstep : tagLenAt pkt pos + 4 < 2 ^ 17 := by
    have : tagLenAt pkt pos < 2 ^ 16 := tagLenAt_lt
    omega
  have hnext : ∀ k, UsedUp len pos (tagPos pkt pos (k + 1)) ↔
      UsedUp ((len + 2 ^ 32 - (tagLenAt pkt pos + 4)) % 2 ^ 16) (pos + (tagLenAt pkt pos + 4))
        (tagPos pkt (pos + (tagLenAt pkt pos + 4)) k) := by
    intro k
    rw [tagPos_succ]
    exact usedUp_next hlen hstep (le_tagPos k)
  have hpassed : ∀ k, Passed pkt id len pos (tagPos pkt pos (k + 1)) ↔
      Passed pkt id ((len + 2 ^ 32 - (tagLenAt pkt pos + 4)) % 2 ^ 16)
        (pos + (tagLenAt pkt pos + 4)) (tagPos pkt (pos + (tagLenAt pkt pos + 4)) k) := by
    intro k
    rw [Passed, Passed, hnext, tagPos_succ]
  constructor
  · rintro ⟨n, hpre, hend⟩
    cases n with
    | zero =>
      rw [tagPos, usedUp_self] at hend
      rcases hend with hend | ⟨hne, hin, hw, hq⟩
      · exact .inl hend
      · exact .inr (.inl ⟨hne, hin, hw, hq⟩)
    | succ n =>
      obtain ⟨hin, hw, hne⟩ := hpre 0 (Nat.succ_pos n)
      rw [tagPos, usedUp_self] at hne
      refine .inr (.inr ⟨hne, hin, hw, n, fun k hk => ?_, ?_⟩)
      · exact (hpassed k).mp (hpre (k + 1) (Nat.succ_lt_succ hk))
      · rwa [hnext, tagPos_succ] at hend
  · rintro (⟨hz, hq⟩ | ⟨hne, hin, hw, hq⟩ | ⟨hne, hin, hw, n, hpre, hend⟩)
    · exact ⟨0, fun k hk => absurd hk (Nat.not_lt_zero k), .inl ⟨usedUp_self.mpr hz, hq⟩⟩
    · exact ⟨0, fun k hk => absurd hk (Nat.not_lt_zero k),
        .inr ⟨fun hu => hne (usedUp_self.mp hu), hin, hw, hq⟩⟩
    · refine ⟨n + 1, fun k hk => ?_, ?_⟩
      · cases k with
        | zero => exact ⟨hin, hw, fun hu => hne (usedUp_self.mp hu)⟩
        | succ k => exact (hpassed k).mpr (hpre k (Nat.lt_of_succ_lt_succ hk))
      · rwa [hnext, tagPos_succ]

theorem findTagLoop_iff {turns : Nat} (hturns : pkt.length < pos + turns) (hpos : 0 < turns)
    (hlen : len < 2 ^ 16) :
    (∃ r, findTagLoop pkt id turns len pos = some r ∧ Q r) ↔ Scan pkt id len pos Q := by
  induction turns generalizing len pos with
  | zero => exact absurd hpos (Nat.lt_irrefl 0)
  | succ turns ih =>
    rw [scan_iff hlen, findTagLoop]
    by_cases hz : len = 0
    · simp [hz]
    · by_cases hin : HeaderInside pkt pos
      · have hin' : pos + 4 ≤ pkt.length := hin
        obtain ⟨tagID, hid⟩ := ntohs_inside (b := pkt) (p := pos) (by omega)
        obtain ⟨tagLen, hval⟩ := ntohs_inside (b := pkt) (p := pos + 2) (by omega)
        have hidAt : tagIdAt pkt pos = tagID := by rw [tagIdAt, hid, Option.getD_some]
        have hlenAt : tagLenAt pkt pos = tagLen := by rw [tagLenAt, hval, Option.getD_some]
        have hw : Wanted pkt id pos ↔ tagID = id ∧ 0 < tagLen := by rw [Wanted, hidAt, hlenAt]
        have hleft : (len + 2 ^ 32 - (tagLen + 4)) % 2 ^ 16 < 2 ^ 16 := Nat.mod_lt _ (by decide)
        have hturns' : pkt.length < pos + (tagLen + 4) + turns := by omega
        have hnext := ih hturns' (by omega) hleft
        simp only [if_neg hz, hid, hval, hw, hlenAt, Option.bind_eq_bind, Option.bind_some]
        by_cases htag : tagID = id ∧ 0 < tagLen
        · simp [htag, hz, hin]
        · simp only [if_neg htag, hnext]
          simp [htag, hz, hin]
      · have hout : ntohs pkt pos = none ∨ ntohs pkt (pos + 2) = none :=
          .inr (ntohs_outside fun h => hin (by unfold HeaderInside; omega))
        have hnone : ∀ f : Nat → Nat → Option (Option (Nat × Nat)),
            ((ntohs pkt pos).bind fun tagID => (ntohs pkt (pos + 2)).bind (f tagID)) = none := by
          intro f
          rcases hout with h | h
          · rw [h, Option.bind_none]
          · cases ntohs pkt pos with
            | none => rfl
            | some tagID => rw [Option.bind_some, h, Option.bind_none]
        simp only [if_neg hz, Option.bind_eq_bind, hnone]
        simp [hz, hin]

theorem findTag_iff (hlen : len < 2 ^ 16) :
    (∃ r, findTag pkt id len pos = some r ∧ Q r) ↔ Scan pkt id len pos Q :=
  findTagLoop_iff (by omega) (Nat.succ_pos _) hlen

end Scan

/-- A frame with the header of PPPoE. -/
structure DisFrame where
  pkt : Packet
  pLayerHdr : Nat
  head : 14 ≤ pLayerHdr
  layer : pLayerHdr + 6 ≤ pkt.length

namespace DisFrame

variable (f : DisFrame) (m : MatStruct) (HZ : BitVec 32) (w : Surroundings)

def payloadLen : Nat := (ntohs f.pkt (f.pLayerHdr + 4)).getD 0

def txTag : Option Nat :=
  if f.pkt[f.pLayerHdr]? = some 0x11 then
    ((f.pkt[f.pLayerHdr + 1]?).bind txCode).map fun r => r.2.1
  else none

def rxTag : Option Nat :=
  if f.pkt[f.pLayerHdr]? = some 0x11 then
    ((f.pkt[f.pLayerHdr + 1]?).bind rxCode).map Prod.fst
  else none

/-- The scan ends with `Q`. -/
def Ends (id : Nat) (Q : Option (Nat × Nat) → Prop) : Prop :=
  Scan f.pkt id f.payloadLen (f.pLayerHdr + 6) Q

end DisFrame

section Inside

variable (f : DisFrame) (m : MatStruct) (HZ : BitVec 32) (w : Surroundings)

/-- What is read of the contents of a tag is inside the packet. -/
def ContentInside (pkt : Packet) (r : Option (Nat × Nat)) : Prop :=
  ∀ at', r = some at' → at'.1 + min at'.2 PPPOE_DIS_UID_LEN ≤ pkt.length

def entryAt (pkt : Packet) (at' : Nat × Nat) : Option Data :=
  let uid := Uid.ofTag ((pkt.drop at'.1).take (min at'.2 PPPOE_DIS_UID_LEN))
  ((m.entries (Query.uid uid).slot).find? (Data.isUid uid ∘ Entry.data)).map Entry.data

/-- The contents are inside, and four more bytes behind them when the entry that they find is
one whose tag the engine has added. -/
def MoveInside (pkt : Packet) (r : Option (Nat × Nat)) : Prop :=
  ContentInside pkt r ∧ ∀ at' e, r = some at' → entryAt m pkt at' = some (.uid e) →
    e.uIDAddByUs = true → at'.1 + min at'.2 PPPOE_DIS_UID_LEN + 4 ≤ pkt.length

/-- The strings of the entries fill their buffers. -/
def Filled (lists : Lists) : Prop :=
  ∀ k, ∀ x ∈ lists (.uid, k), ∀ s mac, x.data.key = .uid s mac → s.length = PPPOE_DIS_UID_LEN

/-- The sender's handler ends, reads inside the packet, and writes inside the tag buffer and
inside the packet that goes out, which is the old one or has ten bytes more. -/
def DisFrame.TxInside : Prop :=
  ∃ m' pkt, MATProto_PPPoEDis_Tx m HZ f.pkt f.pLayerHdr w = some (m', pkt) ∧ Filled m'.entries ∧
    (pkt.length = f.pkt.length ∨ pkt.length = f.pkt.length + (PPPOE_DIS_UID_LEN + 4))

/-- The receiver's handler ends, and reads and moves inside the packet. -/
def DisFrame.RxInside : Prop :=
  ∃ m' pkt mac, MATProto_PPPoEDis_Rx m f.pkt f.pLayerHdr w = some (m', pkt, mac) ∧ Filled m'.entries ∧
    pkt.length ≤ f.pkt.length

end Inside

section Filled

variable {HZ : BitVec 32} {m m' m₀ : MatStruct} {lists lists' : Lists} {c : Change}
  {now : Nat → BitVec 32} {addr : Ptr} {r : Option Ptr}

theorem length_padUid (uid : Uid) : (padUid uid).length = PPPOE_DIS_UID_LEN := by
  rw [padUid, List.length_append, List.length_replicate]
  exact Nat.add_sub_cancel' uid.2

theorem SameHosts.filled (h : SameHosts lists lists') (hf : Filled lists) : Filled lists' := by
  intro k x hx s mac hkey
  have hin := List.mem_map_of_mem (f := Data.key ∘ Entry.data) hx
  rw [h k] at hin
  obtain ⟨y, hy, heq⟩ := List.mem_map.mp hin
  exact hf k y hy s mac (heq.trans hkey)

theorem Updated.filled (hc : c.Keyed) (h : Updated c now addr lists r lists')
    (hfresh : ∀ s mac, c.fresh.key = .uid s mac → s.length = PPPOE_DIS_UID_LEN)
    (hf : Filled lists) : Filled lists' := by
  intro k x hx s mac hkey
  rcases h.origin hc hx with ⟨y, hy, heq⟩ | ⟨-, -, heq⟩
  · exact hf k y hy s mac (heq.trans hkey)
  · exact hfresh s mac (heq ▸ hkey)

theorem uidChange_fresh (HZ : BitVec 32) (uid : Uid) (addByUs isServer : Bool) (inMac : Mac)
    (s : List UInt8) (mac : Mac)
    (h : (uidChange HZ uid addByUs isServer inMac).fresh.key = .uid s mac) :
    s.length = PPPOE_DIS_UID_LEN := by
  obtain ⟨rfl, -⟩ := Key.uid.inj h
  exact length_padUid uid

theorem Event.change_fresh {e : Event} (h : e.change HZ = some (c, now, addr)) (s : List UInt8)
    (mac : Mac) (hkey : c.fresh.key = .uid s mac) : s.length = PPPOE_DIS_UID_LEN := by
  cases e with
  | ipUpdate | sesUpdate =>
    obtain ⟨rfl, -⟩ := Prod.mk.inj (Option.some.inj h)
    cases hkey
  | uidUpdate inMac outMac tag isServer now addr =>
    obtain ⟨rfl, -⟩ := Prod.mk.inj (Option.some.inj h)
    exact uidChange_fresh HZ _ _ isServer inMac s mac hkey
  | lookUp q now => cases h

theorem run_filled {b : Ptr} (hinit : MATEngineInit b = some m₀) {es : List Event}
    (hrun : Run.tryExec (step HZ) m₀ es = some m) :
    ∃ lists, Holds m lists ∧ Filled lists := by
  obtain ⟨m', hrun', hI⟩ := Run.tryExec_inv (s := m₀)
    (P := fun _ _ => True) (I := fun m => ∃ lists, Holds m lists ∧ Filled lists)
    (fun m e hI _ => by
      obtain ⟨lists, h, hf⟩ := hI
      obtain ⟨m', lists', hstep, h', hcases⟩ := step_cases HZ h e
      refine ⟨m', hstep, lists', h', ?_⟩
      rcases hcases with ⟨c, now, addr, r, hchange, -, hupdated⟩ | ⟨-, q, t, rfl | rfl⟩
      · exact hupdated.filled (Event.change_keyed hchange) (Event.change_fresh hchange) hf
      · exact hf
      · exact (sameHosts_refresh lists q.slot q.hit t).filled hf)
    ⟨_, holds_init hinit, fun _ _ hx => absurd hx List.not_mem_nil⟩
    (Run.AllTries.of_forall fun _ _ => trivial)
  obtain rfl := Option.some.inj (hrun.symm.trans hrun')
  exact hI

end Filled

section Handlers

variable {HZ : BitVec 32} {m : MatStruct} {lists : Lists} {f : DisFrame} {w : Surroundings}
  {pkt : Packet} {r : Option (Nat × Nat)} {code : UInt8} {pkt' : Packet} {i id n c t : Nat}
  {tag : Option (List UInt8)}

theorem macAt_inside (h : i + 6 ≤ pkt.length) : ∃ mac, macAt pkt i = some mac := by
  have hlen : (pkt.drop i).length = pkt.length - i := List.length_drop
  unfold macAt
  match hd : pkt.drop i with
  | a :: b :: c :: d :: e :: g :: _ => exact ⟨_, rfl⟩
  | [] | [_] | [_, _] | [_, _, _] | [_, _, _, _] | [_, _, _, _, _] =>
    rw [hd] at hlen
    simp only [List.length_cons, List.length_nil] at hlen
    omega

theorem uidAt_inside (h : ContentInside pkt r) : ∃ tag, uidAt pkt r = some tag := by
  cases r with
  | none => exact ⟨none, rfl⟩
  | some at' => exact ⟨_, by rw [uidAt, bytesAt, if_pos (h at' rfl)]; rfl⟩

theorem content_of_uidAt (h : uidAt pkt r = some tag) : ContentInside pkt r := by
  rintro at' rfl
  obtain ⟨bytes, hbytes, -⟩ := Option.map_eq_some_iff.mp h
  by_contra hout
  rw [bytesAt, if_neg hout] at hbytes
  cases hbytes

theorem length_appendTag {r uIDStr : List UInt8} (hstr : uIDStr.length = PPPOE_DIS_UID_LEN)
    (hlen : i + 2 ≤ pkt.length) :
    (appendTag pkt r i n t uIDStr).length = pkt.length + (PPPOE_DIS_UID_LEN + 4) := by
  have htag : (htons t ++ htons PPPOE_DIS_UID_LEN ++ uIDStr).length = PPPOE_DIS_UID_LEN + 4 := by
    rw [List.length_append, List.length_append, length_htons, length_htons, hstr, Nat.add_comm]
  have hwhole : (pkt ++ (r ++ List.replicate 10 0).take (PPPOE_DIS_UID_LEN + 4)).length =
      pkt.length + (PPPOE_DIS_UID_LEN + 4) := by
    rw [List.length_append, List.length_take, List.length_append, List.length_replicate,
      Nat.min_eq_left (show PPPOE_DIS_UID_LEN + 4 ≤ r.length + 10 from Nat.le_add_left 10 _)]
  generalize hbig : pkt ++ (r ++ List.replicate 10 0).take (PPPOE_DIS_UID_LEN + 4) = big at hwhole
  have hinner : (writeAt big (if i + n < pkt.length then i + n else pkt.length)
      (htons t ++ htons PPPOE_DIS_UID_LEN ++ uIDStr)).length = big.length :=
    length_writeAt (by split <;> omega)
  rw [appendTag, hbig, length_writeAt, hinner, hwhole]
  rw [hinner, hwhole, length_htons]
  omega

theorem DisFrame.header (f : DisFrame) :
    (∃ mac, macAt f.pkt 0 = some mac) ∧ (∃ mac, macAt f.pkt 6 = some mac) ∧
      (∃ version, f.pkt[f.pLayerHdr]? = some version) ∧
      (∃ code, f.pkt[f.pLayerHdr + 1]? = some code) ∧
      (∃ sesID, ntohs f.pkt (f.pLayerHdr + 2) = some sesID) ∧
      ntohs f.pkt (f.pLayerHdr + 4) = some f.payloadLen ∧ f.payloadLen < 2 ^ 16 := by
  have hhead := f.head
  have hlayer := f.layer
  obtain ⟨n, hn⟩ := ntohs_inside (b := f.pkt) (p := f.pLayerHdr + 4) (by omega)
  have hlen : f.payloadLen = n := by rw [DisFrame.payloadLen, hn, Option.getD_some]
  exact ⟨macAt_inside (by omega), macAt_inside (by omega),
    ⟨_, List.getElem?_eq_getElem (by omega)⟩, ⟨_, List.getElem?_eq_getElem (by omega)⟩,
    ntohs_inside (by omega), by rw [hn, hlen], by rw [hlen]; exact ntohs_lt hn⟩

theorem tx_run (h : Holds m lists) (hf : Filled lists) {isServer ses : Bool}
    (hv : f.pkt[f.pLayerHdr]? = some 0x11) (hcode : f.pkt[f.pLayerHdr + 1]? = some code)
    (htx : txCode code = some (isServer, id, ses))
    (hr : findTag f.pkt id f.payloadLen (f.pLayerHdr + 6) = some r)
    (htag : uidAt f.pkt r = some tag) : f.TxInside m HZ w := by
  obtain ⟨⟨pDstMac, hdst⟩, ⟨pSrcMac, hsrc⟩, -, -, ⟨sesID, hsesID⟩, hpayload, -⟩ := f.header
  have hc : (uidChange HZ (uidOf pSrcMac pDstMac tag isServer).1
      (uidOf pSrcMac pDstMac tag isServer).2 isServer pSrcMac).Keyed :=
    uidChange_keyed HZ _ _ isServer pSrcMac
  obtain ⟨m₁, p, lists₁, hup, h₁, hupdated⟩ := tableUpdate_spec hc.homed h w.now w.addr
  have hup' : UidMacTableUpdate m HZ pSrcMac pDstMac tag isServer w.now w.addr = some (m₁, p) := hup
  have hf₁ : Filled lists₁ := hupdated.filled hc (uidChange_fresh HZ _ _ isServer pSrcMac) hf
  have hses : ∀ pkt : Packet, ∃ m', (if ses = true then
      (SesMacTableUpdate m₁ pSrcMac (BitVec.ofNat 16 sesID) pDstMac w.sesNow w.sesAddr).map
        fun r => (r.1, pkt)
      else some (m₁, pkt)) = some (m', pkt) ∧ Filled m'.entries := by
    intro pkt
    cases ses with
    | false => exact ⟨m₁, rfl, h₁.entries_eq ▸ hf₁⟩
    | true =>
      obtain ⟨m₂, b, lists₂, hupdate, h₂, hsame⟩ := sesUpdate_spec (w := w) h₁ pSrcMac pDstMac
        (BitVec.ofNat 16 sesID)
      exact ⟨m₂, by rw [hupdate]; rfl, h₂.entries_eq ▸ hsame.filled hf₁⟩
  simp only [DisFrame.TxInside, MATProto_PPPoEDis_Tx, hdst, hsrc, hv, hcode, htx, hsesID, hpayload,
    hr, htag, hup', ne_eq, not_true, if_false, Option.bind_eq_bind, Option.bind_some]
  cases p with
  | none =>
    obtain ⟨m', hrun, hf'⟩ := hses f.pkt
    exact ⟨m', f.pkt, hrun, hf', .inl rfl⟩
  | some p =>
    cases tag with
    | some tag =>
      obtain ⟨m', hrun, hf'⟩ := hses f.pkt
      exact ⟨m', f.pkt, hrun, hf', .inl rfl⟩
    | none =>
      cases w.copied with
      | false => exact ⟨m₁, f.pkt, rfl, h₁.entries_eq ▸ hf₁, .inl rfl⟩
      | true =>
        obtain ⟨x, hx, rfl⟩ := hupdated.mem_of_some hc
        obtain ⟨e, t, q, hd, hnode⟩ := h₁.uid_node hx
        have hstr := hf₁ _ x hx e.uIDStr e.macAddr (by rw [hd]; rfl)
        have hlayer : f.pLayerHdr + 4 + 2 ≤ f.pkt.length := f.layer
        have hlong := length_appendTag (r := w.room) (n := f.payloadLen)
          (t := if e.isServer then PPPOE_TAG_ID_AC_COOKIE else PPPOE_TAG_ID_HOST_UNIQ)
          hstr hlayer
        obtain ⟨m', hrun, hf'⟩ := hses (appendTag f.pkt w.room (f.pLayerHdr + 4)
          f.payloadLen (if e.isServer then PPPOE_TAG_ID_AC_COOKIE
            else PPPOE_TAG_ID_HOST_UNIQ) e.uIDStr)
        refine ⟨m', _, ?_, hf', .inr hlong⟩
        simp only [hnode, Option.bind_some, if_true]
        exact hrun

theorem tx_inside_iff (h : Holds m lists) (hf : Filled lists) :
    f.TxInside m HZ w ↔ ∀ id, f.txTag = some id → f.Ends id (ContentInside f.pkt) := by
  obtain ⟨⟨pDstMac, hdst⟩, ⟨pSrcMac, hsrc⟩, ⟨version, hversion⟩, ⟨code, hcode⟩, ⟨sesID, hsesID⟩,
    hpayload, hlen⟩ := f.header
  have hstay : ∃ m' pkt, some (m, f.pkt) = some (m', pkt) ∧ Filled m'.entries ∧
      (pkt.length = f.pkt.length ∨ pkt.length = f.pkt.length + (PPPOE_DIS_UID_LEN + 4)) :=
    ⟨m, f.pkt, rfl, h.entries_eq ▸ hf, .inl rfl⟩
  by_cases hv : version = 0x11
  · subst hv
    cases htx : txCode code with
    | none =>
      have hno : f.txTag = none := by
        rw [DisFrame.txTag, hversion, if_pos rfl, hcode, Option.bind_some, htx, Option.map_none]
      refine ⟨fun _ id hid => absurd (hno.symm.trans hid) (Option.some_ne_none id).symm, fun _ => ?_⟩
      simp only [DisFrame.TxInside, MATProto_PPPoEDis_Tx, hdst, hsrc, hversion, hcode, htx,
        ne_eq, not_true, if_false, Option.bind_eq_bind, Option.bind_some]
      exact hstay
    | some c =>
      obtain ⟨isServer, id, ses⟩ := c
      have hid : f.txTag = some id := by
        rw [DisFrame.txTag, hversion, if_pos rfl, hcode, Option.bind_some, htx, Option.map_some]
      rw [hid]
      simp only [Option.some.injEq, forall_eq']
      rw [DisFrame.Ends, ← findTag_iff hlen]
      constructor
      · rintro ⟨m', pkt, hrun, -⟩
        simp only [MATProto_PPPoEDis_Tx, hdst, hsrc, hversion, hcode, htx, hsesID, hpayload,
          ne_eq, not_true, if_false, Option.bind_eq_bind, Option.bind_some] at hrun
        obtain ⟨r, hr, hrun⟩ := Option.bind_eq_some_iff.mp hrun
        obtain ⟨tag, htag, -⟩ := Option.bind_eq_some_iff.mp hrun
        exact ⟨r, hr, content_of_uidAt htag⟩
      · rintro ⟨r, hr, hin⟩
        obtain ⟨tag, htag⟩ := uidAt_inside hin
        exact tx_run h hf hversion hcode htx hr htag
  · have hno : f.txTag = none := by
      rw [DisFrame.txTag, hversion, if_neg fun heq => hv (Option.some.inj heq)]
    refine ⟨fun _ id hid => absurd (hno.symm.trans hid) (Option.some_ne_none id).symm, fun _ => ?_⟩
    simp only [DisFrame.TxInside, MATProto_PPPoEDis_Tx, hdst, hsrc, hversion, ne_eq, hv,
      not_false_eq_true, if_true, Option.bind_eq_bind, Option.bind_some]
    exact hstay

theorem findTag_ge {len pos : Nat} {at' : Nat × Nat} (hlen : len < 2 ^ 16)
    (h : findTag pkt id len pos = some (some at')) : pos + 4 ≤ at'.1 := by
  obtain ⟨n, -, hend⟩ := (findTag_iff (Q := fun r => r = some at') hlen).mp ⟨_, h, rfl⟩
  rcases hend with ⟨-, hq⟩ | ⟨-, -, -, hq⟩
  · cases hq
  · obtain rfl := Option.some.inj hq
    exact Nat.add_le_add_right (le_tagPos n) 4

theorem room_of_removeTag (hin : c + t ≤ pkt.length) (h : removeTag pkt i n c t = some pkt') :
    c + t + 4 ≤ pkt.length := by
  by_contra hout
  have htail : (pkt.length + 2 ^ 32 - c - (4 + t)) % 2 ^ 32 =
      pkt.length + 2 ^ 32 - c - (4 + t) := Nat.mod_eq_of_lt (by omega)
  simp only [removeTag, htail] at h
  rw [if_neg (by omega)] at h
  cases h

theorem length_removeTag (hroom : c + t + 4 ≤ pkt.length) (hi : i + 6 ≤ c)
    (h : removeTag pkt i n c t = some pkt') : pkt'.length ≤ pkt.length := by
  have htail : (pkt.length + 2 ^ 32 - c - (4 + t)) % 2 ^ 32 ≤ pkt.length - c - (4 + t) := by
    rw [show pkt.length + 2 ^ 32 - c - (4 + t) = pkt.length - c - (4 + t) + 2 ^ 32 by omega,
      Nat.add_mod_right]
    exact Nat.mod_le _ _
  simp only [removeTag] at h
  generalize (pkt.length + 2 ^ 32 - c - (4 + t)) % 2 ^ 32 = tailLen at htail h
  rw [if_pos (by omega)] at h
  obtain rfl := Option.some.inj h
  have hmoved : (writeAt pkt (c - 4) ((pkt.drop (c + t)).take tailLen)).length = pkt.length := by
    refine length_writeAt ?_
    rw [List.length_take, List.length_drop]
    omega
  rw [length_writeAt, List.length_take, hmoved]
  · omega
  · rw [List.length_take, hmoved, length_htons]
    omega

theorem lookUp_entryAt (pkt : Packet) (h : Holds m lists) (at' : Nat × Nat) (t : BitVec 32) :
    ∃ m' lists', UidMacTableLookUp m
        (.ofTag ((pkt.drop at'.1).take (min at'.2 PPPOE_DIS_UID_LEN))) t =
          some (m', entryAt m pkt at') ∧ Holds m' lists' ∧ SameHosts lists lists' := by
  obtain ⟨m', hlook, h', -⟩ := tableLookUp_spec h
    (Query.uid (.ofTag ((pkt.drop at'.1).take (min at'.2 PPPOE_DIS_UID_LEN)))).slot
    (Data.isUid (.ofTag ((pkt.drop at'.1).take (min at'.2 PPPOE_DIS_UID_LEN)))) t
  refine ⟨m', _, ?_, h', sameHosts_refresh lists _ _ t⟩
  rw [UidMacTableLookUp, h.valid, if_pos rfl, entryAt, h.entries_eq]
  exact hlook

theorem rx_run (h : Holds m lists) (hf : Filled lists) {ses : Bool}
    (hv : f.pkt[f.pLayerHdr]? = some 0x11) (hcode : f.pkt[f.pLayerHdr + 1]? = some code)
    (hpadt : code ≠ PPPOE_CODE_PADT) (hrx : rxCode code = some (id, ses))
    (hr : findTag f.pkt id f.payloadLen (f.pLayerHdr + 6) = some r) (hin : MoveInside m f.pkt r) :
    f.RxInside m w := by
  obtain ⟨-, ⟨pOutMac, hout⟩, -, -, ⟨sesID, hsesID⟩, hpayload, hlen⟩ := f.header
  simp only [DisFrame.RxInside, MATProto_PPPoEDis_Rx, hout, hv, hcode, hpadt, hrx, hsesID,
    hpayload, hr, ne_eq, not_true, if_false, Option.bind_eq_bind, Option.bind_some]
  cases r with
  | none => exact ⟨m, f.pkt, none, rfl, h.entries_eq ▸ hf, Nat.le_refl _⟩
  | some at' =>
    have hbytes : bytesAt f.pkt at'.1 (min at'.2 PPPOE_DIS_UID_LEN) = some _ :=
      if_pos (hin.1 at' rfl)
    obtain ⟨m₁, lists₁, hlook, h₁, hsame⟩ := lookUp_entryAt f.pkt h at' (w.now 0)
    have hf₁ := hsame.filled hf
    simp only [hbytes, hlook, Option.bind_some]
    have hstay : ∃ m' pkt mac, some (m₁, f.pkt, (none : Option Mac)) = some (m', pkt, mac) ∧
        Filled m'.entries ∧ pkt.length ≤ f.pkt.length :=
      ⟨m₁, f.pkt, none, rfl, h₁.entries_eq ▸ hf₁, Nat.le_refl _⟩
    cases hentry : entryAt m f.pkt at' with
    | none => exact hstay
    | some d =>
      cases d with
      | ip e => exact hstay
      | ses e => exact hstay
      | uid e =>
        have hses : ∀ pkt : Packet, ∃ m', (if ses = true then
            (Option.map Prod.fst (SesMacTableUpdate m₁ e.macAddr (BitVec.ofNat 16 sesID)
              pOutMac w.sesNow w.sesAddr)).bind fun m => some (m, pkt, some e.macAddr)
            else some (m₁, pkt, some e.macAddr)) = some (m', pkt, some e.macAddr) ∧
              Filled m'.entries := by
          intro pkt
          cases ses with
          | false => exact ⟨m₁, rfl, h₁.entries_eq ▸ hf₁⟩
          | true =>
            obtain ⟨m₂, b, lists₂, hupdate, h₂, hsame₂⟩ := sesUpdate_spec (w := w) h₁
              e.macAddr pOutMac (BitVec.ofNat 16 sesID)
            exact ⟨m₂, by rw [hupdate]; rfl, h₂.entries_eq ▸ hsame₂.filled hf₁⟩
        by_cases hadd : e.uIDAddByUs = true
        · have hroom := hin.2 at' e rfl hentry hadd
          have hge := findTag_ge hlen hr
          obtain ⟨pkt', hpkt⟩ := removeTag_some (f.pLayerHdr + 4) f.payloadLen hroom
          obtain ⟨m', hrun, hf'⟩ := hses pkt'
          simp only [if_pos hadd, hpkt, Option.bind_some]
          exact ⟨m', pkt', _, hrun, hf', length_removeTag hroom (by omega) hpkt⟩
        · obtain ⟨m', hrun, hf'⟩ := hses f.pkt
          simp only [if_neg hadd]
          exact ⟨m', f.pkt, _, hrun, hf', Nat.le_refl _⟩

theorem rxCode_padt : rxCode PPPOE_CODE_PADT = none := by decide

theorem rx_inside_iff (h : Holds m lists) (hf : Filled lists) :
    f.RxInside m w ↔ ∀ id, f.rxTag = some id → f.Ends id (MoveInside m f.pkt) := by
  obtain ⟨-, ⟨pOutMac, hout⟩, ⟨version, hversion⟩, ⟨code, hcode⟩, ⟨sesID, hsesID⟩, hpayload,
    hlen⟩ := f.header
  have hstay : ∃ m' pkt mac, some (m, f.pkt, (none : Option Mac)) = some (m', pkt, mac) ∧
      Filled m'.entries ∧ pkt.length ≤ f.pkt.length :=
    ⟨m, f.pkt, none, rfl, h.entries_eq ▸ hf, Nat.le_refl _⟩
  by_cases hv : version = 0x11
  · subst hv
    cases hrx : rxCode code with
    | none =>
      have hno : f.rxTag = none := by
        rw [DisFrame.rxTag, hversion, if_pos rfl, hcode, Option.bind_some, hrx, Option.map_none]
      refine ⟨fun _ id hid => absurd (hno.symm.trans hid) (Option.some_ne_none id).symm, fun _ => ?_⟩
      by_cases hpadt : code = PPPOE_CODE_PADT
      · obtain ⟨m', ans, lists', hlook, h', hlists, -⟩ :=
          lookUp_spec h (.ses pOutMac (BitVec.ofNat 16 sesID)) (w.now 0)
        have hlook' : getInMacByOutMacFromSesMacTb m pOutMac (BitVec.ofNat 16 sesID) (w.now 0) =
            some (m', ans) := hlook
        have hf' : Filled lists' := by
          rcases hlists with rfl | rfl
          · exact hf
          · exact (sameHosts_refresh lists _ _ _).filled hf
        simp only [DisFrame.RxInside, MATProto_PPPoEDis_Rx, hout, hversion, hcode, hpadt, hsesID,
          hlook', ne_eq, not_true, if_false, if_true, Option.bind_eq_bind, Option.bind_some]
        exact ⟨m', f.pkt, ans, rfl, h'.entries_eq ▸ hf', Nat.le_refl _⟩
      · simp only [DisFrame.RxInside, MATProto_PPPoEDis_Rx, hout, hversion, hcode, hpadt, hrx,
          ne_eq, not_true, if_false, Option.bind_eq_bind, Option.bind_some]
        exact hstay
    | some c =>
      obtain ⟨id, ses⟩ := c
      have hid : f.rxTag = some id := by
        rw [DisFrame.rxTag, hversion, if_pos rfl, hcode, Option.bind_some, hrx, Option.map_some]
      have hpadt : code ≠ PPPOE_CODE_PADT := by
        rintro rfl
        exact absurd (rxCode_padt.symm.trans hrx) (Option.some_ne_none _).symm
      rw [hid]
      simp only [Option.some.injEq, forall_eq']
      rw [DisFrame.Ends, ← findTag_iff hlen]
      constructor
      · rintro ⟨m', pkt, mac, hrun, -⟩
        simp only [MATProto_PPPoEDis_Rx, hout, hversion, hcode, hpadt, hrx, hsesID, hpayload,
          ne_eq, not_true, if_false, Option.bind_eq_bind, Option.bind_some] at hrun
        obtain ⟨r, hr, hrun⟩ := Option.bind_eq_some_iff.mp hrun
        refine ⟨r, hr, ?_⟩
        cases r with
        | none => exact ⟨fun at' hat => absurd hat.symm (Option.some_ne_none at'),
              fun at' e hat => absurd hat.symm (Option.some_ne_none at')⟩
        | some at' =>
          obtain ⟨tag, hbytes, hrun⟩ := Option.bind_eq_some_iff.mp hrun
          have hin : at'.1 + min at'.2 PPPOE_DIS_UID_LEN ≤ f.pkt.length := by
            by_contra hlong
            rw [bytesAt, if_neg hlong] at hbytes
            cases hbytes
          rw [bytesAt, if_pos hin] at hbytes
          obtain rfl := Option.some.inj hbytes
          obtain ⟨m₁, lists₁, hlook, -, -⟩ := lookUp_entryAt f.pkt h at' (w.now 0)
          rw [hlook, Option.bind_some] at hrun
          refine ⟨fun at'' hat => ?_, fun at'' e hat hentry hadd => ?_⟩
          · obtain rfl := Option.some.inj hat
            exact hin
          · obtain rfl := Option.some.inj hat
            simp only [hentry, if_pos hadd] at hrun
            obtain ⟨pkt', hpkt, -⟩ := Option.bind_eq_some_iff.mp hrun
            exact room_of_removeTag hin hpkt
      · rintro ⟨r, hr, hin⟩
        exact rx_run h hf hversion hcode hpadt hrx hr hin
  · have hno : f.rxTag = none := by
      rw [DisFrame.rxTag, hversion, if_neg fun heq => hv (Option.some.inj heq)]
    refine ⟨fun _ id hid => absurd (hno.symm.trans hid) (Option.some_ne_none id).symm, fun _ => ?_⟩
    simp only [DisFrame.RxInside, MATProto_PPPoEDis_Rx, hversion, ne_eq, hv, not_false_eq_true,
      if_true, Option.bind_eq_bind, Option.bind_some]
    exact hstay

/-- After any run of the tables the handlers stay inside just when the headers of the tags follow
each other inside the packet up to where their scan ends, what they read of the tag they look
for is inside, and, where the receiver takes the tag out, four bytes are behind it. -/
theorem handlers_inside_iff {m₀ : MatStruct} {b : Ptr} (hinit : MATEngineInit b = some m₀)
    (es : List Event) (hrun : Run.tryExec (step HZ) m₀ es = some m) (f : DisFrame)
    (w : Surroundings) :
    (f.TxInside m HZ w ↔ ∀ id, f.txTag = some id → f.Ends id (ContentInside f.pkt)) ∧
      (f.RxInside m w ↔ ∀ id, f.rxTag = some id → f.Ends id (MoveInside m f.pkt)) := by
  obtain ⟨lists, h, hf⟩ := run_filled hinit hrun
  exact ⟨tx_inside_iff h hf, rx_inside_iff h hf⟩

end Handlers

def overlongBytes : Packet :=
  List.replicate 12 2 ++ htons ETH_P_PPP_DISC ++ [0x11, PPPOE_CODE_PADO] ++ htons 0 ++ htons 8 ++
    (htons 0x0101 ++ htons 100 ++ [1, 2, 3, 4])

theorem overlong_layer : 14 + 6 ≤ overlongBytes.length := by decide

/-- An offer of eight bytes of payload, with a tag that claims a hundred. -/
def overlong : DisFrame := ⟨overlongBytes, 14, Nat.le_refl 14, overlong_layer⟩

theorem handlers_inside_overlong : ∃ m₀, MATEngineInit 1 = some m₀ ∧ ∃ m,
    Run.tryExec (step 250) m₀ [.ipUpdate (.replicate 6 2) #v[10, 0, 0, 1] (fun _ => 5) 2] = some m ∧
    (overlong.TxInside m 250 (quiet 3) ↔
      ∀ id, overlong.txTag = some id → overlong.Ends id (ContentInside overlong.pkt)) ∧
    (overlong.RxInside m (quiet 3) ↔
      ∀ id, overlong.rxTag = some id → overlong.Ends id (MoveInside m overlong.pkt)) := by
  obtain ⟨m, hrun, -⟩ := run_holds 250 (holds_init (b := 1) rfl)
    [.ipUpdate (.replicate 6 2) #v[10, 0, 0, 1] (fun _ => 5) 2]
  exact ⟨_, rfl, m, hrun, handlers_inside_iff (b := 1) rfl _ hrun overlong (quiet 3)⟩

/-- The length that is left wraps, and both scans go on behind the packet. -/
theorem overlong_outside : ∃ m₀, MATEngineInit 1 = some m₀ ∧
    ¬ overlong.TxInside m₀ 250 (quiet 3) ∧ ¬ overlong.RxInside m₀ (quiet 3) := by
  have hdst : macAt overlong.pkt 0 = some (.replicate 6 2) := by decide
  have hsrc : macAt overlong.pkt 6 = some (.replicate 6 2) := by decide
  have hversion : overlong.pkt[overlong.pLayerHdr]? = some 0x11 := rfl
  have hcode : overlong.pkt[overlong.pLayerHdr + 1]? = some PPPOE_CODE_PADO := rfl
  have hses : ntohs overlong.pkt (overlong.pLayerHdr + 2) = some 0 := by decide
  have hlen : ntohs overlong.pkt (overlong.pLayerHdr + 4) = some 8 := by decide
  have htx : txCode PPPOE_CODE_PADO = some (true, PPPOE_TAG_ID_AC_COOKIE, false) := rfl
  have hrx : rxCode PPPOE_CODE_PADO = some (PPPOE_TAG_ID_HOST_UNIQ, false) := rfl
  have hpadt : PPPOE_CODE_PADO ≠ PPPOE_CODE_PADT := by decide
  have hcookie : findTag overlong.pkt PPPOE_TAG_ID_AC_COOKIE 8 (overlong.pLayerHdr + 6) = none := by
    decide +kernel
  have huniq : findTag overlong.pkt PPPOE_TAG_ID_HOST_UNIQ 8 (overlong.pLayerHdr + 6) = none := by
    decide +kernel
  refine ⟨_, rfl, ?_, ?_⟩
  · rintro ⟨m', pkt, hrun, -⟩
    simp only [MATProto_PPPoEDis_Tx, hdst, hsrc, hversion, hcode, hses, hlen, htx, hcookie, ne_eq,
      not_true, if_false, Option.bind_eq_bind, Option.bind_some, Option.bind_none] at hrun
    cases hrun
  · rintro ⟨m', pkt, mac, hrun, -⟩
    simp only [MATProto_PPPoEDis_Rx, hsrc, hversion, hcode, hses, hlen, hrx, hpadt, huniq, ne_eq,
      not_true, if_false, Option.bind_eq_bind, Option.bind_some, Option.bind_none] at hrun
    cases hrun

end Ralink.Mat
