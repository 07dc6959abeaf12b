import Ralink.Flash.Write

/-! A write changes exactly the bytes it is asked to change, unless it starts with a whole block:
nothing has moved the device to that block then. -/
namespace Ralink.Flash
open ByteStore Function

/-- After the call bytes `to_` to `to_ + len` are those of `buf`, all others are as before, and
erases and writes were of whole erase blocks. -/
structure WritesExactly (name : MtdName) (mtd : MtdName → Partition) (buf : List UInt8) (to_ len : Nat)
    (w : Written) : Prop where
  written : ∀ j < len, some ((w.mtd name).data (to_ + j)) = buf[j]?
  kept : ∀ a < (mtd name).info.size, a < to_ ∨ to_ + len ≤ a → (w.mtd name).data a = (mtd name).data a
  others : ∀ other ≠ name, w.mtd other = mtd other
  aligned : ∀ op ∈ w.log, op.Aligned (mtd name).info

/-- The bytes that are there already are those that a write to the start of the partition
would put in their place. -/
structure Coincides (data : Store) (buf : List UInt8) (to_ len : Nat) : Prop where
  before : ∀ a < to_, a < len → some (data a) = buf[a]?
  both : ∀ a < len, to_ ≤ a → buf[a]? = buf[a - to_]?
  behind : ∀ a < to_ + len, to_ ≤ a → len ≤ a → buf[a - to_]? = some 0xFF

/-- The write is empty, does not consist of whole blocks, is to the start of the partition, or
happens to be right. -/
def LandsRight (part : Partition) (buf : List UInt8) (to_ len : Nat) : Prop :=
  len = 0 ∨ ¬ part.info.erasesize ∣ len ∨ to_ = 0 ∨
    (part.info.erasesize ∣ to_ ∧ Coincides part.data buf to_ len)

variable {info : MtdInfo} {d d' : Mtd} {buf : List UInt8} {to_ len fuel n : Nat} {ret : Int}

def Ready (info : MtdInfo) (d : Mtd) (to_ len : Nat) : Prop :=
  len = 0 ∨ ¬ info.erasesize ∣ len ∨ (d.pos = to_ ∧ info.erasesize ∣ to_)

structure Advances (info : MtdInfo) (d d' : Mtd) (to_ : Nat) (bs : List UInt8) : Prop where
  data : d'.data = writeBytes d.data to_ bs
  fails : d'.fails = d.fails
  log : ∃ ops, d'.log = d.log ++ ops ∧ ∀ op ∈ ops, op.Aligned info

theorem Advances.refl (d : Mtd) : Advances info d d to_ [] :=
  ⟨(writeBytes_nil _ _).symm, rfl, [], (List.append_nil _).symm, by simp⟩

theorem Advances.trans {d'' : Mtd} {bs cs : List UInt8} (h : Advances info d d' to_ bs)
    (h' : Advances info d' d'' (to_ + bs.length) cs) : Advances info d d'' to_ (bs ++ cs) := by
  obtain ⟨ops, hops, hal⟩ := h.log
  obtain ⟨ops', hops', hal'⟩ := h'.log
  refine ⟨?_, h'.fails.trans h.fails, ops ++ ops', ?_, fun op hop => ?_⟩
  · rw [h'.data, h.data, writeBytes_append]
  · rw [hops', hops, List.append_assoc]
  · exact (List.mem_append.mp hop).elim (hal op) (hal' op)

theorem aligned_pair {start : Nat} (h : info.erasesize ∣ start) :
    ∀ op ∈ [MtdOp.erase start info.erasesize, .write start info.erasesize], op.Aligned info := by
  intro op hop
  rcases List.mem_pair.mp hop with rfl | rfl
  · exact ⟨h, rfl⟩
  · exact ⟨h, rfl⟩

theorem turn_ready (h : d.Sound) (hpos : 0 < len) (hin : to_ + len ≤ info.size)
    (hbuf : len ≤ buf.length) (hr : Ready info d to_ len) :
    ∃ n d', turn info d buf to_ len = .ok (n, d') ∧ 0 < n ∧ n ≤ len ∧
      Advances info d d' to_ (buf.take n) ∧ Ready info d' (to_ + n) (len - n) := by
  have he := erasesize_pos info
  rw [turn_eq info d buf to_ hpos]
  by_cases hdvd : info.erasesize ∣ len
  · have hle := Nat.le_of_dvd hpos hdvd
    obtain ⟨hat, halign⟩ : d.pos = to_ ∧ info.erasesize ∣ to_ := by
      rcases hr with h0 | hn | hr
      · omega
      · exact absurd hdvd hn
      · exact hr
    rw [if_pos hdvd, wholeBlock_ok h (hle.trans hbuf), afterBlock, hat, blockStart_of_dvd halign]
    refine ⟨_, _, rfl, he, hle, ⟨?_, rfl, _, rfl, aligned_pair halign⟩, Or.inr (Or.inr ⟨rfl, ?_⟩)⟩
    · exact writeBytes_overwrite (Nat.le_refl _) (by simp [hle.trans hbuf])
    · exact Nat.dvd_add halign (Nat.dvd_refl _)
  · rw [if_neg hdvd, readModifyWrite_ok h hpos hin hbuf]
    have hlow : to_ % info.erasesize < info.erasesize := Nat.mod_lt _ he
    have hstart := blockStart_add info to_
    refine ⟨_, _, rfl, ?_, Nat.min_le_left _ _, ⟨rfl, rfl, _, rfl, aligned_pair (dvd_blockStart info to_)⟩,
      ?_⟩
    · rw [pieceSize]
      omega
    · -- either the piece was the last one or it reached the end of its block
      rcases Nat.le_total len (info.erasesize - to_ % info.erasesize) with hlast | hend
      · left
        rw [pieceSize]
        omega
      · have hpiece : pieceSize info to_ len = info.erasesize - to_ % info.erasesize :=
          Nat.min_eq_right hend
        have hnext : to_ + pieceSize info to_ len = blockStart info to_ + info.erasesize := by omega
        refine Or.inr (Or.inr ⟨hnext.symm, ?_⟩)
        rw [hnext]
        exact Nat.dvd_add (dvd_blockStart info to_) (Nat.dvd_refl _)

theorem writeLoop_done (info : MtdInfo) (fuel : Nat) (d : Mtd) (buf : List UInt8) (to_ : Nat) (ret : Int) :
    writeLoop info fuel d buf to_ 0 ret = some (ret, d) := by
  unfold writeLoop
  rw [if_pos rfl]

theorem writeLoop_turn (hpos : 0 < len) (h : turn info d buf to_ len = .ok (n, d')) :
    writeLoop info (fuel + 1) d buf to_ len ret =
      writeLoop info fuel d' (buf.drop n) (to_ + n) (len - n) info.erasesize := by
  rw [writeLoop, if_neg (by omega), h]

theorem take_split (hle : n ≤ len) : buf.take len = buf.take n ++ (buf.drop n).take (len - n) := by
  calc buf.take len = (buf.take len).take n ++ (buf.take len).drop n :=
        (List.take_append_drop n _).symm
    _ = buf.take n ++ (buf.drop n).take (len - n) := by
        rw [List.take_take, Nat.min_eq_left hle, List.drop_take]

theorem writeLoop_ready (hfuel : len ≤ fuel) (h : d.Sound) (hin : to_ + len ≤ info.size)
    (hbuf : len ≤ buf.length) (hr : Ready info d to_ len) :
    ∃ ret' d', writeLoop info fuel d buf to_ len ret = some (ret', d') ∧
      Advances info d d' to_ (buf.take len) := by
  induction fuel generalizing d buf to_ len ret with
  | zero =>
    obtain rfl : len = 0 := by omega
    exact ⟨ret, d, writeLoop_done .., by rw [List.take_zero]; exact .refl d⟩
  | succ fuel ih =>
    rcases Nat.eq_zero_or_pos len with rfl | hpos
    · exact ⟨ret, d, writeLoop_done .., by rw [List.take_zero]; exact .refl d⟩
    · obtain ⟨n, d₁, hturn, hn, hle, hadv, hready⟩ := turn_ready h hpos hin hbuf hr
      have hsound : d₁.Sound := fun k => by rw [hadv.fails, h k]
      obtain ⟨ret', d', hloop, hadv'⟩ : ∃ ret' d',
          writeLoop info fuel d₁ (buf.drop n) (to_ + n) (len - n) info.erasesize = some (ret', d') ∧ _ :=
        ih (by omega) hsound (by omega) (by rw [List.length_drop]; omega) hready
      refine ⟨ret', d', (writeLoop_turn hpos hturn).trans hloop, ?_⟩
      have hlen : (buf.take n).length = n := by
        rw [List.length_take]
        omega
      rw [take_split hle]
      exact hadv.trans (by rw [hlen]; exact hadv')

structure Displaces (info : MtdInfo) (d d' : Mtd) (buf : List UInt8) (to_ len : Nat) : Prop where
  data : info.erasesize ∣ to_ → d.pos ≤ to_ →
    d'.data = writeBytes (writeBytes d.data to_ (ones len)) d.pos (buf.take len)
  erases : 0 < len → .erase to_ info.erasesize ∈ d'.log
  keepsLog : ∀ op ∈ d.log, op ∈ d'.log
  aligned : info.erasesize ∣ to_ → info.erasesize ∣ d.pos → (∀ op ∈ d.log, op.Aligned info) →
    ∀ op ∈ d'.log, op.Aligned info

theorem Displaces.refl (d : Mtd) : Displaces info d d buf to_ 0 :=
  ⟨fun _ _ => by simp [ones], fun h => absurd h (Nat.lt_irrefl 0), fun _ => id, fun _ _ => id⟩

theorem Displaces.cons (hle : info.erasesize ≤ len) (hbuf : len ≤ buf.length)
    (h : Displaces info (afterBlock info d buf to_) d' (buf.drop info.erasesize) (to_ + info.erasesize)
      (len - info.erasesize)) : Displaces info d d' buf to_ len := by
  have hself := Nat.dvd_refl info.erasesize
  refine ⟨fun hto hp => ?_, fun _ => h.keepsLog _ (by simp [afterBlock]),
    fun op hop => h.keepsLog op (List.mem_append_left _ hop), fun hto hp hal => ?_⟩
  · have hones : ones len = ones info.erasesize ++ ones (len - info.erasesize) := by
      rw [← ones_add, Nat.add_sub_cancel' hle]
    have hlen : (buf.take info.erasesize).length = info.erasesize := by
      rw [List.length_take]
      omega
    have hdata := h.data (Nat.dvd_add hto hself) (Nat.add_le_add_right hp _)
    dsimp only [afterBlock] at hdata
    -- the next erases are behind the block that was written
    have hcomm : writeBytes (writeBytes (writeBytes d.data to_ (ones info.erasesize)) d.pos
        (buf.take info.erasesize)) (to_ + info.erasesize) (ones (len - info.erasesize)) =
        writeBytes (writeBytes (writeBytes d.data to_ (ones info.erasesize)) (to_ + info.erasesize)
          (ones (len - info.erasesize))) d.pos (buf.take info.erasesize) :=
      writeBytes_comm (Or.inl (by omega))
    rw [blockStart_of_dvd hto, hcomm] at hdata
    rw [hdata, hones, take_split hle, ← writeBytes_append, ← writeBytes_append, length_ones, hlen]
  · refine h.aligned (Nat.dvd_add hto hself) (Nat.dvd_add hp hself) fun op hop => ?_
    rcases List.mem_append.mp hop with hop | hop
    · exact hal op hop
    · rcases List.mem_pair.mp hop with rfl | rfl
      · exact ⟨hto, rfl⟩
      · exact ⟨hp, rfl⟩

theorem writeLoop_whole (hfuel : len ≤ fuel) (h : d.Sound) (hdvd : info.erasesize ∣ len)
    (hbuf : len ≤ buf.length) :
    ∃ ret' d', writeLoop info fuel d buf to_ len ret = some (ret', d') ∧
      Displaces info d d' buf to_ len := by
  induction fuel generalizing d buf to_ len ret with
  | zero =>
    obtain rfl : len = 0 := by omega
    exact ⟨ret, d, writeLoop_done .., .refl d⟩
  | succ fuel ih =>
    rcases Nat.eq_zero_or_pos len with rfl | hpos
    · exact ⟨ret, d, writeLoop_done .., .refl d⟩
    · have he := erasesize_pos info
      have hle := Nat.le_of_dvd hpos hdvd
      have hturn := turn_eq info d buf to_ hpos
      rw [if_pos hdvd, wholeBlock_ok h (hle.trans hbuf)] at hturn
      have hsound : (afterBlock info d buf to_).Sound := h
      obtain ⟨ret', d', hloop, hd⟩ : ∃ ret' d',
          writeLoop info fuel (afterBlock info d buf to_) (buf.drop info.erasesize)
            (to_ + info.erasesize) (len - info.erasesize) info.erasesize = some (ret', d') ∧ _ :=
        ih (by omega) hsound (Nat.dvd_sub hdvd (Nat.dvd_refl _)) (by rw [List.length_drop]; omega)
      exact ⟨ret', d', (writeLoop_turn hpos hturn).trans hloop, hd.cons hle hbuf⟩

section Calls
variable {name : MtdName} {fails : Nat → Bool} {mtd : MtdName → Partition}

@[simp] theorem closeMtd_data (name : MtdName) (mtd : MtdName → Partition) (ret : Int) (d : Mtd) :
    ((closeMtd name mtd ret d).mtd name).data = d.data := by
  unfold closeMtd
  dsimp only
  rw [update_self]

@[simp] theorem closeMtd_log (name : MtdName) (mtd : MtdName → Partition) (ret : Int) (d : Mtd) :
    (closeMtd name mtd ret d).log = d.log := rfl

theorem closeMtd_other {other : MtdName} (h : other ≠ name) (mtd : MtdName → Partition) (ret : Int)
    (d : Mtd) : (closeMtd name mtd ret d).mtd other = mtd other := update_of_ne h _ _

def opened (part : Partition) (fails : Nat → Bool) : Mtd := { data := part.data, fails, calls := 2 }

theorem writeMtd_sound (hsound : ∀ n, fails n = false) (hin : to_ + len ≤ (mtd name).info.size) :
    writeMtd name fails mtd buf to_ len =
      (writeLoop (mtd name).info len (opened (mtd name) fails) buf to_ len 0).map
        fun (ret, d) => closeMtd name mtd ret d := by
  unfold writeMtd
  rw [if_neg (by simp [hsound]), if_neg (by omega)]
  rfl

theorem writesExactly_of_advances (hbuf : len ≤ buf.length) (ret : Int)
    (h : Advances (mtd name).info (opened (mtd name) fails) d' to_ (buf.take len)) :
    WritesExactly name mtd buf to_ len (closeMtd name mtd ret d') := by
  have hlen : (buf.take len).length = len := by
    rw [List.length_take, Nat.min_eq_left hbuf]
  obtain ⟨ops, hops, hal⟩ := h.log
  refine ⟨fun j hj => ?_, fun a _ ha => ?_, fun other hne => closeMtd_other hne mtd ret d',
    fun op hop => ?_⟩
  · rw [closeMtd_data, h.data, writeBytes_inside _ (by rw [hlen]; exact hj)]
    simp [List.getElem_take, List.getElem?_eq_getElem (Nat.lt_of_lt_of_le hj hbuf)]
  · rw [closeMtd_data, h.data, writeBytes_outside (by rw [hlen]; exact ha)]
    rfl
  · rw [closeMtd_log, hops] at hop
    exact hal op hop

theorem Displaces.bytes {part : Partition} (h : Displaces part.info (opened part fails) d' buf to_ len)
    (hdvd : part.info.erasesize ∣ to_) (hbuf : len ≤ buf.length) (a : Nat) :
    (a < len → some (d'.data a) = buf[a]?) ∧
      (len ≤ a → to_ ≤ a → a < to_ + len → d'.data a = 0xFF) ∧
      (len ≤ a → a < to_ ∨ to_ + len ≤ a → d'.data a = part.data a) := by
  have hlen : (buf.take len).length = len := by
    rw [List.length_take, Nat.min_eq_left hbuf]
  have hpos : (opened part fails).pos = 0 := rfl
  rw [h.data hdvd (by rw [hpos]; exact Nat.zero_le _), hpos]
  refine ⟨fun ha => ?_, fun ha hto hend => ?_, fun ha hout => ?_⟩
  · have hin := writeBytes_inside (o := 0) (writeBytes (opened part fails).data to_ (ones len))
      (show a < (buf.take len).length by rw [hlen]; exact ha)
    rw [Nat.zero_add] at hin
    rw [hin, List.getElem_take, List.getElem?_eq_getElem]
  · rw [writeBytes_outside (by rw [hlen]; omega)]
    obtain ⟨i, rfl⟩ := Nat.exists_eq_add_of_le hto
    rw [writeBytes_inside _ (by rw [length_ones]; omega)]
    exact List.getElem_replicate _
  · rw [writeBytes_outside (by rw [hlen]; omega), writeBytes_outside (by rw [length_ones]; exact hout)]
    rfl

theorem writesExactly_of_displaces (hpos : 0 < len) (hin : to_ + len ≤ (mtd name).info.size)
    (hbuf : len ≤ buf.length) (ret : Int)
    (h : Displaces (mtd name).info (opened (mtd name) fails) d' buf to_ len) :
    WritesExactly name mtd buf to_ len (closeMtd name mtd ret d') ↔
      (mtd name).info.erasesize ∣ to_ ∧ Coincides (mtd name).data buf to_ len := by
  constructor
  · rintro ⟨hwritten, hkept, -, hal⟩
    rw [closeMtd_data] at hwritten hkept
    rw [closeMtd_log] at hal
    have hdvd : (mtd name).info.erasesize ∣ to_ := (hal _ (h.erases hpos)).1
    have hbytes := h.bytes hdvd hbuf
    refine ⟨hdvd, fun a ha hlt => ?_, fun a hlt ha => ?_, fun a hend ha hge => ?_⟩
    · rw [← hkept a (by omega) (Or.inl ha)]
      exact (hbytes a).1 hlt
    · have hw := hwritten (a - to_) (by omega)
      rw [Nat.add_sub_cancel' ha] at hw
      rw [← (hbytes a).1 hlt, hw]
    · have hw := hwritten (a - to_) (by omega)
      rw [Nat.add_sub_cancel' ha] at hw
      rw [← hw, (hbytes a).2.1 hge ha hend]
  · rintro ⟨hdvd, hbefore, hboth, hbehind⟩
    have hbytes := h.bytes hdvd hbuf
    refine ⟨fun j hj => ?_, fun a ha hout => ?_, fun other hne => closeMtd_other hne mtd ret d', ?_⟩
    · rw [closeMtd_data]
      have hsub : to_ + j - to_ = j := Nat.add_sub_cancel_left ..
      rcases Nat.lt_or_ge (to_ + j) len with hlt | hge
      · rw [(hbytes _).1 hlt, hboth _ hlt (Nat.le_add_right ..), hsub]
      · have hb := hbehind (to_ + j) (by omega) (Nat.le_add_right ..) hge
        rw [hsub] at hb
        rw [(hbytes _).2.1 hge (Nat.le_add_right ..) (by omega), hb]
    · rw [closeMtd_data]
      rcases Nat.lt_or_ge a len with hlt | hge
      · refine Option.some.inj (((hbytes a).1 hlt).trans (hbefore a ?_ hlt).symm)
        omega
      · exact (hbytes a).2.2 hge hout
    · rw [closeMtd_log]
      exact h.aligned hdvd (Nat.dvd_zero _) (by simp [opened])

theorem writeMtd_exactly_iff (hsound : ∀ n, fails n = false) (hin : to_ + len ≤ (mtd name).info.size)
    (hbuf : len ≤ buf.length) :
    (∃ w, writeMtd name fails mtd buf to_ len = some w ∧ WritesExactly name mtd buf to_ len w) ↔
      LandsRight (mtd name) buf to_ len := by
  have hopened : (opened (mtd name) fails).Sound := hsound
  rw [writeMtd_sound hsound hin]
  by_cases hready : Ready (mtd name).info (opened (mtd name) fails) to_ len
  · obtain ⟨ret, d', hloop, hadv⟩ := writeLoop_ready (Nat.le_refl len) hopened hin hbuf hready
    rw [hloop]
    refine iff_of_true ⟨_, rfl, writesExactly_of_advances hbuf ret hadv⟩ ?_
    rcases hready with h0 | hndvd | ⟨hat, -⟩
    · exact Or.inl h0
    · exact Or.inr (Or.inl hndvd)
    · exact Or.inr (Or.inr (Or.inl hat.symm))
  · -- only whole blocks, and the device stands at the start
    have hlen : len ≠ 0 := fun h => hready (Or.inl h)
    have hdvd : (mtd name).info.erasesize ∣ len := by
      by_contra h
      exact hready (Or.inr (Or.inl h))
    have hto : to_ ≠ 0 := by
      rintro rfl
      exact hready (Or.inr (Or.inr ⟨rfl, Nat.dvd_zero _⟩))
    obtain ⟨ret, d', hloop, hdis⟩ := writeLoop_whole (Nat.le_refl len) hopened hdvd hbuf
    rw [hloop, Option.map_some]
    simp only [Option.some.injEq, exists_eq_left']
    rw [writesExactly_of_displaces (by omega) hin hbuf ret hdis]
    simp [LandsRight, hlen, hdvd, hto]

/-- `flash_write` and `flash_write_ralink_eeprom` change exactly the requested bytes, each in
its partition, if and only if the write lands right. -/
theorem flashWrite_exactly_iff (fails : Nat → Bool) (mtd : MtdName → Partition) (buf : List UInt8)
    (to_ len : Nat) (succeeds : ∀ n, fails n = false) (enough : len ≤ buf.length) :
    (to_ + len ≤ (mtd .Config).info.size →
        ((∃ w, flashWrite fails mtd buf to_ len = some w ∧ WritesExactly .Config mtd buf to_ len w) ↔
          LandsRight (mtd .Config) buf to_ len)) ∧
      (to_ + len ≤ (mtd .Factory).info.size →
        ((∃ w, flashWriteRalinkEeprom fails mtd buf to_ len = some w ∧
            WritesExactly .Factory mtd buf to_ len w) ↔ LandsRight (mtd .Factory) buf to_ len)) :=
  ⟨fun hin => writeMtd_exactly_iff succeeds hin enough, fun hin => writeMtd_exactly_iff succeeds hin enough⟩

end Calls

/-- A partition of 64 KiB with erase blocks of 4 KiB, all zeros. -/
def zeroPartition : Partition :=
  ⟨⟨0x10000, 0x1000, ⟨12, rfl⟩, ⟨16, rfl⟩, by decide⟩, fun _ => 0⟩

theorem flashWrite_exactly_threeBytes :
    ∃ w, flashWrite (fun _ => false) (fun _ => zeroPartition) [1, 2, 3] 0x0fff 3 = some w ∧
      WritesExactly .Config (fun _ => zeroPartition) [1, 2, 3] 0x0fff 3 w :=
  ((flashWrite_exactly_iff (fun _ => false) (fun _ => zeroPartition) [1, 2, 3] 0x0fff 3 (fun _ => rfl)
    (by decide)).1 (by decide)).mpr (Or.inr (Or.inl (by decide)))

theorem not_landsRight {part : Partition} (hpos : 0 < len) (hdvd : part.info.erasesize ∣ len) (hto : 0 < to_)
    (hbyte : some (part.data 0) ≠ buf[0]?) : ¬ LandsRight part buf to_ len := by
  rintro (h0 | hndvd | h0 | ⟨-, hcoin⟩)
  · omega
  · exact hndvd hdvd
  · omega
  · exact hbyte (hcoin.before 0 hto hpos)

/-- A block of ones, to the place and of the size that `flash_write_passkey_ralink` writes. -/
theorem wholeBlock_misplaced :
    ¬ ∃ w, flashWriteRalinkEeprom (fun _ => false) (fun _ => zeroPartition) (ones 0x1000) 0x5000 0x1000 =
        some w ∧ WritesExactly .Factory (fun _ => zeroPartition) (ones 0x1000) 0x5000 0x1000 w := by
  have hbyte : (ones 0x1000)[0]? = some 0xFF := List.getElem?_replicate_of_lt (by decide)
  have hnot : ¬ LandsRight zeroPartition (ones 0x1000) 0x5000 0x1000 :=
    not_landsRight (by decide) (Nat.dvd_refl _) (by decide) (by rw [hbyte]; decide)
  refine fun h => hnot ((writeMtd_exactly_iff ?_ ?_ ?_).mp h)
  · exact fun _ => rfl
  · decide
  · exact (length_ones _).ge

end Ralink.Flash
