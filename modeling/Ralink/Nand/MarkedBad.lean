import Ralink.Lib.Run
import Ralink.Nand.BlockTable

/-! A block stays bad as long as no page of it is read or programmed without an error: the loops tag
the block of every page that goes well as a good one. -/
namespace Ralink.Nand.BlockTable
open Function BitReg Run Turns

theorem get_eq_field (v : BitVec 8) (bits : Nat) :
    v >>> bits &&& BBTTAG_BITS_MASK = (field v bits 2).setWidth 8 := by
  apply BitVec.eq_of_getLsbD_eq
  intro k hk
  rw [BitVec.getLsbD_and, BitVec.getLsbD_ushiftRight, BitVec.getLsbD_setWidth]
  by_cases hin : k < 2
  · have hmask : BBTTAG_BITS_MASK.getLsbD k = true := by
      have hcases : k = 0 ∨ k = 1 := by omega
      rcases hcases with rfl | rfl <;> rfl
    rw [getLsbD_field _ _ hin, hmask, Bool.and_true, decide_eq_true hk, Bool.true_and]
  · have hmask : BBTTAG_BITS_MASK.getLsbD k = false := by
      have hcases : k = 2 ∨ k = 3 ∨ k = 4 ∨ k = 5 ∨ k = 6 ∨ k = 7 := by omega
      rcases hcases with rfl | rfl | rfl | rfl | rfl | rfl <;> rfl
    rw [hmask, Bool.and_false, BitVec.getLsbD_of_ge _ _ (by omega), Bool.and_false]

theorem set_eq_modifyBits (v data : BitVec 8) {bits : Nat} (hbits : bits < 8) :
    v &&& ~~~(BBTTAG_BITS_MASK <<< bits) ||| ((data &&& BBTTAG_BITS_MASK) <<< bits) =
      modifyBits v data bits 2 := by
  have hmask : mask 8 bits 2 = BBTTAG_BITS_MASK <<< bits := by
    interval_cases bits <;> decide
  unfold modifyBits
  rw [hmask, BitVec.shiftLeft_and_distrib]

theorem bbt_get_set (bbt : Nat → BitVec 8) (block block' : Nat) (tag : BBT_TAG) :
    nand_bbt_get (nand_bbt_set bbt block tag) block' =
      if block' = block then code tag else nand_bbt_get bbt block' := by
  unfold nand_bbt_get nand_bbt_set BBTTAG_BITS
  dsimp only
  rw [set_eq_modifyBits _ _ (by omega)]
  by_cases hbyte : block' * 2 / 8 = block * 2 / 8
  · rw [hbyte, update_self, get_eq_field, get_eq_field]
    split
    · next hblock =>
      rw [hblock, field_modifyBits _ _ (by omega)]
      cases tag <;> rfl
    · next hblock => rw [field_modifyBits_of_disjoint _ _ (by omega)]
  · have hblock : block' ≠ block := fun h => hbyte (by rw [h])
    rw [update_of_ne hbyte, if_neg hblock]

def Bad (marked : List Nat) (ra : ra_nand_chip) : Prop :=
  ∀ b ∈ marked, nand_bbt_get ra.bbt b = code .BAD

/-- The calls since then erase no page of the blocks. -/
def NotErased (cfg : Geometry) (marked : List Nat) (ra ra' : ra_nand_chip) : Prop :=
  ∃ calls, ra'.log = ra.log ++ calls ∧
    ∀ page, Call.erase_block page ∈ calls → page / cfg.pagesPerBlock ∉ marked

section Steps

variable {cfg : Geometry} {nfc : Nfc} {marked : List Nat} {ra ra' ra'' : ra_nand_chip}
  {addr block offs page : Nat} {tag : BBT_TAG}

theorem Bad.call (h : Bad marked ra) (nfc : Nfc) (c : Call) : Bad marked (ra.call nfc c).2 := h

theorem Bad.tag_bad (h : Bad marked ra) : Bad marked (ra.tag block .BAD) := by
  intro b hb
  show nand_bbt_get (nand_bbt_set ra.bbt block .BAD) b = _
  rw [bbt_get_set]
  split
  · rfl
  · exact h b hb

theorem Bad.tag_other (h : Bad marked ra) (hblock : block ∉ marked) : Bad marked (ra.tag block tag) := by
  intro b hb
  show nand_bbt_get (nand_bbt_set ra.bbt block tag) b = _
  rw [bbt_get_set, if_neg (ne_of_mem_of_not_mem hb hblock)]
  exact h b hb

theorem NotErased.refl : NotErased cfg marked ra ra := ⟨[], (List.append_nil _).symm, nofun⟩

theorem NotErased.trans (h : NotErased cfg marked ra ra') (h' : NotErased cfg marked ra' ra'') :
    NotErased cfg marked ra ra'' := by
  obtain ⟨calls, hlog, hcalls⟩ := h
  obtain ⟨calls', hlog', hcalls'⟩ := h'
  refine ⟨calls ++ calls', by rw [hlog', hlog, List.append_assoc], ?_⟩
  intro page hpage
  rcases List.mem_append.mp hpage with hpage | hpage
  · exact hcalls page hpage
  · exact hcalls' page hpage

theorem NotErased.call (nfc : Nfc) {c : Call}
    (hc : ∀ page, c = .erase_block page → page / cfg.pagesPerBlock ∉ marked) :
    NotErased cfg marked ra (ra.call nfc c).2 :=
  ⟨[c], rfl, fun page hpage => hc page (List.mem_singleton.mp hpage).symm⟩

theorem selected_iff : selected cfg offs = true ↔ offs % 2 ^ 32 < cfg.chipsize := by
  unfold selected
  rw [decide_eq_true_iff, Nat.div_eq_zero_iff]
  exact or_iff_right (Nat.two_pow_pos _).ne'

theorem chipsize_le (cfg : Geometry) : cfg.chipsize ≤ 2 ^ 31 := Nat.pow_le_pow_right (by decide) cfg.chip_le

theorem blocksize_le (cfg : Geometry) : cfg.blocksize ≤ cfg.chipsize :=
  Nat.pow_le_pow_right (by decide) cfg.erase_le

theorem next_lt (cfg : Geometry) (h : addr < cfg.chipsize) : addr + cfg.blocksize < 2 ^ 32 :=
  calc addr + cfg.blocksize
    _ < cfg.chipsize + cfg.chipsize := Nat.add_lt_add_of_lt_of_le h (blocksize_le cfg)
    _ ≤ 2 ^ 31 + 2 ^ 31 := Nat.add_le_add (chipsize_le cfg) (chipsize_le cfg)
    _ = 2 ^ 32 := by norm_num

theorem lt_of_selected (haddr : addr < 2 ^ 32) (h : selected cfg addr = true) :
    addr < cfg.chipsize ∧ blockOf cfg addr = addr / cfg.blocksize := by
  rw [selected_iff, Nat.mod_eq_of_lt haddr] at h
  exact ⟨h, by rw [blockOf, Nat.mod_eq_of_lt h]⟩

theorem checkbad_bad (hbbt : cfg.ranfc_bbt = true)
    (h : nand_bbt_get ra.bbt (blockOf cfg offs) = code .BAD) :
    nand_block_checkbad cfg nfc ra offs = (1, ra) := by
  unfold nand_block_checkbad
  rw [if_neg (by rw [hbbt]; decide)]
  dsimp only
  rw [h, if_neg (by decide), if_pos (by decide)]

theorem checkbad_keeps (nfc : Nfc) (offs : Nat) (hbbt : cfg.ranfc_bbt = true) (h : Bad marked ra) :
    Bad marked (nand_block_checkbad cfg nfc ra offs).2 ∧
      NotErased cfg marked ra (nand_block_checkbad cfg nfc ra offs).2 := by
  by_cases hblock : blockOf cfg offs ∈ marked
  · rw [checkbad_bad hbbt (h _ hblock)]
    exact ⟨h, .refl⟩
  · unfold nand_block_checkbad
    rw [if_neg (by rw [hbbt]; decide)]
    dsimp only
    split
    · exact ⟨(h.call nfc _).tag_other hblock, .call nfc nofun⟩
    · exact ⟨h, .refl⟩

theorem markbad_keeps (h : Bad marked ra) :
    Bad (blockOf cfg offs :: marked) (nand_block_markbad cfg nfc ra offs).2 := by
  have hset : ∀ {ra : ra_nand_chip}, Bad marked ra →
      Bad (blockOf cfg offs :: marked) (ra.tag (blockOf cfg offs) .BAD) := by
    intro ra h b hb
    rcases List.mem_cons.mp hb with rfl | hb
    · show nand_bbt_get (nand_bbt_set ra.bbt (blockOf cfg offs) .BAD) (blockOf cfg offs) = _
      rw [bbt_get_set, if_pos rfl]
    · exact h.tag_bad b hb
  unfold nand_block_markbad
  split
  · next hbad =>
    intro b hb
    rcases List.mem_cons.mp hb with rfl | hb
    · exact hbad
    · exact h b hb
  · dsimp only
    split
    · exact hset h
    · exact hset h

theorem eraseLoop_keeps (nfc : Nfc) (hbbt : cfg.ranfc_bbt = true) (blocks : Nat) (haddr : addr < 2 ^ 32)
    (h : Bad marked ra) :
    Bad marked (eraseLoop cfg nfc ra addr blocks).2.2 ∧
      NotErased cfg marked ra (eraseLoop cfg nfc ra addr blocks).2.2 ∧
      ((eraseLoop cfg nfc ra addr blocks).1 = true →
        ∀ k < blocks, (addr + k * cfg.blocksize) / cfg.blocksize ∉ marked) := by
  induction blocks generalizing ra addr with
  | zero => exact ⟨h, .refl, fun _ _ => nofun⟩
  | succ blocks ih =>
    rw [eraseLoop]
    split
    · exact ⟨h, .refl, nofun⟩
    next hsel =>
    have hsel : selected cfg addr = true := by simpa using hsel
    obtain ⟨hlt, hblock⟩ := lt_of_selected haddr hsel
    dsimp only
    have hwp : NotErased cfg marked ra (ra.call nfc .check_wp).2 := .call nfc nofun
    split
    · exact ⟨h, hwp, nofun⟩
    obtain ⟨hcheck, hcalls⟩ := checkbad_keeps nfc addr hbbt (h.call nfc .check_wp)
    split
    · exact ⟨hcheck, hwp.trans hcalls, nofun⟩
    next hgood =>
    have hnot : addr / cfg.blocksize ∉ marked := by
      intro hmem
      rw [← hblock] at hmem
      rw [checkbad_bad hbbt (h.call nfc .check_wp _ hmem)] at hgood
      exact hgood Int.one_ne_zero
    have hpage : ∀ page, Call.erase_block (addr / cfg.pagesize) = .erase_block page →
        page / cfg.pagesPerBlock ∉ marked := by
      intro page heq
      obtain rfl := Call.erase_block.inj heq
      rwa [Nat.div_div_eq_div_mul, cfg.blocksize_eq]
    have herase := (hwp.trans hcalls).trans (NotErased.call nfc hpage)
    split
    · exact ⟨hcheck, herase, nofun⟩
    · have hroom := next_lt cfg hlt
      rw [Nat.mod_eq_of_lt hroom]
      obtain ⟨hbad, hlog, hpast⟩ := ih hroom (hcheck.call nfc _)
      refine ⟨hbad, herase.trans hlog, ?_⟩
      intro hdone k hk
      cases k with
      | zero => rwa [Nat.zero_mul, Nat.add_zero]
      | succ k =>
        have hrest := hpast hdone k (by omega)
        rwa [Nat.add_assoc, Nat.add_comm cfg.blocksize, ← Nat.succ_mul] at hrest

theorem erase_keeps (hbbt : cfg.ranfc_bbt = true) (h : Bad marked ra) (haddr : addr < 2 ^ 32)
    (len : Nat) :
    Bad marked (nand_erase_nand cfg nfc ra addr len).2 ∧
      NotErased cfg marked ra (nand_erase_nand cfg nfc ra addr len).2 ∧
      ∀ b ∈ marked, addr ≤ b * cfg.blocksize → (b + 1) * cfg.blocksize ≤ addr + len →
        (nand_erase_nand cfg nfc ra addr len).1 ≠ 0 := by
  unfold nand_erase_nand
  split
  · exact ⟨h, .refl, fun _ _ _ _ => show -EINVAL ≠ 0 by decide⟩
  next halign =>
  obtain ⟨haddr0, hlen0⟩ := not_or.mp halign
  obtain ⟨first, hfirst⟩ := Nat.dvd_of_mod_eq_zero (not_not.mp haddr0)
  obtain ⟨blocks, hblocks⟩ := Nat.dvd_of_mod_eq_zero (not_not.mp hlen0)
  obtain ⟨hbad, hlog, hpast⟩ := eraseLoop_keeps nfc hbbt (len / cfg.blocksize) haddr h
  rcases hloop : eraseLoop cfg nfc ra addr (len / cfg.blocksize) with ⟨done, stop, ra'⟩
  rw [hloop] at hbad hlog hpast
  cases done with
  | false => exact ⟨hbad.tag_bad, hlog, fun _ _ _ _ => show - EIO ≠ 0 by decide⟩
  | true =>
    refine ⟨hbad, hlog, fun b hb hfrom hto => ?_⟩
    have hpos := cfg.blocksize_pos
    have hle : first ≤ b := by
      apply Nat.le_of_mul_le_mul_right _ hpos
      rwa [Nat.mul_comm first, ← hfirst]
    have hlt : b + 1 ≤ first + blocks := by
      apply Nat.le_of_mul_le_mul_right _ hpos
      rwa [Nat.add_mul first, Nat.mul_comm first, Nat.mul_comm blocks, ← hfirst, ← hblocks]
    have hturn : (addr + (b - first) * cfg.blocksize) / cfg.blocksize = b := by
      rw [hfirst, Nat.mul_comm cfg.blocksize, ← Nat.add_mul, Nat.mul_div_cancel _ hpos]
      omega
    have hk : b - first < len / cfg.blocksize := by
      rw [hblocks, Nat.mul_div_cancel_left _ hpos]
      omega
    have hno := hpast rfl (b - first) hk
    rw [hturn] at hno
    exact absurd hb hno

end Steps

/-- The OOB bytes are asked for from behind their end. -/
def OobFails (move : Nat → MtdOobMode → Nat → Option Nat) (ops : mtd_oob_ops) (c : Cursor) : Prop :=
  ops.oobbuf = true ∧ 0 < c.ooblen ∧ move c.ooblen ops.mode ops.ooboffs = none

/-- The page cannot be read twice over. An error that ECC found does not count where only OOB bytes
are wanted. -/
def ReadFails (cfg : Geometry) (nfc : Nfc) (ops : mtd_oob_ops) (c : Cursor) : Prop :=
  let ret := (readTwice nfc c.ra (pageOf cfg c.addr)).1
  OobFails (nand_read_oob_buf cfg) ops c ∨
    ret ≠ 0 ∧ (ret ≠ -EUCLEAN ∧ ret ≠ -EBADMSG ∨ 0 < dataLen cfg c)

/-- The chip is write protected, or the page cannot be programmed. -/
def WriteFails (cfg : Geometry) (nfc : Nfc) (ops : mtd_oob_ops) (c : Cursor) : Prop :=
  let page := pageOf cfg c.addr
  let before := c.ra.log ++ [.check_wp] ++ if ops.mode = .MTD_OOB_AUTO then [.read_oob page] else []
  (nfc c.ra.log .check_wp).ret ≠ 0 ∨ OobFails (nand_write_oob_buf cfg) ops c ∨
    (nfc before (.write_page page)).ret ≠ 0

def Asks (c : Cursor) : Prop := ¬ (c.datalen = 0 ∧ c.ooblen = 0)

/-- A turn is not about a block that is marked, or it fails. -/
def Spared (cfg : Geometry) (marked : List Nat) (fails : Cursor → Prop) (c : Cursor) : Prop :=
  Asks c → c.addr / cfg.blocksize ∈ marked → fails c

section Turn

variable {cfg : Geometry} {nfc : Nfc} {marked : List Nat} {ops : mtd_oob_ops} {c c' : Cursor} {r : Int}
  {move : Nat → MtdOobMode → Nat → Option Nat} {ra : ra_nand_chip}

theorem oobTurn_eq_some (h : oobTurn move ops c = some c') :
    c'.ra = c.ra ∧ c'.addr = c.addr ∧ c'.datalen = c.datalen ∧ ¬ OobFails move ops c := by
  unfold oobTurn at h
  split at h
  · obtain ⟨len, hlen, rfl⟩ := Option.map_eq_some_iff.mp h
    refine ⟨rfl, rfl, rfl, fun hfails => ?_⟩
    rw [hfails.2.2] at hlen
    cases hlen
  · next hoob =>
    obtain rfl := Option.some.inj h
    exact ⟨rfl, rfl, rfl, fun hfails => hoob ⟨hfails.1, hfails.2.1⟩⟩

theorem readTwice_keeps (cfg : Geometry) (nfc : Nfc) (page : Nat) (h : Bad marked ra) :
    Bad marked (readTwice nfc ra page).2 ∧ NotErased cfg marked ra (readTwice nfc ra page).2 := by
  unfold readTwice
  dsimp only
  have hfirst : NotErased cfg marked ra (ra.call nfc (.read_page page)).2 := .call nfc nofun
  split
  · exact ⟨h, hfirst⟩
  · exact ⟨h, hfirst.trans (.call nfc nofun)⟩

theorem goOn_keeps (hblock : c.addr / cfg.blocksize ∉ marked) (h : Bad marked c.ra) :
    Bad marked (goOn cfg (dataTurn cfg c)).ra := h.tag_other hblock

def TurnKeeps (cfg : Geometry) (marked : List Nat) (c : Cursor) (fails : Prop) :
    (Cursor × Int) ⊕ Cursor → Prop
  | .inl (c', _) => Bad marked c'.ra ∧ NotErased cfg marked c.ra c'.ra
  | .inr c' => Asks c ∧ selected cfg c.addr = true ∧
    c'.addr = (pageOf cfg c.addr + 1) * cfg.pagesize ∧ ¬ fails ∧ NotErased cfg marked c.ra c'.ra ∧
    (c.addr / cfg.blocksize ∉ marked → Bad marked c'.ra)

theorem readTurn_keeps (h : Bad marked c.ra) :
    TurnKeeps cfg marked c (ReadFails cfg nfc ops c) (readTurn cfg nfc ops c) := by
  obtain ⟨hread, hlog⟩ := readTwice_keeps cfg nfc (pageOf cfg c.addr) h
  unfold readTurn ReadFails
  by_cases hdone : c.datalen = 0 ∧ c.ooblen = 0
  · rw [if_pos hdone]
    exact ⟨h, .refl⟩
  rw [if_neg hdone]
  cases hsel : selected cfg c.addr with
  | false => exact ⟨h, .refl⟩
  | true =>
    rw [if_neg (by decide)]
    generalize readTwice nfc c.ra (pageOf cfg c.addr) = out at hread hlog ⊢
    obtain ⟨ret, ra₁⟩ := out
    dsimp only at hread hlog ⊢
    have hread₂ : Bad marked (if ret = 0 then ra₁ else ra₁.tag (c.addr / cfg.blocksize) .BAD) := by
      split
      · exact hread
      · exact hread.tag_bad
    have hlog₂ : NotErased cfg marked c.ra
        (if ret = 0 then ra₁ else ra₁.tag (c.addr / cfg.blocksize) .BAD) := by
      split
      · exact hlog
      · exact hlog
    generalize (if ret = 0 then ra₁ else ra₁.tag (c.addr / cfg.blocksize) .BAD) = ra₂ at hread₂ hlog₂ ⊢
    by_cases hfatal : ret ≠ 0 ∧ ret ≠ -EUCLEAN ∧ ret ≠ -EBADMSG
    · rw [if_pos hfatal]
      exact ⟨hread₂, hlog₂⟩
    rw [if_neg hfatal]
    cases hoob : oobTurn (nand_read_oob_buf cfg) ops { c with ra := ra₂ } with
    | none => exact ⟨hread₂, hlog₂⟩
    | some c₁ =>
      obtain ⟨hra, haddr, hdatalen, hok⟩ := oobTurn_eq_some hoob
      have hlen : dataLen cfg c₁ = dataLen cfg c := by unfold dataLen; rw [haddr, hdatalen]
      dsimp only
      rw [hlen]
      by_cases hdata : 0 < dataLen cfg c ∧ ret ≠ 0
      · rw [if_pos hdata]
        exact ⟨hra ▸ hread₂, hra ▸ hlog₂⟩
      · rw [if_neg hdata]
        have hlog₁ : NotErased cfg marked c.ra c₁.ra := hra ▸ hlog₂
        refine ⟨hdone, hsel, ?_, ?_, hlog₁, ?_⟩
        · show (pageOf cfg c₁.addr + 1) * cfg.pagesize = _
          rw [haddr]
        · rintro (hfails | ⟨hret, hecc | hpos⟩)
          · exact hok hfails
          · exact hfatal ⟨hret, hecc⟩
          · exact hdata ⟨hpos, hret⟩
        · intro hblock
          apply goOn_keeps
          · rwa [haddr]
          · rw [hra]
            exact hread₂

theorem writeTurn_keeps (h : Bad marked c.ra) :
    TurnKeeps cfg marked c (WriteFails cfg nfc ops c) (writeTurn cfg nfc ops c) := by
  unfold writeTurn WriteFails
  by_cases hdone : c.datalen = 0 ∧ c.ooblen = 0
  · rw [if_pos hdone]
    exact ⟨h, .refl⟩
  rw [if_neg hdone]
  cases hsel : selected cfg c.addr with
  | false => exact ⟨h, .refl⟩
  | true =>
    rw [if_neg (by decide)]
    dsimp only
    have hwp : NotErased cfg marked c.ra (c.ra.call nfc .check_wp).2 := .call nfc nofun
    by_cases hprotected : (c.ra.call nfc .check_wp).1.ret ≠ 0
    · rw [if_pos hprotected]
      exact ⟨h, hwp⟩
    rw [if_neg hprotected]
    obtain ⟨ra₁, hra₁, hbbt, hlog⟩ : ∃ ra₁, (if ops.mode = .MTD_OOB_AUTO then
          ((c.ra.call nfc .check_wp).2.call nfc (.read_oob (pageOf cfg c.addr))).2
        else (c.ra.call nfc .check_wp).2) = ra₁ ∧ ra₁.bbt = c.ra.bbt ∧
        ra₁.log = c.ra.log ++ [.check_wp] ++
          if ops.mode = .MTD_OOB_AUTO then [.read_oob (pageOf cfg c.addr)] else [] := by
      split
      · exact ⟨_, rfl, rfl, rfl⟩
      · exact ⟨_, rfl, rfl, (List.append_nil _).symm⟩
    rw [hra₁, ← hlog]
    have hbad : Bad marked ra₁ := by
      unfold Bad
      rw [hbbt]
      exact h
    have hkept : NotErased cfg marked c.ra ra₁ := by
      refine ⟨_, by rw [hlog, List.append_assoc], ?_⟩
      intro page hpage
      split at hpage
      · simp at hpage
      · simp at hpage
    cases hoob : oobTurn (nand_write_oob_buf cfg) ops { c with ra := ra₁ } with
    | none => exact ⟨hbad, hkept⟩
    | some c₁ =>
      obtain ⟨hra, haddr, hdatalen, hok⟩ := oobTurn_eq_some hoob
      have hra₂ : (dataTurn cfg c₁).ra = ra₁ := hra
      have haddr₂ : (dataTurn cfg c₁).addr = c.addr := haddr
      dsimp only
      generalize dataTurn cfg c₁ = c₂ at hra₂ haddr₂ ⊢
      rw [haddr₂, hra₂]
      have hlast : NotErased cfg marked c.ra
          (ra₁.call nfc (.write_page (pageOf cfg c.addr))).2 := hkept.trans (.call nfc nofun)
      by_cases hprogram : (ra₁.call nfc (.write_page (pageOf cfg c.addr))).1.ret ≠ 0
      · rw [if_pos hprogram]
        exact ⟨(hbad.call nfc _).tag_bad, hlast⟩
      · rw [if_neg hprogram]
        refine ⟨hdone, hsel, ?_, ?_, hlast, ?_⟩
        · rfl
        · rintro (hfails | hfails | hfails)
          · exact hprotected hfails
          · exact hok hfails
          · exact hprogram hfails
        · intro hblock
          exact (hbad.call nfc _).tag_other hblock

end Turn

section Loop

variable {cfg : Geometry} {nfc : Nfc} {marked : List Nat} {ops : mtd_oob_ops} {c c' : Cursor}
  {turn : Cursor → (Cursor × Int) ⊕ Cursor} {fails : Cursor → Prop}

def left (cfg : Geometry) (c : Cursor) : Nat := cfg.chipsize - c.addr % 2 ^ 32

theorem left_lt (hsel : selected cfg c.addr = true)
    (hnext : c'.addr = (pageOf cfg c.addr + 1) * cfg.pagesize) : left cfg c' < left cfg c := by
  rw [selected_iff] at hsel
  have hchip : cfg.chipsize ∣ 2 ^ 32 := Nat.pow_dvd_pow 2 (cfg.chip_le.trans (by decide))
  have hpages : cfg.pagesize ∣ cfg.chipsize := Nat.pow_dvd_pow 2 (cfg.page_le.trans cfg.erase_le)
  have hmod : c.addr % cfg.chipsize = c.addr % 2 ^ 32 := by
    rw [← Nat.mod_mod_of_dvd c.addr hchip, Nat.mod_eq_of_lt hsel]
  have hbehind : c.addr % 2 ^ 32 < c'.addr := by
    rw [hnext, pageOf, hmod]
    exact Nat.lt_mul_of_div_lt (Nat.lt_succ_self _) cfg.pagesize_pos
  have hend : c'.addr ≤ cfg.chipsize := by
    rw [hnext, pageOf, hmod]
    obtain ⟨pages, hsize⟩ := hpages
    rw [hsize] at hsel ⊢
    rw [Nat.mul_comm]
    exact Nat.mul_le_mul_left _ (Nat.div_lt_of_lt_mul hsel)
  have hchipsize := chipsize_le cfg
  unfold left
  rw [Nat.mod_eq_of_lt (by omega : c'.addr < 2 ^ 32)]
  omega

theorem loop_keeps (hturn : ∀ marked c, Bad marked c.ra → TurnKeeps cfg marked c (fails c) (turn c))
    (h : Bad marked c.ra) (hspared : AllTurns turn (Spared cfg marked fails) (cfg.chipsize + 1) c) :
    ∃ out, loop turn (cfg.chipsize + 1) c = some out ∧ Bad marked out.1.ra ∧
      NotErased cfg marked c.ra out.1.ra := by
  have hdown : ∀ c c', turn c = .inr c' → left cfg c' < left cfg c := by
    intro c c' hc
    have hkeeps := hturn [] c (List.forall_mem_nil _)
    rw [hc] at hkeeps
    exact left_lt hkeeps.2.1 hkeeps.2.2.1
  obtain ⟨out, hout⟩ := Option.isSome_iff_exists.mp
    (isSome_loop hdown (Nat.lt_succ_of_le (Nat.sub_le _ _) : left cfg c < cfg.chipsize + 1))
  refine ⟨out, hout, ?_⟩
  apply loop_inv (I := fun c' => Bad marked c'.ra ∧ NotErased cfg marked c.ra c'.ra) _ _
    ⟨h, .refl⟩ hspared hout
  · intro c₁ c₂ r hc₁ _ hreturn
    have hkeeps := hturn marked c₁ hc₁.1
    rw [hreturn] at hkeeps
    exact ⟨hkeeps.1, hc₁.2.trans hkeeps.2⟩
  · intro c₁ c₂ hc₁ hspare hnext
    have hkeeps := hturn marked c₁ hc₁.1
    rw [hnext] at hkeeps
    obtain ⟨hasks, -, -, hok, hlog, hbad⟩ := hkeeps
    exact ⟨hbad fun hmem => hok (hspare hasks hmem), hc₁.2.trans hlog⟩

theorem oobBurst_keeps (h : Bad marked c.ra) :
    Bad marked (oobBurst cfg nfc ops c).1.ra ∧ NotErased cfg marked c.ra (oobBurst cfg nfc ops c).1.ra := by
  unfold oobBurst
  split
  · exact ⟨h, .refl⟩
  dsimp only
  have hwp : NotErased cfg marked c.ra (c.ra.call nfc .check_wp).2 := .call nfc nofun
  split
  · exact ⟨h, hwp⟩
  split
  · exact ⟨h, (hwp.trans (.call nfc (c := .read_oob _) nofun)).trans (.call nfc nofun)⟩
  · exact ⟨h, hwp.trans (.call nfc nofun)⟩

end Loop

inductive Event where
  | markbad (ofs : Nat)
  | isbad (offs : Nat)
  | erase (addr len : UInt32)
  | read (from_ len : Nat)
  | write (to_ len : Nat)
  | readoob (from_ : Nat) (ops : mtd_oob_ops)
  | writeoob (to_ : Nat) (ops : mtd_oob_ops)

/-- The blocks that have been marked stand beside. -/
structure State where
  ra : ra_nand_chip
  marked : List Nat

section Runs

variable (cfg : Geometry) (nfc : Nfc)

def step (s : State) : Event → Option State
  | .markbad ofs =>
    let (ret, ra) := ramtd_nand_block_markbad cfg nfc s.ra ofs
    some ⟨ra, if ret = 0 then blockOf cfg ofs :: s.marked else s.marked⟩
  | .isbad offs => some { s with ra := (ramtd_nand_block_isbad cfg nfc s.ra offs).2 }
  | .erase addr len => some { s with ra := (ramtd_nand_erase cfg nfc s.ra addr.toNat len.toNat).2 }
  | .read from_ len => (ramtd_nand_read cfg nfc s.ra from_ len).map fun r => { s with ra := r.2 }
  | .write to_ len => (ramtd_nand_write cfg nfc s.ra to_ len).map fun r => { s with ra := r.2 }
  | .readoob from_ ops => (ramtd_nand_readoob cfg nfc s.ra from_ ops).map fun r => { s with ra := r.2 }
  | .writeoob to_ ops => (ramtd_nand_writeoob cfg nfc s.ra to_ ops).map fun r => { s with ra := r.2 }

/-- The loops read and program no page of a marked block without an error. -/
def Spares (s : State) : Event → Prop
  | .read from_ len => from_ + len ≤ cfg.chipsize →
    AllTurns (readTurn cfg nfc (dataOps len))
      (Spared cfg s.marked (ReadFails cfg nfc (dataOps len))) (cfg.chipsize + 1)
      ⟨s.ra, from_, len, 0, 0, 0⟩
  | .write to_ len => to_ + len ≤ cfg.chipsize →
    AllTurns (writeTurn cfg nfc (dataOps len))
      (Spared cfg s.marked (WriteFails cfg nfc (dataOps len))) (cfg.chipsize + 1)
      ⟨s.ra, to_, len, 0, 0, 0⟩
  | .readoob from_ ops =>
    AllTurns (readTurn cfg nfc ops) (Spared cfg s.marked (ReadFails cfg nfc ops)) (cfg.chipsize + 1)
      ⟨s.ra, from_, if ops.datbuf then ops.len else 0, ops.ooblen, 0, 0⟩
  | .writeoob to_ ops => ¬ ((if ops.datbuf then ops.len else 0) = 0 ∧ 0 < ops.ooblen) →
    AllTurns (writeTurn cfg nfc ops) (Spared cfg s.marked (WriteFails cfg nfc ops)) (cfg.chipsize + 1)
      ⟨s.ra, to_, if ops.datbuf then ops.len else 0, ops.ooblen, 0, 0⟩
  | _ => True

end Runs

section Kept

variable {cfg : Geometry} {nfc : Nfc} {s : State} {e : Event} {ops : mtd_oob_ops}
  {from_ to_ len : Nat}

theorem read_keeps (h : Bad s.marked s.ra) (hspares : Spares cfg nfc s (.read from_ len)) :
    ∃ r, ramtd_nand_read cfg nfc s.ra from_ len = some r ∧ Bad s.marked r.2 := by
  unfold ramtd_nand_read
  split
  · exact ⟨_, rfl, h⟩
  next hrange =>
  split
  · exact ⟨_, rfl, h⟩
  · obtain ⟨out, hout, hbad, -⟩ := loop_keeps (c := ⟨s.ra, from_, len, 0, 0, 0⟩)
      (fun _ _ => readTurn_keeps) h (hspares (Nat.le_of_not_lt hrange))
    exact ⟨_, congrArg _ hout, hbad⟩

theorem write_keeps (h : Bad s.marked s.ra) (hspares : Spares cfg nfc s (.write to_ len)) :
    ∃ r, ramtd_nand_write cfg nfc s.ra to_ len = some r ∧ Bad s.marked r.2 := by
  unfold ramtd_nand_write
  split
  · exact ⟨_, rfl, h⟩
  next hrange =>
  split
  · exact ⟨_, rfl, h⟩
  · obtain ⟨out, hout, hbad, -⟩ := loop_keeps (c := ⟨s.ra, to_, len, 0, 0, 0⟩)
      (fun _ _ => writeTurn_keeps) h (hspares (Nat.le_of_not_lt hrange))
    unfold nand_do_write_ops
    dsimp only
    rw [if_neg fun hoob => Nat.lt_irrefl 0 hoob.2]
    exact ⟨_, congrArg _ hout, hbad⟩

theorem readoob_keeps (h : Bad s.marked s.ra) (hspares : Spares cfg nfc s (.readoob from_ ops)) :
    ∃ r, ramtd_nand_readoob cfg nfc s.ra from_ ops = some r ∧ Bad s.marked r.2 := by
  obtain ⟨out, hout, hbad, -⟩ := loop_keeps (fun _ _ => readTurn_keeps) h hspares
  exact ⟨_, congrArg _ hout, hbad⟩

theorem writeoob_keeps (h : Bad s.marked s.ra) (hspares : Spares cfg nfc s (.writeoob to_ ops)) :
    ∃ r, ramtd_nand_writeoob cfg nfc s.ra to_ ops = some r ∧ Bad s.marked r.2 := by
  unfold ramtd_nand_writeoob nand_do_write_ops
  dsimp only
  by_cases hburst : (if ops.datbuf then ops.len else 0) = 0 ∧ 0 < ops.ooblen
  · rw [if_pos hburst]
    exact ⟨_, rfl, (oobBurst_keeps h).1⟩
  · rw [if_neg hburst]
    obtain ⟨out, hout, hbad, -⟩ := loop_keeps (fun _ _ => writeTurn_keeps) h (hspares hburst)
    exact ⟨_, congrArg _ hout, hbad⟩

theorem step_keeps (hbbt : cfg.ranfc_bbt = true) (h : Bad s.marked s.ra) (hspares : Spares cfg nfc s e) :
    ∃ s', step cfg nfc s e = some s' ∧ Bad s'.marked s'.ra := by
  cases e with
  | markbad ofs =>
    have hbad : Bad (blockOf cfg ofs :: s.marked) (ramtd_nand_block_markbad cfg nfc s.ra ofs).2 :=
      markbad_keeps h
    refine ⟨⟨(ramtd_nand_block_markbad cfg nfc s.ra ofs).2,
      if (ramtd_nand_block_markbad cfg nfc s.ra ofs).1 = 0 then _ else _⟩, rfl, ?_⟩
    split
    · exact hbad
    · exact fun b hb => hbad b (List.mem_cons_of_mem _ hb)
  | isbad offs =>
    refine ⟨_, rfl, ?_⟩
    show Bad s.marked (ramtd_nand_block_isbad cfg nfc s.ra offs).2
    unfold ramtd_nand_block_isbad
    split
    · exact h
    · exact (checkbad_keeps nfc offs hbbt h).1
  | erase addr len => exact ⟨_, rfl, (erase_keeps hbbt h addr.toNat_lt len.toNat).1⟩
  | read from_ len =>
    obtain ⟨r, hr, hbad⟩ := read_keeps h hspares
    exact ⟨{ s with ra := r.2 }, by rw [step, hr]; rfl, hbad⟩
  | write to_ len =>
    obtain ⟨r, hr, hbad⟩ := write_keeps h hspares
    exact ⟨{ s with ra := r.2 }, by rw [step, hr]; rfl, hbad⟩
  | readoob from_ ops =>
    obtain ⟨r, hr, hbad⟩ := readoob_keeps h hspares
    exact ⟨{ s with ra := r.2 }, by rw [step, hr]; rfl, hbad⟩
  | writeoob to_ ops =>
    obtain ⟨r, hr, hbad⟩ := writeoob_keeps h hspares
    exact ⟨{ s with ra := r.2 }, by rw [step, hr]; rfl, hbad⟩

/-- The marker that is read in a page says that the block is good. -/
def MarkedGood (nfc : Nfc) (ra : ra_nand_chip) (page : Nat) : Prop :=
  (nfc ra.log (.read_oob page)).ret = 0 ∧ (nfc ra.log (.read_oob page)).marker = 0xFF

instance (nfc : Nfc) (ra : ra_nand_chip) (page : Nat) : Decidable (MarkedGood nfc ra page) :=
  inferInstanceAs (Decidable (_ ∧ _))

/-- The tag of the block is known, or the markers of all its pages say the same. -/
def Alike (cfg : Geometry) (nfc : Nfc) (ra : ra_nand_chip) (b : Nat) : Prop :=
  nand_bbt_get ra.bbt b = code .UNKNOWN →
    ∀ page page', page / cfg.pagesPerBlock = b → page' / cfg.pagesPerBlock = b →
      (MarkedGood nfc ra page ↔ MarkedGood nfc ra page')

variable {ra : ra_nand_chip} {b offs : Nat}

theorem isbad_eq (hbbt : cfg.ranfc_bbt = true) (hoffs : offs < cfg.chipsize) :
    (ramtd_nand_block_isbad cfg nfc ra offs).1 =
      if nand_bbt_get ra.bbt (offs / cfg.blocksize) = code .UNKNOWN then
        if MarkedGood nfc ra (offs / cfg.pagesize) then 0 else 1
      else if nand_bbt_get ra.bbt (offs / cfg.blocksize) ≠ code .GOOD then 1 else 0 := by
  unfold ramtd_nand_block_isbad nand_block_checkbad
  rw [if_neg (Nat.not_lt_of_gt hoffs), if_neg (by rw [hbbt]; decide), blockOf, pageOf,
    Nat.mod_eq_of_lt hoffs]
  dsimp only
  split
  · by_cases hgood : MarkedGood nfc ra (offs / cfg.pagesize)
    · rw [if_pos hgood]
      exact congrArg (fun tag => if tag ≠ BBT_TAG.GOOD then (1 : Int) else 0) (if_pos hgood)
    · rw [if_neg hgood]
      exact congrArg (fun tag => if tag ≠ BBT_TAG.GOOD then (1 : Int) else 0) (if_neg hgood)
  · rfl

theorem offset_of_page {page : Nat} (h : page / cfg.pagesPerBlock = b) :
    page * cfg.pagesize / cfg.blocksize = b := by
  rw [← cfg.blocksize_eq, ← Nat.div_div_eq_div_mul, Nat.mul_div_cancel _ cfg.pagesize_pos, h]

theorem lt_chipsize (hb : b < cfg.chipsize / cfg.blocksize) (h : offs / cfg.blocksize = b) :
    offs < cfg.chipsize := by
  subst h
  exact Nat.lt_of_not_le fun hle => Nat.not_le_of_lt hb (Nat.div_le_div_right hle)

theorem answers_alike_iff (hbbt : cfg.ranfc_bbt = true) (hb : b < cfg.chipsize / cfg.blocksize) :
    (∀ offs offs', offs / cfg.blocksize = b → offs' / cfg.blocksize = b →
      (ramtd_nand_block_isbad cfg nfc ra offs).1 = (ramtd_nand_block_isbad cfg nfc ra offs').1) ↔
      Alike cfg nfc ra b := by
  constructor
  · intro hall hunknown page page' hpage hpage'
    have hoffs := offset_of_page hpage
    have hoffs' := offset_of_page hpage'
    have heq := hall _ _ hoffs hoffs'
    rw [isbad_eq hbbt (lt_chipsize hb hoffs), isbad_eq hbbt (lt_chipsize hb hoffs'), hoffs, hoffs',
      if_pos hunknown, if_pos hunknown, Nat.mul_div_cancel _ cfg.pagesize_pos,
      Nat.mul_div_cancel _ cfg.pagesize_pos] at heq
    by_cases hgood : MarkedGood nfc ra page <;> by_cases hgood' : MarkedGood nfc ra page' <;>
      simp_all
  · intro halike offs offs' hoffs hoffs'
    have hpage : ∀ {offs}, offs / cfg.blocksize = b → offs / cfg.pagesize / cfg.pagesPerBlock = b := by
      intro offs hoffs
      rw [Nat.div_div_eq_div_mul, cfg.blocksize_eq, hoffs]
    rw [isbad_eq hbbt (lt_chipsize hb hoffs), isbad_eq hbbt (lt_chipsize hb hoffs'), hoffs, hoffs']
    split
    · next hunknown =>
      rw [if_congr (halike hunknown _ _ (hpage hoffs) (hpage hoffs')) rfl rfl]
    · rfl

/-- What holds of the marked blocks whatever is asked for next. -/
structure Kept (cfg : Geometry) (nfc : Nfc) (s : State) : Prop where
  bad : ∀ b ∈ s.marked, ∀ offs < cfg.chipsize, offs / cfg.blocksize = b →
    (ramtd_nand_block_isbad cfg nfc s.ra offs).1 = 1
  erase : ∀ b ∈ s.marked, ∀ addr len : UInt32, addr.toNat ≤ b * cfg.blocksize →
    (b + 1) * cfg.blocksize ≤ addr.toNat + len.toNat →
    (ramtd_nand_erase cfg nfc s.ra addr.toNat len.toNat).1 ≠ 0 ∧
      NotErased cfg s.marked s.ra (ramtd_nand_erase cfg nfc s.ra addr.toNat len.toNat).2
  alike : ∀ b < cfg.chipsize / cfg.blocksize,
    (∀ offs offs', offs / cfg.blocksize = b → offs' / cfg.blocksize = b →
      (ramtd_nand_block_isbad cfg nfc s.ra offs).1 = (ramtd_nand_block_isbad cfg nfc s.ra offs').1) ↔
      Alike cfg nfc s.ra b
  alone : ∀ block block' tag, block' ≠ block →
    nand_bbt_get (s.ra.tag block tag).bbt block' = nand_bbt_get s.ra.bbt block'

theorem Kept.of_bad (hbbt : cfg.ranfc_bbt = true) (h : Bad s.marked s.ra) : Kept cfg nfc s where
  bad := by
    intro b hb offs hoffs hblock
    rw [isbad_eq hbbt hoffs, hblock, h b hb, if_neg (by decide), if_pos (by decide)]
  erase := by
    intro b hb addr len hfrom hto
    obtain ⟨-, hcalls, hfails⟩ := erase_keeps hbbt h addr.toNat_lt len.toNat
    exact ⟨hfails b hb hfrom hto, hcalls⟩
  alike := fun _ hb => answers_alike_iff hbbt hb
  alone := by
    intro block block' tag hne
    show nand_bbt_get (nand_bbt_set s.ra.bbt block tag) block' = _
    rw [bbt_get_set, if_neg hne]

end Kept

/-- As long as no page of a marked block is read or programmed without an error, the marked blocks
are found bad and are not erased, in every state of a run. -/
theorem marked_stay_bad (cfg : Geometry) (nfc : Nfc) (ra : ra_nand_chip) (es : List Event)
    (hbbt : cfg.ranfc_bbt = true)
    (hspares : AllTries (step cfg nfc) (Spares cfg nfc) ⟨ra, []⟩ es) :
    ∃ s, tryExec (step cfg nfc) ⟨ra, []⟩ es = some s ∧ Kept cfg nfc s := by
  have hstart : Bad [] ra := fun _ hb => nomatch hb
  obtain ⟨s, hrun, hbad⟩ := tryExec_inv (I := fun s => Bad s.marked s.ra)
    (fun _ _ h hspares => step_keeps hbbt h hspares) hstart hspares
  exact ⟨s, hrun, .of_bad hbbt hbad⟩

def chip : Geometry where
  toConfig := smallPages
  chip_le := by decide

def zeroed : ra_nand_chip := ⟨fun _ => 0, []⟩

/-- A block is marked, and a page of the next one is read. -/
theorem marked_stay_bad_next : ∃ s, tryExec (step chip fun _ _ => ⟨0, 0xFF⟩) ⟨zeroed, []⟩
    [.markbad 0, .read 0x4000 512] = some s ∧ Kept chip (fun _ _ => ⟨0, 0xFF⟩) s := by
  apply marked_stay_bad _ _ _ _ rfl
  refine ⟨trivial, fun s hs => ⟨?_, fun _ _ => trivial⟩⟩
  obtain rfl := Option.some.inj hs
  refine fun _ => ⟨fun _ (hmem : 1 ∈ [0]) => absurd hmem (by decide), fun c hc => ?_⟩
  obtain rfl := Sum.inr.inj hc
  exact ⟨fun hasks => absurd ⟨rfl, rfl⟩ hasks, nofun⟩

/-- A page of a marked block is read. And a page with another marker than the first of its block. -/
theorem marked_turns_good :
    (∃ s, tryExec (step chip fun _ _ => ⟨0, 0xFF⟩) ⟨zeroed, []⟩ [.markbad 0, .read 0 512] = some s ∧
      0 ∈ s.marked ∧ (ramtd_nand_block_isbad chip (fun _ _ => ⟨0, 0xFF⟩) s.ra 0).1 = 0) ∧
    ∃ nfc : Nfc, (ramtd_nand_block_isbad chip nfc zeroed 0).1 = 1 ∧
      (ramtd_nand_block_isbad chip nfc zeroed 512).1 = 0 := by
  refine ⟨⟨_, rfl, ?_, ?_⟩, fun _ c => ⟨0, if c = .read_oob 0 then 0 else 0xFF⟩, ?_, ?_⟩
  all_goals decide

end Ralink.Nand.BlockTable
