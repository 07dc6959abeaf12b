import Ralink.Lib.Align
import Ralink.Lib.Run
import Ralink.Nand.Chip

/-! A write programs whole pages, and beside the bytes it is given a page gets what lies in the
buffer. That does no harm only where the buffer has a one for every one in the flash. -/
namespace Ralink.Nand
open ByteStore Function

variable (cfg : Config)

/-- A byte of the range is in the page of `a`. -/
def Touched (to_ len a : Nat) : Prop := ∃ i < len, (to_ + i) / cfg.pagesize = a / cfg.pagesize

/-- What lies in the buffer for a byte that is not in the range: a byte of the range from the
page before, or what was there before the call. -/
def leftover (buffers : Store) (to_ : Nat) (buf : List UInt8) (a : Nat) : UInt8 :=
  if to_ + cfg.pagesize ≤ a then buf.getD (a - cfg.pagesize - to_) 0
  else buffers (a % cfg.pagesize)

def programmed (buffers : Store) (to_ : Nat) (buf : List UInt8) : Store :=
  writeBytes (leftover cfg buffers to_ buf) to_ buf

instance (to_ len a : Nat) : Decidable (Touched cfg to_ len a) :=
  inferInstanceAs (Decidable (∃ i < len, (to_ + i) / cfg.pagesize = a / cfg.pagesize))

variable {cfg} {ra : ra_nand_chip} {addr to_ len a : Nat} {buf data : List UInt8}

theorem page_eq_iff {q : Nat} :
    a / cfg.pagesize = q ↔ q * cfg.pagesize ≤ a ∧ a < q * cfg.pagesize + cfg.pagesize := by
  have hpos := cfg.pagesize_pos
  rw [Nat.div_eq_iff hpos]
  omega

theorem page_split (cfg : Config) (a : Nat) :
    a / cfg.pagesize * cfg.pagesize + a % cfg.pagesize = a ∧ a % cfg.pagesize < cfg.pagesize :=
  ⟨Align.div_mul_add_mod a cfg.pagesize, Nat.mod_lt a cfg.pagesize_pos⟩

theorem column_eq (h : a / cfg.pagesize = addr / cfg.pagesize) :
    a % cfg.pagesize + addr = a + addr % cfg.pagesize := by
  obtain ⟨ha, -⟩ := page_split cfg a
  obtain ⟨haddr, -⟩ := page_split cfg addr
  rw [h] at ha
  omega

theorem nextPage_eq (h : addr < cfg.chipsize) : nextPage cfg addr = addr + pageRest cfg addr := by
  obtain ⟨haddr, hlt⟩ := page_split cfg addr
  rw [nextPage, Nat.mod_eq_of_lt h, pageRest, Nat.add_mul, one_mul]
  omega

theorem page_nextPage (h : addr < cfg.chipsize) :
    nextPage cfg addr / cfg.pagesize = addr / cfg.pagesize + 1 := by
  rw [nextPage, Nat.mod_eq_of_lt h, Nat.mul_div_cancel _ cfg.pagesize_pos]

theorem touched_next (h : addr < cfg.chipsize) (hrest : pageRest cfg addr ≤ len)
    (ha : a / cfg.pagesize ≠ addr / cfg.pagesize) :
    Touched cfg (nextPage cfg addr) (len - pageRest cfg addr) a ↔ Touched cfg addr len a := by
  rw [nextPage_eq h]
  constructor
  · rintro ⟨i, hi, hpage⟩
    exact ⟨pageRest cfg addr + i, by omega, by rwa [← Nat.add_assoc]⟩
  · rintro ⟨i, hi, hpage⟩
    have hle : pageRest cfg addr ≤ i := by
      by_contra hlt
      apply ha
      rw [← hpage, page_eq_iff]
      obtain ⟨haddr, hmod⟩ := page_split cfg addr
      unfold pageRest at hlt
      omega
    exact ⟨i - pageRest cfg addr, by omega,
      by rwa [Nat.add_assoc, Nat.add_sub_cancel' hle]⟩

theorem touched_self (hlen : 0 < len) (ha : a / cfg.pagesize = addr / cfg.pagesize) :
    Touched cfg addr len a := ⟨0, hlen, ha.symm⟩

theorem Touched.page_le (h : Touched cfg addr len a) :
    addr / cfg.pagesize ≤ a / cfg.pagesize := by
  obtain ⟨i, -, hpage⟩ := h
  rw [← hpage]
  exact Nat.div_le_div_right (Nat.le_add_right addr i)

theorem writeTurn_buffers (cfg : Config) (ra : ra_nand_chip) (addr : Nat) (data : List UInt8)
    {c : Nat} (hc : c < cfg.pagesize) :
    (writeTurn cfg ra addr data).buffers c =
      writeBytes ra.buffers (addr % cfg.pagesize) data c := by
  have hne : c ≠ cfg.pagesize + cfg.badblockpos := by omega
  show update (writeBytes (writeBytes ra.buffers cfg.pagesize _) (addr % cfg.pagesize) data) _ _ c
    = _
  rw [update_of_ne hne]
  exact writeBytes_congr (writeBytes_outside (.inl hc))

theorem writeTurn_data (h : addr < cfg.chipsize) (data : List UInt8) (a : Nat) :
    (writeTurn cfg ra addr data).data a =
      if a / cfg.pagesize = addr / cfg.pagesize then
        ra.data a &&& writeBytes ra.buffers (addr % cfg.pagesize) data (a % cfg.pagesize)
      else ra.data a := by
  have hbuf := writeTurn_buffers cfg ra addr data (Nat.mod_lt a cfg.pagesize_pos)
  have hturn : (writeTurn cfg ra addr data).data a =
      if a / cfg.pagesize = addr % cfg.chipsize / cfg.pagesize then
        ra.data a &&& (writeTurn cfg ra addr data).buffers (a % cfg.pagesize)
      else ra.data a := rfl
  rw [hturn, hbuf, Nat.mod_eq_of_lt h]

theorem writeBytes_column (ha : a / cfg.pagesize = addr / cfg.pagesize) :
    writeBytes ra.buffers (addr % cfg.pagesize) (data.take (pageRest cfg addr))
        (a % cfg.pagesize) =
      programmed cfg ra.buffers addr data a := by
  have hcol := column_eq ha
  obtain ⟨hsplit, hmod⟩ := page_split cfg addr
  have hlt := Nat.mod_lt a cfg.pagesize_pos
  unfold programmed
  rw [writeBytes_apply, writeBytes_apply, List.length_take]
  unfold pageRest
  by_cases hin : addr ≤ a ∧ a < addr + data.length
  · have hshift : a % cfg.pagesize - addr % cfg.pagesize = a - addr := by omega
    rw [if_pos hin, if_pos (by omega), hshift]
    rw [List.getD_eq_getElem?_getD, List.getElem?_take_of_lt (by omega),
      ← List.getD_eq_getElem?_getD]
  · rw [if_neg hin, if_neg (by omega), leftover, if_neg (by omega)]

theorem programmed_next (h : addr < cfg.chipsize) (hrest : pageRest cfg addr ≤ data.length)
    (ha : addr / cfg.pagesize < a / cfg.pagesize) :
    programmed cfg (writeTurn cfg ra addr (data.take (pageRest cfg addr))).buffers
        (nextPage cfg addr) (data.drop (pageRest cfg addr)) a =
      programmed cfg ra.buffers addr data a := by
  have hnext := nextPage_eq h
  obtain ⟨hsplit, hmod⟩ := page_split cfg addr
  have hstart : nextPage cfg addr ≤ a := by
    have hle : (addr / cfg.pagesize + 1) * cfg.pagesize ≤ a :=
      (Nat.le_div_iff_mul_le cfg.pagesize_pos).mp ha
    rwa [nextPage, Nat.mod_eq_of_lt h]
  have hbase : nextPage cfg addr = (addr / cfg.pagesize + 1) * cfg.pagesize := by
    rw [nextPage, Nat.mod_eq_of_lt h]
  have hmod0 : nextPage cfg addr % cfg.pagesize = 0 := by
    rw [hbase, Nat.mul_mod_left]
  unfold programmed
  rw [writeBytes_apply, writeBytes_apply, List.length_drop]
  have hdrop : ∀ i, (data.drop (pageRest cfg addr)).getD i 0 =
      data.getD (pageRest cfg addr + i) 0 := by
    intro i
    rw [List.getD_eq_getElem?_getD, List.getElem?_drop, ← List.getD_eq_getElem?_getD]
  by_cases hin : a < addr + data.length
  · rw [if_pos (by omega), if_pos (by omega), hdrop]
    congr 1
    omega
  · rw [if_neg (by omega), if_neg (by omega)]
    unfold leftover
    by_cases hfar : nextPage cfg addr + cfg.pagesize ≤ a
    · rw [if_pos hfar, if_pos (by omega), hdrop]
      congr 1
      omega
    · have hcol : a % cfg.pagesize = a - nextPage cfg addr := by
        have hpage : a / cfg.pagesize = addr / cfg.pagesize + 1 := by
          rw [page_eq_iff, ← hbase]
          omega
        have hcolumn := column_eq (hpage.trans (page_nextPage h).symm)
        rw [hmod0] at hcolumn
        omega
      rw [if_neg hfar, writeTurn_buffers _ _ _ _ (Nat.mod_lt a cfg.pagesize_pos), hcol,
        writeBytes_apply, List.length_take]
      by_cases hprev : addr + cfg.pagesize ≤ a
      · have hshift : a - nextPage cfg addr - addr % cfg.pagesize = a - cfg.pagesize - addr := by
          unfold pageRest at hnext
          omega
        have hlt : a - cfg.pagesize - addr < pageRest cfg addr := by omega
        have hrange : addr % cfg.pagesize ≤ a - nextPage cfg addr ∧ a - nextPage cfg addr <
            addr % cfg.pagesize + min (pageRest cfg addr) data.length := by
          unfold pageRest at hnext hlt hrest ⊢
          omega
        rw [if_pos hrange, if_pos hprev, hshift, List.getD_eq_getElem?_getD,
          List.getElem?_take_of_lt hlt, ← List.getD_eq_getElem?_getD]
      · have hrange : ¬ (addr % cfg.pagesize ≤ a - nextPage cfg addr ∧ a - nextPage cfg addr <
            addr % cfg.pagesize + min (pageRest cfg addr) data.length) := by
          unfold pageRest at hnext ⊢
          omega
        rw [if_neg hrange, if_neg hprev]

theorem Touched.page_eq (h : Touched cfg addr len a) (hlen : len ≤ pageRest cfg addr) :
    a / cfg.pagesize = addr / cfg.pagesize := by
  obtain ⟨i, hi, hpage⟩ := h
  obtain ⟨hsplit, hmod⟩ := page_split cfg addr
  rw [← hpage, page_eq_iff]
  unfold pageRest at hlen
  omega

theorem write_nil (cfg : Config) (ra : ra_nand_chip) (addr retlen : Nat) :
    nand_do_write_ops cfg ra addr [] retlen = (retlen, ra) := by
  rw [nand_do_write_ops, if_pos rfl]

theorem write_cons (hdata : data ≠ []) (retlen : Nat) :
    nand_do_write_ops cfg ra addr data retlen =
      nand_do_write_ops cfg (writeTurn cfg ra addr (data.take (pageRest cfg addr)))
        (nextPage cfg addr) (data.drop (pageRest cfg addr))
        (retlen + min data.length (pageRest cfg addr)) := by
  rw [nand_do_write_ops, if_neg hdata]
  rcases Nat.le_total data.length (pageRest cfg addr) with hle | hle
  · rw [Nat.min_eq_left hle, List.take_of_length_le hle, List.drop_of_length_le hle]
    simp only [List.take_length, List.drop_length]
  · rw [Nat.min_eq_right hle]

theorem write_spec (ra : ra_nand_chip) (addr : Nat) (data : List UInt8) (retlen : Nat)
    (h : addr + data.length ≤ cfg.chipsize) :
    (nand_do_write_ops cfg ra addr data retlen).1 = retlen + data.length ∧
      ∀ a, (nand_do_write_ops cfg ra addr data retlen).2.data a =
        if Touched cfg addr data.length a then
          ra.data a &&& programmed cfg ra.buffers addr data a
        else ra.data a := by
  induction hn : data.length using Nat.strong_induction_on generalizing ra addr data retlen with
  | h n ih =>
    subst hn
    by_cases hdata : data = []
    · subst hdata
      rw [write_nil]
      refine ⟨rfl, fun a => ?_⟩
      rw [if_neg]
      rintro ⟨i, hi, -⟩
      exact Nat.not_lt_zero i hi
    · have hpos : 0 < data.length := List.length_pos_iff.mpr hdata
      have haddr : addr < cfg.chipsize := by omega
      have hrestpos := pageRest_pos cfg addr
      rw [write_cons hdata]
      rcases Nat.le_total data.length (pageRest cfg addr) with hle | hle
      · rw [List.drop_of_length_le hle, write_nil, Nat.min_eq_left hle]
        refine ⟨rfl, fun a => ?_⟩
        rw [writeTurn_data haddr]
        by_cases hpage : a / cfg.pagesize = addr / cfg.pagesize
        · rw [if_pos hpage, if_pos (touched_self hpos hpage), writeBytes_column hpage]
        · rw [if_neg hpage, if_neg fun ht => hpage (ht.page_eq hle)]
      · have hlen : (data.drop (pageRest cfg addr)).length = data.length - pageRest cfg addr :=
          List.length_drop
        have hfits : nextPage cfg addr + (data.drop (pageRest cfg addr)).length ≤ cfg.chipsize := by
          rw [nextPage_eq haddr, hlen]
          omega
        obtain ⟨hcount, hbytes⟩ := ih _ (by omega)
          (writeTurn cfg ra addr (data.take (pageRest cfg addr))) (nextPage cfg addr)
          (data.drop (pageRest cfg addr)) (retlen + min data.length (pageRest cfg addr))
          hfits rfl
        rw [hlen] at hcount hbytes
        refine ⟨by rw [hcount]; omega, fun a => ?_⟩
        rw [hbytes a, writeTurn_data haddr]
        by_cases hpage : a / cfg.pagesize = addr / cfg.pagesize
        · have hout : ¬ Touched cfg (nextPage cfg addr) (data.length - pageRest cfg addr) a := by
            intro ht
            have hge := ht.page_le
            rw [page_nextPage haddr] at hge
            omega
          rw [if_neg hout, if_pos hpage, if_pos (touched_self hpos hpage), writeBytes_column hpage]
        · rw [if_neg hpage]
          by_cases ht : Touched cfg addr data.length a
          · have hlater : addr / cfg.pagesize < a / cfg.pagesize :=
              lt_of_le_of_ne ht.page_le (Ne.symm hpage)
            rw [if_pos ht, if_pos ((touched_next haddr hle hpage).mpr ht),
              programmed_next haddr hle hlater]
          · rw [if_neg ht, if_neg fun ht' => ht ((touched_next haddr hle hpage).mp ht')]

theorem readPage_column (ra : ra_nand_chip) (page : Nat) {c : Nat} (hc : c < cfg.pagesize) :
    (nfc_read_page cfg ra page).buffers c = ra.data (page * cfg.pagesize + c) := by
  show writeBytes (writeBytes ra.buffers 0 (readBytes ra.data (page * cfg.pagesize) cfg.pagesize))
    cfg.pagesize _ c = _
  rw [writeBytes_outside (.inl hc), writeBytes_apply, length_readBytes, if_pos (by omega),
    Nat.sub_zero, List.getD_eq_getElem?_getD, getElem?_readBytes _ hc, Option.getD_some]

theorem readPage_range (ra : ra_nand_chip) (addr : Nat) {len : Nat}
    (hlen : len ≤ pageRest cfg addr) :
    readBytes (nfc_read_page cfg ra (addr / cfg.pagesize)).buffers (addr % cfg.pagesize) len =
      readBytes ra.data addr len := by
  obtain ⟨hsplit, hmod⟩ := page_split cfg addr
  unfold pageRest at hlen
  apply List.map_congr_left
  intro i hi
  have hlt := List.mem_range.mp hi
  rw [readPage_column ra _ (by omega), ← Nat.add_assoc, hsplit]

theorem read_spec (ra : ra_nand_chip) (addr len : Nat) (buf : List UInt8)
    (h : addr + len ≤ cfg.chipsize) :
    (nand_do_read_ops cfg ra addr len buf).1 = buf ++ readBytes ra.data addr len ∧
      (nand_do_read_ops cfg ra addr len buf).2.data = ra.data := by
  induction hn : len using Nat.strong_induction_on generalizing ra addr len buf with
  | h n ih =>
    subst hn
    rw [nand_do_read_ops]
    by_cases hlen : len = 0
    · subst hlen
      rw [if_pos rfl]
      exact ⟨(List.append_nil buf).symm, rfl⟩
    · have haddr : addr < cfg.chipsize := by omega
      have hrestpos := pageRest_pos cfg addr
      rw [if_neg hlen, Nat.mod_eq_of_lt haddr]
      simp only [readPage_range ra addr (Nat.min_le_right len (pageRest cfg addr))]
      rcases Nat.le_total len (pageRest cfg addr) with hle | hle
      · rw [Nat.min_eq_left hle, Nat.sub_self, nand_do_read_ops, if_pos rfl]
        exact ⟨rfl, rfl⟩
      · rw [Nat.min_eq_right hle]
        have hfits : nextPage cfg addr + (len - pageRest cfg addr) ≤ cfg.chipsize := by
          rw [nextPage_eq haddr]
          omega
        obtain ⟨hbuf, hdata⟩ := ih _ (by omega)
          (nand_bbt_set (nfc_read_page cfg ra (addr / cfg.pagesize)) (addr / cfg.blocksize) .GOOD)
          (nextPage cfg addr) (len - pageRest cfg addr)
          (buf ++ readBytes ra.data addr (pageRest cfg addr)) hfits rfl
        refine ⟨?_, hdata⟩
        have hsplit : readBytes ra.data addr len = readBytes ra.data addr (pageRest cfg addr) ++
            readBytes ra.data (nextPage cfg addr) (len - pageRest cfg addr) := by
          rw [nextPage_eq haddr, ← readBytes_add, Nat.add_sub_cancel' hle]
        rw [hbuf, hsplit, List.append_assoc]
        rfl

theorem blocksize_div (cfg : Config) (a : Nat) :
    a / cfg.pagesize / cfg.pagesPerBlock = a / cfg.blocksize := by
  rw [Nat.div_div_eq_div_mul, cfg.blocksize_eq]

theorem checkbad_data (cfg : Config) (ra : ra_nand_chip) (offs : Nat) :
    (nand_block_checkbad cfg ra offs).2.data = ra.data := by
  unfold nand_block_checkbad
  split <;> rfl

theorem erase_spec (ra : ra_nand_chip) (addr blocks : Nat) (h : cfg.blocksize ∣ addr) :
    addr ≤ (eraseLoop cfg ra addr blocks).2.1 ∧
      ∀ a, (eraseLoop cfg ra addr blocks).2.2.data a =
        if addr ≤ a ∧ a < (eraseLoop cfg ra addr blocks).2.1 then 0xFF else ra.data a := by
  induction blocks generalizing ra addr with
  | zero =>
    refine ⟨le_rfl, fun a => (if_neg ?_).symm⟩
    rintro ⟨hle, hlt⟩
    exact absurd hlt (Nat.not_lt.mpr hle)
  | succ blocks ih =>
    have hdata := checkbad_data cfg ra addr
    rw [eraseLoop]
    rcases hcheck : nand_block_checkbad cfg ra addr with ⟨bad, ra'⟩
    rw [hcheck] at hdata
    cases bad with
    | true =>
      refine ⟨le_rfl, fun a => ?_⟩
      show ra'.data a = if addr ≤ a ∧ a < addr then 0xFF else ra.data a
      rw [if_neg (by omega), hdata]
    | false =>
      obtain ⟨hge, hbytes⟩ := ih (nfc_erase_block cfg ra' (addr / cfg.pagesize))
        (addr + cfg.blocksize) (Nat.dvd_add h (Nat.dvd_refl _))
      have hpos := cfg.blocksize_pos
      have hblock : ∀ a, a / cfg.blocksize = addr / cfg.pagesize / cfg.pagesPerBlock ↔
          addr ≤ a ∧ a < addr + cfg.blocksize := by
        intro a
        rw [blocksize_div, Nat.div_eq_iff hpos, Nat.div_mul_cancel h]
        omega
      simp only [Bool.false_eq_true, if_false]
      refine ⟨by omega, fun a => ?_⟩
      rw [hbytes a]
      by_cases hlater : addr + cfg.blocksize ≤ a ∧
          a < (eraseLoop cfg (nfc_erase_block cfg ra' (addr / cfg.pagesize))
            (addr + cfg.blocksize) blocks).2.1
      · rw [if_pos hlater, if_pos ⟨by omega, hlater.2⟩]
      · rw [if_neg hlater]
        show (if a / cfg.blocksize = addr / cfg.pagesize / cfg.pagesPerBlock then 0xFF
          else ra'.data a) = _
        rw [hdata]
        by_cases hin : addr ≤ a ∧ a < addr + cfg.blocksize
        · rw [if_pos ((hblock a).mpr hin), if_pos ⟨hin.1, by omega⟩]
        · rw [if_neg (fun hb => hin ((hblock a).mp hb)), if_neg (by omega)]

end Ralink.Nand
