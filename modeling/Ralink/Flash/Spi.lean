import Ralink.Lib.ByteStore

/-! `ramtd_write` sends a page program for each page, in the build without `COMMAND_MODE`. A
transfer may stop in its command or behind any byte, and to wait for the chip may fail. A page
program ANDs its bytes into a page and wraps in it; latches, protection and time are left out. -/
namespace Ralink.Spi
open ByteStore

def FLASH_PAGESIZE : Nat := 256
def EIO : Int := 5
def EINVAL : Int := 22
def SR_BP : UInt8 := 0x1C

theorem pagesize_pos : 0 < FLASH_PAGESIZE := by decide

/-- An entry of `chips_data`. What is larger than the addresses of three bytes has `addr4b`. -/
structure chip_info where
  id : UInt8
  sector_size : Nat
  n_sectors : Nat
  addr4b : Bool
  addressed : sector_size * n_sectors ≤ 2 ^ (if addr4b then 32 else 24)

def chip_info.size (chip : chip_info) : Nat := chip.sector_size * chip.n_sectors

/-- Where each transfer stops, in the order of those of its kind: in its command, or behind so many
bytes of data if it has more. `ready` are the results of waiting, `status` the bytes that are read. -/
structure Faults where
  ready : Nat → Bool
  status : Nat → UInt8
  small : Nat → Option Nat
  mode : Nat → Option Nat
  program : Nat → Option Nat

/-- The address mode of the chip, the lock, how often each kind of call has been made, and the
address and the number of bytes of each page program that has got to the chip. -/
structure Ctl where
  addr4 : Bool := false
  locked : Bool := false
  waits : Nat := 0
  smalls : Nat := 0
  modes : Nat := 0
  pps : Nat := 0
  programs : List (Nat × Nat) := []

def spic_transfer (stop : Option Nat) (n_buf : Nat) : Int :=
  match stop with
  | none => -1
  | some k => (min k n_buf : Nat)

/-- Where the `j`th byte of a page program goes. -/
def column (addr j : Nat) : Nat :=
  addr / FLASH_PAGESIZE * FLASH_PAGESIZE + (addr + j) % FLASH_PAGESIZE

def mask (addr : Nat) : Nat → List UInt8 → Nat → UInt8
  | _, [], _ => 0xFF
  | j, b :: bs, a => (if a = column addr j then b else 0xFF) &&& mask addr (j + 1) bs a

def number (bytes : List UInt8) : Nat := bytes.foldl (fun n b => n * 256 + b.toNat) 0

/-- What comes behind the opcode: as many address bytes as the mode tells, and data. -/
def pageProgram (bytes : List UInt8) (c : Ctl) (data : Store) : Ctl × Store :=
  let n := if c.addr4 then 4 else 3
  let addr := number (bytes.take n)
  let sent := bytes.drop n
  ({ c with programs := c.programs ++ [(addr, sent.length)] },
    fun a => data a &&& mask addr 0 sent a)

variable (chip : chip_info) (f : Faults)

def raspi_wait_ready (c : Ctl) : Bool × Ctl := (f.ready c.waits, { c with waits := c.waits + 1 })

/-- A transfer of a latch or a register that the chip is modelled without. -/
def small (n_buf : Nat) (c : Ctl) : Int × Ctl :=
  (spic_transfer (f.small c.smalls) n_buf, { c with smalls := c.smalls + 1 })

def raspi_write_enable (c : Ctl) : Ctl := (small f 0 c).2
def raspi_write_disable (c : Ctl) : Ctl := (small f 0 c).2

def raspi_unprotect (c : Ctl) : Ctl :=
  let (retval, c') := small f 1 c
  if retval = 1 ∧ f.status c.smalls &&& SR_BP ≠ 0 then (small f 1 c').2 else c'

/-- Whether the transfer that sets the address mode has got to its end: a command, and for Spansion
a byte for the bank register as well. -/
def modeSent (stop : Option Nat) : Bool :=
  match stop with
  | none => false
  | some k => chip.id ≠ 0x01 || 0 < k

/-- The result is of no use to `ramtd_write`. -/
def raspi_4byte_mode (enable : Bool) (c : Ctl) : Ctl :=
  let c := (raspi_wait_ready f c).2
  let c := { c with
    addr4 := if modeSent chip (f.mode c.modes) then enable else c.addr4
    modes := c.modes + 1 }
  if chip.id = 0x01 then (small f 1 c).2 else c

def address (to_ : Nat) : List UInt8 :=
  if chip.addr4b then
    [UInt8.ofNat (to_ / 2 ^ 24), UInt8.ofNat (to_ / 2 ^ 16), UInt8.ofNat (to_ / 2 ^ 8), UInt8.ofNat to_]
  else [UInt8.ofNat (to_ / 2 ^ 16), UInt8.ofNat (to_ / 2 ^ 8), UInt8.ofNat to_]

def spic_write (to_ : Nat) (buf : List UInt8) (c : Ctl) (data : Store) : Int × Ctl × Store :=
  let stop := f.program c.pps
  let c := { c with pps := c.pps + 1 }
  (spic_transfer stop buf.length, match stop with
    | none => (c, data)
    | some k => pageProgram (address chip to_ ++ buf.take k) c data)

structure Result where
  ret : Int
  retlen : Nat
  ctl : Ctl
  data : Store

def beforePage (c : Ctl) : Ctl := raspi_unprotect f (raspi_write_enable f (raspi_wait_ready f c).2)

def afterPage (count : Nat) (c : Ctl) : Ctl :=
  if count &&& 0xF = 0 then (raspi_wait_ready f c).2 else c

def afterPages (c : Ctl) : Ctl :=
  let c := if chip.addr4b then raspi_4byte_mode chip f false c else c
  { raspi_write_disable f c with locked := false }

theorem length_drop_page {page_offset : Fin FLASH_PAGESIZE} {buf : List UInt8} (h : buf ≠ []) :
    (buf.drop (min buf.length (FLASH_PAGESIZE - page_offset))).length < buf.length := by
  have hpos := List.length_pos_iff.mpr h
  have hoffset := page_offset.isLt
  rw [List.length_drop]
  omega

def writePages (page_offset : Fin FLASH_PAGESIZE) (count to_ : Nat) (buf : List UInt8) (retlen : Nat)
    (c : Ctl) (data : Store) : Result :=
  if _h : buf = [] then ⟨0, retlen, afterPages chip f c, data⟩
  else
    let page_size := min buf.length (FLASH_PAGESIZE - page_offset)
    let (retval, c, data) := spic_write chip f to_ (buf.take page_size) (beforePage f c) data
    let retlen := if 0 < retval then retlen + retval.toNat else retlen
    if 0 < retval ∧ retval < page_size then
      ⟨- EIO, retlen, raspi_write_disable f { c with locked := false }, data⟩
    else
      writePages ⟨0, pagesize_pos⟩ (count + 1) (to_ + page_size) (buf.drop page_size) retlen
        (afterPage f (count + 1) c) data
termination_by buf.length
decreasing_by exact length_drop_page _h

def firstPage (to_ : Nat) : Fin FLASH_PAGESIZE := ⟨to_ % FLASH_PAGESIZE, Nat.mod_lt _ pagesize_pos⟩

def ramtd_write (to_ : Nat) (buf : List UInt8) (c : Ctl) (data : Store) : Result :=
  if buf.length = 0 then ⟨0, 0, c, data⟩
  else if chip.size < to_ + buf.length then ⟨-EINVAL, 0, c, data⟩
  else
    let (ready, c) := raspi_wait_ready f { c with locked := true }
    if !ready then ⟨-1, 0, { c with locked := false }, data⟩
    else
      let c := raspi_write_enable f c
      let c := if chip.addr4b then raspi_4byte_mode chip f true c else c
      writePages chip f (firstPage to_) 0 to_ buf 0 c data

/-- A byte of the buffer has been programmed where it belongs. -/
def Programmed (before after : Store) (to_ : Nat) (buf : List UInt8) (i : Nat) : Prop :=
  after (to_ + i) = before (to_ + i) &&& buf.getD i 0

structure Honest (to_ : Nat) (buf : List UInt8) (before : Store) (r : Result) : Prop where
  outside : ∀ a, a < to_ ∨ to_ + buf.length ≤ a → r.data a = before a
  noWrap : ∀ p ∈ r.ctl.programs, p.1 % FLASH_PAGESIZE + p.2 ≤ FLASH_PAGESIZE
  success : r.ret = 0 → ∀ i < buf.length, Programmed before r.data to_ buf i
  retlen_le : r.retlen ≤ buf.length
  front : ∀ i < r.retlen, Programmed before r.data to_ buf i
  unlocked : r.ctl.locked = false
  threeBytes : r.ctl.addr4 = false

def pageSizes (page_offset : Fin FLASH_PAGESIZE) (len : Nat) : List Nat :=
  if _h : len = 0 then []
  else
    let page_size := min len (FLASH_PAGESIZE - page_offset)
    page_size :: pageSizes ⟨0, pagesize_pos⟩ (len - page_size)
termination_by len
decreasing_by
  have hoffset := page_offset.isLt
  omega

/-- How the first page program ends that does not send all of its bytes, if there is one. -/
inductive Stop where
  | none
  | short
  | lost
  deriving DecidableEq

def firstStop (program : Nat → Option Nat) : Nat → List Nat → Stop
  | _, [] => .none
  | i, n :: ns =>
    match program i with
    | .none | some 0 => .lost
    | some (k + 1) => if k + 1 < n then .short else firstStop program (i + 1) ns

/-- There is nothing to be done or the chip is not ready; or the address mode is entered, and then
all pages are sent and the mode is left again, or one stops in the middle and there is no mode to
be left. -/
def Safe (to_ len : Nat) : Prop :=
  len = 0 ∨ chip.size < to_ + len ∨ f.ready 0 = false ∨
    (chip.addr4b = true → modeSent chip (f.mode 0) = true) ∧
      match firstStop f.program 0 (pageSizes (firstPage to_) len) with
      | .none => chip.addr4b = true → modeSent chip (f.mode 1) = true
      | .short => chip.addr4b = false
      | .lost => False

end Ralink.Spi

/-! In the mode that the driver takes the chip to be in, a page program is at the address of the
page and does not wrap. -/
namespace Ralink.Spi
open ByteStore

variable {chip : chip_info} {f : Faults} {addr j a to_ len count retlen : Nat} {bs buf : List UInt8}
  {c c' : Ctl} {data : Store} {page_offset : Fin FLASH_PAGESIZE} (x : UInt8) {c'' : Ctl} {n m : Nat}

theorem and_ones : x &&& 0xFF = x := by
  apply UInt8.toBitVec_inj.mp
  exact BitVec.and_allOnes

theorem ones_and : 0xFF &&& x = x := by
  rw [UInt8.and_comm]
  exact and_ones x

theorem column_inside (h : addr % FLASH_PAGESIZE + j < FLASH_PAGESIZE) : column addr j = addr + j := by
  unfold column FLASH_PAGESIZE at *
  omega

theorem mask_inside (h : addr % FLASH_PAGESIZE + j + bs.length ≤ FLASH_PAGESIZE) :
    mask addr j bs a = if addr + j ≤ a ∧ a < addr + j + bs.length then bs.getD (a - (addr + j)) 0
      else 0xFF := by
  induction bs generalizing j with
  | nil => rw [mask, List.length_nil, if_neg (by omega)]
  | cons b bs ih =>
    rw [List.length_cons] at h
    rw [mask, column_inside (by omega), ih (by omega), List.length_cons]
    by_cases ha : a = addr + j
    · rw [if_pos ha, if_neg (by omega), if_pos (by omega), and_ones, ha, Nat.sub_self]
      rfl
    · rw [if_neg ha, ones_and]
      by_cases hin : addr + (j + 1) ≤ a ∧ a < addr + (j + 1) + bs.length
      · rw [if_pos hin, if_pos (by omega), show a - (addr + j) = a - (addr + (j + 1)) + 1 by omega,
          List.getD_cons_succ]
      · rw [if_neg hin, if_neg (by omega)]

theorem number_address_four (hto : to_ < 2 ^ 32) :
    number [UInt8.ofNat (to_ / 2 ^ 24), UInt8.ofNat (to_ / 2 ^ 16), UInt8.ofNat (to_ / 2 ^ 8),
      UInt8.ofNat to_] = to_ := by
  simp only [number, List.foldl_cons, List.foldl_nil, UInt8.toNat_ofNat']
  omega

theorem number_address_three (hto : to_ < 2 ^ 24) :
    number [UInt8.ofNat (to_ / 2 ^ 16), UInt8.ofNat (to_ / 2 ^ 8), UInt8.ofNat to_] = to_ := by
  simp only [number, List.foldl_cons, List.foldl_nil, UInt8.toNat_ofNat']
  omega

theorem lt_of_addressed (h : to_ < chip.size) : to_ < 2 ^ (if chip.addr4b then 32 else 24) :=
  Nat.lt_of_lt_of_le h chip.addressed

theorem pageProgram_placed (bs : List UInt8) (data : Store) (hmode : c.addr4 = chip.addr4b) (hto : to_ < chip.size) :
    pageProgram (address chip to_ ++ bs) c data =
      ({ c with programs := c.programs ++ [(to_, bs.length)] },
        fun a => data a &&& mask to_ 0 bs a) := by
  have hlt := lt_of_addressed hto
  unfold pageProgram address
  cases haddr : chip.addr4b with
  | true =>
    rw [haddr] at hmode hlt
    simp only [hmode, if_true, List.cons_append, List.nil_append, List.take_succ_cons,
      List.take_zero, List.drop_succ_cons, List.drop_zero, number_address_four hlt]
  | false =>
    rw [haddr] at hmode hlt
    simp only [hmode, Bool.false_eq_true, if_false, List.cons_append, List.nil_append,
      List.take_succ_cons, List.take_zero, List.drop_succ_cons, List.drop_zero,
      number_address_three hlt]

def Ctl.core (c : Ctl) : Bool × Bool × Nat × Nat × List (Nat × Nat) :=
  (c.addr4, c.locked, c.modes, c.pps, c.programs)

theorem core_raspi_unprotect (c : Ctl) : (raspi_unprotect f c).core = c.core := by
  unfold raspi_unprotect
  dsimp only
  split <;> rfl

theorem core_beforePage (c : Ctl) : (beforePage f c).core = c.core := core_raspi_unprotect _

theorem core_afterPage (count : Nat) (c : Ctl) : (afterPage f count c).core = c.core := by
  unfold afterPage
  split <;> rfl

def startPage (f : Faults) (c : Ctl) : Ctl :=
  { beforePage f c with pps := (beforePage f c).pps + 1 }

structure Follows (c c' : Ctl) : Prop where
  addr4 : c'.addr4 = c.addr4
  locked : c'.locked = c.locked
  modes : c'.modes = c.modes
  pps : c'.pps = c.pps + 1
  programs : ∀ p ∈ c'.programs, p ∈ c.programs ∨ p.1 % FLASH_PAGESIZE + p.2 ≤ FLASH_PAGESIZE

theorem core_eq_iff : c'.core = c.core ↔ c'.addr4 = c.addr4 ∧ c'.locked = c.locked ∧
    c'.modes = c.modes ∧ c'.pps = c.pps ∧ c'.programs = c.programs := by
  simp only [Ctl.core, Prod.mk.injEq]

theorem startPage_follows (c : Ctl) : Follows c (startPage f c) := by
  obtain ⟨haddr, hlocked, hmodes, hpps, hprograms⟩ := core_eq_iff.mp (core_beforePage (f := f) c)
  exact ⟨haddr, hlocked, hmodes, congrArg (· + 1) hpps, fun p hp => .inl (hprograms ▸ hp)⟩

theorem Follows.program (h : Follows c c') (hfit : to_ % FLASH_PAGESIZE + n ≤ FLASH_PAGESIZE) :
    Follows c { c' with programs := c'.programs ++ [(to_, n)] } := by
  refine ⟨h.addr4, h.locked, h.modes, h.pps, fun p hp => ?_⟩
  rcases List.mem_append.mp hp with hp | hp
  · exact h.programs p hp
  · rw [List.mem_singleton.mp hp]
    exact .inr hfit

theorem Follows.of_core (h : Follows c c') (hcore : c''.core = c'.core) : Follows c c'' := by
  obtain ⟨haddr, hlocked, hmodes, hpps, hprograms⟩ := core_eq_iff.mp hcore
  exact ⟨haddr.trans h.addr4, hlocked.trans h.locked, hmodes.trans h.modes, hpps.trans h.pps,
    fun p hp => h.programs p (hprograms ▸ hp)⟩

def pageSize (page_offset : Fin FLASH_PAGESIZE) (len : Nat) : Nat :=
  min len (FLASH_PAGESIZE - page_offset)

theorem pageSize_le (page_offset : Fin FLASH_PAGESIZE) (len : Nat) : pageSize page_offset len ≤ len :=
  Nat.min_le_left _ _

theorem pageSize_pos (hlen : 0 < len) : 0 < pageSize page_offset len := by
  have hoffset := page_offset.isLt
  unfold pageSize
  omega

theorem writePages_nil : writePages chip f page_offset count to_ [] retlen c data =
    ⟨0, retlen, afterPages chip f c, data⟩ := by
  rw [writePages, dif_pos rfl]

def nextPage (chip : chip_info) (f : Faults) (count to_ n : Nat) (buf : List UInt8) (retlen : Nat)
    (c : Ctl) (data : Store) : Result :=
  writePages chip f ⟨0, pagesize_pos⟩ (count + 1) (to_ + n) (buf.drop n) retlen
    (afterPage f (count + 1) c) data

theorem writePages_none_sent (h : buf ≠ []) (hstop : f.program c.pps = none) :
    writePages chip f page_offset count to_ buf retlen c data =
      nextPage chip f count to_ (pageSize page_offset buf.length) buf retlen (startPage f c) data := by
  have hpps := (core_eq_iff.mp (core_beforePage (f := f) c)).2.2.2.1
  rw [writePages, dif_neg h]
  simp only [spic_write, hpps, hstop, spic_transfer]
  rw [if_neg (by omega), if_neg (by omega)]
  simp only [nextPage, startPage, hpps, pageSize]

theorem writePages_sent {k : Nat} (h : buf ≠ []) (hstop : f.program c.pps = some k) :
    writePages chip f page_offset count to_ buf retlen c data =
      let n := pageSize page_offset buf.length
      let r := pageProgram (address chip to_ ++ (buf.take n).take k) (startPage f c) data
      if 0 < k ∧ k < n then
        ⟨- EIO, retlen + k, raspi_write_disable f { r.1 with locked := false }, r.2⟩
      else nextPage chip f count to_ n buf (retlen + min k n) r.1 r.2 := by
  have hpps := (core_eq_iff.mp (core_beforePage (f := f) c)).2.2.2.1
  have hlen : (buf.take (pageSize page_offset buf.length)).length =
      pageSize page_offset buf.length := by
    rw [List.length_take, Nat.min_eq_left (pageSize_le page_offset _)]
  have hpos : 0 < pageSize page_offset buf.length := pageSize_pos (List.length_pos_iff.mpr h)
  rw [writePages, dif_neg h]
  simp only [spic_write, hpps, hstop, spic_transfer, startPage]
  rw [← pageSize, hlen]
  by_cases hk : 0 < k ∧ k < pageSize page_offset buf.length
  · have hmin : min k (pageSize page_offset buf.length) = k := by omega
    rw [hmin, if_pos (by omega), if_pos hk, if_pos (by omega), Int.toNat_natCast]
  · rw [if_neg hk, if_neg (by omega), nextPage]
    by_cases hzero : k = 0
    · subst hzero
      rw [Nat.zero_min, if_neg (by omega)]
      rfl
    · rw [if_pos (by omega), Int.toNat_natCast]

theorem writePages_ret (page_offset : Fin FLASH_PAGESIZE) (count to_ : Nat) (buf : List UInt8)
    (retlen : Nat) (c : Ctl) (data : Store) :
    retlen ≤ (writePages chip f page_offset count to_ buf retlen c data).retlen ∧
      ((writePages chip f page_offset count to_ buf retlen c data).ret = 0 ∨
        retlen < (writePages chip f page_offset count to_ buf retlen c data).retlen) := by
  induction hlen : buf.length using Nat.strong_induction_on
    generalizing page_offset count to_ buf retlen c data with
  | _ len ih =>
    by_cases hbuf : buf = []
    · subst hbuf
      rw [writePages_nil]
      exact ⟨Nat.le_refl _, .inl rfl⟩
    · have hlt : (buf.drop (pageSize page_offset buf.length)).length < len := hlen ▸
        length_drop_page hbuf
      cases hstop : f.program c.pps with
      | none =>
        rw [writePages_none_sent hbuf hstop]
        exact ih _ hlt _ _ _ _ _ _ _ rfl
      | some k =>
        rw [writePages_sent hbuf hstop]
        dsimp only
        split
        · next hk => exact ⟨Nat.le_add_right _ _, .inr (Nat.lt_add_of_pos_right hk.1)⟩
        · have hrest := ih _ hlt ⟨0, pagesize_pos⟩ (count + 1)
            (to_ + pageSize page_offset buf.length) _
            (retlen + min k (pageSize page_offset buf.length))
            (afterPage f (count + 1) (pageProgram (address chip to_ ++
              (buf.take (pageSize page_offset buf.length)).take k) (startPage f c) data).1)
            (pageProgram (address chip to_ ++
              (buf.take (pageSize page_offset buf.length)).take k) (startPage f c) data).2 rfl
          refine ⟨Nat.le_trans (Nat.le_add_right _ _) hrest.1, ?_⟩
          exact hrest.2.imp_right (Nat.lt_of_le_of_lt (Nat.le_add_right _ _))

theorem writePages_mask (page_offset : Fin FLASH_PAGESIZE) (count to_ : Nat) (buf : List UInt8)
    (retlen : Nat) (c : Ctl) (a : Nat) :
    ∃ m : UInt8, ∀ data, (writePages chip f page_offset count to_ buf retlen c data).data a =
      data a &&& m := by
  induction hlen : buf.length using Nat.strong_induction_on
    generalizing page_offset count to_ buf retlen c with
  | _ len ih =>
    by_cases hbuf : buf = []
    · subst hbuf
      refine ⟨0xFF, fun data => ?_⟩
      rw [writePages_nil, and_ones]
    · have hlt : (buf.drop (pageSize page_offset buf.length)).length < len := hlen ▸
        length_drop_page hbuf
      cases hstop : f.program c.pps with
      | none =>
        obtain ⟨m, hm⟩ := ih _ hlt ⟨0, pagesize_pos⟩ (count + 1)
          (to_ + pageSize page_offset buf.length) _ retlen
          (afterPage f (count + 1) (startPage f c)) rfl
        refine ⟨m, fun data => ?_⟩
        rw [writePages_none_sent hbuf hstop]
        exact hm data
      | some k =>
        let bytes := address chip to_ ++ (buf.take (pageSize page_offset buf.length)).take k
        let n := if (startPage f c).addr4 then 4 else 3
        by_cases hk : 0 < k ∧ k < pageSize page_offset buf.length
        · refine ⟨mask (number (bytes.take n)) 0 (bytes.drop n) a, fun data => ?_⟩
          rw [writePages_sent hbuf hstop]
          dsimp only
          rw [if_pos hk]
          rfl
        · obtain ⟨m, hm⟩ := ih _ hlt ⟨0, pagesize_pos⟩ (count + 1)
            (to_ + pageSize page_offset buf.length) _
            (retlen + min k (pageSize page_offset buf.length))
            (afterPage f (count + 1) (pageProgram bytes (startPage f c) fun _ => 0).1) rfl
          refine ⟨mask (number (bytes.take n)) 0 (bytes.drop n) a &&& m, fun data => ?_⟩
          rw [writePages_sent hbuf hstop]
          dsimp only
          rw [if_neg hk, ← UInt8.and_assoc]
          exact hm _

structure Placed (chip : chip_info) (page_offset : Fin FLASH_PAGESIZE) (to_ len : Nat) (c : Ctl) :
    Prop where
  mode : c.addr4 = chip.addr4b
  offset : len ≠ 0 → page_offset = to_ % FLASH_PAGESIZE
  inside : to_ + len ≤ chip.size

def Wrote (before after : Store) (to_ : Nat) (buf : List UInt8) (m : Nat) : Prop :=
  ∀ a, after a = if to_ ≤ a ∧ a < to_ + m then before a &&& buf.getD (a - to_) 0 else before a

theorem Wrote.zero (data : Store) (to_ : Nat) (buf : List UInt8) : Wrote data data to_ buf 0 := by
  intro a
  rw [if_neg (by omega)]

theorem Wrote.add {before middle after : Store} (h : Wrote before middle to_ buf n)
    (h' : Wrote middle after (to_ + n) (buf.drop n) m) : Wrote before after to_ buf (n + m) := by
  intro a
  rw [h' a, h a]
  by_cases hback : to_ + n ≤ a ∧ a < to_ + n + m
  · rw [if_pos hback, if_neg (by omega), if_pos (by omega), List.getD_eq_getElem?_getD,
      List.getElem?_drop, show n + (a - (to_ + n)) = a - to_ by omega, ← List.getD_eq_getElem?_getD]
  · rw [if_neg hback]
    by_cases hfront : to_ ≤ a ∧ a < to_ + n
    · rw [if_pos hfront, if_pos (by omega)]
    · rw [if_neg hfront, if_neg (by omega)]

theorem wrote_mask (data : Store) (hm : m ≤ buf.length)
    (hfit : to_ % FLASH_PAGESIZE + m ≤ FLASH_PAGESIZE) :
    Wrote data (fun a => data a &&& mask to_ 0 (buf.take m) a) to_ buf m := by
  have hlen : (buf.take m).length = m := by rw [List.length_take, Nat.min_eq_left hm]
  intro a
  dsimp only
  rw [mask_inside (by rw [hlen]; exact hfit), hlen, Nat.add_zero]
  by_cases ha : to_ ≤ a ∧ a < to_ + m
  · rw [if_pos ha, if_pos ha, List.getD_eq_getElem?_getD, List.getElem?_take_of_lt (by omega),
      ← List.getD_eq_getElem?_getD]
  · rw [if_neg ha, if_neg ha, and_ones]

structure Adds (c c' : Ctl) : Prop where
  addr4 : c'.addr4 = c.addr4
  modes : c'.modes = c.modes
  programs : ∀ p ∈ c'.programs, p ∈ c.programs ∨ p.1 % FLASH_PAGESIZE + p.2 ≤ FLASH_PAGESIZE

theorem Follows.adds (h : Follows c c') (h' : Adds c' c'') : Adds c c'' := by
  refine ⟨h'.addr4.trans h.addr4, h'.modes.trans h.modes, fun p hp => ?_⟩
  rcases h'.programs p hp with hp | hp
  · exact h.programs p hp
  · exact .inr hp

section Turn

variable (hp : Placed chip page_offset to_ buf.length c) (hbuf : buf ≠ [])

include hp hbuf

theorem Placed.fits {m : Nat} (hm : m ≤ pageSize page_offset buf.length) :
    to_ % FLASH_PAGESIZE + m ≤ FLASH_PAGESIZE := by
  have hoffset := hp.offset (fun h => hbuf (List.length_eq_zero_iff.mp h))
  have hlt := page_offset.isLt
  unfold pageSize at hm
  omega

theorem Placed.lt_size : to_ < chip.size := by
  have hinside := hp.inside
  have hpos := List.length_pos_iff.mpr hbuf
  omega

theorem Placed.next (hf : Follows c c') :
    Placed chip ⟨0, pagesize_pos⟩ (to_ + pageSize page_offset buf.length)
      (buf.drop (pageSize page_offset buf.length)).length c' := by
  have hoffset := hp.offset (fun h => hbuf (List.length_eq_zero_iff.mp h))
  have hlt := page_offset.isLt
  have hinside := hp.inside
  refine ⟨hf.addr4.trans hp.mode, fun hne => ?_, ?_⟩
  · rw [List.length_drop] at hne
    unfold pageSize FLASH_PAGESIZE at *
    dsimp only
    omega
  · have hle := pageSize_le page_offset buf.length
    rw [List.length_drop]
    omega

theorem lostTurn (hstop : f.program c.pps = none ∨ f.program c.pps = some 0) (count retlen : Nat)
    (data : Store) : ∃ c', Follows c c' ∧ writePages chip f page_offset count to_ buf retlen c data =
      writePages chip f ⟨0, pagesize_pos⟩ (count + 1) (to_ + pageSize page_offset buf.length)
        (buf.drop (pageSize page_offset buf.length)) retlen c' data := by
  have hstart := startPage_follows (f := f) c
  rcases hstop with hstop | hstop
  · refine ⟨afterPage f (count + 1) (startPage f c), hstart.of_core (core_afterPage _ _), ?_⟩
    rw [writePages_none_sent hbuf hstop, nextPage]
  · have hprogram := pageProgram_placed [] data (hstart.addr4.trans hp.mode)
      (hp.lt_size hbuf)
    refine ⟨_, (hstart.program (hp.fits hbuf (Nat.zero_le _))).of_core (core_afterPage (f := f) (count + 1) _),
      ?_⟩
    rw [writePages_sent hbuf hstop]
    have hsame : (fun a => data a &&& mask to_ 0 [] a) = data := funext fun a => and_ones (data a)
    dsimp only
    rw [if_neg (by omega), List.take_zero, hprogram, nextPage, Nat.zero_min, hsame]
    rfl

theorem fullTurn {k : Nat} (hstop : f.program c.pps = some k)
    (hk : pageSize page_offset buf.length ≤ k) (count retlen : Nat) (data : Store) :
    ∃ c' data', Follows c c' ∧ Wrote data data' to_ buf (pageSize page_offset buf.length) ∧
      writePages chip f page_offset count to_ buf retlen c data =
        writePages chip f ⟨0, pagesize_pos⟩ (count + 1) (to_ + pageSize page_offset buf.length)
          (buf.drop (pageSize page_offset buf.length)) (retlen + pageSize page_offset buf.length)
          c' data' := by
  have hstart := startPage_follows (f := f) c
  have hprogram := pageProgram_placed (buf.take (pageSize page_offset buf.length)) data
    (hstart.addr4.trans hp.mode) (hp.lt_size hbuf)
  have hlen : (buf.take (pageSize page_offset buf.length)).length =
      pageSize page_offset buf.length := by
    rw [List.length_take, Nat.min_eq_left (pageSize_le page_offset _)]
  refine ⟨_, _, (hstart.program (hp.fits hbuf (Nat.le_refl _))).of_core
    (core_afterPage (f := f) (count + 1) _), wrote_mask data (pageSize_le page_offset _)
      (hp.fits hbuf (Nat.le_refl _)), ?_⟩
  rw [writePages_sent hbuf hstop]
  dsimp only
  rw [if_neg (by omega), List.take_of_length_le (hlen.trans_le hk), hprogram, nextPage, hlen,
    Nat.min_eq_right hk]

theorem shortTurn {k : Nat} (hstop : f.program c.pps = some k) (hpos : 0 < k)
    (hk : k < pageSize page_offset buf.length) (count retlen : Nat) (data : Store) :
    ∃ c' data', Adds c c' ∧ c'.locked = false ∧ Wrote data data' to_ buf k ∧
      writePages chip f page_offset count to_ buf retlen c data = ⟨- EIO, retlen + k, c', data'⟩ := by
  have hstart := startPage_follows (f := f) c
  have hprogram := pageProgram_placed (buf.take k) data (hstart.addr4.trans hp.mode) (hp.lt_size hbuf)
  have hle : k ≤ buf.length := Nat.le_trans (Nat.le_of_lt hk) (pageSize_le page_offset _)
  have hlen : (buf.take k).length = k := by rw [List.length_take, Nat.min_eq_left hle]
  have hfit := hp.fits hbuf (Nat.le_of_lt hk)
  have hsent := hstart.program hfit
  refine ⟨raspi_write_disable f { startPage f c with
    programs := (startPage f c).programs ++ [(to_, k)]
    locked := false }, _, ⟨hsent.addr4, hsent.modes, hsent.programs⟩, rfl, wrote_mask data hle hfit, ?_⟩
  rw [writePages_sent hbuf hstop]
  dsimp only
  rw [if_pos ⟨hpos, hk⟩, List.take_take, Nat.min_eq_left (Nat.le_of_lt hk), hprogram, hlen]

end Turn

theorem pageSizes_cons (hbuf : buf ≠ []) :
    pageSizes page_offset buf.length = pageSize page_offset buf.length ::
      pageSizes ⟨0, pagesize_pos⟩ (buf.drop (pageSize page_offset buf.length)).length := by
  rw [pageSizes, dif_neg (fun h => hbuf (List.length_eq_zero_iff.mp h)), List.length_drop]
  rfl

inductive NextStop (f : Faults) (c : Ctl) (n : Nat) (ns : List Nat) : Stop → Prop
  | lost (h : f.program c.pps = none ∨ f.program c.pps = some 0) : NextStop f c n ns .lost
  | short {k : Nat} (h : f.program c.pps = some k) (hpos : 0 < k) (hk : k < n) : NextStop f c n ns .short
  | full {k : Nat} (h : f.program c.pps = some k) (hk : n ≤ k) :
      NextStop f c n ns (firstStop f.program (c.pps + 1) ns)

theorem nextStop (f : Faults) (c : Ctl) (n : Nat) (ns : List Nat) :
    NextStop f c n ns (firstStop f.program c.pps (n :: ns)) := by
  unfold firstStop
  split
  · next h => exact .lost (.inl h)
  · next h => exact .lost (.inr h)
  · next k h =>
    split
    · next hk => exact .short h (Nat.succ_pos k) hk
    · next hk => exact .full h (Nat.le_of_not_lt hk)

theorem length_drop_pageSize (hbuf : buf ≠ []) :
    (buf.drop (pageSize page_offset buf.length)).length < buf.length := length_drop_page hbuf

theorem length_add_drop (page_offset : Fin FLASH_PAGESIZE) (buf : List UInt8) :
    pageSize page_offset buf.length + (buf.drop (pageSize page_offset buf.length)).length =
      buf.length := by
  have hle := pageSize_le page_offset buf.length
  rw [List.length_drop]
  omega

theorem writePages_all (hp : Placed chip page_offset to_ buf.length c)
    (hstop : firstStop f.program c.pps (pageSizes page_offset buf.length) = .none) (count retlen : Nat)
    (data : Store) :
    ∃ c' data', Adds c c' ∧ Wrote data data' to_ buf buf.length ∧
      writePages chip f page_offset count to_ buf retlen c data =
        ⟨0, retlen + buf.length, afterPages chip f c', data'⟩ := by
  induction hlen : buf.length using Nat.strong_induction_on
    generalizing page_offset count to_ buf retlen c data with
  | _ len ih =>
    subst hlen
    by_cases hbuf : buf = []
    · subst hbuf
      exact ⟨c, data, ⟨rfl, rfl, fun p => .inl⟩, .zero data to_ [], writePages_nil⟩
    · rw [pageSizes_cons hbuf] at hstop
      have hnext := nextStop f c (pageSize page_offset buf.length)
        (pageSizes ⟨0, pagesize_pos⟩ (buf.drop (pageSize page_offset buf.length)).length)
      rw [hstop] at hnext
      generalize hstop' : Stop.none = stop at hnext
      cases hnext with
      | lost h => cases hstop'
      | short h => cases hstop'
      | full h hk =>
        obtain ⟨c', data', hf, hwrote, hrun⟩ := fullTurn hp hbuf h hk count retlen data
        obtain ⟨c'', data'', hadds, hwrote', hrun'⟩ := ih _ (length_drop_pageSize hbuf)
          (hp.next hbuf hf) (hf.pps ▸ hstop'.symm) (count + 1)
          (retlen + pageSize page_offset buf.length) data' rfl
        have hsum := length_add_drop page_offset buf
        refine ⟨c'', data'', hf.adds hadds, hsum ▸ hwrote.add hwrote', ?_⟩
        rw [hrun, hrun', Nat.add_assoc, hsum]

theorem writePages_short (hp : Placed chip page_offset to_ buf.length c)
    (hstop : firstStop f.program c.pps (pageSizes page_offset buf.length) = .short)
    (count retlen : Nat) (data : Store) :
    ∃ c' data' m, Adds c c' ∧ c'.locked = false ∧ 0 < m ∧ m < buf.length ∧
      Wrote data data' to_ buf m ∧
      writePages chip f page_offset count to_ buf retlen c data = ⟨- EIO, retlen + m, c', data'⟩ := by
  induction hlen : buf.length using Nat.strong_induction_on
    generalizing page_offset count to_ buf retlen c data with
  | _ len ih =>
    subst hlen
    by_cases hbuf : buf = []
    · subst hbuf
      rw [pageSizes] at hstop
      cases hstop
    · rw [pageSizes_cons hbuf] at hstop
      have hnext := nextStop f c (pageSize page_offset buf.length)
        (pageSizes ⟨0, pagesize_pos⟩ (buf.drop (pageSize page_offset buf.length)).length)
      rw [hstop] at hnext
      generalize hstop' : Stop.short = stop at hnext
      have hle := pageSize_le page_offset buf.length
      cases hnext with
      | lost h => cases hstop'
      | @short k h hpos hk =>
        obtain ⟨c', data', hadds, hlocked, hwrote, hrun⟩ :=
          shortTurn hp hbuf h hpos hk count retlen data
        exact ⟨c', data', k, hadds, hlocked, hpos, Nat.lt_of_lt_of_le hk hle, hwrote, hrun⟩
      | full h hk =>
        obtain ⟨c', data', hf, hwrote, hrun⟩ := fullTurn hp hbuf h hk count retlen data
        obtain ⟨c'', data'', m, hadds, hlocked, hpos, hm, hwrote', hrun'⟩ :=
          ih _ (length_drop_pageSize hbuf) (hp.next hbuf hf) (hf.pps ▸ hstop'.symm) (count + 1)
            (retlen + pageSize page_offset buf.length) data' rfl
        have hsum := length_add_drop page_offset buf
        refine ⟨c'', data'', pageSize page_offset buf.length + m, hf.adds hadds, hlocked, ?_, ?_,
          hwrote.add hwrote', ?_⟩
        · omega
        · omega
        · rw [hrun, hrun', Nat.add_assoc]

theorem writePages_front (hp : Placed chip page_offset to_ buf.length c) (ha : a < to_)
    (count retlen : Nat) (data : Store) :
    (writePages chip f page_offset count to_ buf retlen c data).data a = data a := by
  induction hlen : buf.length using Nat.strong_induction_on
    generalizing page_offset count to_ buf retlen c data with
  | _ len ih =>
    subst hlen
    by_cases hbuf : buf = []
    · subst hbuf
      rw [writePages_nil]
    · have hfront : a < to_ + pageSize page_offset buf.length :=
        Nat.lt_of_lt_of_le ha (Nat.le_add_right _ _)
      have hnext := nextStop f c (pageSize page_offset buf.length) []
      generalize firstStop f.program c.pps [pageSize page_offset buf.length] = stop at hnext
      cases hnext with
      | lost h =>
        obtain ⟨c', hf, hrun⟩ := lostTurn hp hbuf h count retlen data
        rw [hrun]
        exact ih _ (length_drop_pageSize hbuf) (hp.next hbuf hf) hfront _ _ _ rfl
      | short h hpos hk =>
        obtain ⟨c', data', -, -, hwrote, hrun⟩ := shortTurn hp hbuf h hpos hk count retlen data
        rw [hrun]
        exact (hwrote a).trans (if_neg (by omega))
      | full h hk =>
        obtain ⟨c', data', hf, hwrote, hrun⟩ := fullTurn hp hbuf h hk count retlen data
        rw [hrun, ih _ (length_drop_pageSize hbuf) (hp.next hbuf hf) hfront _ _ _ rfl]
        exact (hwrote a).trans (if_neg (by omega))

theorem writePages_lost (hp : Placed chip page_offset to_ buf.length c)
    (hstop : firstStop f.program c.pps (pageSizes page_offset buf.length) = .lost)
    (count retlen : Nat) (data : Store) :
    ∃ m < buf.length,
      (writePages chip f page_offset count to_ buf retlen c data).data (to_ + m) = data (to_ + m) ∧
      ((writePages chip f page_offset count to_ buf retlen c data).ret = 0 ∨
        retlen + m < (writePages chip f page_offset count to_ buf retlen c data).retlen) := by
  induction hlen : buf.length using Nat.strong_induction_on
    generalizing page_offset count to_ buf retlen c data with
  | _ len ih =>
    subst hlen
    by_cases hbuf : buf = []
    · subst hbuf
      rw [pageSizes] at hstop
      cases hstop
    · rw [pageSizes_cons hbuf] at hstop
      have hnext := nextStop f c (pageSize page_offset buf.length)
        (pageSizes ⟨0, pagesize_pos⟩ (buf.drop (pageSize page_offset buf.length)).length)
      rw [hstop] at hnext
      generalize hstop' : Stop.lost = stop at hnext
      have hlen := List.length_pos_iff.mpr hbuf
      cases hnext with
      | lost h =>
        obtain ⟨c', hf, hrun⟩ := lostTurn hp hbuf h count retlen data
        have hpos : 0 < pageSize page_offset buf.length := pageSize_pos hlen
        rw [hrun]
        exact ⟨0, hlen, writePages_front (hp.next hbuf hf) (by omega) _ _ _,
          (writePages_ret _ _ _ _ _ _ _).2⟩
      | short h hpos hk => cases hstop'
      | full h hk =>
        obtain ⟨c', data', hf, hwrote, hrun⟩ := fullTurn hp hbuf h hk count retlen data
        obtain ⟨m, hm, hdata, hret⟩ := ih _ (length_drop_pageSize hbuf) (hp.next hbuf hf)
          (hf.pps ▸ hstop'.symm) (count + 1) (retlen + pageSize page_offset buf.length) data' rfl
        have hsum := length_add_drop page_offset buf
        rw [Nat.add_assoc] at hdata hret
        refine ⟨pageSize page_offset buf.length + m, by omega, ?_, hrun ▸ hret⟩
        rw [hrun, hdata]
        exact (hwrote _).trans (if_neg (by omega))

theorem pageProgram_misplaced (bs : List UInt8) (data : Store) (hmode : c.addr4 = false)
    (haddr : chip.addr4b = true) (hto : to_ < chip.size) :
    pageProgram (address chip to_ ++ bs) c data =
      ({ c with programs := c.programs ++ [(to_ / FLASH_PAGESIZE, bs.length + 1)] },
        fun a => data a &&& mask (to_ / FLASH_PAGESIZE) 0 (UInt8.ofNat to_ :: bs) a) := by
  have hlt := lt_of_addressed hto
  rw [haddr, if_pos rfl] at hlt
  have hnumber : number [UInt8.ofNat (to_ / 2 ^ 24), UInt8.ofNat (to_ / 2 ^ 16),
      UInt8.ofNat (to_ / 2 ^ 8)] = to_ / FLASH_PAGESIZE := by
    simp only [number, List.foldl_cons, List.foldl_nil, UInt8.toNat_ofNat', FLASH_PAGESIZE]
    omega
  simp only [pageProgram, address, hmode, haddr, if_true, Bool.false_eq_true, if_false,
    List.cons_append, List.nil_append, List.take_succ_cons, List.take_zero, List.drop_succ_cons,
    List.drop_zero, hnumber, List.length_cons]

theorem writePages_unsent {b b' : UInt8} {rest : List UInt8}
    (hstop : f.program c.pps = none ∨ f.program c.pps = some 0) :
    writePages chip f page_offset count to_ (b :: rest) retlen c data =
      writePages chip f page_offset count to_ (b' :: rest) retlen c data := by
  obtain ⟨n, hn⟩ : ∃ n, pageSize page_offset (rest.length + 1) = n + 1 :=
    Nat.exists_eq_succ_of_ne_zero (pageSize_pos (Nat.succ_pos _)).ne'
  rcases hstop with hstop | hstop
  · rw [writePages_none_sent (List.cons_ne_nil _ _) hstop,
      writePages_none_sent (List.cons_ne_nil _ _) hstop, List.length_cons, List.length_cons, hn]
    rfl
  · rw [writePages_sent (List.cons_ne_nil _ _) hstop, writePages_sent (List.cons_ne_nil _ _) hstop,
      List.length_cons, List.length_cons, hn]
    rfl

theorem writePages_misplaced {k : Nat} (hmode : c.addr4 = false) (haddr : chip.addr4b = true)
    (hto : to_ < chip.size) (hstop : f.program c.pps = some (k + 1))
    (page_offset : Fin FLASH_PAGESIZE) (count : Nat) (rest : List UInt8) (retlen : Nat) (data : Store) :
    ∃ m : Nat → UInt8, ∀ b a,
      (writePages chip f page_offset count to_ (b :: rest) retlen c data).data a =
        data a &&& ((if a = column (to_ / FLASH_PAGESIZE) 0 then UInt8.ofNat to_ else 0xFF) &&&
          ((if a = column (to_ / FLASH_PAGESIZE) 1 then b else 0xFF) &&& m a)) := by
  obtain ⟨n, hn⟩ : ∃ n, pageSize page_offset (rest.length + 1) = n + 1 :=
    Nat.exists_eq_succ_of_ne_zero (pageSize_pos (Nat.succ_pos _)).ne'
  have hstart := (startPage_follows (f := f) c).addr4.trans hmode
  let sent := (rest.take n).take k
  have hrun : ∀ b, writePages chip f page_offset count to_ (b :: rest) retlen c data =
      let c' := { startPage f c with
        programs := (startPage f c).programs ++ [(to_ / FLASH_PAGESIZE, sent.length + 2)] }
      let data' := fun a => data a &&& mask (to_ / FLASH_PAGESIZE) 0 (UInt8.ofNat to_ :: b :: sent) a
      if k < n then ⟨- EIO, retlen + (k + 1), raspi_write_disable f { c' with locked := false }, data'⟩
      else nextPage chip f count to_ (n + 1) (0 :: rest) (retlen + min (k + 1) (n + 1)) c' data' := by
    intro b
    rw [writePages_sent (List.cons_ne_nil _ _) hstop, List.length_cons, hn]
    simp only [List.take_succ_cons, pageProgram_misplaced _ data hstart haddr hto, Nat.succ_pos,
      true_and, Nat.add_lt_add_iff_right]
    rfl
  by_cases hk : k < n
  · refine ⟨mask (to_ / FLASH_PAGESIZE) 2 sent, fun b a => ?_⟩
    rw [hrun b]
    dsimp only
    rw [if_pos hk]
    rfl
  · choose m hm using fun a => @writePages_mask chip f ⟨0, pagesize_pos⟩ (count + 1)
      (to_ + (n + 1)) (List.drop (n + 1) (0 :: rest)) (retlen + min (k + 1) (n + 1))
      (afterPage f (count + 1) { startPage f c with
        programs := (startPage f c).programs ++ [(to_ / FLASH_PAGESIZE, sent.length + 2)] }) a
    refine ⟨fun a => mask (to_ / FLASH_PAGESIZE) 2 sent a &&& m a, fun b a => ?_⟩
    rw [hrun b]
    dsimp only
    rw [if_neg hk, nextPage, hm a]
    simp only [mask, UInt8.and_assoc]

end Ralink.Spi

namespace Ralink.Spi
open ByteStore

variable {chip : chip_info} {f : Faults} {to_ len : Nat} {buf : List UInt8} {c : Ctl} {data : Store}

def loopCtl (chip : chip_info) (f : Faults) : Ctl :=
  let c := raspi_write_enable f (raspi_wait_ready f { locked := true }).2
  if chip.addr4b then raspi_4byte_mode chip f true c else c

theorem ramtd_write_runs (hlen : buf.length ≠ 0) (hfit : to_ + buf.length ≤ chip.size)
    (hready : f.ready 0 = true) : ramtd_write chip f to_ buf {} data =
      writePages chip f (firstPage to_) 0 to_ buf 0 (loopCtl chip f) data := by
  rw [ramtd_write, if_neg hlen, if_neg (Nat.not_lt.mpr hfit)]
  simp only [raspi_wait_ready, hready, Bool.not_true, Bool.false_eq_true, if_false]
  rfl

theorem core_raspi_4byte_mode (enable : Bool) (c : Ctl) : (raspi_4byte_mode chip f enable c).core =
    (if modeSent chip (f.mode c.modes) then enable else c.addr4, c.locked, c.modes + 1, c.pps,
      c.programs) := by
  unfold raspi_4byte_mode
  dsimp only
  split <;> rfl

theorem loopCtl_core (chip : chip_info) (f : Faults) : (loopCtl chip f).core =
    (chip.addr4b && modeSent chip (f.mode 0), true, if chip.addr4b then 1 else 0, 0, []) := by
  unfold loopCtl
  cases chip.addr4b with
  | false => rfl
  | true =>
    dsimp only
    rw [if_pos rfl, core_raspi_4byte_mode]
    cases hsent : modeSent chip (f.mode 0) <;> simp [raspi_wait_ready, raspi_write_enable, small, hsent]

theorem afterPages_facts (chip : chip_info) (f : Faults) (c : Ctl) :
    (afterPages chip f c).addr4 =
        (if chip.addr4b = true ∧ modeSent chip (f.mode c.modes) = true then false else c.addr4) ∧
      (afterPages chip f c).locked = false ∧ (afterPages chip f c).programs = c.programs := by
  unfold afterPages
  cases chip.addr4b with
  | false => exact ⟨rfl, rfl, rfl⟩
  | true =>
    have hcore := @core_raspi_4byte_mode chip f false c
    simp only [Ctl.core, Prod.mk.injEq] at hcore
    obtain ⟨haddr, -, -, -, hprograms⟩ := hcore
    refine ⟨haddr.trans ?_, rfl, hprograms⟩
    simp only [true_and]

theorem Wrote.programmed {before after : Store} {m i : Nat} (h : Wrote before after to_ buf m)
    (hi : i < m) : Programmed before after to_ buf i := by
  rw [Programmed, h (to_ + i), if_pos (by omega), Nat.add_sub_cancel_left]

theorem Wrote.honest {r : Result} {m : Nat} (h : Wrote data r.data to_ buf m) (hm : m ≤ buf.length)
    (hret : r.ret = 0 → m = buf.length) (hretlen : r.retlen = m)
    (hfit : ∀ p ∈ r.ctl.programs, p.1 % FLASH_PAGESIZE + p.2 ≤ FLASH_PAGESIZE)
    (hlocked : r.ctl.locked = false) (haddr : r.ctl.addr4 = false) : Honest to_ buf data r where
  outside := fun a ha => (h a).trans (if_neg (by omega))
  noWrap := hfit
  success := fun hzero i hi => h.programmed (by rw [hret hzero]; exact hi)
  retlen_le := hretlen ▸ hm
  front := fun i hi => h.programmed (hretlen ▸ hi)
  unlocked := hlocked
  threeBytes := haddr

theorem Placed.loop (hfit : to_ + buf.length ≤ chip.size)
    (hmode : chip.addr4b = true → modeSent chip (f.mode 0) = true) :
    Placed chip (firstPage to_) to_ buf.length (loopCtl chip f) := by
  have hcore := congrArg Prod.fst (loopCtl_core chip f)
  refine ⟨hcore.trans ?_, fun _ => rfl, hfit⟩
  cases haddr : chip.addr4b with
  | false => rfl
  | true => rw [hmode haddr]; rfl

theorem ramtd_write_idle (h : buf.length = 0 ∨ chip.size < to_ + buf.length ∨ f.ready 0 = false) :
    Honest to_ buf data (ramtd_write chip f to_ buf {} data) := by
  have hidle : ∀ r : Result, r.data = data → (r.ret = 0 → 0 = buf.length) → r.retlen = 0 →
      r.ctl.programs = [] → r.ctl.locked = false → r.ctl.addr4 = false → Honest to_ buf data r := by
    intro r hdata hret hretlen hprograms hlocked haddr
    refine Wrote.honest (hdata ▸ .zero data to_ buf) (Nat.zero_le _) hret hretlen (fun p hp => ?_)
      hlocked haddr
    rw [hprograms] at hp
    cases hp
  unfold ramtd_write
  by_cases hzero : buf.length = 0
  · rw [if_pos hzero]
    exact hidle _ rfl (fun _ => hzero.symm) rfl rfl rfl rfl
  · rw [if_neg hzero]
    by_cases hsize : chip.size < to_ + buf.length
    · rw [if_pos hsize]
      exact hidle _ rfl (fun h => by cases h) rfl rfl rfl rfl
    · have hready : f.ready 0 = false := (h.resolve_left hzero).resolve_left hsize
      rw [if_neg hsize]
      simp only [raspi_wait_ready, hready, Bool.not_false, if_true]
      exact hidle _ rfl (fun h => by cases h) rfl rfl rfl rfl

theorem Adds.fits {c' : Ctl} (h : Adds (loopCtl chip f) c') :
    ∀ p ∈ c'.programs, p.1 % FLASH_PAGESIZE + p.2 ≤ FLASH_PAGESIZE := by
  intro p hp
  have hnone : (loopCtl chip f).programs = [] := congrArg (·.2.2.2.2) (loopCtl_core chip f)
  rcases h.programs p hp with hp | hp
  · rw [hnone] at hp
    cases hp
  · exact hp

theorem loopCtl_pps (chip : chip_info) (f : Faults) : (loopCtl chip f).pps = 0 :=
  congrArg (·.2.2.2.1) (loopCtl_core chip f)

theorem loopCtl_modes (haddr : chip.addr4b = true) : (loopCtl chip f).modes = 1 := by
  refine (congrArg (·.2.2.1) (loopCtl_core chip f)).trans ?_
  dsimp only
  rw [if_pos haddr]

theorem honest_of_stops (hfit : to_ + buf.length ≤ chip.size)
    (hmode : chip.addr4b = true → modeSent chip (f.mode 0) = true)
    (hstop : match firstStop f.program 0 (pageSizes (firstPage to_) buf.length) with
      | .none => chip.addr4b = true → modeSent chip (f.mode 1) = true
      | .short => chip.addr4b = false
      | .lost => False) :
    Honest to_ buf data (writePages chip f (firstPage to_) 0 to_ buf 0 (loopCtl chip f) data) := by
  have hp := Placed.loop hfit hmode
  rw [← loopCtl_pps chip f] at hstop
  cases hfirst : firstStop f.program (loopCtl chip f).pps (pageSizes (firstPage to_) buf.length) with
  | none =>
    rw [hfirst] at hstop
    obtain ⟨c', data', hadds, hwrote, hrun⟩ := writePages_all hp hfirst 0 0 data
    obtain ⟨haddr, hlocked, hprograms⟩ := afterPages_facts chip f c'
    rw [hrun]
    refine hwrote.honest (Nat.le_refl _) (fun _ => rfl) (Nat.zero_add _) ?_ hlocked
      (haddr.trans ?_)
    · rw [hprograms]
      exact hadds.fits
    · cases hchip : chip.addr4b with
      | false => rw [if_neg (by simp), hadds.addr4, hp.mode, hchip]
      | true => rw [hadds.modes, loopCtl_modes hchip, if_pos ⟨rfl, hstop hchip⟩]
  | short =>
    rw [hfirst] at hstop
    obtain ⟨c', data', m, hadds, hlocked, -, hm, hwrote, hrun⟩ := writePages_short hp hfirst 0 0 data
    rw [hrun]
    exact hwrote.honest (Nat.le_of_lt hm) (fun h => by cases h) (Nat.zero_add _) hadds.fits hlocked
      (hadds.addr4.trans (hp.mode.trans hstop))
  | lost => rw [hfirst] at hstop; exact hstop.elim

theorem not_honest_of_lost (hp : Placed chip (firstPage to_) to_ buf.length (loopCtl chip f))
    (hzero : ∀ i < buf.length, buf.getD i 0 = 0)
    (hstop : firstStop f.program 0 (pageSizes (firstPage to_) buf.length) = .lost) :
    ¬ Honest to_ buf (fun _ => 0xFF)
      (writePages chip f (firstPage to_) 0 to_ buf 0 (loopCtl chip f) fun _ => 0xFF) := by
  intro h
  rw [← loopCtl_pps chip f] at hstop
  obtain ⟨m, hm, hdata, hret⟩ := writePages_lost hp hstop 0 0 fun _ => 0xFF
  have hprogrammed := hret.elim (fun hret => h.success hret m hm)
    (fun hretlen => h.front m (Nat.zero_add m ▸ hretlen))
  rw [Programmed, hdata, hzero m hm] at hprogrammed
  exact absurd hprogrammed (by decide)

theorem Honest.first {before : Store} {c : Ctl} {page_offset : Fin FLASH_PAGESIZE} {count : Nat}
    (h : Honest to_ buf before (writePages chip f page_offset count to_ buf 0 c before))
    (hbuf : 0 < buf.length) :
    (writePages chip f page_offset count to_ buf 0 c before).data to_ =
      before to_ &&& buf.getD 0 0 :=
  (writePages_ret page_offset count to_ buf 0 c before).2.elim (fun hret => h.success hret 0 hbuf)
    (fun hretlen => h.front 0 hretlen)

theorem eq_one_of_column (h : to_ = column (to_ / FLASH_PAGESIZE) 1) : to_ = 1 := by
  unfold column FLASH_PAGESIZE at h
  have hpage : to_ / 256 ≤ 1 := by omega
  rcases Nat.le_one_iff_eq_zero_or_eq_one.mp hpage with hzero | hone
  · rw [hzero] at h
    exact h
  · rw [hone] at h
    omega

theorem one_and_ne_ones (x : UInt8) : 1 &&& x ≠ 0xFF := by
  intro h
  have hle : (1 &&& x).toNat ≤ 1 := by
    rw [UInt8.toNat_and]
    exact Nat.and_le_left
  rw [h] at hle
  exact absurd hle (by decide)

theorem not_honest_of_mode {c : Ctl} (hmode : c.addr4 = false) (haddr : chip.addr4b = true)
    (hto : to_ < chip.size) (page_offset : Fin FLASH_PAGESIZE) (count : Nat) (rest : List UInt8) :
    ¬ ∀ b, Honest to_ (b :: rest) (fun _ => 0xFF)
      (writePages chip f page_offset count to_ (b :: rest) 0 c fun _ => 0xFF) := by
  intro h
  have hfirst := fun b => (h b).first (Nat.succ_pos _)
  simp only [List.getD_cons_zero, ones_and] at hfirst
  match hstop : f.program c.pps with
  | none =>
    have hsame := hfirst 0
    rw [writePages_unsent (.inl hstop), hfirst 0xFF] at hsame
    exact absurd hsame (by decide)
  | some 0 =>
    have hsame := hfirst 0
    rw [writePages_unsent (.inr hstop), hfirst 0xFF] at hsame
    exact absurd hsame (by decide)
  | some (k + 1) =>
    obtain ⟨m, hm⟩ := writePages_misplaced hmode haddr hto hstop page_offset count rest 0 fun _ => 0xFF
    simp only [ones_and] at hm
    by_cases hcolumn : to_ = column (to_ / FLASH_PAGESIZE) 1
    · have hone := eq_one_of_column hcolumn
      have hzero := (h 0).outside 0 (.inl (hone ▸ Nat.one_pos))
      rw [hm, hone] at hzero
      exact one_and_ne_ones _ hzero
    · have hzero := (hm 0 to_).symm.trans (hfirst 0)
      have hones := (hm 0xFF to_).symm.trans (hfirst 0xFF)
      rw [if_neg hcolumn] at hzero hones
      rw [hzero] at hones
      exact absurd hones (by decide)

theorem honest_of_safe (h : Safe chip f to_ buf.length) :
    Honest to_ buf data (ramtd_write chip f to_ buf {} data) := by
  by_cases hidle : buf.length = 0 ∨ chip.size < to_ + buf.length ∨ f.ready 0 = false
  · exact ramtd_write_idle hidle
  · simp only [not_or, Nat.not_lt, Bool.not_eq_false] at hidle
    obtain ⟨hlen, hfit, hready⟩ := hidle
    rcases h with h | h | h | ⟨hmode, hstop⟩
    · exact absurd h hlen
    · exact absurd h (Nat.not_lt.mpr hfit)
    · exact absurd hready (Bool.eq_false_iff.mp h)
    · rw [ramtd_write_runs hlen hfit hready]
      exact honest_of_stops hfit hmode hstop

theorem Placed.stops (hp : Placed chip (firstPage to_) to_ buf.length (loopCtl chip f))
    (hzero : ∀ i < buf.length, buf.getD i 0 = 0)
    (h : Honest to_ buf (fun _ => 0xFF)
      (writePages chip f (firstPage to_) 0 to_ buf 0 (loopCtl chip f) fun _ => 0xFF)) :
    match firstStop f.program 0 (pageSizes (firstPage to_) buf.length) with
      | .none => chip.addr4b = true → modeSent chip (f.mode 1) = true
      | .short => chip.addr4b = false
      | .lost => False := by
  have hpps := loopCtl_pps chip f
  cases hfirst : firstStop f.program 0 (pageSizes (firstPage to_) buf.length) with
  | none =>
    dsimp only
    intro haddr
    rw [← hpps] at hfirst
    obtain ⟨c', data', hadds, -, hrun⟩ := writePages_all hp hfirst 0 0 fun _ => 0xFF
    have hthree := h.threeBytes
    rw [hrun, (afterPages_facts chip f c').1, hadds.modes, loopCtl_modes haddr, hadds.addr4, hp.mode,
      haddr] at hthree
    by_contra hsent
    rw [if_neg (fun hboth => hsent hboth.2)] at hthree
    cases hthree
  | short =>
    dsimp only
    rw [← hpps] at hfirst
    obtain ⟨c', data', m, hadds, -, -, -, -, hrun⟩ := writePages_short hp hfirst 0 0 fun _ => 0xFF
    have hthree := h.threeBytes
    rw [hrun] at hthree
    exact (hadds.addr4.trans hp.mode).symm.trans hthree
  | lost => exact not_honest_of_lost hp hzero hfirst h

/-- A write says what it has done, whatever is written over whatever, exactly if it is `Safe`. -/
theorem honest_iff (chip : chip_info) (f : Faults) (to_ len : Nat) :
    (∀ data buf, buf.length = len → Honest to_ buf data (ramtd_write chip f to_ buf {} data)) ↔
      Safe chip f to_ len := by
  constructor
  · intro h
    by_cases hidle : len = 0 ∨ chip.size < to_ + len ∨ f.ready 0 = false
    · rcases hidle with hlen | hsize | hready
      · exact .inl hlen
      · exact .inr (.inl hsize)
      · exact .inr (.inr (.inl hready))
    · simp only [not_or, Nat.not_lt, Bool.not_eq_false] at hidle
      obtain ⟨hlen, hfit, hready⟩ := hidle
      have hrun : ∀ data buf, buf.length = len → Honest to_ buf data
          (writePages chip f (firstPage to_) 0 to_ buf 0 (loopCtl chip f) data) := by
        rintro data buf rfl
        rw [← ramtd_write_runs hlen hfit hready]
        exact h data buf rfl
      have hmode : chip.addr4b = true → modeSent chip (f.mode 0) = true := by
        intro haddr
        by_contra hsent
        obtain ⟨n, rfl⟩ := Nat.exists_eq_succ_of_ne_zero hlen
        have hthree : (loopCtl chip f).addr4 = false := by
          refine (congrArg Prod.fst (loopCtl_core chip f)).trans ?_
          rw [Bool.eq_false_iff.mpr hsent, Bool.and_false]
        exact not_honest_of_mode hthree haddr (by omega) (firstPage to_) 0 (List.replicate n 0)
          (fun b => hrun _ (b :: List.replicate n 0) (by rw [List.length_cons, List.length_replicate]))
      have hzeros : (List.replicate len (0 : UInt8)).length = len := List.length_replicate
      have hp : Placed chip (firstPage to_) to_ (List.replicate len (0 : UInt8)).length
          (loopCtl chip f) := .loop (by rw [hzeros]; exact hfit) hmode
      have hstops := hp.stops (fun i hi => by
        rw [List.getD_eq_getElem _ _ hi, List.getElem_replicate]) (hrun _ _ hzeros)
      rw [hzeros] at hstops
      exact .inr (.inr (.inr ⟨hmode, hstops⟩))
  · rintro h data buf rfl
    exact honest_of_safe h

/-- A small chip to which no page program gets. -/
def unheard : Faults where
  ready := fun _ => true
  status := fun _ => 0
  small := fun _ => some 1
  mode := fun _ => some 1
  program := fun _ => none

def smallChip : chip_info := ⟨0xC2, 0x10000, 128, false, by decide⟩

/-- One byte that is not programmed, and the result is that all has been. -/
theorem unheard_not_honest :
    ¬ ∀ data buf, buf.length = 1 →
      Honest 0 buf data (ramtd_write smallChip unheard 0 buf {} data) := by
  intro h
  have hsuccess := (h (fun _ => 0xFF) [0] rfl).success (by decide +kernel) 0 (by decide)
  rw [Programmed] at hsuccess
  revert hsuccess
  decide +kernel

end Ralink.Spi
