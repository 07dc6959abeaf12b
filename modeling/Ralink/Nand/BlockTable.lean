import Ralink.Lib.BitReg
import Ralink.Lib.Walk
import Ralink.Nand.Chip

/-! The functions of `ralink_nand.c` with respect to the tags they read and record, two bits for
each block. The primitives may fail in any way and read anything. -/
namespace Ralink.Nand.BlockTable
open Function

/-- Offsets have 32 bits where the chip is selected. -/
structure Geometry extends Config where
  chip_le : chip_shift ≤ 31

inductive Call where
  | check_wp
  | read_oob (page : Nat)
  | write_oob (page : Nat)
  | read_page (page : Nat)
  | write_page (page : Nat)
  | erase_block (page : Nat)
  deriving DecidableEq

/-- What a primitive returns, and the marker of a bad block that it reads. -/
structure Answer where
  ret : Int
  marker : UInt8

/-- The controller and the chip with its contents. What it answers to a call may depend on all
that came before. -/
abbrev Nfc := List Call → Call → Answer

/-- The bytes of the table, and the calls of primitives so far. -/
structure ra_nand_chip where
  bbt : Nat → BitVec 8
  log : List Call

def ra_nand_chip.call (ra : ra_nand_chip) (nfc : Nfc) (c : Call) : Answer × ra_nand_chip :=
  (nfc ra.log c, { ra with log := ra.log ++ [c] })

def BBTTAG_BITS : Nat := 2
def BBTTAG_BITS_MASK : BitVec 8 := 3

def code : BBT_TAG → BitVec 8
  | .UNKNOWN => 0
  | .RES => 1
  | .BAD => 2
  | .GOOD => 3

def nand_bbt_get (bbt : Nat → BitVec 8) (block : Nat) : BitVec 8 :=
  let bits := block * BBTTAG_BITS
  bbt (bits / 8) >>> (bits % 8) &&& BBTTAG_BITS_MASK

def nand_bbt_set (bbt : Nat → BitVec 8) (block : Nat) (tag : BBT_TAG) : Nat → BitVec 8 :=
  let bits := block * BBTTAG_BITS
  update bbt (bits / 8) (bbt (bits / 8) &&& ~~~(BBTTAG_BITS_MASK <<< (bits % 8)) |||
    ((code tag &&& BBTTAG_BITS_MASK) <<< (bits % 8)))

def ra_nand_chip.tag (ra : ra_nand_chip) (block : Nat) (tag : BBT_TAG) : ra_nand_chip :=
  { ra with bbt := nand_bbt_set ra.bbt block tag }

section Driver

variable (cfg : Geometry) (nfc : Nfc)

def pageOf (offs : Nat) : Nat := offs % cfg.chipsize / cfg.pagesize

def blockOf (offs : Nat) : Nat := offs % cfg.chipsize / cfg.blocksize

/-- 1 is a bad block. The marker of the page asked for decides when the tag is not known. -/
def nand_block_checkbad (ra : ra_nand_chip) (offs : Nat) : Int × ra_nand_chip :=
  if cfg.ranfc_bbt = false then (0, ra)
  else
    let tag := nand_bbt_get ra.bbt (blockOf cfg offs)
    if tag = code .UNKNOWN then
      let (oob, ra) := ra.call nfc (.read_oob (pageOf cfg offs))
      let tag := if oob.ret = 0 ∧ oob.marker = 0xFF then BBT_TAG.GOOD else .BAD
      (if tag ≠ .GOOD then 1 else 0, ra.tag (blockOf cfg offs) tag)
    else (if tag ≠ code .GOOD then 1 else 0, ra)

/-- Neither failure of a primitive is returned. `nfc_write_page` takes the marker out again. -/
def nand_block_markbad (ra : ra_nand_chip) (offs : Nat) : Int × ra_nand_chip :=
  if nand_bbt_get ra.bbt (blockOf cfg offs) = code .BAD then (0, ra)
  else
    let (read, ra) := ra.call nfc (.read_page (pageOf cfg offs))
    let ra :=
      if read.ret = 0 ∧ read.marker = 0xFF then (ra.call nfc (.write_page (pageOf cfg offs))).2 else ra
    (0, ra.tag (blockOf cfg offs) .BAD)

/-- `nfc_select_chip`, with one chip. -/
def selected (offs : Nat) : Bool := offs % 2 ^ 32 / cfg.chipsize = 0

/-- Blocks are erased up to one that fails. Beside whether all of them are done it returns the
address it has got to. -/
def eraseLoop (ra : ra_nand_chip) (addr : Nat) : Nat → Bool × Nat × ra_nand_chip
  | 0 => (true, addr, ra)
  | blocks + 1 =>
    if !selected cfg addr then (false, addr, ra)
    else
      let (wp, ra) := ra.call nfc .check_wp
      if wp.ret ≠ 0 then (false, addr, ra)
      else
        let (bad, ra) := nand_block_checkbad cfg nfc ra addr
        if bad ≠ 0 then (false, addr, ra)
        else
          let (status, ra) := ra.call nfc (.erase_block (addr / cfg.pagesize))
          if status.ret ≠ 0 then (false, addr, ra)
          else eraseLoop ra ((addr + cfg.blocksize) % 2 ^ 32) blocks

/-- `addr` and `len` have 32 bits. -/
def nand_erase_nand (ra : ra_nand_chip) (addr len : Nat) : Int × ra_nand_chip :=
  if addr % cfg.blocksize ≠ 0 ∨ len % cfg.blocksize ≠ 0 then (-EINVAL, ra)
  else
    let (done, addr, ra) := eraseLoop cfg nfc ra addr (len / cfg.blocksize)
    if done then (0, ra) else (- EIO, ra.tag (addr / cfg.blocksize) .BAD)

inductive MtdOobMode where
  | MTD_OOB_PLACE
  | MTD_OOB_AUTO
  | MTD_OOB_RAW
  deriving DecidableEq

/-- What is asked for; the buffers may be missing. -/
structure mtd_oob_ops where
  mode : MtdOobMode
  len : Nat
  ooblen : Nat
  ooboffs : Nat
  datbuf : Bool
  oobbuf : Bool

/-- What is still to be done at `addr`, and what has been done. -/
structure Cursor where
  ra : ra_nand_chip
  addr : Nat
  datalen : Nat
  ooblen : Nat
  retlen : Nat
  oobretlen : Nat

def oobavail : Nat := 4 + 8

def EUCLEAN : Int := 117
def EBADMSG : Int := 74

/-- All bytes find a place in the free ones of this page or, in `MTD_OOB_AUTO`, of pages behind. -/
def nand_write_oob_buf (size : Nat) (mode : MtdOobMode) (ooboffs : Nat) : Option Nat :=
  match mode with
  | .MTD_OOB_AUTO => if ooboffs > oobavail then none else some size
  | _ => if ooboffs > cfg.oobsize then none else some (min size (cfg.oobsize - ooboffs))

def nand_read_oob_buf (size : Nat) (mode : MtdOobMode) (ooboffs : Nat) : Option Nat :=
  match mode with
  | .MTD_OOB_AUTO => if ooboffs > oobavail then none else some (min size (oobavail - ooboffs))
  | _ => if ooboffs > cfg.oobsize then none else some (min size (cfg.oobsize - ooboffs))

/-- The OOB bytes of a turn: how many of them are moved, or an error. -/
def oobTurn (move : Nat → MtdOobMode → Nat → Option Nat) (ops : mtd_oob_ops) (c : Cursor) :
    Option Cursor :=
  if ops.oobbuf ∧ 0 < c.ooblen then
    (move c.ooblen ops.mode ops.ooboffs).map fun len =>
      { c with ooblen := c.ooblen - len, oobretlen := c.oobretlen + len }
  else some c

def dataLen (c : Cursor) : Nat := min c.datalen (cfg.pagesize - c.addr % cfg.pagesize)

def dataTurn (c : Cursor) : Cursor :=
  { c with datalen := c.datalen - dataLen cfg c, retlen := c.retlen + dataLen cfg c }

/-- The block is tagged as good, and the next turn is about the next page. -/
def goOn (c : Cursor) : Cursor :=
  { c with
    ra := c.ra.tag (c.addr / cfg.blocksize) .GOOD
    addr := (pageOf cfg c.addr + 1) * cfg.pagesize }

def readTwice (ra : ra_nand_chip) (page : Nat) : Int × ra_nand_chip :=
  let (first, ra) := ra.call nfc (.read_page page)
  if first.ret = 0 then (0, ra)
  else
    let (second, ra) := ra.call nfc (.read_page page)
    (second.ret, ra)

def readTurn (ops : mtd_oob_ops) (c : Cursor) : (Cursor × Int) ⊕ Cursor :=
  if c.datalen = 0 ∧ c.ooblen = 0 then .inl (c, 0)
  else if !selected cfg c.addr then .inl (c, - EIO)
  else
    let (ret, ra) := readTwice nfc c.ra (pageOf cfg c.addr)
    let c := { c with ra := if ret = 0 then ra else ra.tag (c.addr / cfg.blocksize) .BAD }
    if ret ≠ 0 ∧ ret ≠ -EUCLEAN ∧ ret ≠ -EBADMSG then .inl (c, ret)
    else
      match oobTurn (nand_read_oob_buf cfg) ops c with
      | none => .inl (c, -EINVAL)
      | some c =>
        if 0 < dataLen cfg c ∧ ret ≠ 0 then .inl (dataTurn cfg c, ret)
        else .inr (goOn cfg (dataTurn cfg c))

def nand_do_read_ops (ra : ra_nand_chip) (from_ : Nat) (ops : mtd_oob_ops) : Option (Cursor × Int) :=
  Turns.loop (readTurn cfg nfc ops) (cfg.chipsize + 1)
    ⟨ra, from_, if ops.datbuf then ops.len else 0, ops.ooblen, 0, 0⟩

def writeTurn (ops : mtd_oob_ops) (c : Cursor) : (Cursor × Int) ⊕ Cursor :=
  if c.datalen = 0 ∧ c.ooblen = 0 then .inl (c, 0)
  else if !selected cfg c.addr then .inl (c, - EIO)
  else
    let (wp, ra) := c.ra.call nfc .check_wp
    if wp.ret ≠ 0 then .inl ({ c with ra }, - EIO)
    else
      let ra := if ops.mode = .MTD_OOB_AUTO then (ra.call nfc (.read_oob (pageOf cfg c.addr))).2 else ra
      match oobTurn (nand_write_oob_buf cfg) ops { c with ra } with
      | none => .inl ({ c with ra }, -EINVAL)
      | some c =>
        let c := dataTurn cfg c
        let (status, ra) := c.ra.call nfc (.write_page (pageOf cfg c.addr))
        if status.ret ≠ 0 then .inl ({ c with ra := ra.tag (c.addr / cfg.blocksize) .BAD }, status.ret)
        else .inr (goOn cfg { c with ra })

/-- OOB bytes on their own are written at once, and no tag is recorded. -/
def oobBurst (ops : mtd_oob_ops) (c : Cursor) : Cursor × Int :=
  if !selected cfg c.addr then (c, - EIO)
  else
    let (wp, ra) := c.ra.call nfc .check_wp
    if wp.ret ≠ 0 then ({ c with ra }, - EIO)
    else
      let ra := if ops.mode = .MTD_OOB_AUTO then (ra.call nfc (.read_oob (pageOf cfg c.addr))).2 else ra
      let (_, ra) := ra.call nfc (.write_oob (pageOf cfg c.addr))
      ({ c with ra, ooblen := 0, oobretlen := c.ooblen }, 0)

def nand_do_write_ops (ra : ra_nand_chip) (to_ : Nat) (ops : mtd_oob_ops) : Option (Cursor × Int) :=
  let c : Cursor := ⟨ra, to_, if ops.datbuf then ops.len else 0, ops.ooblen, 0, 0⟩
  if c.datalen = 0 ∧ 0 < c.ooblen then some (oobBurst cfg nfc ops c)
  else Turns.loop (writeTurn cfg nfc ops) (cfg.chipsize + 1) c

def dataOps (len : Nat) : mtd_oob_ops := ⟨.MTD_OOB_AUTO, len, 0, 0, true, false⟩

def ramtd_nand_erase (ra : ra_nand_chip) (addr len : Nat) : Int × ra_nand_chip :=
  nand_erase_nand cfg nfc ra addr len

def ramtd_nand_write (ra : ra_nand_chip) (to_ len : Nat) : Option (Int × ra_nand_chip) :=
  if to_ + len > cfg.chipsize then some (-EINVAL, ra)
  else if len = 0 then some (0, ra)
  else (nand_do_write_ops cfg nfc ra to_ (dataOps len)).map fun r => (r.2, r.1.ra)

def ramtd_nand_read (ra : ra_nand_chip) (from_ len : Nat) : Option (Int × ra_nand_chip) :=
  if from_ + len > cfg.chipsize then some (-EINVAL, ra)
  else if len = 0 then some (0, ra)
  else (nand_do_read_ops cfg nfc ra from_ (dataOps len)).map fun r => (r.2, r.1.ra)

def ramtd_nand_readoob (ra : ra_nand_chip) (from_ : Nat) (ops : mtd_oob_ops) :
    Option (Int × ra_nand_chip) :=
  (nand_do_read_ops cfg nfc ra from_ ops).map fun r => (r.2, r.1.ra)

def ramtd_nand_writeoob (ra : ra_nand_chip) (to_ : Nat) (ops : mtd_oob_ops) :
    Option (Int × ra_nand_chip) :=
  (nand_do_write_ops cfg nfc ra to_ ops).map fun r => (r.2, r.1.ra)

def ramtd_nand_block_isbad (ra : ra_nand_chip) (offs : Nat) : Int × ra_nand_chip :=
  if offs > cfg.chipsize then (-EINVAL, ra) else nand_block_checkbad cfg nfc ra offs

def ramtd_nand_block_markbad (ra : ra_nand_chip) (ofs : Nat) : Int × ra_nand_chip :=
  nand_block_markbad cfg nfc ra ofs

end Driver

end Ralink.Nand.BlockTable
