import Mathlib.Logic.Function.Basic
import Ralink.Lib.ByteStore

/-! The reading, writing and erasing functions of `ralink_nand.c`. Data goes through one buffer for
a page and its OOB bytes, and a page is always programmed as a whole. Erasing a block sets its bytes
to ones, programming can only clear bits. -/
namespace Ralink.Nand
open ByteStore Function

inductive BBT_TAG where
  | UNKNOWN
  | RES
  | BAD
  | GOOD
  deriving DecidableEq

/-- The geometry of the chip, and whether bad blocks are kept in a table. -/
structure Config where
  chip_shift : Nat
  page_shift : Nat
  erase_shift : Nat
  oob_shift : Nat
  badblockpos : Nat
  ranfc_bbt : Bool
  page_le : page_shift ≤ erase_shift
  erase_le : erase_shift ≤ chip_shift
  marker : badblockpos < 2 ^ oob_shift

namespace Config
variable (cfg : Config)

def chipsize : Nat := 2 ^ cfg.chip_shift
def pagesize : Nat := 2 ^ cfg.page_shift
def blocksize : Nat := 2 ^ cfg.erase_shift
def oobsize : Nat := 2 ^ cfg.oob_shift
def pagesPerBlock : Nat := 2 ^ (cfg.erase_shift - cfg.page_shift)

theorem pagesize_pos : 0 < cfg.pagesize := Nat.two_pow_pos _
theorem blocksize_pos : 0 < cfg.blocksize := Nat.two_pow_pos _

theorem blocksize_eq : cfg.pagesize * cfg.pagesPerBlock = cfg.blocksize := by
  rw [pagesize, pagesPerBlock, blocksize, ← pow_add, Nat.add_sub_cancel' cfg.page_le]

end Config

/-- Pages of 512 bytes, 32 of them in a block, in a chip of 32 MB. -/
def smallPages : Config where
  chip_shift := 25
  page_shift := 9
  erase_shift := 14
  oob_shift := 4
  badblockpos := 4
  ranfc_bbt := true
  page_le := by decide
  erase_le := by decide
  marker := by decide

/-- The bytes of the chip by address, the OOB bytes of all pages behind each other, the buffer
with the OOB bytes behind those of the page, and the table of bad blocks. -/
structure ra_nand_chip where
  data : Store
  oob : Store
  buffers : Store
  bbt : Nat → BBT_TAG

variable (cfg : Config)

def nfc_read_page (ra : ra_nand_chip) (page : Nat) : ra_nand_chip :=
  let buffers := writeBytes ra.buffers 0 (readBytes ra.data (page * cfg.pagesize) cfg.pagesize)
  { ra with
    buffers := writeBytes buffers cfg.pagesize
      (readBytes ra.oob (page * cfg.oobsize) cfg.oobsize) }

def nfc_read_oob (ra : ra_nand_chip) (page : Nat) : ra_nand_chip :=
  { ra with
    buffers := writeBytes ra.buffers cfg.pagesize
      (readBytes ra.oob (page * cfg.oobsize) cfg.oobsize) }

/-- The buffer is tagged as that of a good block and programmed into a page. -/
def nfc_write_page (ra : ra_nand_chip) (page : Nat) : ra_nand_chip :=
  let buffers := update ra.buffers (cfg.pagesize + cfg.badblockpos) 0xFF
  { ra with
    buffers := buffers
    data := fun a =>
      if a / cfg.pagesize = page then ra.data a &&& buffers (a % cfg.pagesize) else ra.data a
    oob := fun a =>
      if a / cfg.oobsize = page then ra.oob a &&& buffers (cfg.pagesize + a % cfg.oobsize)
      else ra.oob a }

def nfc_erase_block (ra : ra_nand_chip) (page : Nat) : ra_nand_chip :=
  { ra with
    data := fun a =>
      if a / cfg.blocksize = page / cfg.pagesPerBlock then 0xFF else ra.data a
    oob := fun a =>
      if a / cfg.oobsize / cfg.pagesPerBlock = page / cfg.pagesPerBlock then 0xFF else ra.oob a }

def nand_bbt_set (ra : ra_nand_chip) (block : Nat) (tag : BBT_TAG) : ra_nand_chip :=
  { ra with bbt := update ra.bbt block tag }

/-- The tag of a block; one that is not known yet is taken from the marker in the OOB bytes. -/
def blockTag (ra : ra_nand_chip) (page block : Nat) : BBT_TAG :=
  match ra.bbt block with
  | .UNKNOWN =>
    if ra.oob (page * cfg.oobsize + cfg.badblockpos) = 0xFF then .GOOD else .BAD
  | tag => tag

def nand_block_checkbad (ra : ra_nand_chip) (offs : Nat) : Bool × ra_nand_chip :=
  if cfg.ranfc_bbt then
    let page := offs % cfg.chipsize / cfg.pagesize
    let block := offs % cfg.chipsize / cfg.blocksize
    let tag := blockTag cfg ra page block
    (tag ≠ .GOOD, nand_bbt_set ra block tag)
  else (false, ra)

/-- The blocks are erased one by one up to the first bad one. Beside whether all of them are done
it returns the address it has got to. -/
def eraseLoop (ra : ra_nand_chip) (addr : Nat) : Nat → Bool × Nat × ra_nand_chip
  | 0 => (true, addr, ra)
  | blocks + 1 =>
    let (bad, ra) := nand_block_checkbad cfg ra addr
    if bad then (false, addr, ra)
    else eraseLoop (nfc_erase_block cfg ra (addr / cfg.pagesize)) (addr + cfg.blocksize) blocks

def EINVAL : Int := 22
def EIO : Int := 5

/-- The address that was got to is returned beside. -/
def ramtd_nand_erase (ra : ra_nand_chip) (addr len : Nat) : Int × Nat × ra_nand_chip :=
  if addr % cfg.blocksize ≠ 0 ∨ len % cfg.blocksize ≠ 0 then (- EINVAL, addr, ra)
  else
    let (done, addr, ra) := eraseLoop cfg ra addr (len / cfg.blocksize)
    if done then (0, addr, ra) else (- EIO, addr, nand_bbt_set ra (addr / cfg.blocksize) .BAD)

/-- One turn of the writing loop: `data` is put into the buffer, whatever else is there, and the
buffer is programmed. -/
def writeTurn (ra : ra_nand_chip) (addr : Nat) (data : List UInt8) : ra_nand_chip :=
  let page := addr % cfg.chipsize / cfg.pagesize
  let ra := nfc_read_oob cfg ra page
  let ra := { ra with buffers := writeBytes ra.buffers (addr % cfg.pagesize) data }
  nand_bbt_set (nfc_write_page cfg ra page) (addr / cfg.blocksize) .GOOD

def pageRest (addr : Nat) : Nat := cfg.pagesize - addr % cfg.pagesize

def nextPage (addr : Nat) : Nat := (addr % cfg.chipsize / cfg.pagesize + 1) * cfg.pagesize

theorem pageRest_pos (addr : Nat) : 0 < pageRest cfg addr :=
  Nat.sub_pos_of_lt (Nat.mod_lt _ cfg.pagesize_pos)

/-- `retlen` counts the bytes that are written. -/
def nand_do_write_ops (ra : ra_nand_chip) (addr : Nat) (data : List UInt8) (retlen : Nat) :
    Nat × ra_nand_chip :=
  if data = [] then (retlen, ra)
  else
    let len := min data.length (pageRest cfg addr)
    nand_do_write_ops (writeTurn cfg ra addr (data.take len)) (nextPage cfg addr) (data.drop len)
      (retlen + len)
termination_by data.length
decreasing_by
  have hpos := pageRest_pos cfg addr
  have hlen : 0 < data.length := List.length_pos_iff.mpr ‹_›
  rw [List.length_drop]
  omega

/-- `buf` are the bytes that have been read. -/
def nand_do_read_ops (ra : ra_nand_chip) (addr datalen : Nat) (buf : List UInt8) :
    List UInt8 × ra_nand_chip :=
  if datalen = 0 then (buf, ra)
  else
    let ra := nfc_read_page cfg ra (addr % cfg.chipsize / cfg.pagesize)
    let len := min datalen (pageRest cfg addr)
    nand_do_read_ops (nand_bbt_set ra (addr / cfg.blocksize) .GOOD) (nextPage cfg addr)
      (datalen - len) (buf ++ readBytes ra.buffers (addr % cfg.pagesize) len)
termination_by datalen
decreasing_by
  have hpos := pageRest_pos cfg addr
  omega

/-- What a call returns: the error, `*retlen`, the bytes that were read. -/
structure Result where
  ret : Int
  retlen : Nat
  buf : List UInt8 := []

/-- `retlen` is what the caller has in `*retlen`; it is left if nothing is to be done. -/
def ramtd_nand_write (ra : ra_nand_chip) (to_ : Nat) (buf : List UInt8) (retlen : Nat) :
    Result × ra_nand_chip :=
  if to_ + buf.length > cfg.chipsize then (⟨-EINVAL, retlen, []⟩, ra)
  else if buf.length = 0 then (⟨0, retlen, []⟩, ra)
  else
    let (written, ra) := nand_do_write_ops cfg ra to_ buf 0
    (⟨0, written, []⟩, ra)

def ramtd_nand_read (ra : ra_nand_chip) (from_ len retlen : Nat) : Result × ra_nand_chip :=
  if from_ + len > cfg.chipsize then (⟨-EINVAL, retlen, []⟩, ra)
  else if len = 0 then (⟨0, retlen, []⟩, ra)
  else
    let (buf, ra) := nand_do_read_ops cfg ra from_ len []
    (⟨0, buf.length, buf⟩, ra)

end Ralink.Nand
