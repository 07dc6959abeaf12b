import Mathlib.Logic.Function.Basic
import Ralink.Lib.ByteStore
import Ralink.Lib.Align

/-! The writing functions of `flash_api.c`. They write erase block by erase block; a block of which
only a part is to change is read, changed and written back as a whole. -/
namespace Ralink.Flash
open ByteStore Function

/-- The fields of `mtd_info_user` that are used. A partition is made of erase blocks. -/
structure MtdInfo where
  size : Nat
  erasesize : Nat
  pow : ∃ k, erasesize = 2 ^ k
  whole : erasesize ∣ size
  u32 : size < 2 ^ 32

inductive MtdOp where
  | erase (start length : Nat)
  | write (start length : Nat)
  deriving DecidableEq

/-- An open device. `fails n` tells whether the `n`-th call fails; `log` are the erases and
writes that were issued. -/
structure Mtd where
  data : Store
  fails : Nat → Bool
  calls : Nat := 0
  pos : Nat := 0
  log : List MtdOp := []

namespace Mtd

/-- A call that fails leaves the device as it is. -/
def call (d : Mtd) : Except Mtd Mtd :=
  if d.fails d.calls then .error { d with calls := d.calls + 1 }
  else .ok { d with calls := d.calls + 1 }

def issue (d : Mtd) (op : MtdOp) : Except Mtd Mtd := call { d with log := d.log ++ [op] }

def lseek (d : Mtd) (offset : Nat) : Mtd := { d with pos := offset }

def read (d : Mtd) (n : Nat) : Except Mtd (List UInt8 × Mtd) := do
  let d ← d.call
  return (readBytes d.data d.pos n, { d with pos := d.pos + n })

/-- `MEMERASE` sets the erase block that `start` lies in to ones. -/
def memErase (info : MtdInfo) (d : Mtd) (start length : Nat) : Except Mtd Mtd := do
  let d ← d.issue (.erase start length)
  let block := start / info.erasesize * info.erasesize
  return { d with data := writeBytes d.data block (List.replicate length 0xFF) }

def write (d : Mtd) (bs : List UInt8) : Except Mtd Mtd := do
  let d ← d.issue (.write d.pos bs.length)
  return { d with data := writeBytes d.data d.pos bs, pos := d.pos + bs.length }

end Mtd

/-- The first branch of the loop; it takes `piece_size` bytes of `buf`. The call at its
start is the allocation of `bak`. -/
def readModifyWrite (info : MtdInfo) (d : Mtd) (buf : List UInt8) (to_ len : Nat) :
    Except Mtd (Nat × Mtd) := do
  let d ← d.call
  let bakaddr := to_ &&& (2 ^ 32 - 1 - (info.erasesize - 1))
  let (bak, d) ← (d.lseek bakaddr).read info.erasesize
  let piece := to_ &&& (info.erasesize - 1)
  let pieceSize := min len (info.erasesize - piece)
  let bak := splice bak piece (buf.take pieceSize)
  let d ← d.memErase info bakaddr info.erasesize
  let d ← (d.lseek bakaddr).write bak
  return (pieceSize, d)

/-- The second branch: a block written as a whole, at the position the device is at. -/
def wholeBlock (info : MtdInfo) (d : Mtd) (buf : List UInt8) (to_ : Nat) : Except Mtd (Nat × Mtd) := do
  let d ← d.memErase info to_ info.erasesize
  let d ← d.write (buf.take info.erasesize)
  return (info.erasesize, d)

def turn (info : MtdInfo) (d : Mtd) (buf : List UInt8) (to_ len : Nat) : Except Mtd (Nat × Mtd) :=
  if len &&& (info.erasesize - 1) ≠ 0 ∨ len < info.erasesize then readModifyWrite info d buf to_ len
  else wholeBlock info d buf to_

/-- The loop, for as many turns as there is fuel. -/
def writeLoop (info : MtdInfo) (fuel : Nat) (d : Mtd) (buf : List UInt8) (to_ len : Nat) (ret : Int) :
    Option (Int × Mtd) :=
  if len = 0 then some (ret, d)
  else
    match fuel with
    | 0 => none
    | fuel + 1 =>
      match turn info d buf to_ len with
      | .error d => some (-1, d)
      | .ok (n, d) => writeLoop info fuel d (buf.drop n) (to_ + n) (len - n) info.erasesize

/-- The partitions that are opened by name. -/
inductive MtdName where
  | Config
  | Factory
  deriving DecidableEq

structure Partition where
  info : MtdInfo
  data : Store

structure Written where
  ret : Int
  mtd : MtdName → Partition
  log : List MtdOp

def closeMtd (name : MtdName) (mtd : MtdName → Partition) (ret : Int) (d : Mtd) : Written :=
  ⟨ret, update mtd name ⟨(mtd name).info, d.data⟩, d.log⟩

/-- The body that the writing functions share. The first two calls open the device and get
its `info`. -/
def writeMtd (name : MtdName) (fails : Nat → Bool) (mtd : MtdName → Partition) (buf : List UInt8)
    (to_ len : Nat) : Option Written :=
  let part := mtd name
  if fails 0 ∨ fails 1 then some ⟨-1, mtd, []⟩
  else if len > part.info.size then some ⟨-1, mtd, []⟩
  else
    (writeLoop part.info len { data := part.data, fails, calls := 2 } buf to_ len 0).map fun (ret, d) =>
      closeMtd name mtd ret d

def flashWrite := writeMtd .Config

def flashWriteRalinkEeprom := writeMtd .Factory

end Ralink.Flash

/-! What one turn does to a device on which no call fails, and what a run of turns adds up to. -/
namespace Ralink.Flash
open ByteStore Align

variable {info : MtdInfo} {d d' : Mtd} {buf : List UInt8} {to_ len fuel n : Nat} {ret : Int}

def MtdOp.Aligned (info : MtdInfo) : MtdOp → Prop
  | .erase start length | .write start length => info.erasesize ∣ start ∧ length = info.erasesize

def Mtd.Sound (d : Mtd) : Prop := ∀ n, d.fails n = false

def ones (n : Nat) : List UInt8 := List.replicate n 0xFF

@[simp] theorem length_ones (n : Nat) : (ones n).length = n := List.length_replicate

theorem ones_add (m n : Nat) : ones (m + n) = ones m ++ ones n := List.replicate_add m n 0xFF

theorem erasesize_pos (info : MtdInfo) : 0 < info.erasesize := by
  obtain ⟨k, hk⟩ := info.pow
  rw [hk]
  exact Nat.two_pow_pos k

theorem Mtd.call_ok (h : d.Sound) : d.call = .ok { d with calls := d.calls + 1 } := by
  rw [Mtd.call, if_neg (by simp [h d.calls])]

theorem Mtd.issue_ok (h : d.Sound) (op : MtdOp) :
    d.issue op = .ok { d with calls := d.calls + 1, log := d.log ++ [op] } :=
  Mtd.call_ok (d := { d with log := d.log ++ [op] }) h

theorem Mtd.read_ok (h : d.Sound) (n : Nat) :
    d.read n = .ok (readBytes d.data d.pos n, { d with calls := d.calls + 1, pos := d.pos + n }) := by
  rw [Mtd.read, Mtd.call_ok h]
  rfl

theorem Mtd.memErase_ok (h : d.Sound) (start length : Nat) :
    d.memErase info start length = .ok { d with
      data := writeBytes d.data (start / info.erasesize * info.erasesize) (ones length)
      calls := d.calls + 1
      log := d.log ++ [.erase start length] } := by
  rw [Mtd.memErase, Mtd.issue_ok h]
  rfl

theorem Mtd.write_ok (h : d.Sound) (bs : List UInt8) :
    d.write bs = .ok { d with
      data := writeBytes d.data d.pos bs
      calls := d.calls + 1
      pos := d.pos + bs.length
      log := d.log ++ [.write d.pos bs.length] } := by
  rw [Mtd.write, Mtd.issue_ok h]
  rfl

def pieceSize (info : MtdInfo) (to_ len : Nat) : Nat := min len (info.erasesize - to_ % info.erasesize)

def blockStart (info : MtdInfo) (to_ : Nat) : Nat := to_ / info.erasesize * info.erasesize

theorem blockStart_add (info : MtdInfo) (to_ : Nat) :
    blockStart info to_ + to_ % info.erasesize = to_ := div_mul_add_mod to_ info.erasesize

theorem dvd_blockStart (info : MtdInfo) (to_ : Nat) : info.erasesize ∣ blockStart info to_ :=
  Nat.dvd_mul_left ..

theorem blockStart_of_dvd (h : info.erasesize ∣ to_) : blockStart info to_ = to_ :=
  Nat.div_mul_cancel h

theorem readModifyWrite_masks (hpos : 0 < len) (hin : to_ + len ≤ info.size) :
    to_ &&& (2 ^ 32 - 1 - (info.erasesize - 1)) = blockStart info to_ ∧
      to_ &&& (info.erasesize - 1) = to_ % info.erasesize := by
  obtain ⟨k, hk⟩ := info.pow
  have hsize : info.erasesize ≤ info.size := Nat.le_of_dvd (by omega) info.whole
  have h32 := info.u32
  rw [hk] at hsize
  have hk32 : k ≤ 32 := by
    by_contra hlt
    have hbig : 2 ^ 32 ≤ 2 ^ k := Nat.pow_le_pow_right (by decide) (by omega)
    omega
  rw [blockStart, hk]
  exact ⟨and_high (by omega) hk32, and_low to_ k⟩

theorem readModifyWrite_ok (h : d.Sound) (hpos : 0 < len) (hin : to_ + len ≤ info.size)
    (hbuf : len ≤ buf.length) :
    readModifyWrite info d buf to_ len = .ok (pieceSize info to_ len, { d with
      data := writeBytes d.data to_ (buf.take (pieceSize info to_ len))
      calls := d.calls + 4
      pos := blockStart info to_ + info.erasesize
      log := d.log ++ [.erase (blockStart info to_) info.erasesize,
        .write (blockStart info to_) info.erasesize] }) := by
  obtain ⟨hbak, hpiece⟩ := readModifyWrite_masks hpos hin
  have hlow : to_ % info.erasesize < info.erasesize := Nat.mod_lt _ (erasesize_pos info)
  have hsize : (buf.take (pieceSize info to_ len)).length = pieceSize info to_ len := by
    rw [List.length_take, pieceSize]
    omega
  have hfit : to_ % info.erasesize + (buf.take (pieceSize info to_ len)).length ≤ info.erasesize := by
    rw [hsize, pieceSize]
    omega
  have hsplice : (splice (readBytes d.data (blockStart info to_) info.erasesize) (to_ % info.erasesize)
      (buf.take (pieceSize info to_ len))).length = info.erasesize := by
    rw [length_splice (by simpa using hfit), length_readBytes]
  have hdata := writeBytes_splice (f := d.data) (o := blockStart info to_) hfit
  rw [blockStart_add] at hdata
  have hmin : min len (info.erasesize - to_ % info.erasesize) = pieceSize info to_ len := rfl
  unfold readModifyWrite
  rw [hbak, hpiece, Mtd.call_ok h]
  dsimp only [bind, Except.bind, pure, Except.pure, Mtd.lseek]
  rw [hmin]
  rw [Mtd.read_ok (by exact h)]
  dsimp only
  rw [Mtd.memErase_ok (by exact h)]
  dsimp only
  rw [Mtd.write_ok (by exact h), hsplice]
  dsimp only
  rw [← blockStart, blockStart_of_dvd (dvd_blockStart info to_),
    writeBytes_overwrite (Nat.le_refl _) (by rw [hsplice, length_ones]), hdata, List.append_assoc]
  rfl

def afterBlock (info : MtdInfo) (d : Mtd) (buf : List UInt8) (to_ : Nat) : Mtd :=
  { d with
    data := writeBytes (writeBytes d.data (blockStart info to_) (ones info.erasesize)) d.pos
      (buf.take info.erasesize)
    calls := d.calls + 2
    pos := d.pos + info.erasesize
    log := d.log ++ [.erase to_ info.erasesize, .write d.pos info.erasesize] }

theorem wholeBlock_ok (h : d.Sound) (hbuf : info.erasesize ≤ buf.length) :
    wholeBlock info d buf to_ = .ok (info.erasesize, afterBlock info d buf to_) := by
  have hlen : (buf.take info.erasesize).length = info.erasesize := by
    rw [List.length_take, Nat.min_eq_left hbuf]
  unfold wholeBlock
  rw [Mtd.memErase_ok h]
  dsimp only [bind, Except.bind, pure, Except.pure]
  rw [Mtd.write_ok (by exact h), hlen, List.append_assoc]
  rfl

theorem turn_eq (info : MtdInfo) (d : Mtd) (buf : List UInt8) (to_ : Nat) (hpos : 0 < len) :
    turn info d buf to_ len =
      if info.erasesize ∣ len then wholeBlock info d buf to_ else readModifyWrite info d buf to_ len := by
  obtain ⟨k, hk⟩ := info.pow
  unfold turn
  by_cases hdvd : info.erasesize ∣ len
  · have hle := Nat.le_of_dvd hpos hdvd
    have hlow : len &&& (info.erasesize - 1) = 0 := by
      rw [hk, and_low]
      exact Nat.mod_eq_zero_of_dvd (hk ▸ hdvd)
    rw [if_pos hdvd, if_neg (by simp [hlow, hle])]
  · have hlow : len &&& (info.erasesize - 1) ≠ 0 := fun h0 => hdvd (by
      rw [hk] at h0 ⊢
      exact dvd_of_and_low h0)
    rw [if_neg hdvd, if_pos (Or.inl hlow)]

end Ralink.Flash
