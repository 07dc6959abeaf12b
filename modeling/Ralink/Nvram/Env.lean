import Ralink.Lib.ByteStore
import Ralink.Lib.CString
import Ralink.Lib.Assoc

/-! `nvram_env.c` as built without `CONFIG_KERNEL_NVRAM`. The flash is a byte store that
`flash_read` and `flash_write` access exactly. A block is read into a heap buffer; the parser can
read on into the string `heap` that happens to stand right after it. -/
namespace Ralink.Nvram
open ByteStore CString Function

def MAX_CACHE_ENTRY : Nat := 500
def ENV_BLK_SIZE : Nat := 0x1000
def ENV_UBOOT_SIZE : Nat := 0x1000

/-- The constant fields of a `block_t`. -/
structure BlockInfo where
  flashOffset : Nat
  flashMaxLen : Nat
  deriving DecidableEq

/-- The table `fb`; the first block is there with `CONFIG_DUAL_IMAGE` only. -/
def fb (dualImage : Bool) : List BlockInfo :=
  (if dualImage then [⟨0x0, ENV_UBOOT_SIZE⟩] else []) ++
    [⟨0x2000, ENV_BLK_SIZE * 4⟩, ⟨0x6000, ENV_BLK_SIZE * 2⟩, ⟨0x8000, ENV_BLK_SIZE * 2⟩,
      ⟨0xa000, ENV_BLK_SIZE * 5⟩]

structure CacheT where
  name : Option CStr := none
  value : Option CStr := none
  deriving DecidableEq

abbrev Cache := Nat → CacheT

/-- The fields of a `block_t` that change and live from one call to the next. -/
structure BlockT where
  cache : Cache := fun _ => {}
  valid : Bool := false
  dirty : Bool := false

def crcPoly : BitVec 32 :=
  [0, 1, 2, 4, 5, 7, 8, 10, 11, 12, 16, 22, 23, 26].foldl
    (fun poly p => poly ||| (1#32 <<< (31 - p))) 0

/-- `crc_table`, as `make_crc_table` computes it. -/
def crcTable (n : Nat) : BitVec 32 :=
  Nat.iterate (fun c => if c &&& 1#32 ≠ 0 then crcPoly ^^^ (c >>> 1) else c >>> 1) 8
    (BitVec.ofNat 32 n)

example : crcPoly = 0xedb88320 ∧ crcTable 1 = 0x77073096 ∧ crcTable 255 = 0x2d02ef8d := by decide

def crc32 (crc : BitVec 32) (buf : List UInt8) : BitVec 32 :=
  buf.foldl
    (fun crc b => crcTable ((crc ^^^ BitVec.ofNat 32 b.toNat) &&& 0xff).toNat ^^^ (crc >>> 8))
    (crc ^^^ 0xffffffff) ^^^ 0xffffffff

/-- `sizeof(fb[index].env.crc)`. -/
def crcSize : Nat := 4

/-- The checksum as it lies in memory, low byte first. -/
def crcBytes (crc : BitVec 32) : List UInt8 :=
  (List.range crcSize).map fun i => UInt8.ofNat (crc.toNat / 256 ^ i)

def dataLen (info : BlockInfo) : Nat := info.flashMaxLen - crcSize

/-- What parsing leaves: the cache, and whether it read past the memory it was given. -/
structure Parsed where
  cache : Cache
  overrun : Bool

/-- `'='`. -/
def eqSign : UInt8 := 61

/-- The loop of `nvram_init`: `i` entries done, `p` bytes behind `fb[index].env.data` with
the memory `mem` from there on. -/
def parseLoop (len : Nat) : Nat → Nat → Nat → List UInt8 → Cache → Parsed
  | 0, _, _, _, cache => ⟨cache, false⟩
  | turns + 1, i, p, mem, cache =>
    match strchr eqSign mem with
    | .overrun => ⟨cache, true⟩
    | .absent => ⟨cache, false⟩
    | .found name mem =>
      let cache := update cache i { cache i with name := some name }
      let p := p + name.length + 1
      match strchr 0 mem with
      | .overrun => ⟨cache, true⟩
      | .absent => ⟨cache, false⟩
      | .found value mem =>
        let cache := update cache i { cache i with value := some value }
        let p := p + value.length + 1
        if p + 1 ≥ len then ⟨cache, false⟩
        else
          match mem with
          | [] => ⟨cache, true⟩
          | b :: rest =>
            if b = 0 then ⟨cache, false⟩ else parseLoop len turns (i + 1) p (b :: rest) cache

def storedCrc (info : BlockInfo) (flash : Store) : List UInt8 :=
  readBytes flash info.flashOffset crcSize

def storedData (info : BlockInfo) (flash : Store) : List UInt8 :=
  readBytes flash (info.flashOffset + crcSize) (dataLen info)

def crcMatches (info : BlockInfo) (flash : Store) : Bool :=
  crcBytes (crc32 0 (storedData info flash)) == storedCrc info flash

def initBlock (heap : CStr) (info : BlockInfo) (flash : Store) (b : BlockT) : BlockT :=
  if b.valid then b
  else if !crcMatches info flash then { b with valid := true, dirty := false }
  else
    { cache := (parseLoop (dataLen info) MAX_CACHE_ENTRY 0 0
        (storedData info flash ++ heap.bytes ++ [0]) b.cache).cache
      valid := true
      dirty := false }

/-- The loop of `cache_idx`. -/
def cacheIdxLoop (cache : Cache) (name : CStr) : Nat → Nat → Option Nat
  | 0, _ => none
  | turns + 1, i =>
    match (cache i).name with
    | none => none
    | some n => if name = n then some i else cacheIdxLoop cache name turns (i + 1)

def cacheIdx (cache : Cache) (name : CStr) : Option Nat := cacheIdxLoop cache name MAX_CACHE_ENTRY 0

/-- `nvram_bufget` on a loaded block. -/
def bufgetCache (cache : Cache) (name : CStr) : CStr :=
  match cacheIdx cache name with
  | some idx => (cache idx).value.getD .empty
  | none => .empty

/-- The search of `nvram_bufset` for an empty room. -/
def emptyRoomLoop (cache : Cache) : Nat → Nat → Option Nat
  | 0, _ => none
  | turns + 1, idx =>
    match (cache idx).name with
    | none => some idx
    | some _ => emptyRoomLoop cache turns (idx + 1)

/-- `nvram_bufset` on a loaded block. -/
def bufsetBlock (b : BlockT) (name value : CStr) : Int × BlockT :=
  match cacheIdx b.cache name with
  | none =>
    match emptyRoomLoop b.cache MAX_CACHE_ENTRY 0 with
    | none => (-1, b)
    | some idx =>
      (0, { b with
        cache := update b.cache idx { name := some name, value := some value }
        dirty := true })
  | some idx =>
    (0, { b with
      cache := update b.cache idx { b.cache idx with value := some value }
      dirty := true })

/-- What `snprintf` writes for an entry, with its NUL. -/
def entryBytes (name value : CStr) : List UInt8 := name.bytes ++ eqSign :: (value.bytes ++ [0])

/-- The loop of `nvram_commit`; `written` stands from `fb[index].env.data` on. An entry is
refused by where it would start. -/
def commitLoop (flashMaxLen : Nat) (cache : Cache) :
    Nat → Nat → List UInt8 → Except (List UInt8) (List UInt8)
  | 0, _, written => .ok written
  | turns + 1, i, written =>
    match (cache i).name, (cache i).value with
    | some name, some value =>
      if written.length + 2 ≥ flashMaxLen then .error written
      else commitLoop flashMaxLen cache turns (i + 1) (written ++ entryBytes name value)
    | _, _ => .ok written

/-- The outcome of a commit; `extent` bytes from `fb[index].env.data` on were written to.
What lies past the buffer is no part of the state. -/
structure Committed where
  ret : Int
  flash : Store
  block : BlockT
  extent : Nat

/-- The buffer once everything is written: zeros behind the entries. -/
def envData (info : BlockInfo) (written : List UInt8) : List UInt8 :=
  (written ++ List.replicate (dataLen info) 0).take (dataLen info)

/-- Checksum and data go to the flash, as `nvram_commit` and `nvram_clear` write them. -/
def writeEnv (info : BlockInfo) (flash : Store) (data : List UInt8) : Store :=
  writeBytes (writeBytes flash info.flashOffset (crcBytes (crc32 0 data)))
    (info.flashOffset + crcSize) data

def commitBlock (info : BlockInfo) (flash : Store) (b : BlockT) : Committed :=
  if !b.dirty then ⟨0, flash, b, 0⟩
  else
    match commitLoop info.flashMaxLen b.cache MAX_CACHE_ENTRY 0 [] with
    | .error written => ⟨-1, flash, b, written.length⟩
    | .ok written =>
      ⟨0, writeEnv info flash (envData info written), { b with dirty := false }, written.length + 1⟩

/-- `nvram_close` on one block; a commit that fails is not noticed. -/
def closeBlock (info : BlockInfo) (flash : Store) (b : BlockT) : Store × BlockT :=
  if !b.valid then (flash, b)
  else
    let c : Committed := if b.dirty then commitBlock info flash b else ⟨0, flash, b, 0⟩
    (c.flash, { c.block with
      cache := fun i => if i < MAX_CACHE_ENTRY then {} else c.block.cache i
      valid := false })

/-- The flash, and what one process holds of each block. -/
structure NvState where
  flash : Store
  block : Nat → BlockT := fun _ => {}

/-- The outcome of `nvram_commit`, with the extent of what it wrote into its buffer. -/
structure CommitCall where
  ret : Int
  state : NvState
  extent : Nat

def NvState.setBlock (s : NvState) (i : Nat) (b : BlockT) : NvState := { s with block := update s.block i b }

section Calls
variable (dualImage : Bool)

/-- `LIBNV_CHECK_INDEX`. -/
def checkIndex (index : Int) : Option (Nat × BlockInfo) :=
  if index < 0 ∨ index ≥ (fb dualImage).length then none
  else (fb dualImage)[index.toNat]?.map fun info => (index.toNat, info)

def nvramInit (heap : CStr) (s : NvState) (index : Int) : NvState :=
  match checkIndex dualImage index with
  | none => s
  | some (i, info) => s.setBlock i (initBlock heap info s.flash (s.block i))

def nvramClose (s : NvState) (index : Int) : NvState :=
  match checkIndex dualImage index with
  | none => s
  | some (i, info) =>
    let (flash, b) := closeBlock info s.flash (s.block i)
    { flash, block := update s.block i b }

def nvramBufget (heap : CStr) (s : NvState) (index : Int) (name : CStr) : CStr × NvState :=
  match checkIndex dualImage index with
  | none => (.empty, s)
  | some (i, _) =>
    let s := nvramInit dualImage heap s index
    (bufgetCache (s.block i).cache name, s)

def nvramBufset (heap : CStr) (s : NvState) (index : Int) (name value : CStr) : Int × NvState :=
  match checkIndex dualImage index with
  | none => (-1, s)
  | some (i, _) =>
    let s := nvramInit dualImage heap s index
    let (ret, b) := bufsetBlock (s.block i) name value
    (ret, s.setBlock i b)

def nvramCommit (heap : CStr) (s : NvState) (index : Int) : CommitCall :=
  match checkIndex dualImage index with
  | none => ⟨-1, s, 0⟩
  | some (i, info) =>
    let s := nvramInit dualImage heap s index
    let c := commitBlock info s.flash (s.block i)
    ⟨c.ret, { flash := c.flash, block := update s.block i c.block }, c.extent⟩

def nvramGet (heap : CStr) (s : NvState) (index : Int) (name : CStr) : CStr × NvState :=
  nvramBufget dualImage heap (nvramInit dualImage heap (nvramClose dualImage s index) index) index name

def nvramSet (heap : CStr) (s : NvState) (index : Int) (name value : CStr) : Int × NvState :=
  let (ret, s) := nvramBufset dualImage heap s index name value
  if ret = -1 then (-1, s)
  else
    let c := nvramCommit dualImage heap s index
    (c.ret, c.state)

def nvramClear (s : NvState) (index : Int) : Int × NvState :=
  match checkIndex dualImage index with
  | none => (-1, s)
  | some (i, info) =>
    let s := nvramClose dualImage s index
    (0, { flash := writeEnv info s.flash (List.replicate (dataLen info) 0xFF)
          block := update s.block i { s.block i with dirty := false } })

end Calls

end Ralink.Nvram

/-! A cache whose rooms are filled from the front on is a list of entries; the loops of the library
over its rooms are operations on that list. -/
namespace Ralink.Nvram
open Assoc CString Function

abbrev Entry := CStr × CStr

/-- The cache with the entries `es` in its first rooms. -/
def rooms (es : List Entry) : Cache := fun i =>
  match es[i]? with
  | some e => { name := some e.1, value := some e.2 }
  | none => {}

/-- The entries that `nvram_commit` goes through. -/
def leadingEntries (cache : Cache) : Nat → Nat → List Entry
  | 0, _ => []
  | turns + 1, i =>
    match (cache i).name, (cache i).value with
    | some name, some value => (name, value) :: leadingEntries cache turns (i + 1)
    | _, _ => []

def cacheEntries (cache : Cache) : List Entry := leadingEntries cache MAX_CACHE_ENTRY 0

def answer (es : List Entry) (name : CStr) : CStr := (es.lookup name).getD .empty

variable {es : List Entry} {name value : CStr} {i : Nat}

theorem rooms_getElem (h : i < es.length) :
    rooms es i = { name := some es[i].1, value := some es[i].2 } := by
  simp [rooms, h]

theorem rooms_end (h : es.length ≤ i) : rooms es i = {} := by
  simp [rooms, h]

theorem rooms_injective {es' : List Entry} (h : rooms es = rooms es') : es = es' := by
  refine List.ext_getElem? fun i => ?_
  have hi := congrFun h i
  unfold rooms at hi
  cases h1 : es[i]? with
  | none =>
    cases h2 : es'[i]? with
    | none => rfl
    | some e => simp [h1, h2] at hi
  | some e =>
    cases h2 : es'[i]? with
    | none => simp [h1, h2] at hi
    | some e' =>
      simp only [h1, h2, CacheT.mk.injEq, Option.some.injEq] at hi
      exact congrArg some (Prod.ext hi.1 hi.2)

theorem update_rooms_set (h : i < es.length) (name value : CStr) :
    update (rooms es) i { name := some name, value := some value } = rooms (es.set i (name, value)) := by
  funext j
  rcases eq_or_ne j i with rfl | hj
  · rw [update_self, rooms_getElem (by simpa using h)]
    simp
  · rw [update_of_ne hj]
    simp [rooms, List.getElem?_set_ne hj.symm]

theorem update_rooms_append (name value : CStr) :
    update (rooms es) es.length { name := some name, value := some value } =
      rooms (es ++ [(name, value)]) := by
  funext j
  rcases lt_trichotomy j es.length with hj | rfl | hj
  · rw [update_of_ne hj.ne, rooms_getElem hj, rooms_getElem (by simp; omega)]
    simp [List.getElem_append_left hj]
  · rw [update_self, rooms_getElem (by simp)]
    simp
  · rw [update_of_ne hj.ne', rooms_end hj.le, rooms_end (by simp; omega)]

theorem update_rooms_twice (name value : CStr) :
    update (update (rooms es) es.length { rooms es es.length with name := some name }) es.length
      { update (rooms es) es.length { rooms es es.length with name := some name } es.length with
        value := some value } = rooms (es ++ [(name, value)]) := by
  rw [update_idem, update_self]
  exact update_rooms_append name value

theorem leadingEntries_rooms (turns i : Nat) (h : es.length ≤ i + turns) :
    leadingEntries (rooms es) turns i = es.drop i := by
  induction turns generalizing i with
  | zero => rw [leadingEntries, List.drop_eq_nil_of_le (i := i) h]
  | succ turns ih =>
    unfold leadingEntries
    rcases Nat.lt_or_ge i es.length with hi | hi
    · rw [rooms_getElem hi]
      dsimp only
      rw [ih (i + 1) (by omega), List.drop_eq_getElem_cons hi]
    · rw [rooms_end hi, List.drop_eq_nil_of_le hi]

theorem cacheEntries_rooms (h : es.length ≤ MAX_CACHE_ENTRY) : cacheEntries (rooms es) = es :=
  leadingEntries_rooms MAX_CACHE_ENTRY 0 (by omega)

theorem cacheIdxLoop_rooms (name : CStr) (turns i : Nat) (h : es.length ≤ i + turns) :
    cacheIdxLoop (rooms es) name turns i =
      ((es.drop i).findIdx? fun e => name = e.1).map (· + i) := by
  induction turns generalizing i with
  | zero => rw [cacheIdxLoop, List.drop_eq_nil_of_le (i := i) h, List.findIdx?_nil, Option.map_none]
  | succ turns ih =>
    unfold cacheIdxLoop
    rcases Nat.lt_or_ge i es.length with hi | hi
    · rw [rooms_getElem hi, List.drop_eq_getElem_cons hi, List.findIdx?_cons]
      dsimp only
      by_cases hn : name = es[i].1
      · simp [hn]
      · simp only [hn, decide_false, if_false, Bool.false_eq_true, ih (i + 1) (by omega),
          Option.map_map]
        congr 1
        funext j
        simp only [Function.comp_apply]
        omega
    · rw [rooms_end hi, List.drop_eq_nil_of_le hi, List.findIdx?_nil, Option.map_none]

theorem cacheIdx_rooms (h : es.length ≤ MAX_CACHE_ENTRY) (name : CStr) :
    cacheIdx (rooms es) name = es.findIdx? fun e => name = e.1 := by
  rw [cacheIdx, cacheIdxLoop_rooms name _ 0 (by omega)]
  simp

theorem emptyRoomLoop_rooms (turns i : Nat) (hi : i ≤ es.length) :
    emptyRoomLoop (rooms es) turns i = if es.length < i + turns then some es.length else none := by
  induction turns generalizing i with
  | zero => rw [emptyRoomLoop, if_neg (by omega)]
  | succ turns ih =>
    unfold emptyRoomLoop
    rcases Nat.lt_or_eq_of_le hi with hlt | rfl
    · rw [rooms_getElem hlt]
      dsimp only
      rw [ih (i + 1) hlt, Nat.add_right_comm, Nat.add_assoc]
    · rw [rooms_end (Nat.le_refl _), if_pos (by omega)]

theorem bufgetCache_rooms (h : es.length ≤ MAX_CACHE_ENTRY) (name : CStr) :
    bufgetCache (rooms es) name = answer es name := by
  rw [bufgetCache, answer, cacheIdx_rooms h, lookup_eq]
  cases hf : es.findIdx? fun e => name = e.1 with
  | none => rfl
  | some i =>
    have hi := (List.findIdx?_eq_some_iff_findIdx_eq.mp hf).1
    simp [rooms_getElem hi, hi]

/-- Whether `nvram_bufset` finds the name or a room for it. -/
def hasRoom (es : List Entry) (name : CStr) : Prop := name ∈ keys es ∨ es.length < MAX_CACHE_ENTRY

instance (es : List Entry) (name : CStr) : Decidable (hasRoom es name) :=
  inferInstanceAs (Decidable (_ ∨ _))

theorem bufsetBlock_rooms {b : BlockT} (hb : b.cache = rooms es) (h : es.length ≤ MAX_CACHE_ENTRY)
    (name value : CStr) :
    bufsetBlock b name value =
      if hasRoom es name then (0, { b with cache := rooms (set name value es), dirty := true })
      else (-1, b) := by
  rw [bufsetBlock, hb, cacheIdx_rooms h, set_eq]
  cases hf : es.findIdx? fun e => name = e.1 with
  | some i =>
    have hi := List.findIdx?_eq_some_iff_getElem.mp hf
    obtain ⟨hlt, hn, -⟩ := hi
    have hn' : name = es[i].1 := by simpa using hn
    have hmem : name ∈ keys es := hn' ▸ mem_keys_of_mem (List.getElem_mem hlt)
    have hroom : hasRoom es name := Or.inl hmem
    rw [if_pos hroom]
    dsimp only
    rw [rooms_getElem hlt, ← hn', update_rooms_set hlt]
  | none =>
    have hnot : name ∉ keys es := by
      intro hmem
      obtain ⟨e, he, hk⟩ := List.mem_map.mp hmem
      have := List.findIdx?_eq_none_iff.mp hf e he
      simp [hk] at this
    dsimp only
    rw [emptyRoomLoop_rooms _ 0 (Nat.zero_le _), Nat.zero_add]
    by_cases hlt : es.length < MAX_CACHE_ENTRY
    · have hroom : hasRoom es name := Or.inr hlt
      rw [if_pos hlt, if_pos hroom]
      dsimp only
      rw [update_rooms_append]
    · rw [if_neg hlt, if_neg (by simp [hasRoom, hnot, hlt])]

theorem length_set_le (hroom : hasRoom es name) (h : es.length ≤ MAX_CACHE_ENTRY) (value : CStr) :
    (set name value es).length ≤ MAX_CACHE_ENTRY := by
  have hk := congrArg List.length (keys_set name value es)
  rw [length_keys] at hk
  rw [hk]
  split
  · rw [length_keys]
    exact h
  · next hn =>
    have hlt := hroom.resolve_left hn
    rw [List.length_append, length_keys, List.length_singleton]
    exact hlt

end Ralink.Nvram
