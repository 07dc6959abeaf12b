import Ralink.Nvram.Codec

/-! Everything a call does to one block of the flash and to its cache, in terms of the list of
entries; and that blocks do not touch each other. -/
namespace Ralink.Nvram
open Assoc ByteStore CString Function

variable {info info' : BlockInfo} {flash : Store} {es : List Entry} {b : BlockT} {heap : CStr}
  {data : List UInt8} {dualImage : Bool} {i : Nat}

/-- The entries `nvram_init` finds in the flash. -/
def loadEntries (heap : CStr) (info : BlockInfo) (flash : Store) : List Entry :=
  if crcMatches info flash then
    parseEntries (dataLen info) MAX_CACHE_ENTRY 0 (storedData info flash ++ heap.bytes ++ [0])
  else []

/-- Every entry `nvram_init` finds ends inside the block. -/
def ReadsInside (info : BlockInfo) (flash : Store) : Prop :=
  crcMatches info flash = true →
    (parseLoop (dataLen info) MAX_CACHE_ENTRY 0 0 (storedData info flash) (rooms [])).overrun = false

@[simp] theorem length_storedData (info : BlockInfo) (flash : Store) :
    (storedData info flash).length = dataLen info := length_readBytes _ _ _

theorem initBlock_eq (hv : b.valid = false) (hc : b.cache = rooms []) (heap : CStr) (info : BlockInfo)
    (flash : Store) :
    initBlock heap info flash b =
      { cache := rooms (loadEntries heap info flash), valid := true, dirty := false } := by
  unfold initBlock loadEntries
  rw [if_neg (by simp [hv])]
  cases hm : crcMatches info flash with
  | false => simp [hc]
  | true =>
    have h := @parseLoop_rooms (dataLen info) MAX_CACHE_ENTRY 0
      (storedData info flash ++ heap.bytes ++ [0]) [] ⟨_, rfl⟩ (by simp)
    rw [List.length_nil] at h
    simp only [Bool.not_true, Bool.false_eq_true, if_false, if_true, hc, h, List.nil_append]

theorem initBlock_valid (hv : b.valid = true) (heap : CStr) (info : BlockInfo) (flash : Store) :
    initBlock heap info flash b = b := if_pos hv

theorem length_loadEntries (heap : CStr) (info : BlockInfo) (flash : Store) :
    (loadEntries heap info flash).length ≤ MAX_CACHE_ENTRY := by
  unfold loadEntries
  split
  · exact length_parseEntries_le _ _ _ _
  · exact Nat.zero_le _

theorem loadEntries_names (heap : CStr) (info : BlockInfo) (flash : Store) :
    ∀ e ∈ loadEntries heap info flash, eqSign ∉ e.1.bytes := by
  unfold loadEntries
  split
  · exact (parseEntries_sound _ _ _ _).1
  · simp

theorem loadEntries_const_iff (heap : CStr) :
    (∀ heap', loadEntries heap' info flash = loadEntries heap info flash) ↔ ReadsInside info flash := by
  unfold loadEntries ReadsInside
  cases hm : crcMatches info flash with
  | false => simp
  | true =>
    simp only [if_true, forall_const]
    constructor
    · intro h
      by_contra hover
      rw [Bool.not_eq_false] at hover
      refine parseEntries_overrun hover (by simp) ?_
      have h0 := h .empty
      have h1 := h (CStr.empty.cons eqSign (by decide))
      simp only [CStr.bytes_empty, CStr.bytes_cons, List.append_nil, List.append_assoc,
        List.cons_append, List.nil_append] at h0 h1
      exact h0.trans h1.symm
    · intro h heap'
      rw [List.append_assoc, List.append_assoc, parseEntries_inside h, parseEntries_inside h]

/-- Some entry would start too close to the end of the block, or past it. -/
def refused (flashMaxLen : Nat) : Nat → List Entry → Bool
  | _, [] => false
  | n, e :: es => decide (n + 2 ≥ flashMaxLen) || refused flashMaxLen (n + (entryBytes e.1 e.2).length) es

theorem commitLoop_cases (flashMaxLen : Nat) (cache : Cache) (turns i : Nat) (written : List UInt8) :
    (refused flashMaxLen written.length (leadingEntries cache turns i) = false ∧
        commitLoop flashMaxLen cache turns i written =
          .ok (written ++ encode (leadingEntries cache turns i))) ∨
      (refused flashMaxLen written.length (leadingEntries cache turns i) = true ∧
        ∃ w, commitLoop flashMaxLen cache turns i written = .error w ∧ flashMaxLen ≤ w.length + 2) := by
  induction turns generalizing i written with
  | zero => exact Or.inl ⟨rfl, by simp [commitLoop, leadingEntries]⟩
  | succ turns ih =>
    unfold commitLoop leadingEntries
    cases hn : (cache i).name with
    | none => exact Or.inl ⟨rfl, by simp⟩
    | some name =>
      cases hv : (cache i).value with
      | none => exact Or.inl ⟨rfl, by simp⟩
      | some value =>
        dsimp only
        by_cases hstop : written.length + 2 ≥ flashMaxLen
        · exact Or.inr ⟨by simp [refused, hstop], written, if_pos hstop, hstop⟩
        · have h := ih (i + 1) (written ++ entryBytes name value)
          rw [List.length_append] at h
          simpa [refused, hstop] using h

theorem refused_of_fits {n flashMaxLen : Nat} (h : n + (encode es).length + 4 ≤ flashMaxLen) :
    refused flashMaxLen n es = false := by
  induction es generalizing n with
  | nil => rfl
  | cons e es ih =>
    rw [encode_cons, List.length_append] at h
    have hrec := ih (n := n + (entryBytes e.1 e.2).length) (by omega)
    have h2 := length_entryBytes e.1 e.2
    simp only [refused, hrec, Bool.or_false, decide_eq_false_iff_not]
    omega

/-- The block can hold the entries: none is cut off. -/
def Fits (info : BlockInfo) (es : List Entry) : Prop := (encode es).length ≤ dataLen info

instance (info : BlockInfo) (es : List Entry) : Decidable (Fits info es) :=
  inferInstanceAs (Decidable (_ ≤ _))

theorem commitBlock_dirty (info : BlockInfo) (flash : Store) (hd : b.dirty = true) :
    (refused info.flashMaxLen 0 (cacheEntries b.cache) = false ∧
        commitBlock info flash b =
          ⟨0, writeEnv info flash (envData info (encode (cacheEntries b.cache))),
            { b with dirty := false }, (encode (cacheEntries b.cache)).length + 1⟩) ∨
      (refused info.flashMaxLen 0 (cacheEntries b.cache) = true ∧
        ∃ extent, commitBlock info flash b = ⟨-1, flash, b, extent⟩ ∧
          info.flashMaxLen ≤ extent + 2) := by
  have h := commitLoop_cases info.flashMaxLen b.cache MAX_CACHE_ENTRY 0 []
  unfold commitBlock
  rw [if_neg (by simp [hd])]
  rcases h with ⟨hr, hok⟩ | ⟨hr, w, herr, hlen⟩
  · refine Or.inl ⟨hr, ?_⟩
    rw [hok]
    rfl
  · refine Or.inr ⟨hr, w.length, ?_, hlen⟩
    rw [herr]

theorem commitBlock_clean (info : BlockInfo) (flash : Store) (hd : b.dirty = false) :
    commitBlock info flash b = ⟨0, flash, b, 0⟩ := if_pos (by simp [hd])

@[simp] theorem length_crcBytes (crc : BitVec 32) : (crcBytes crc).length = crcSize := by
  simp [crcBytes]

@[simp] theorem length_envData (info : BlockInfo) (written : List UInt8) :
    (envData info written).length = dataLen info := by
  simp [envData]

theorem stored_writeEnv (flash : Store) (h : data.length = dataLen info) :
    storedData info (writeEnv info flash data) = data ∧ crcMatches info (writeEnv info flash data) := by
  have hdata : storedData info (writeEnv info flash data) = data := by
    rw [storedData, ← h]
    exact readBytes_writeBytes _ _ _
  have hcrc : storedCrc info (writeEnv info flash data) = crcBytes (crc32 0 data) := by
    rw [storedCrc, writeEnv, readBytes_writeBytes_disjoint (Or.inl (Nat.le_refl _)),
      ← length_crcBytes (crc32 0 data)]
    exact readBytes_writeBytes _ _ _
  refine ⟨hdata, ?_⟩
  rw [crcMatches, hdata, hcrc, beq_iff_eq]

theorem loadEntries_writeEnv (hlen : 0 < dataLen info) (hnames : ∀ e ∈ es, eqSign ∉ e.1.bytes)
    (hcount : es.length ≤ MAX_CACHE_ENTRY) (hfits : Fits info es) (heap : CStr) (flash : Store) :
    loadEntries heap info (writeEnv info flash (envData info (encode es))) = es := by
  obtain ⟨hdata, hcrc⟩ := stored_writeEnv flash (length_envData info (encode es))
  have hpad : envData info (encode es) =
      encode es ++ List.replicate (dataLen info - (encode es).length) 0 := by
    rw [envData, List.take_append, List.take_of_length_le hfits, List.take_replicate,
      Nat.min_eq_left (Nat.sub_le _ _)]
  rw [loadEntries, if_pos hcrc, hdata, hpad, List.append_assoc, List.append_assoc]
  cases es with
  | nil =>
    rw [encode_nil, List.nil_append]
    exact parseEntries_zeros (by simpa using hlen)
  | cons e es =>
    refine parseEntries_encode e hnames hcount ?_
    unfold Fits at hfits
    omega

theorem loadEntries_overflow (hnot : ¬ Fits info es) (flash : Store) :
    ∃ heap, loadEntries heap info (writeEnv info flash (envData info (encode es))) ≠ es := by
  obtain ⟨hdata, hcrc⟩ := stored_writeEnv flash (length_envData info (encode es))
  -- no NUL ends the entry that is cut off
  let heap : CStr := ⟨List.replicate (encode es).length 120, by simp [List.mem_replicate]⟩
  refine ⟨heap, fun he => ?_⟩
  rw [loadEntries, if_pos hcrc, hdata] at he
  obtain ⟨-, rest, hrest⟩ := parseEntries_sound (dataLen info) MAX_CACHE_ENTRY 0
    (envData info (encode es) ++ heap.bytes ++ [0])
  rw [he] at hrest
  unfold Fits at hnot
  obtain ⟨front, e, rfl⟩ : ∃ front e, es = front ++ [e] := by
    rcases List.eq_nil_or_concat es with rfl | ⟨front, e, rfl⟩
    · simp at hnot
    · exact ⟨front, e, List.concat_eq_append⟩
  have hend : encode (front ++ [e]) = encode front ++ (e.1.bytes ++ eqSign :: e.2.bytes) ++ [0] := by
    simp [encode, entryBytes]
  have hget := congrArg (fun l => l[(encode (front ++ [e])).length - 1]?) hrest
  have hpos : 0 < (encode (front ++ [e])).length := by
    rw [hend]
    simp
  have hheap : heap.bytes.length = (encode (front ++ [e])).length := by simp [heap]
  have hleft : (envData info (encode (front ++ [e])) ++ heap.bytes ++ [0])[
      (encode (front ++ [e])).length - 1]? = some 120 := by
    rw [List.getElem?_append_left (by simp [hheap]; omega),
      List.getElem?_append_right (by simp; omega), length_envData]
    simp only [heap, List.getElem?_replicate]
    rw [if_pos (by omega)]
  have hright : (encode (front ++ [e]) ++ rest)[(encode (front ++ [e])).length - 1]? = some 0 := by
    rw [List.getElem?_append_left (by omega), ← List.getLast?_eq_getElem?, hend,
      List.getLast?_concat]
  rw [hleft, hright] at hget
  simp at hget

def Disjoint (info info' : BlockInfo) : Prop :=
  info.flashOffset + info.flashMaxLen ≤ info'.flashOffset ∨
    info'.flashOffset + info'.flashMaxLen ≤ info.flashOffset

theorem loadEntries_writeEnv_other (h : Disjoint info info') (h4 : crcSize ≤ info.flashMaxLen)
    (h4' : crcSize ≤ info'.flashMaxLen) (heap : CStr) (flash : Store)
    (hlen : data.length = dataLen info') :
    loadEntries heap info (writeEnv info' flash data) = loadEntries heap info flash := by
  unfold Disjoint at h
  have hd := length_crcBytes (crc32 0 data)
  unfold dataLen at hlen
  have hdata : storedData info (writeEnv info' flash data) = storedData info flash := by
    unfold storedData writeEnv dataLen
    rw [readBytes_writeBytes_disjoint (by omega), readBytes_writeBytes_disjoint (by omega)]
  have hcrc : storedCrc info (writeEnv info' flash data) = storedCrc info flash := by
    unfold storedCrc writeEnv
    rw [readBytes_writeBytes_disjoint (by omega), readBytes_writeBytes_disjoint (by omega)]
  rw [loadEntries, loadEntries, crcMatches, crcMatches, hdata, hcrc]

theorem fb_get (dualImage : Bool) {info : BlockInfo} (h : (fb dualImage)[i]? = some info) :
    0x1000 ≤ info.flashMaxLen := by
  have hall : ∀ info ∈ fb dualImage, 0x1000 ≤ info.flashMaxLen := by
    cases dualImage
    · decide
    · decide
  exact hall info (List.mem_of_getElem? h)

theorem dataLen_pos (hget : (fb dualImage)[i]? = some info) : 0 < dataLen info := by
  have hinfo := fb_get dualImage hget
  unfold dataLen crcSize
  omega

theorem fb_disjoint (dualImage : Bool) {j : Nat} (hij : i ≠ j) {info info' : BlockInfo}
    (h : (fb dualImage)[i]? = some info) (h' : (fb dualImage)[j]? = some info') :
    Disjoint info info' := by
  have hall : (fb dualImage).Pairwise fun a b => a.flashOffset + a.flashMaxLen ≤ b.flashOffset := by
    cases dualImage
    · decide
    · decide
  rw [List.pairwise_iff_getElem] at hall
  obtain ⟨hi, rfl⟩ := List.getElem?_eq_some_iff.mp h
  obtain ⟨hj, rfl⟩ := List.getElem?_eq_some_iff.mp h'
  rcases Nat.lt_or_gt_of_ne hij with hlt | hlt
  · exact Or.inl (hall i j hi hj hlt)
  · exact Or.inr (hall j i hj hi hlt)

theorem checkIndex_some {index : Int} (h : checkIndex dualImage index = some (i, info)) :
    (fb dualImage)[i]? = some info := by
  unfold checkIndex at h
  split at h
  · cases h
  · obtain ⟨info', hget, he⟩ := Option.map_eq_some_iff.mp h
    simp only [Prod.mk.injEq] at he
    rw [← he.1, ← he.2]
    exact hget

theorem checkIndex_inj {x y : Int} (hx : checkIndex dualImage x = some (i, info))
    (hy : checkIndex dualImage y = some (i, info')) : x = y := by
  have hval : ∀ z info, checkIndex dualImage z = some (i, info) → z = i := by
    intro z info hz
    unfold checkIndex at hz
    split at hz
    · cases hz
    · obtain ⟨_, -, he⟩ := Option.map_eq_some_iff.mp hz
      have hi := congrArg Prod.fst he
      dsimp only at hi
      omega
  rw [hval x info hx, hval y info' hy]

def zeroFlash : Store := fun _ => 0

theorem loadEntries_zeroFlash (hlen : 0 < dataLen info) (heap : CStr) :
    loadEntries heap info zeroFlash = [] := by
  unfold loadEntries
  split
  · have hdata : storedData info zeroFlash = List.replicate (dataLen info) 0 := by
      refine List.eq_replicate_iff.mpr ⟨by simp, fun b hb => ?_⟩
      obtain ⟨j, -, rfl⟩ := List.mem_map.mp hb
      rfl
    rw [hdata, List.append_assoc]
    exact parseEntries_zeros hlen
  · rfl

def nameA : CStr := ⟨[97], by decide⟩
def valueB : CStr := ⟨[98], by decide⟩
def nameC : CStr := ⟨[99], by decide⟩

/-- A value of `n` letters. -/
def letters (n : Nat) : CStr := ⟨List.replicate n 120, fun h => by
  have := List.eq_of_mem_replicate h
  exact absurd this (by decide)⟩

@[simp] theorem length_letters (n : Nat) : (letters n).length = n := List.length_replicate

end Ralink.Nvram
