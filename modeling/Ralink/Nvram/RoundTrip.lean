import Ralink.Nvram.Block

/-! What `nvram_init` and a sequence of `nvram_bufset` calls build, and when a successful
`nvram_commit` makes it survive `nvram_close` and `nvram_init`. -/
namespace Ralink.Nvram
open Assoc ByteStore CString Function

/-- `nvram_init` on fresh blocks, then one `nvram_bufset` for each of `sets`. -/
def cacheAfter (dualImage : Bool) (heap : CStr) (flash : Store) (index : Int) (sets : List Entry) :
    NvState :=
  sets.foldl (fun s e => (nvramBufset dualImage heap s index e.1 e.2).2)
    (nvramInit dualImage heap { flash } index)

/-- Closing and loading the block again gives the same cache, hence the same answers,
whatever the heap looks like then. -/
def RoundTrips (dualImage : Bool) (s : NvState) (index : Int) : Prop :=
  ∀ heap : CStr,
    (∀ i, ((nvramInit dualImage heap (nvramClose dualImage s index) index).block i).cache =
      (s.block i).cache) ∧
    ∀ name,
      (nvramBufget dualImage heap (nvramInit dualImage heap (nvramClose dualImage s index) index) index
        name).1 = (nvramBufget dualImage heap s index name).1

/-- What a commit has to write fits, or there is nothing to write and what is in the flash
can be read without reading past the buffer. -/
def KeepsEntries (info : BlockInfo) (flash : Store) (b : BlockT) : Prop :=
  if b.dirty then Fits info (cacheEntries b.cache) else ReadsInside info flash

structure Edited (heap : CStr) (info : BlockInfo) (flash : Store) (b : BlockT) (es : List Entry) :
    Prop where
  cache : b.cache = rooms es
  valid : b.valid = true
  count : es.length ≤ MAX_CACHE_ENTRY
  names : ∀ e ∈ es, eqSign ∉ e.1.bytes
  clean : b.dirty = false → es = loadEntries heap info flash

variable {dualImage : Bool} {heap : CStr} {info : BlockInfo} {flash : Store} {b : BlockT}
  {es : List Entry} {index : Int} {i : Nat} {s : NvState}

theorem edited_init (heap : CStr) (info : BlockInfo) (flash : Store) :
    Edited heap info flash (initBlock heap info flash {}) (loadEntries heap info flash) := by
  rw [initBlock_eq rfl rfl]
  exact ⟨rfl, rfl, length_loadEntries heap info flash, loadEntries_names heap info flash, fun _ => rfl⟩

theorem Edited.bufset (h : Edited heap info flash b es) {name : CStr} (hname : eqSign ∉ name.bytes)
    (value : CStr) : ∃ es', Edited heap info flash (bufsetBlock b name value).2 es' := by
  rw [bufsetBlock_rooms h.cache h.count]
  split
  · next hroom =>
    refine ⟨set name value es, rfl, h.valid, length_set_le hroom h.count value, fun e he => ?_,
      fun hd => by cases hd⟩
    rcases mem_keys_set.mp (mem_keys_of_mem he) with hk | hk
    · rw [hk]
      exact hname
    · obtain ⟨e', he', hk'⟩ := List.mem_map.mp hk
      rw [← hk']
      exact h.names e' he'
  · exact ⟨es, h⟩

section

variable (hindex : checkIndex dualImage index = some (i, info))
include hindex

theorem nvramInit_block (heap : CStr) (s : NvState) :
    (nvramInit dualImage heap s index).flash = s.flash ∧
      (nvramInit dualImage heap s index).block =
        update s.block i (initBlock heap info s.flash (s.block i)) := by
  rw [nvramInit, hindex]
  exact ⟨rfl, rfl⟩

theorem nvramInit_valid (hv : (s.block i).valid = true) (heap : CStr) :
    nvramInit dualImage heap s index = s := by
  rw [nvramInit, hindex]
  simp only [NvState.setBlock, initBlock_valid hv, update_eq_self]

theorem nvramBufget_valid (hv : (s.block i).valid = true) (heap : CStr) (name : CStr) :
    nvramBufget dualImage heap s index name = (bufgetCache (s.block i).cache name, s) := by
  rw [nvramBufget, hindex]
  dsimp only
  rw [nvramInit_valid hindex hv]

end

theorem cacheAfter_append (heap : CStr) (flash : Store) (sets : List Entry) (e : Entry) :
    cacheAfter dualImage heap flash index (sets ++ [e]) =
      (nvramBufset dualImage heap (cacheAfter dualImage heap flash index sets) index e.1 e.2).2 :=
  List.foldl_append

theorem cacheAfter_edited (hindex : checkIndex dualImage index = some (i, info)) (heap : CStr)
    (flash : Store) {sets : List Entry} (noEq : ∀ e ∈ sets, eqSign ∉ e.1.bytes) :
    (cacheAfter dualImage heap flash index sets).flash = flash ∧
      ∃ es, Edited heap info flash ((cacheAfter dualImage heap flash index sets).block i) es := by
  induction sets using List.reverseRecOn with
  | nil =>
    obtain ⟨hf, hb⟩ := nvramInit_block hindex heap { flash }
    refine ⟨hf, loadEntries heap info flash, ?_⟩
    rw [cacheAfter, List.foldl_nil, hb, update_self]
    exact edited_init heap info flash
  | append_singleton sets e ih =>
    obtain ⟨hf, es, hes⟩ := ih fun x hx => noEq x (List.mem_append_left _ hx)
    rw [cacheAfter_append, nvramBufset, hindex]
    dsimp only
    rw [nvramInit_valid hindex hes.valid]
    refine ⟨hf, ?_⟩
    rw [NvState.setBlock]
    dsimp only
    rw [update_self]
    exact hes.bufset (noEq e (by simp)) e.2

theorem closeBlock_clean (hv : b.valid = true) (hd : b.dirty = false) (hc : b.cache = rooms es)
    (hcount : es.length ≤ MAX_CACHE_ENTRY) (info : BlockInfo) (flash : Store) :
    closeBlock info flash b = (flash, {}) := by
  unfold closeBlock
  rw [if_neg (by simp [hv]), if_neg (by simp [hd])]
  have hempty : (fun i => if i < MAX_CACHE_ENTRY then ({} : CacheT) else b.cache i) = fun _ => {} := by
    funext i
    split
    · rfl
    · next h =>
      rw [hc]
      exact rooms_end (by omega)
  simp only [hempty, hd]

theorem roundTrips_iff_load (es : List Entry) (hindex : checkIndex dualImage index = some (i, info))
    (hv : (s.block i).valid = true) (hd : (s.block i).dirty = false) (hc : (s.block i).cache = rooms es)
    (hcount : es.length ≤ MAX_CACHE_ENTRY) :
    RoundTrips dualImage s index ↔ ∀ heap, loadEntries heap info s.flash = es := by
  have hclose : nvramClose dualImage s index = { flash := s.flash, block := update s.block i {} } := by
    rw [nvramClose, hindex]
    dsimp only
    rw [closeBlock_clean hv hd hc hcount]
  have hblock : ∀ heap, (nvramInit dualImage heap (nvramClose dualImage s index) index).block =
      update s.block i
        { cache := rooms (loadEntries heap info s.flash), valid := true, dirty := false } := by
    intro heap
    rw [hclose, (nvramInit_block hindex heap _).2]
    dsimp only
    rw [update_self, update_idem, initBlock_eq rfl rfl]
  constructor
  · intro h heap
    have hi := (h heap).1 i
    rw [hblock, update_self, hc] at hi
    exact rooms_injective hi
  · intro h heap
    refine ⟨fun j => ?_, fun name => ?_⟩
    · rw [hblock, h heap]
      rcases eq_or_ne j i with rfl | hj
      · rw [update_self, hc]
      · rw [update_of_ne hj]
    · have hvalid : ((nvramInit dualImage heap (nvramClose dualImage s index) index).block i).valid =
          true := by
        rw [hblock, update_self]
      rw [nvramBufget_valid hindex hvalid, nvramBufget_valid hindex hv, hblock, h heap, update_self, hc]

theorem roundTrips_commit_iff (hindex : checkIndex dualImage index = some (i, info))
    (h : Edited heap info s.flash (s.block i) es) (heap' : CStr)
    (hret : (nvramCommit dualImage heap' s index).ret = 0) :
    RoundTrips dualImage (nvramCommit dualImage heap' s index).state index ↔
      KeepsEntries info s.flash (s.block i) := by
  have hinfo := fb_get dualImage (checkIndex_some hindex)
  have hlen : 0 < dataLen info := by
    unfold dataLen crcSize
    omega
  have hentries : cacheEntries (s.block i).cache = es := by
    rw [h.cache]
    exact cacheEntries_rooms h.count
  rw [nvramCommit, hindex] at hret ⊢
  dsimp only at hret ⊢
  rw [nvramInit_valid hindex h.valid] at hret ⊢
  unfold KeepsEntries
  cases hd : (s.block i).dirty with
  | false =>
    rw [commitBlock_clean _ _ hd]
    dsimp only
    rw [update_eq_self, roundTrips_iff_load es hindex h.valid hd h.cache h.count, h.clean hd]
    exact loadEntries_const_iff heap
  | true =>
    rcases commitBlock_dirty info s.flash hd with ⟨-, hok⟩ | ⟨-, extent, herr, -⟩
    · rw [hok, hentries]
      dsimp only
      rw [roundTrips_iff_load es hindex (by simp [h.valid]) (by simp) (by simp [h.cache]) h.count,
        if_pos rfl]
      refine ⟨fun hload => ?_, fun hfits heap => loadEntries_writeEnv hlen h.names h.count hfits heap _⟩
      by_contra hnot
      obtain ⟨heap, hne⟩ := loadEntries_overflow hnot s.flash
      exact hne (hload heap)
    · rw [herr] at hret
      cases hret

/-- After a successful commit of a cache that was loaded and edited, the block round-trips
exactly if it keeps its entries. -/
theorem nvram_roundTrips_iff (dualImage : Bool) (heap : CStr) (flash : Store) (index : Int) (i : Nat)
    (info : BlockInfo) (sets : List Entry) (hindex : checkIndex dualImage index = some (i, info))
    (noEq : ∀ e ∈ sets, eqSign ∉ e.1.bytes)
    (success : (nvramCommit dualImage heap (cacheAfter dualImage heap flash index sets) index).ret = 0) :
    RoundTrips dualImage
        (nvramCommit dualImage heap (cacheAfter dualImage heap flash index sets) index).state index ↔
      KeepsEntries info flash ((cacheAfter dualImage heap flash index sets).block i) := by
  obtain ⟨hf, es, hes⟩ := cacheAfter_edited hindex heap flash noEq
  have hiff := roundTrips_commit_iff hindex (s := cacheAfter dualImage heap flash index sets)
    (by rw [hf]; exact hes) heap success
  rwa [hf] at hiff

/-! One entry set on an erased flash. -/

theorem cacheAfter_one (hindex : checkIndex dualImage index = some (i, info)) (heap name value : CStr) :
    (cacheAfter dualImage heap zeroFlash index [(name, value)]).block i =
      { cache := rooms [(name, value)], valid := true, dirty := true } := by
  have hinfo := fb_get dualImage (checkIndex_some hindex)
  have hlen : 0 < dataLen info := by
    unfold dataLen crcSize
    omega
  have hinit : (nvramInit dualImage heap { flash := zeroFlash } index).block i =
      { cache := rooms [], valid := true, dirty := false } := by
    rw [(nvramInit_block hindex heap _).2, update_self, initBlock_eq rfl rfl, loadEntries_zeroFlash hlen]
  have hroom : hasRoom [] name := Or.inr (by decide)
  rw [cacheAfter, List.foldl_cons, List.foldl_nil, nvramBufset, hindex]
  dsimp only
  rw [nvramInit_valid hindex (by rw [hinit]), hinit,
    bufsetBlock_rooms (show _ = rooms [] from rfl) (Nat.zero_le _), if_pos hroom]
  exact update_self ..

theorem commit_one_ret (hindex : checkIndex dualImage index = some (i, info)) (heap name value : CStr) :
    (nvramCommit dualImage heap (cacheAfter dualImage heap zeroFlash index [(name, value)]) index).ret =
      0 := by
  have hinfo := fb_get dualImage (checkIndex_some hindex)
  have hblock := cacheAfter_one hindex heap name value
  rw [nvramCommit, hindex]
  dsimp only
  rw [nvramInit_valid hindex (by rw [hblock]), hblock]
  have hfirst : refused info.flashMaxLen 0 [(name, value)] = false := by
    simp only [refused, Bool.or_false, decide_eq_false_iff_not]
    omega
  rcases commitBlock_dirty info (cacheAfter dualImage heap zeroFlash index [(name, value)]).flash
    (b := { cache := rooms [(name, value)], valid := true, dirty := true }) rfl with ⟨-, hok⟩ | ⟨hr, -⟩
  · rw [hok]
  · rw [cacheEntries_rooms (by simp [MAX_CACHE_ENTRY]), hfirst] at hr
    cases hr

theorem nvram_roundTrips_oneEntry :
    RoundTrips false
      (nvramCommit false .empty (cacheAfter false .empty zeroFlash 1 [(nameA, valueB)]) 1).state 1 := by
  have hindex : checkIndex false 1 = some (1, ⟨0x6000, 0x2000⟩) := by decide
  refine (nvram_roundTrips_iff false .empty zeroFlash 1 1 ⟨0x6000, 0x2000⟩ [(nameA, valueB)] hindex
    (by decide) (commit_one_ret hindex _ _ _)).mpr ?_
  rw [cacheAfter_one hindex, KeepsEntries, if_pos rfl, cacheEntries_rooms (by decide)]
  decide

theorem not_roundTrips_one (hindex : checkIndex dualImage index = some (i, info)) {name value : CStr}
    (hname : eqSign ∉ name.bytes) (hnot : ¬ Fits info [(name, value)]) (heap : CStr) :
    ¬ RoundTrips dualImage (nvramCommit dualImage heap
      (cacheAfter dualImage heap zeroFlash index [(name, value)]) index).state index := by
  obtain ⟨hflash, es, hes⟩ := cacheAfter_edited hindex heap zeroFlash
    (show ∀ e ∈ [(name, value)], eqSign ∉ e.1.bytes by simpa using hname)
  have hiff := roundTrips_commit_iff hindex
    (s := cacheAfter dualImage heap zeroFlash index [(name, value)]) (by rw [hflash]; exact hes) heap
    (commit_one_ret hindex heap name value)
  rw [hiff, cacheAfter_one hindex, KeepsEntries, if_pos rfl,
    cacheEntries_rooms (by simp [MAX_CACHE_ENTRY])]
  exact hnot

/-- An entry of 8193 bytes is accepted for a block that holds 8188. -/
theorem longEntry_cutOff :
    eqSign ∉ nameA.bytes ∧
      (nvramCommit false .empty
        (cacheAfter false .empty zeroFlash 1 [(nameA, letters 8190)]) 1).ret = 0 ∧
      ¬ RoundTrips false (nvramCommit false .empty
        (cacheAfter false .empty zeroFlash 1 [(nameA, letters 8190)]) 1).state 1 := by
  have hindex : checkIndex false 1 = some (1, ⟨0x6000, 0x2000⟩) := by decide
  have hname : eqSign ∉ nameA.bytes := by decide
  refine ⟨hname, commit_one_ret hindex .empty nameA (letters 8190), not_roundTrips_one hindex hname ?_ _⟩
  simp [Fits, length_entryBytes, dataLen, crcSize]

end Ralink.Nvram

/-! `nvram_commit` is all-or-nothing exactly as long as the entries and their final NUL fit in its
buffer: it refuses entries only after it has written past that buffer. -/
namespace Ralink.Nvram
open CString Function

/-- The entries and the final NUL fit in the buffer. -/
def FitsWithNul (info : BlockInfo) (es : List Entry) : Prop := (encode es).length + 1 ≤ dataLen info

instance (info : BlockInfo) (es : List Entry) : Decidable (FitsWithNul info es) :=
  inferInstanceAs (Decidable (_ ≤ _))

/-- A call of `nvram_commit` on the loaded block `b` of the state `s` that stays inside its
buffer, and either writes everything that is to be written or fails and leaves the flash,
the cache and the dirty flag alone. -/
structure AllOrNothing (info : BlockInfo) (s : NvState) (i : Nat) (c : CommitCall) : Prop where
  inside : c.extent ≤ dataLen info
  clean : (s.block i).dirty = false → c.ret = 0 ∧ c.state = s
  written : (s.block i).dirty = true → FitsWithNul info (cacheEntries (s.block i).cache) →
    c.ret = 0 ∧ c.state =
      { flash := writeEnv info s.flash (envData info (encode (cacheEntries (s.block i).cache)))
        block := update s.block i { s.block i with dirty := false } }
  refusing : (s.block i).dirty = true → ¬ FitsWithNul info (cacheEntries (s.block i).cache) →
    c.ret = -1 ∧ c.state = s

/-- What `nvram_commit` has to write fits, if there is anything to write. -/
def CommitFits (info : BlockInfo) (b : BlockT) : Prop :=
  b.dirty = true → FitsWithNul info (cacheEntries b.cache)

variable {dualImage : Bool} {info : BlockInfo} {i : Nat} {index : Int}

theorem commit_allOrNothing_iff (hindex : checkIndex dualImage index = some (i, info)) (heap : CStr)
    {s : NvState} (hv : (s.block i).valid = true) :
    AllOrNothing info s i (nvramCommit dualImage heap s index) ↔ CommitFits info (s.block i) := by
  have hinfo := fb_get dualImage (checkIndex_some hindex)
  rw [nvramCommit, hindex]
  dsimp only
  rw [nvramInit_valid hindex hv]
  cases hd : (s.block i).dirty with
  | false =>
    rw [commitBlock_clean info s.flash hd, update_eq_self]
    refine iff_of_true ⟨Nat.zero_le _, fun _ => ⟨rfl, rfl⟩, fun h => ?_, fun h => ?_⟩ fun h => ?_
    all_goals
      rw [hd] at h
      cases h
  | true =>
    rcases commitBlock_dirty info s.flash hd with ⟨-, hok⟩ | ⟨hrefused, extent, herr, hextent⟩
    · rw [hok]
      constructor
      · exact fun h _ => h.inside
      · intro hfits
        have hf := hfits hd
        have hdirty : (s.block i).dirty ≠ false := by simp [hd]
        exact ⟨hf, fun h => absurd h hdirty, fun _ _ => ⟨rfl, rfl⟩, fun _ hn => absurd hf hn⟩
    · -- an entry is refused only when writing has passed the end of the buffer
      rw [herr]
      refine iff_of_false (fun h => ?_) fun hfits => ?_
      · have := h.inside
        unfold dataLen crcSize at this
        dsimp only at this
        omega
      · have hf := hfits hd
        unfold FitsWithNul dataLen crcSize at hf
        rw [refused_of_fits (by omega)] at hrefused
        cases hrefused

/-- `nvram_commit` is all-or-nothing exactly when what it has to write fits, with its final
NUL. A block that is not loaded yet is loaded first, as in every call. -/
theorem nvramCommit_allOrNothing_iff (dualImage : Bool) (heap : CStr) (s : NvState) (index : Int) (i : Nat)
    (info : BlockInfo) (hindex : checkIndex dualImage index = some (i, info)) :
    AllOrNothing info (nvramInit dualImage heap s index) i (nvramCommit dualImage heap s index) ↔
      CommitFits info ((nvramInit dualImage heap s index).block i) := by
  have hinit : ((nvramInit dualImage heap s index).block i).valid = true := by
    rw [(nvramInit_block hindex heap s).2, update_self]
    unfold initBlock
    split
    · next h => exact h
    · split
      · rfl
      · rfl
  have hcommit : nvramCommit dualImage heap s index =
      nvramCommit dualImage heap (nvramInit dualImage heap s index) index := by
    rw [nvramCommit, nvramCommit, hindex]
    dsimp only
    rw [nvramInit_valid hindex hinit]
  rw [hcommit]
  exact commit_allOrNothing_iff hindex heap hinit

theorem nvramCommit_allOrNothing_oneEntry :
    AllOrNothing ⟨0x6000, 0x2000⟩
      (nvramInit false .empty (cacheAfter false .empty zeroFlash 1 [(nameA, valueB)]) 1) 1
      (nvramCommit false .empty (cacheAfter false .empty zeroFlash 1 [(nameA, valueB)]) 1) := by
  have hindex : checkIndex false 1 = some (1, ⟨0x6000, 0x2000⟩) := by decide
  have hblock := cacheAfter_one hindex .empty nameA valueB
  refine (nvramCommit_allOrNothing_iff false .empty _ 1 1 ⟨0x6000, 0x2000⟩ hindex).mpr fun _ => ?_
  rw [nvramInit_valid hindex (by rw [hblock]), hblock, cacheEntries_rooms (by decide)]
  decide

/-- A commit that returns 0 after writing past its buffer. -/
theorem longEntry_pastBuffer :
    (nvramCommit false .empty
        (cacheAfter false .empty zeroFlash 1 [(nameA, letters 8190)]) 1).ret = 0 ∧
      ¬ AllOrNothing ⟨0x6000, 0x2000⟩ (cacheAfter false .empty zeroFlash 1 [(nameA, letters 8190)]) 1
        (nvramCommit false .empty
          (cacheAfter false .empty zeroFlash 1 [(nameA, letters 8190)]) 1) := by
  have hindex : checkIndex false 1 = some (1, ⟨0x6000, 0x2000⟩) := by decide
  have hblock := cacheAfter_one hindex .empty nameA (letters 8190)
  refine ⟨commit_one_ret hindex .empty nameA (letters 8190), ?_⟩
  rw [commit_allOrNothing_iff hindex .empty (by rw [hblock]), hblock]
  intro h
  have hfits := h rfl
  rw [cacheEntries_rooms (by simp [MAX_CACHE_ENTRY])] at hfits
  simp only [FitsWithNul, encode_cons, encode_nil, List.append_nil, length_entryBytes, length_letters,
    dataLen, crcSize] at hfits
  omega

end Ralink.Nvram
