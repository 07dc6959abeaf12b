import Ralink.Nvram.Block

/-! A block of one process is two lists: the entries held in the cache, and the entries a load would
find in the flash. Every library call is a composition of four operations on them and leaves the
other blocks alone. -/
namespace Ralink.Nvram
open Assoc ByteStore CString Function

structure BlockView where
  valid : Bool
  dirty : Bool
  entries : List Entry
  stored : CStr → List Entry

def parsedFrom (info : BlockInfo) (data : List UInt8) (heap : CStr) : List Entry :=
  parseEntries (dataLen info) MAX_CACHE_ENTRY 0 (data ++ heap.bytes ++ [0])

namespace BlockView

def load (heap : CStr) (a : BlockView) : BlockView :=
  if a.valid then a else { a with valid := true, dirty := false, entries := a.stored heap }

def edit (name value : CStr) (a : BlockView) : BlockView :=
  if hasRoom a.entries name then { a with entries := set name value a.entries, dirty := true } else a

def save (info : BlockInfo) (a : BlockView) : BlockView :=
  if a.dirty && !refused info.flashMaxLen 0 a.entries then
    { a with dirty := false, stored := parsedFrom info (envData info (encode a.entries)) }
  else a

def close (info : BlockInfo) (a : BlockView) : BlockView :=
  if a.valid then { a.save info with valid := false, entries := [] } else a

def clear (info : BlockInfo) (a : BlockView) : BlockView :=
  { a.close info with
    dirty := false
    stored := parsedFrom info (List.replicate (dataLen info) 0xFF) }

end BlockView

structure Models (info : BlockInfo) (s : NvState) (i : Nat) (a : BlockView) : Prop where
  block : s.block i = { cache := rooms a.entries, valid := a.valid, dirty := a.dirty }
  count : a.entries.length ≤ MAX_CACHE_ENTRY
  unloaded : a.valid = false → a.entries = []
  stored : ∀ heap, loadEntries heap info s.flash = a.stored heap

variable {dualImage : Bool} {info info' : BlockInfo} {s s' : NvState} {i j : Nat} {a : BlockView}
  {index : Int} {heap name value : CStr} {es : List Entry} {call : NvCall} {data : List UInt8}

theorem loadEntries_written (flash : Store) (h : data.length = dataLen info) (heap : CStr) :
    loadEntries heap info (writeEnv info flash data) = parsedFrom info data heap := by
  obtain ⟨hdata, hcrc⟩ := stored_writeEnv flash h
  rw [loadEntries, if_pos hcrc, hdata]
  rfl

/-- Entries that a block gives back as they were written: they fit, and no name has an `=`. -/
structure Encodable (info : BlockInfo) (es : List Entry) : Prop where
  names : ∀ e ∈ es, eqSign ∉ e.1.bytes
  fits : Fits info es

theorem parsedFrom_encode (hlen : 0 < dataLen info) (h : Encodable info es)
    (hcount : es.length ≤ MAX_CACHE_ENTRY) (heap : CStr) :
    parsedFrom info (envData info (encode es)) heap = es := by
  rw [← loadEntries_written (fun _ => 0) (length_envData info (encode es)) heap]
  exact loadEntries_writeEnv hlen h.names hcount h.fits heap _

theorem Encodable.not_refused (hlen : 0 < dataLen info) (h : Encodable info es) :
    refused info.flashMaxLen 0 es = false := by
  have hfits := h.fits
  unfold Fits at hfits
  unfold dataLen crcSize at hlen hfits
  exact refused_of_fits (by omega)

theorem models_unloaded (info : BlockInfo) (h : s.block i = {}) :
    Models info s i ⟨false, false, [], fun heap => loadEntries heap info s.flash⟩ :=
  ⟨h, Nat.zero_le _, fun _ => rfl, fun _ => rfl⟩

theorem cacheEntries_models (h : Models info s i a) : cacheEntries (s.block i).cache = a.entries := by
  rw [h.block]
  exact cacheEntries_rooms h.count

theorem models_zeroFlash (hget : (fb dualImage)[i]? = some info) :
    Models info { flash := zeroFlash } i ⟨false, false, [], fun _ => []⟩ := by
  have h := models_unloaded (s := { flash := zeroFlash }) (i := i) info rfl
  rwa [funext (loadEntries_zeroFlash (dataLen_pos hget))] at h

structure Touches (dualImage : Bool) (i : Nat) (s s' : NvState) : Prop where
  block : ∀ j, j ≠ i → s'.block j = s.block j
  stored : ∀ j info', j ≠ i → (fb dualImage)[j]? = some info' →
    ∀ heap, loadEntries heap info' s'.flash = loadEntries heap info' s.flash

theorem Touches.refl (s : NvState) : Touches dualImage i s s := ⟨fun _ _ => rfl, fun _ _ _ _ _ => rfl⟩

theorem Touches.trans {s'' : NvState} (h : Touches dualImage i s s') (h' : Touches dualImage i s' s'') :
    Touches dualImage i s s'' :=
  ⟨fun j hj => (h'.block j hj).trans (h.block j hj),
    fun j info' hj hget heap => (h'.stored j info' hj hget heap).trans (h.stored j info' hj hget heap)⟩

theorem Touches.of_flash {flash : Store} {b : BlockT} (hf : s'.flash = flash)
    (hb : s'.block = update s.block i b)
    (h : ∀ j info', j ≠ i → (fb dualImage)[j]? = some info' →
      ∀ heap, loadEntries heap info' flash = loadEntries heap info' s.flash) :
    Touches dualImage i s s' :=
  ⟨fun j hj => by rw [hb, update_of_ne hj], fun j info' hj hget heap => by rw [hf, h j info' hj hget heap]⟩

theorem Touches.models (h : Touches dualImage i s s') (hj : j ≠ i)
    (hget : (fb dualImage)[j]? = some info') (hm : Models info' s j a) : Models info' s' j a :=
  ⟨(h.block j hj).trans hm.block, hm.count, hm.unloaded,
    fun heap => (h.stored j info' hj hget heap).trans (hm.stored heap)⟩

theorem writeEnv_touches (hget : (fb dualImage)[i]? = some info) (flash : Store)
    (hlen : data.length = dataLen info) (j : Nat) (info' : BlockInfo) (hj : j ≠ i)
    (hget' : (fb dualImage)[j]? = some info') (heap : CStr) :
    loadEntries heap info' (writeEnv info flash data) = loadEntries heap info' flash := by
  have h := fb_get dualImage hget
  have h' := fb_get dualImage hget'
  refine loadEntries_writeEnv_other (fb_disjoint dualImage hj hget' hget) ?_ ?_ heap flash hlen
  · unfold crcSize
    omega
  · unfold crcSize
    omega

theorem nvramInit_models (hindex : checkIndex dualImage index = some (i, info)) (h : Models info s i a)
    (heap : CStr) :
    Models info (nvramInit dualImage heap s index) i (a.load heap) ∧
      Touches dualImage i s (nvramInit dualImage heap s index) := by
  rw [nvramInit, hindex]
  refine ⟨?_, .of_flash rfl rfl fun _ _ _ _ _ => rfl⟩
  unfold BlockView.load
  cases hv : a.valid with
  | true =>
    have hb : (s.block i).valid = true := by rw [h.block, hv]
    simp only [NvState.setBlock, initBlock_valid hb, update_eq_self, if_true]
    exact h
  | false =>
    have hb : (s.block i).valid = false := by rw [h.block, hv]
    have hc : (s.block i).cache = rooms [] := by rw [h.block, h.unloaded hv]
    refine ⟨?_, ?_, fun hf => absurd hf.symm Bool.false_ne_true, h.stored⟩
    · simp only [NvState.setBlock, update_self, initBlock_eq hb hc, h.stored heap]
      rfl
    · rw [if_neg (by simp), ← h.stored heap]
      exact length_loadEntries heap info s.flash

theorem nvramBufset_models (hindex : checkIndex dualImage index = some (i, info)) (h : Models info s i a)
    (heap name value : CStr) :
    Models info (nvramBufset dualImage heap s index name value).2 i ((a.load heap).edit name value) ∧
      Touches dualImage i s (nvramBufset dualImage heap s index name value).2 ∧
      (nvramBufset dualImage heap s index name value).1 =
        if hasRoom (a.load heap).entries name then 0 else -1 := by
  obtain ⟨hm, ht⟩ := nvramInit_models hindex h heap
  have hcache : ((nvramInit dualImage heap s index).block i).cache = rooms (a.load heap).entries := by
    rw [hm.block]
  rw [nvramBufset, hindex]
  dsimp only
  rw [bufsetBlock_rooms hcache hm.count]
  unfold BlockView.edit
  by_cases hroom : hasRoom (a.load heap).entries name
  · rw [if_pos hroom, if_pos hroom, if_pos hroom]
    refine ⟨⟨?_, length_set_le hroom hm.count value, fun hv => ?_, hm.stored⟩,
      ht.trans (.of_flash rfl rfl fun _ _ _ _ _ => rfl), rfl⟩
    · rw [NvState.setBlock, hm.block]
      exact update_self ..
    · have hloaded : (a.load heap).valid = true := by
        unfold BlockView.load
        split
        · next hv => exact hv
        · rfl
      rw [hloaded] at hv
      cases hv
  · rw [if_neg hroom, if_neg hroom, if_neg hroom]
    refine ⟨?_, ht.trans (.of_flash rfl rfl fun _ _ _ _ _ => rfl), rfl⟩
    simp only [NvState.setBlock, update_eq_self]
    exact hm

theorem commitBlock_models (hget : (fb dualImage)[i]? = some info) (h : Models info s i a) :
    Models info
        { flash := (commitBlock info s.flash (s.block i)).flash
          block := update s.block i (commitBlock info s.flash (s.block i)).block } i (a.save info) ∧
      Touches dualImage i s
        { flash := (commitBlock info s.flash (s.block i)).flash
          block := update s.block i (commitBlock info s.flash (s.block i)).block } := by
  have hentries : cacheEntries (s.block i).cache = a.entries := by
    rw [h.block]
    exact cacheEntries_rooms h.count
  unfold BlockView.save
  cases hd : a.dirty with
  | false =>
    rw [commitBlock_clean info s.flash (by rw [h.block, hd]), update_eq_self]
    exact ⟨h, .refl s⟩
  | true =>
    rcases commitBlock_dirty (b := s.block i) info s.flash (by rw [h.block, hd]) with
      ⟨hr, hok⟩ | ⟨hr, extent, herr, -⟩
    · rw [hentries] at hr hok
      have hlen := length_envData info (encode a.entries)
      rw [hok, hr]
      refine ⟨⟨?_, h.count, h.unloaded, fun heap => ?_⟩, .of_flash rfl rfl fun j info' hj hget' heap => ?_⟩
      · simp only [update_self, h.block]
        rfl
      · exact loadEntries_written s.flash hlen heap
      · exact writeEnv_touches hget s.flash hlen j info' hj hget' heap
    · rw [hentries] at hr
      rw [herr, hr]
      simp only [update_eq_self]
      exact ⟨h, .refl s⟩

section

variable (hindex : checkIndex dualImage index = some (i, info)) (h : Models info s i a)
include hindex h

theorem nvramCommit_models (heap : CStr) :
    Models info (nvramCommit dualImage heap s index).state i ((a.load heap).save info) ∧
      Touches dualImage i s (nvramCommit dualImage heap s index).state := by
  obtain ⟨hm, ht⟩ := nvramInit_models hindex h heap
  obtain ⟨hm', ht'⟩ := commitBlock_models (checkIndex_some hindex) hm
  rw [nvramCommit, hindex]
  exact ⟨hm', ht.trans ht'⟩

theorem nvramClose_models :
    Models info (nvramClose dualImage s index) i (a.close info) ∧
      Touches dualImage i s (nvramClose dualImage s index) := by
  obtain ⟨hm, ht⟩ := commitBlock_models (checkIndex_some hindex) h
  have hempty : ∀ es : List Entry, es.length ≤ MAX_CACHE_ENTRY →
      (fun i => if i < MAX_CACHE_ENTRY then ({} : CacheT) else rooms es i) = rooms [] := by
    intro es hes
    funext i
    split
    · rfl
    · next hi => exact rooms_end (by omega)
  rw [nvramClose, hindex]
  dsimp only
  unfold closeBlock BlockView.close
  cases hv : a.valid with
  | false =>
    have hb : (s.block i).valid = false := by rw [h.block, hv]
    rw [if_pos (by simp [hb]), if_neg (by simp), update_eq_self]
    exact ⟨h, .refl s⟩
  | true =>
    have hb : (s.block i).valid = true := by rw [h.block, hv]
    have hcommit : (if (s.block i).dirty then commitBlock info s.flash (s.block i)
        else (⟨0, s.flash, s.block i, 0⟩ : Committed)) = commitBlock info s.flash (s.block i) := by
      cases hd : (s.block i).dirty with
      | true => rfl
      | false => rw [commitBlock_clean info s.flash hd]; rfl
    rw [if_neg (by simp [hb]), if_pos rfl, hcommit]
    dsimp only
    have hblock := hm.block
    dsimp only at hblock
    rw [update_self] at hblock
    refine ⟨⟨?_, Nat.zero_le _, fun _ => rfl, hm.stored⟩, ?_⟩
    · simp only [update_self, hblock]
      rw [hempty _ hm.count]
    · exact .of_flash rfl rfl fun j info' hj hget' heap => ht.stored j info' hj hget' heap

theorem nvramClear_models :
    Models info (nvramClear dualImage s index).2 i (a.clear info) ∧
      Touches dualImage i s (nvramClear dualImage s index).2 := by
  obtain ⟨hm, ht⟩ := nvramClose_models hindex h
  have hlen : (List.replicate (dataLen info) (0xFF : UInt8)).length = dataLen info := List.length_replicate
  rw [nvramClear, hindex]
  dsimp only
  refine ⟨⟨?_, hm.count, hm.unloaded, fun heap => loadEntries_written _ hlen heap⟩, ht.trans ?_⟩
  · dsimp only
    rw [update_self, hm.block]
    rfl
  · exact .of_flash rfl rfl fun j info' hj hget' heap =>
      writeEnv_touches (checkIndex_some hindex) _ hlen j info' hj hget' heap

end

/-- The calls of the library, each with the string that follows the buffer of its load. -/
inductive NvCall where
  | init (heap : CStr) (index : Int)
  | bufset (heap : CStr) (index : Int) (name value : CStr)
  | set (heap : CStr) (index : Int) (name value : CStr)
  | commit (heap : CStr) (index : Int)
  | get (heap : CStr) (index : Int) (name : CStr)
  | close (index : Int)
  | clear (index : Int)

def NvCall.target : NvCall → Int
  | init _ index | bufset _ index _ _ | set _ index _ _ | commit _ index | get _ index _
  | close index | clear index => index

def NvCall.run (dualImage : Bool) (s : NvState) : NvCall → NvState
  | init heap index => nvramInit dualImage heap s index
  | bufset heap index name value => (nvramBufset dualImage heap s index name value).2
  | set heap index name value => (nvramSet dualImage heap s index name value).2
  | commit heap index => (nvramCommit dualImage heap s index).state
  | get heap index name => (nvramGet dualImage heap s index name).2
  | close index => nvramClose dualImage s index
  | clear index => (nvramClear dualImage s index).2

def NvCall.effect (info : BlockInfo) (a : BlockView) : NvCall → BlockView
  | init heap _ => a.load heap
  | bufset heap _ name value => (a.load heap).edit name value
  | set heap _ name value =>
    if hasRoom (a.load heap).entries name then ((a.load heap).edit name value).save info else a.load heap
  | commit heap _ => (a.load heap).save info
  | get heap _ _ => (a.close info).load heap
  | close _ => a.close info
  | clear _ => a.clear info

theorem BlockView.load_valid (heap : CStr) (a : BlockView) : (a.load heap).valid = true := by
  unfold load
  split
  · next hv => exact hv
  · rfl

theorem BlockView.load_load (heap heap' : CStr) (a : BlockView) :
    (a.load heap).load heap' = a.load heap := if_pos (a.load_valid heap)

@[simp] theorem BlockView.edit_valid (name value : CStr) (a : BlockView) :
    (a.edit name value).valid = a.valid := by
  unfold edit
  split
  · rfl
  · rfl

section

variable (hindex : checkIndex dualImage index = some (i, info)) (h : Models info s i a)
include hindex h

theorem nvramBufget_models (heap name : CStr) :
    (nvramBufget dualImage heap s index name).1 = answer (a.load heap).entries name ∧
      (nvramBufget dualImage heap s index name).2 = nvramInit dualImage heap s index := by
  obtain ⟨hm, -⟩ := nvramInit_models hindex h heap
  rw [nvramBufget, hindex]
  dsimp only
  rw [hm.block]
  exact ⟨bufgetCache_rooms hm.count name, rfl⟩

theorem nvramGet_models (heap name : CStr) :
    (nvramGet dualImage heap s index name).1 = answer ((a.close info).load heap).entries name ∧
      Models info (nvramGet dualImage heap s index name).2 i ((a.close info).load heap) ∧
      Touches dualImage i s (nvramGet dualImage heap s index name).2 := by
  obtain ⟨hm, ht⟩ := nvramClose_models hindex h
  obtain ⟨hm', ht'⟩ := nvramInit_models hindex hm heap
  obtain ⟨hanswer, hstate⟩ := nvramBufget_models hindex hm' heap name
  obtain ⟨hm'', ht''⟩ := nvramInit_models hindex hm' heap
  rw [BlockView.load_load] at hanswer hm''
  rw [nvramGet]
  refine ⟨hanswer, ?_, ?_⟩
  · rw [hstate]
    exact hm''
  · rw [hstate]
    exact (ht.trans ht').trans ht''

theorem nvramSet_models (heap name value : CStr) :
    Models info (nvramSet dualImage heap s index name value).2 i
        ((NvCall.set heap index name value).effect info a) ∧
      Touches dualImage i s (nvramSet dualImage heap s index name value).2 := by
  obtain ⟨hm, ht, hret⟩ := nvramBufset_models hindex h heap name value
  rw [nvramSet]
  unfold NvCall.effect
  by_cases hroom : hasRoom (a.load heap).entries name
  · obtain ⟨hm', ht'⟩ := nvramCommit_models hindex hm heap
    have hload : ((a.load heap).edit name value).load heap = (a.load heap).edit name value :=
      if_pos (by rw [BlockView.edit_valid, BlockView.load_valid])
    rw [hload] at hm'
    dsimp only
    rw [if_pos hroom] at hret
    rw [if_pos hroom, hret, if_neg (by decide)]
    exact ⟨hm', ht.trans ht'⟩
  · dsimp only
    rw [if_neg hroom] at hret
    rw [if_neg hroom, hret, if_pos rfl]
    have hedit : (a.load heap).edit name value = a.load heap := if_neg hroom
    rw [hedit] at hm
    exact ⟨hm, ht⟩

theorem nvramSet_ret (heap name value : CStr) :
    (nvramSet dualImage heap s index name value).1 =
      if hasRoom (a.load heap).entries name ∧
        refused info.flashMaxLen 0 (set name value (a.load heap).entries) = false then 0 else -1 := by
  obtain ⟨hm, -, hret⟩ := nvramBufset_models hindex h heap name value
  rw [nvramSet]
  dsimp only
  by_cases hroom : hasRoom (a.load heap).entries name
  · rw [if_pos hroom] at hret
    rw [hret, if_neg (by decide)]
    have hedit : (a.load heap).edit name value =
        { a.load heap with entries := set name value (a.load heap).entries, dirty := true } :=
      if_pos hroom
    rw [hedit] at hm
    have hv : ((nvramBufset dualImage heap s index name value).2.block i).valid = true := by
      rw [hm.block]
      exact a.load_valid heap
    have hd : ((nvramBufset dualImage heap s index name value).2.block i).dirty = true := by
      rw [hm.block]
    have hentries := cacheEntries_models hm
    dsimp only at hentries
    rw [nvramCommit, hindex]
    dsimp only
    rw [nvramInit, hindex]
    simp only [NvState.setBlock, initBlock_valid hv, update_eq_self]
    rcases commitBlock_dirty info (nvramBufset dualImage heap s index name value).2.flash hd with
      ⟨hr, hok⟩ | ⟨hr, extent, herr, -⟩
    · rw [hentries] at hr
      rw [hok, if_pos ⟨hroom, hr⟩]
    · rw [hentries] at hr
      rw [herr, if_neg (by simp [hr])]
  · rw [if_neg hroom] at hret
    rw [hret, if_pos rfl, if_neg (by simp [hroom])]

end

theorem NvCall.run_models (hindex : checkIndex dualImage call.target = some (i, info))
    (h : Models info s i a) :
    Models info (call.run dualImage s) i (call.effect info a) ∧
      Touches dualImage i s (call.run dualImage s) := by
  cases call with
  | init heap index => exact nvramInit_models hindex h heap
  | bufset heap index name value =>
    obtain ⟨hm, ht, -⟩ := nvramBufset_models hindex h heap name value
    exact ⟨hm, ht⟩
  | set heap index name value => exact nvramSet_models hindex h heap name value
  | commit heap index => exact nvramCommit_models hindex h heap
  | get heap index name => exact (nvramGet_models hindex h heap name).2
  | close index => exact nvramClose_models hindex h
  | clear index => exact nvramClear_models hindex h

theorem NvCall.run_none (hindex : checkIndex dualImage call.target = none) (s : NvState) :
    call.run dualImage s = s := by
  cases call with
  | init heap index =>
    have hi : checkIndex dualImage index = none := hindex
    rw [run, nvramInit, hi]
  | bufset heap index name value =>
    have hi : checkIndex dualImage index = none := hindex
    rw [run, nvramBufset, hi]
  | set heap index name value =>
    have hi : checkIndex dualImage index = none := hindex
    rw [run, nvramSet, nvramBufset, hi]
    rfl
  | commit heap index =>
    have hi : checkIndex dualImage index = none := hindex
    rw [run, nvramCommit, hi]
  | get heap index name =>
    have hi : checkIndex dualImage index = none := hindex
    rw [run, nvramGet, nvramBufget, hi, nvramInit, hi, nvramClose, hi]
  | close index =>
    have hi : checkIndex dualImage index = none := hindex
    rw [run, nvramClose, hi]
  | clear index =>
    have hi : checkIndex dualImage index = none := hindex
    rw [run, nvramClear, hi]

/-- The entries a call has to write out: those of a dirty cache it comes to commit. What
`nvram_clear` overwrites at once is left out. -/
def NvCall.writesOut (dualImage : Bool) (s : NvState) (i : Nat) : NvCall → Option (List Entry)
  | commit heap index =>
    let b := (nvramInit dualImage heap s index).block i
    if b.dirty then some (cacheEntries b.cache) else none
  | set heap index name value =>
    let es := cacheEntries ((nvramInit dualImage heap s index).block i).cache
    if hasRoom es name then some (Assoc.set name value es) else none
  | get _ _ _ | close _ =>
    if (s.block i).valid && (s.block i).dirty then some (cacheEntries (s.block i).cache) else none
  | _ => none

def NvCall.out (a : BlockView) : NvCall → Option (List Entry)
  | commit heap _ => if (a.load heap).dirty then some (a.load heap).entries else none
  | set heap _ name value =>
    if hasRoom (a.load heap).entries name then some (Assoc.set name value (a.load heap).entries) else none
  | get _ _ _ | close _ => if a.valid && a.dirty then some a.entries else none
  | _ => none

theorem NvCall.writesOut_models (hindex : checkIndex dualImage call.target = some (i, info))
    (h : Models info s i a) : call.writesOut dualImage s i = call.out a := by
  cases call with
  | commit heap index =>
    have hi : checkIndex dualImage index = some (i, info) := hindex
    obtain ⟨hm, -⟩ := nvramInit_models hi h heap
    rw [writesOut, out, cacheEntries_models hm, hm.block]
  | set heap index name value =>
    have hi : checkIndex dualImage index = some (i, info) := hindex
    obtain ⟨hm, -⟩ := nvramInit_models hi h heap
    rw [writesOut, out, cacheEntries_models hm]
  | get heap index name => rw [writesOut, out, cacheEntries_models h, h.block]
  | close index => rw [writesOut, out, cacheEntries_models h, h.block]
  | init heap index => rfl
  | bufset heap index name value => rfl
  | clear index => rfl

end Ralink.Nvram

/-! A commit that is not refused writes as much of the entries as the block holds. A name is found
again with its value if its entry ends inside the block, and only then if what follows the buffer of
the load may be anything. -/
namespace Ralink.Nvram
open Assoc ByteStore CString

def endOf (name : CStr) : List Entry → Nat
  | [] => 0
  | e :: es => (entryBytes e.1 e.2).length + if name = e.1 then 0 else endOf name es

variable {info : BlockInfo} {es : List Entry} {len turns p r k : Nat} {name value : CStr} {mem : List UInt8}

theorem two_le_endOf (h : name ∈ keys es) : 2 ≤ endOf name es := by
  cases es with
  | nil => cases h
  | cons e es =>
    rw [endOf, length_entryBytes]
    omega

theorem take_entries (e : Entry) (h : (entryBytes e.1 e.2).length ≤ r) (tail : List UInt8) :
    (encode (e :: es) ++ List.replicate k 0).take r ++ tail =
      entryBytes e.1 e.2 ++
        ((encode es ++ List.replicate k 0).take (r - (entryBytes e.1 e.2).length) ++ tail) := by
  rw [encode_cons, List.append_assoc, List.take_append, List.take_of_length_le h, List.append_assoc]

theorem parse_found (hnames : ∀ e ∈ es, eqSign ∉ e.1.bytes) (hturns : es.length ≤ turns)
    (hlen : p + r = len) (hmem : name ∈ keys es) (hend : endOf name es ≤ r) (k : Nat) (tail : List UInt8) :
    (parseEntries len turns p ((encode es ++ List.replicate k 0).take r ++ tail)).lookup name =
      es.lookup name := by
  induction es generalizing turns p r with
  | nil => cases hmem
  | cons e es ih =>
    obtain ⟨turns, rfl⟩ := Nat.exists_eq_add_one.mpr (Nat.lt_of_lt_of_le (Nat.succ_pos _) hturns)
    rw [endOf] at hend
    rw [take_entries e (by omega), parseEntries_entry (hnames e List.mem_cons_self),
      List.lookup_cons, List.lookup_cons]
    by_cases hn : name = e.1
    · rw [beq_iff_eq.mpr hn]
    · rw [beq_eq_false_iff_ne.mpr hn]
      rw [if_neg hn] at hend
      have htail : name ∈ keys es := (List.mem_cons.mp hmem).resolve_left hn
      have h2 := two_le_endOf htail
      have hhead : ((encode es ++ List.replicate k 0).take (r - (entryBytes e.1 e.2).length) ++ tail).head? ≠
          some 0 := by
        cases es with
        | nil => cases htail
        | cons e' es =>
          have h0 := entryBytes_head e'.1 e'.2 (encode es ++ List.replicate k 0)
          rw [List.head?_append, List.head?_take, if_neg (by omega), encode_cons, List.append_assoc]
          cases hh : (entryBytes e'.1 e'.2 ++ (encode es ++ List.replicate k 0)).head? with
          | none => simp [entryBytes] at hh
          | some b =>
            rw [hh] at h0
            exact h0
      dsimp only
      rw [if_neg (not_or.mpr ⟨by omega, hhead⟩)]
      exact ih (fun x hx => hnames x (List.mem_cons_of_mem e hx)) (Nat.le_of_succ_le_succ hturns)
        (by omega) htail (by omega)

theorem take_cutValue (hlen : name.length < r) (hcut : r < (entryBytes name value).length) (heap : CStr) :
    ∃ v : CStr, v.length = r - name.length - 1 + heap.length ∧
      (entryBytes name value).take r ++ heap.bytes ++ [0] = entryBytes name v := by
  rw [length_entryBytes] at hcut
  have hbytes : (entryBytes name value).take r =
      name.bytes ++ eqSign :: value.bytes.take (r - name.length - 1) := by
    obtain ⟨m, rfl⟩ := Nat.exists_eq_add_of_lt hlen
    have hm : name.length + m + 1 - name.length - 1 = m := by omega
    rw [entryBytes, List.take_append, List.take_of_length_le (by rw [CStr.length_bytes]; omega),
      CStr.length_bytes, hm, show name.length + m + 1 - name.length = m + 1 by omega, List.take_succ_cons,
      List.take_append_of_le_length (by rw [CStr.length_bytes]; omega)]
  refine ⟨⟨value.bytes.take (r - name.length - 1) ++ heap.bytes, ?_⟩, ?_, ?_⟩
  · exact fun h => (List.mem_append.mp h).elim (fun h => value.noNul (List.mem_of_mem_take h)) heap.noNul
  · rw [CStr.length, List.length_append, List.length_take, CStr.length_bytes, CStr.length_bytes]
    omega
  · rw [hbytes, entryBytes]
    simp

theorem parse_landed (hnames : ∀ e ∈ es, eqSign ∉ e.1.bytes) (hturns : es.length ≤ turns)
    (hlen : p + r = len) (hr : 0 < r) (hk : r ≤ k)
    (h : ∀ heap : CStr, (parseEntries len turns p
      ((encode es ++ List.replicate k 0).take r ++ (heap.bytes ++ [0]))).lookup name = some value) :
    es.lookup name = some value ∧ endOf name es ≤ r := by
  induction es generalizing turns p r with
  | nil =>
    have h0 := h .empty
    rw [encode_nil, List.nil_append, List.take_replicate, Nat.min_eq_left hk, parseEntries_zeros hr] at h0
    cases h0
  | cons e es ih =>
    obtain ⟨turns, rfl⟩ := Nat.exists_eq_add_one.mpr (Nat.lt_of_lt_of_le (Nat.succ_pos _) hturns)
    have hname := hnames e List.mem_cons_self
    rw [endOf, List.lookup_cons]
    by_cases hfit : (entryBytes e.1 e.2).length ≤ r
    · have hparse (heap : CStr) := h heap
      simp only [take_entries e hfit, parseEntries_entry hname, List.lookup_cons] at hparse
      by_cases hn : name = e.1
      · rw [beq_iff_eq.mpr hn] at hparse ⊢
        rw [if_pos hn, Nat.add_zero]
        exact ⟨hparse .empty, hfit⟩
      · rw [beq_eq_false_iff_ne.mpr hn] at hparse ⊢
        rw [if_neg hn]
        dsimp only at hparse ⊢
        have hgo (heap : CStr) : ¬ (p + (entryBytes e.1 e.2).length + 1 ≥ len ∨
            ((encode es ++ List.replicate k 0).take (r - (entryBytes e.1 e.2).length) ++
              (heap.bytes ++ [0])).head? = some 0) := by
          intro hstop
          have h0 := hparse heap
          rw [if_pos hstop] at h0
          cases h0
        obtain ⟨hin, -⟩ := not_or.mp (hgo .empty)
        obtain ⟨hlookup, hend⟩ := ih (p := p + (entryBytes e.1 e.2).length)
          (r := r - (entryBytes e.1 e.2).length) (fun x hx => hnames x (List.mem_cons_of_mem e hx))
          (Nat.le_of_succ_le_succ hturns) (by omega) (by omega) (by omega) fun heap => by
            have h0 := hparse heap
            rwa [if_neg (hgo heap)] at h0
        exact ⟨hlookup, by omega⟩
    · exfalso
      have hmem (heap : CStr) : (encode (e :: es) ++ List.replicate k 0).take r ++ (heap.bytes ++ [0]) =
          (entryBytes e.1 e.2).take r ++ heap.bytes ++ [0] := by
        rw [encode_cons, List.append_assoc, List.take_append_of_le_length (by omega), List.append_assoc]
      by_cases hcut : e.1.length < r
      · -- two values, of different lengths
        have hvalue (heap : CStr) : ∃ v : CStr, v.length = r - e.1.length - 1 + heap.length ∧
            name = e.1 ∧ v = value := by
          obtain ⟨v, hv, hbytes⟩ := take_cutValue hcut (Nat.not_le.mp hfit) heap
          have h0 := h heap
          have hlast := length_entryBytes e.1 v
          rw [hmem, hbytes, ← List.append_nil (entryBytes e.1 v), parseEntries_entry hname,
            if_pos (.inl (by omega)), List.lookup_cons, List.lookup_nil] at h0
          by_cases hn : name = e.1
          · rw [beq_iff_eq.mpr hn] at h0
            exact ⟨v, hv, hn, Option.some.inj h0⟩
          · rw [beq_eq_false_iff_ne.mpr hn] at h0
            cases h0
        obtain ⟨v, hv, -, rfl⟩ := hvalue .empty
        obtain ⟨w, hw, -, rfl⟩ := hvalue (letters 1)
        rw [hv, length_letters] at hw
        exact absurd (Nat.add_left_cancel hw) Nat.zero_ne_one
      · have h0 := h .empty
        have hfree : eqSign ∉ e.1.bytes.take r := fun hm => hname (List.mem_of_mem_take hm)
        have hname' : (entryBytes e.1 e.2).take r = e.1.bytes.take r := by
          rw [entryBytes, List.take_append_of_le_length (by rw [CStr.length_bytes]; omega)]
        have habsent : strchr eqSign (e.1.bytes.take r ++ 0 :: []) = .absent :=
          strchr_absent (s := ⟨e.1.bytes.take r, fun hm => e.1.noNul (List.mem_of_mem_take hm)⟩) hfree
            (by decide) []
        rw [hmem, hname', CStr.bytes_empty, List.append_nil, parseEntries, habsent] at h0
        cases h0

theorem parsedFrom_lookup_iff (hlen : 0 < dataLen info) (hnames : ∀ e ∈ es, eqSign ∉ e.1.bytes)
    (hcount : es.length ≤ MAX_CACHE_ENTRY) :
    (∀ heap, (parsedFrom info (envData info (encode es)) heap).lookup name = some value) ↔
      es.lookup name = some value ∧ endOf name es ≤ dataLen info := by
  have hparsed (heap : CStr) : parsedFrom info (envData info (encode es)) heap =
      parseEntries (dataLen info) MAX_CACHE_ENTRY 0
        ((encode es ++ List.replicate (dataLen info) 0).take (dataLen info) ++ (heap.bytes ++ [0])) := by
    rw [parsedFrom, envData, List.append_assoc]
  simp only [hparsed]
  constructor
  · exact parse_landed hnames hcount (Nat.zero_add _) hlen (Nat.le_refl _)
  · rintro ⟨hlookup, hend⟩ heap
    rw [parse_found hnames hcount (Nat.zero_add _) (mem_keys_of_lookup hlookup) hend, hlookup]

end Ralink.Nvram
