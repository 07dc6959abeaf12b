import Ralink.Lib.Run
import Ralink.Nvram.Model

/-! Over any run of library calls: the shape of the caches, and that a value stored by
`nvram_bufset` is what `nvram_bufget` and `nvram_get` answer. The hidden commit of `nvram_close` is
where a value can get lost. -/
namespace Ralink.Nvram
open Assoc CString Function Run

/-- The rooms in use come first, and hold entries with distinct names. -/
def PrefixShape (cache : Cache) : Prop :=
  ∃ m ≤ MAX_CACHE_ENTRY, (∀ j, (cache j).name.isSome ↔ j < m) ∧
    (∀ j < m, (cache j).value.isSome) ∧
    ∀ j < m, ∀ k < m, (cache j).name = (cache k).name → j = k

/-- A state, and the values promised for it: what the last successful `nvram_bufset` of
each name stored, as far as its block was not cleared. -/
structure Session where
  state : NvState
  want : Nat → CStr → Option CStr

namespace Session

def start (flash : ByteStore.Store) : Session := ⟨{ flash }, fun _ _ => none⟩

def promise (dualImage : Bool) (c : Session) (call : NvCall) : Nat → CStr → Option CStr :=
  match checkIndex dualImage call.target with
  | none => c.want
  | some (i, _) =>
    match call with
    | .bufset heap index name value | .set heap index name value =>
      if (nvramBufset dualImage heap c.state index name value).1 = 0 then
        update c.want i (update (c.want i) name (some value))
      else c.want
    | .clear _ => update c.want i fun _ => none
    | _ => c.want

def step (dualImage : Bool) (c : Session) (call : NvCall) : Session :=
  ⟨call.run dualImage c.state, c.promise dualImage call⟩

end Session

/-- What the call has to write out comes back as it was. A commit that is refused has
written past its buffer before, so none is. -/
def Lossless (dualImage : Bool) (s : NvState) (call : NvCall) : Prop :=
  ∀ i info, checkIndex dualImage call.target = some (i, info) →
    ∀ es, call.writesOut dualImage s i = some es → Encodable info es

/-- The caches are in shape, a refused `nvram_bufset` does no more than load its block, and
both ways of reading give the promised values. -/
structure Consistent (dualImage : Bool) (c : Session) : Prop where
  shape : ∀ i info, (fb dualImage)[i]? = some info → PrefixShape (c.state.block i).cache
  refusal : ∀ heap index name value, (nvramBufset dualImage heap c.state index name value).1 = -1 →
    (nvramBufset dualImage heap c.state index name value).2 = nvramInit dualImage heap c.state index
  bufget : ∀ heap index i info, checkIndex dualImage index = some (i, info) →
    ∀ name value, c.want i name = some value →
      (nvramBufget dualImage heap c.state index name).1 = value
  get : ∀ heap index i info, checkIndex dualImage index = some (i, info) →
    ∀ name value, c.want i name = some value →
      Lossless dualImage c.state (.get heap index name) →
      (nvramGet dualImage heap c.state index name).1 = value

def Gives (es : List Entry) (want : CStr → Option CStr) : Prop :=
  ∀ name value, want name = some value → es.lookup name = some value

structure Keeps (a : BlockView) (want : CStr → Option CStr) : Prop where
  distinct : (keys a.entries).Nodup
  storedDistinct : ∀ heap, (keys (a.stored heap)).Nodup
  held : a.valid = true → Gives a.entries want
  kept : (a.valid && a.dirty) = false → ∀ heap, Gives (a.stored heap) want

variable {dualImage : Bool} {info info' : BlockInfo} {s : NvState} {c : Session} {i j : Nat}
  {a : BlockView} {index : Int} {heap name value : CStr} {es : List Entry}
  {want : CStr → Option CStr} {call : NvCall}

theorem gives_none (es : List Entry) : Gives es fun _ => none := fun _ _ h => by cases h

theorem Gives.set (h : Gives es want) (name value : CStr) :
    Gives (Assoc.set name value es) (update want name (some value)) := by
  intro n v hv
  rcases eq_or_ne n name with rfl | hn
  · rw [update_self] at hv
    rw [lookup_set_self, hv]
  · rw [update_of_ne hn] at hv
    rw [lookup_set_ne hn]
    exact h n v hv

theorem Gives.answer (h : Gives es want) (hv : want name = some value) : answer es name = value := by
  rw [Nvram.answer, h name value hv, Option.getD_some]

namespace Keeps

theorem load (h : Keeps a want) (heap : CStr) : Keeps (a.load heap) want := by
  unfold BlockView.load
  cases hv : a.valid with
  | true => exact h
  | false =>
    have hkept := h.kept (by simp [hv])
    exact ⟨h.storedDistinct heap, h.storedDistinct, fun _ => hkept heap, fun _ => hkept⟩

theorem edit (h : Keeps a want) (hv : a.valid = true) (hroom : hasRoom a.entries name) (value : CStr) :
    Keeps (a.edit name value) (update want name (some value)) := by
  unfold BlockView.edit
  rw [if_pos hroom]
  refine ⟨nodup_keys_set h.distinct name value, h.storedDistinct, fun _ => (h.held hv).set name value,
    fun hd => ?_⟩
  simp [hv] at hd

theorem save (h : Keeps a want) (hv : a.valid = true) (hlen : 0 < dataLen info)
    (hcount : a.entries.length ≤ MAX_CACHE_ENTRY)
    (hout : a.dirty = true → Encodable info a.entries) : Keeps (a.save info) want := by
  unfold BlockView.save
  split
  · next hsave =>
    rw [Bool.and_eq_true, Bool.not_eq_true'] at hsave
    have hstored := parsedFrom_encode hlen (hout hsave.1) hcount
    refine ⟨h.distinct, fun heap => ?_, h.held, fun _ heap => ?_⟩
    · dsimp only
      rw [hstored heap]
      exact h.distinct
    · dsimp only
      rw [hstored heap]
      exact h.held hv
  · exact h

theorem close (h : Keeps a want) (hlen : 0 < dataLen info)
    (hcount : a.entries.length ≤ MAX_CACHE_ENTRY)
    (hout : a.valid = true → a.dirty = true → Encodable info a.entries) : Keeps (a.close info) want := by
  unfold BlockView.close
  split
  · next hv =>
    have hs := h.save hv hlen hcount (hout hv)
    -- what is dropped from the cache has reached the flash
    have hclean : (a.save info).dirty = false := by
      unfold BlockView.save
      cases hd : a.dirty with
      | false => simp [hd]
      | true => simp [(hout hv hd).not_refused hlen]
    refine ⟨List.nodup_nil, hs.storedDistinct, fun hf => ?_, fun _ => hs.kept ?_⟩
    · cases hf
    · rw [hclean, Bool.and_false]
  · exact h

end Keeps

theorem keeps_clear (hentries : a.valid = false → a.entries = []) :
    Keeps (a.clear info) fun _ => none := by
  have hnil : (a.clear info).entries = [] := by
    unfold BlockView.clear BlockView.close
    split
    · rfl
    · next hv => exact hentries (by simpa using hv)
  refine ⟨by rw [hnil]; exact List.nodup_nil, fun heap => ?_, fun _ => gives_none _,
    fun _ _ => gives_none _⟩
  have hones : eqSign ∉ List.replicate (dataLen info) (0xFF : UInt8) := fun hmem =>
    absurd (List.eq_of_mem_replicate hmem) (by decide)
  have hone : (parsedFrom info (List.replicate (dataLen info) 0xFF) heap).length ≤ 1 := by
    rw [parsedFrom, List.append_assoc]
    exact parseEntries_noEq hones (by simp) _
  change (keys (parsedFrom info (List.replicate (dataLen info) 0xFF) heap)).Nodup
  exact nodup_keys_of_length_le_one hone

theorem effect_keeps (hindex : checkIndex dualImage call.target = some (i, info))
    (hm : Models info c.state i a) (h : Keeps a (c.want i)) (hl : Lossless dualImage c.state call) :
    Keeps (call.effect info a) (c.promise dualImage call i) := by
  have hlen := dataLen_pos (checkIndex_some hindex)
  have hout := hl i info hindex
  rw [NvCall.writesOut_models hindex hm] at hout
  unfold Session.promise
  rw [hindex]
  cases call with
  | init heap index => exact h.load heap
  | bufset heap index name value =>
    have hi : checkIndex dualImage index = some (i, info) := hindex
    obtain ⟨-, -, hret⟩ := nvramBufset_models hi hm heap name value
    dsimp only [NvCall.effect]
    rw [hret]
    by_cases hroom : hasRoom (a.load heap).entries name
    · rw [if_pos hroom, if_pos rfl, update_self]
      exact (h.load heap).edit (a.load_valid heap) hroom value
    · rw [if_neg hroom, if_neg (by decide), BlockView.edit, if_neg hroom]
      exact h.load heap
  | set heap index name value =>
    have hi : checkIndex dualImage index = some (i, info) := hindex
    obtain ⟨hinit, -⟩ := nvramInit_models hi hm heap
    obtain ⟨-, -, hret⟩ := nvramBufset_models hi hm heap name value
    dsimp only [NvCall.effect]
    rw [hret]
    by_cases hroom : hasRoom (a.load heap).entries name
    · have hentries : ((a.load heap).edit name value).entries = set name value (a.load heap).entries := by
        rw [BlockView.edit, if_pos hroom]
      rw [if_pos hroom, if_pos hroom, if_pos rfl, update_self]
      refine ((h.load heap).edit (a.load_valid heap) hroom value).save ?_ hlen ?_ fun _ => ?_
      · rw [BlockView.edit_valid, a.load_valid]
      · rw [hentries]
        exact length_set_le hroom hinit.count value
      · rw [hentries]
        exact hout _ (if_pos hroom)
    · rw [if_neg hroom, if_neg hroom, if_neg (by decide)]
      exact h.load heap
  | commit heap index =>
    have hi : checkIndex dualImage index = some (i, info) := hindex
    obtain ⟨hinit, -⟩ := nvramInit_models hi hm heap
    exact (h.load heap).save (a.load_valid heap) hlen hinit.count fun hd => hout _ (if_pos hd)
  | get heap index name =>
    exact (h.close hlen hm.count fun hv hd => hout _ (by simp [NvCall.out, hv, hd])).load heap
  | close index => exact h.close hlen hm.count fun hv hd => hout _ (by simp [NvCall.out, hv, hd])
  | clear index =>
    dsimp only
    rw [update_self]
    exact keeps_clear hm.unloaded

def KeepsAll (dualImage : Bool) (c : Session) : Prop :=
  ∀ i info, (fb dualImage)[i]? = some info → ∃ a, Models info c.state i a ∧ Keeps a (c.want i)

theorem prefixShape_rooms (hcount : es.length ≤ MAX_CACHE_ENTRY) (h : (keys es).Nodup) :
    PrefixShape (rooms es) := by
  refine ⟨es.length, hcount, fun j => ?_, fun j hj => ?_, fun j hj k hk hn => ?_⟩
  · rcases Nat.lt_or_ge j es.length with hj | hj
    · simp [rooms_getElem hj, hj]
    · simp [rooms_end hj, hj]
  · rw [rooms_getElem hj]
    rfl
  · rw [rooms_getElem hj, rooms_getElem hk, Option.some.injEq] at hn
    have hlen : j < (keys es).length := by simpa [keys] using hj
    exact (List.getElem?_inj hlen h).mp (by simpa [keys, hj, hk] using hn)

theorem bufset_refusal (hindex : checkIndex dualImage index = some (i, info)) (hm : Models info s i a)
    (hret : (nvramBufset dualImage heap s index name value).1 = -1) :
    (nvramBufset dualImage heap s index name value).2 = nvramInit dualImage heap s index := by
  obtain ⟨hinit, -⟩ := nvramInit_models hindex hm heap
  have hcache : ((nvramInit dualImage heap s index).block i).cache = rooms (a.load heap).entries := by
    rw [hinit.block]
  rw [nvramBufset, hindex] at hret ⊢
  dsimp only at hret ⊢
  rw [bufsetBlock_rooms hcache hinit.count] at hret ⊢
  split at hret
  · cases hret
  · next hroom =>
    rw [if_neg hroom]
    simp only [NvState.setBlock, update_eq_self]

theorem KeepsAll.consistent (h : KeepsAll dualImage c) : Consistent dualImage c where
  shape i info hget := by
    obtain ⟨a, hm, hk⟩ := h i info hget
    rw [hm.block]
    exact prefixShape_rooms hm.count hk.distinct
  refusal heap index name value hret := by
    cases hindex : checkIndex dualImage index with
    | none => rw [nvramBufset, nvramInit, hindex]
    | some target =>
      obtain ⟨i, info⟩ := target
      obtain ⟨a, hm, -⟩ := h i info (checkIndex_some hindex)
      exact bufset_refusal hindex hm hret
  bufget heap index i info hindex name value hv := by
    obtain ⟨a, hm, hk⟩ := h i info (checkIndex_some hindex)
    rw [(nvramBufget_models hindex hm heap name).1]
    exact ((hk.load heap).held (a.load_valid heap)).answer hv
  get heap index i info hindex name value hv hl := by
    obtain ⟨a, hm, hk⟩ := h i info (checkIndex_some hindex)
    rw [(nvramGet_models hindex hm heap name).1]
    have hget := effect_keeps hindex hm hk hl
    have hwant : c.promise dualImage (.get heap index name) = c.want := by
      rw [Session.promise, show checkIndex dualImage (NvCall.get heap index name).target = _ from hindex]
    rw [hwant] at hget
    exact (hget.held ((a.close info).load_valid heap)).answer hv

end Ralink.Nvram
