import Ralink.Lib.Run
import Ralink.Nvram.Model

/-! Each process has its own caches; every library call is one step. A value that one process has
set survives as long as nobody writes the block out from a cache that does not have it. -/
namespace Ralink.Nvram
open Assoc CString Function Run

inductive Process where
  | A
  | B
  deriving DecidableEq

/-- The flash, and the blocks as each process holds them. -/
structure Shared where
  flash : ByteStore.Store
  block : Process → Nat → BlockT := fun _ _ => {}

def Shared.view (c : Shared) (p : Process) : NvState := ⟨c.flash, c.block p⟩

def Shared.step (dualImage : Bool) (c : Shared) (e : Process × NvCall) : Shared :=
  let s := e.2.run dualImage (c.view e.1)
  ⟨s.flash, update c.block e.1 s.block⟩

/-- Step `k` of the run is an `nvram_set` by `p` that returns 0. -/
def SetsAt (dualImage : Bool) (flash : ByteStore.Store) (steps : List (Process × NvCall)) (k : Nat)
    (p : Process) (index : Int) (name value : CStr) : Prop :=
  ∃ heap, steps[k]? = some (p, .set heap index name value) ∧
    (nvramSet dualImage heap ((exec (Shared.step dualImage) { flash } (steps.take k)).view p) index name
      value).1 = 0

def freshGet (dualImage : Bool) (flash : ByteStore.Store) (steps : List (Process × NvCall))
    (heap : CStr) (index : Int) (name : CStr) : CStr :=
  let final := exec (Shared.step dualImage) { flash } steps
  (nvramBufget dualImage heap (nvramInit dualImage heap { flash := final.flash } index) index name).1

def NvCall.setsName (name : CStr) : NvCall → Bool
  | .bufset _ _ n _ | .set _ _ n _ => n = name
  | _ => false

def NvCall.drops : NvCall → Bool
  | .get _ _ _ | .close _ | .clear _ => true
  | _ => false

def NvCall.isClear : NvCall → Bool
  | .clear _ => true
  | _ => false

/-- A run after a set; `stale` are the processes whose cache of the block is older than it. -/
structure Watched where
  shared : Shared
  stale : Process → Bool

def Watched.after (p : Process) (i : Nat) (c : Shared) : Watched :=
  ⟨c, fun q => decide (q ≠ p) && (c.block q i).valid⟩

def Watched.step (dualImage : Bool) (index : Int) (w : Watched) (e : Process × NvCall) : Watched where
  shared := w.shared.step dualImage e
  stale := if e.2.target = index ∧ e.2.drops then update w.stale e.1 false else w.stale

/-- A step that leaves the value of `name` alone: it neither sets it nor clears the block,
and what it writes out, if anything, comes from a cache that is not stale and fits. -/
def Spares (dualImage : Bool) (index : Int) (i : Nat) (info : BlockInfo) (name : CStr) (w : Watched)
    (e : Process × NvCall) : Prop :=
  e.2.target = index → e.2.setsName name = false ∧ e.2.isClear = false ∧
    ∀ es, e.2.writesOut dualImage (w.shared.view e.1) i = some es →
      refused info.flashMaxLen 0 es = false → w.stale e.1 = false ∧ Encodable info es

/-- The set at step `k` writes entries that fit, and all later steps spare its value. -/
structure Spared (dualImage : Bool) (flash : ByteStore.Store) (steps : List (Process × NvCall))
    (k : Nat) (p : Process) (index : Int) (i : Nat) (info : BlockInfo) (name : CStr) : Prop where
  fits : ∀ e ∈ steps[k]?, ∀ es,
    e.2.writesOut dualImage ((exec (Shared.step dualImage) { flash } (steps.take k)).view e.1) i = some es →
    Encodable info es
  later : AllSteps (Watched.step dualImage index) (Spares dualImage index i info name)
    (.after p i (exec (Shared.step dualImage) { flash } (steps.take (k + 1)))) (steps.drop (k + 1))

structure Has (a : BlockView) (stale : Bool) (name value : CStr) : Prop where
  stored : ∀ heap, (a.stored heap).lookup name = some value
  held : stale = false → a.valid = true → a.entries.lookup name = some value

variable {dualImage : Bool} {info : BlockInfo} {s : NvState} {c : Shared} {w : Watched} {i j : Nat}
  {a : BlockView} {view : Process → BlockView} {index : Int} {heap name value n v : CStr}
  {es : List Entry} {call : NvCall} {p q : Process} {e : Process × NvCall} {stale : Bool}

namespace Has

theorem load (h : Has a stale n v) (heap : CStr) : Has (a.load heap) stale n v := by
  unfold BlockView.load
  split
  · exact h
  · exact ⟨h.stored, fun _ _ => h.stored heap⟩

theorem edit (h : Has a stale n v) (hne : name ≠ n) (value : CStr) :
    Has (a.edit name value) stale n v := by
  unfold BlockView.edit
  split
  · refine ⟨h.stored, fun hs hv => ?_⟩
    rw [lookup_set_ne hne.symm]
    exact h.held hs hv
  · exact h

theorem save (h : Has a stale n v) (hv : a.valid = true) (hlen : 0 < dataLen info)
    (hcount : a.entries.length ≤ MAX_CACHE_ENTRY)
    (hout : a.dirty = true → refused info.flashMaxLen 0 a.entries = false →
      stale = false ∧ Encodable info a.entries) : Has (a.save info) stale n v := by
  unfold BlockView.save
  split
  · next hsave =>
    rw [Bool.and_eq_true, Bool.not_eq_true'] at hsave
    obtain ⟨hs, henc⟩ := hout hsave.1 hsave.2
    refine ⟨fun heap => ?_, h.held⟩
    dsimp only
    rw [parsedFrom_encode hlen henc hcount]
    exact h.held hs hv
  · exact h

theorem close (h : Has a stale n v) (hlen : 0 < dataLen info)
    (hcount : a.entries.length ≤ MAX_CACHE_ENTRY)
    (hout : a.valid = true → a.dirty = true → refused info.flashMaxLen 0 a.entries = false →
      stale = false ∧ Encodable info a.entries) : Has (a.close info) false n v := by
  unfold BlockView.close
  split
  · next hv =>
    have hs := h.save hv hlen hcount (hout hv)
    exact ⟨hs.stored, fun _ hf => by cases hf⟩
  · next hv => exact ⟨h.stored, fun _ ht => absurd ht hv⟩

end Has

theorem effect_has (hlen : 0 < dataLen info) (hcount : a.entries.length ≤ MAX_CACHE_ENTRY)
    (hload : ∀ heap, (a.load heap).entries.length ≤ MAX_CACHE_ENTRY) (h : Has a stale n v)
    (hname : call.setsName n = false) (hclear : call.isClear = false)
    (hout : ∀ es, call.out a = some es → refused info.flashMaxLen 0 es = false →
      stale = false ∧ Encodable info es) :
    Has (call.effect info a) (if call.drops then false else stale) n v := by
  have hdirty : ∀ es, (call.out a = if a.valid && a.dirty then some es else none) →
      a.valid = true → a.dirty = true → refused info.flashMaxLen 0 es = false →
      stale = false ∧ Encodable info es := by
    intro es hes hv hd
    rw [hv, hd] at hes
    exact hout es hes
  cases call with
  | init heap index => exact h.load heap
  | bufset heap index name value =>
    exact (h.load heap).edit (by simpa [NvCall.setsName] using hname) value
  | set heap index name value =>
    have hne : name ≠ n := by simpa [NvCall.setsName] using hname
    dsimp only [NvCall.effect]
    split
    · next hroom =>
      have hentries : ((a.load heap).edit name value).entries =
          set name value (a.load heap).entries := by rw [BlockView.edit, if_pos hroom]
      refine ((h.load heap).edit hne value).save ?_ hlen ?_ fun _ => ?_
      · rw [BlockView.edit_valid, a.load_valid]
      · rw [hentries]
        exact length_set_le hroom (hload heap) value
      · rw [hentries]
        exact hout _ (if_pos hroom)
    · exact h.load heap
  | commit heap index =>
    exact (h.load heap).save (a.load_valid heap) hlen (hload heap) fun hd => hout _ (if_pos hd)
  | get heap index name => exact (h.close hlen hcount (hdirty _ rfl)).load heap
  | close index => exact h.close hlen hcount (hdirty _ rfl)
  | clear index => cases hclear

def stepViews (info : BlockInfo) (view : Process → BlockView) (e : Process × NvCall) :
    Process → BlockView := fun q =>
  if q = e.1 then e.2.effect info (view q)
  else { view q with stored := (e.2.effect info (view e.1)).stored }

theorem view_step_self (c : Shared) (e : Process × NvCall) :
    (c.step dualImage e).view e.1 = e.2.run dualImage (c.view e.1) := by
  rw [Shared.step, Shared.view]
  dsimp only
  rw [update_self]

theorem block_step_ne (c : Shared) (hq : q ≠ e.1) : (c.step dualImage e).block q = c.block q :=
  update_of_ne hq _ _

theorem step_models (hindex : checkIndex dualImage e.2.target = some (i, info))
    (h : ∀ q, Models info (c.view q) i (view q)) :
    ∀ q, Models info ((c.step dualImage e).view q) i (stepViews info view e q) := by
  intro q
  obtain ⟨hm, -⟩ := NvCall.run_models hindex (h e.1)
  rw [← view_step_self] at hm
  unfold stepViews
  split
  · next hq =>
    rw [hq]
    exact hm
  · next hq =>
    refine ⟨?_, (h q).count, (h q).unloaded, fun heap => hm.stored heap⟩
    rw [Shared.view, block_step_ne c hq]
    exact (h q).block

theorem step_models_other (hindex : ∀ info', checkIndex dualImage e.2.target ≠ some (i, info'))
    (hget : (fb dualImage)[i]? = some info)
    (hall : ∀ j info', (fb dualImage)[j]? = some info' → ∃ a, Models info' (c.view e.1) j a)
    (h : ∀ q, Models info (c.view q) i (view q)) :
    ∀ q, Models info ((c.step dualImage e).view q) i (view q) := by
  intro q
  cases htarget : checkIndex dualImage e.2.target with
  | none =>
    have hstep : c.step dualImage e = c := by
      rw [Shared.step, NvCall.run_none htarget]
      simp [Shared.view]
    rw [hstep]
    exact h q
  | some target =>
    obtain ⟨j, info'⟩ := target
    have hj : i ≠ j := fun hij => hindex info' (hij ▸ htarget)
    obtain ⟨a, ha⟩ := hall j info' (checkIndex_some htarget)
    have ht := (NvCall.run_models htarget ha).2
    rw [← view_step_self] at ht
    have hm := ht.models hj hget (h e.1)
    by_cases hq : q = e.1
    · rw [hq]
      exact hm
    · refine ⟨?_, (h q).count, (h q).unloaded, fun heap => ?_⟩
      · rw [Shared.view, block_step_ne c hq]
        exact (h q).block
      · exact (ht.stored i info hj hget heap).trans ((h q).stored heap)

def AllModelled (dualImage : Bool) (c : Shared) : Prop :=
  ∀ q i info, (fb dualImage)[i]? = some info → ∃ a, Models info (c.view q) i a

theorem AllModelled.step (h : AllModelled dualImage c) (e : Process × NvCall) :
    AllModelled dualImage (c.step dualImage e) := by
  intro q i info hget
  have hview : ∀ q, Models info (c.view q) i (h q i info hget).choose := fun q =>
    (h q i info hget).choose_spec
  by_cases hindex : checkIndex dualImage e.2.target = some (i, info)
  · exact ⟨_, step_models hindex hview q⟩
  · refine ⟨_, step_models_other (fun info' hi => hindex ?_) hget (h e.1) hview q⟩
    rw [hi, Option.some.inj ((checkIndex_some hi).symm.trans hget)]

theorem allModelled_run (dualImage : Bool) (flash : ByteStore.Store) (steps : List (Process × NvCall)) :
    AllModelled dualImage (exec (Shared.step dualImage) { flash } steps) :=
  exec_inv (P := fun _ _ => True) (fun _ e h _ => h.step e)
    (fun _ _ info _ => ⟨_, models_unloaded info rfl⟩) (AllSteps.of_forall fun _ _ _ => trivial)

def Survives (dualImage : Bool) (i : Nat) (info : BlockInfo) (n v : CStr) (w : Watched) : Prop :=
  AllModelled dualImage w.shared ∧
    ∃ view : Process → BlockView,
      (∀ q, Models info (w.shared.view q) i (view q)) ∧ ∀ q, Has (view q) (w.stale q) n v

theorem Survives.step (hindex : checkIndex dualImage index = some (i, info))
    (h : Survives dualImage i info n v w) (hs : Spares dualImage index i info n w e) :
    Survives dualImage i info n v (w.step dualImage index e) := by
  obtain ⟨hall, view, hm, hhas⟩ := h
  refine ⟨hall.step e, ?_⟩
  by_cases htarget : e.2.target = index
  · obtain ⟨hname, hclear, hout⟩ := hs htarget
    have hcall : checkIndex dualImage e.2.target = some (i, info) := by rw [htarget, hindex]
    rw [NvCall.writesOut_models hcall (hm e.1)] at hout
    have hown := effect_has (dataLen_pos (checkIndex_some hindex)) (hm e.1).count
      (fun heap => (nvramInit_models hcall (hm e.1) heap).1.count) (hhas e.1) hname hclear hout
    have hstale : ∀ q, (w.step dualImage index e).stale q =
        if q = e.1 then (if e.2.drops then false else w.stale e.1) else w.stale q := by
      intro q
      simp only [Watched.step, htarget, true_and]
      by_cases hq : q = e.1
      · subst hq
        split
        · simp
        · simp
      · rw [if_neg hq]
        split
        · rw [update_of_ne hq]
        · rfl
    refine ⟨stepViews info view e, step_models hcall hm, fun q => ?_⟩
    rw [hstale, stepViews]
    by_cases hq : q = e.1
    · rw [if_pos hq, if_pos hq, hq]
      exact hown
    · rw [if_neg hq, if_neg hq]
      exact ⟨hown.stored, (hhas q).held⟩
  · have hother : ∀ info', checkIndex dualImage e.2.target ≠ some (i, info') := fun info' hi =>
      htarget (checkIndex_inj hi hindex)
    refine ⟨view, step_models_other hother (checkIndex_some hindex) (fun j info' => hall e.1 j info') hm,
      fun q => ?_⟩
    have hstale : (w.step dualImage index e).stale = w.stale := if_neg fun h => htarget h.1
    rw [hstale]
    exact hhas q

theorem effect_set (hlen : 0 < dataLen info) (heap : CStr) (index : Int)
    (hcount : (set name value (a.load heap).entries).length ≤ MAX_CACHE_ENTRY)
    (hroom : hasRoom (a.load heap).entries name)
    (henc : Encodable info (set name value (a.load heap).entries)) :
    (NvCall.set heap index name value).effect info a =
      { valid := true, dirty := false, entries := set name value (a.load heap).entries,
        stored := fun _ => set name value (a.load heap).entries } := by
  dsimp only [NvCall.effect]
  rw [if_pos hroom, BlockView.edit, if_pos hroom, BlockView.save]
  simp only [henc.not_refused hlen, Bool.not_false, Bool.and_self, if_true, BlockView.load_valid,
    funext (parsedFrom_encode hlen henc hcount)]

theorem survives_set (hindex : checkIndex dualImage index = some (i, info)) (hall : AllModelled dualImage c)
    (hret : (nvramSet dualImage heap (c.view p) index n v).1 = 0)
    (hout : ∀ es, (NvCall.set heap index n v).writesOut dualImage (c.view p) i = some es →
      Encodable info es) :
    Survives dualImage i info n v
      (.after p i (c.step dualImage (p, .set heap index n v))) := by
  have hget := checkIndex_some hindex
  have hlen := dataLen_pos hget
  let view := fun q => (hall q i info hget).choose
  have hm : ∀ q, Models info (c.view q) i (view q) := fun q => (hall q i info hget).choose_spec
  have hcall : checkIndex dualImage (NvCall.set heap index n v).target = some (i, info) := hindex
  have hinit := (nvramInit_models hindex (hm p) heap).1
  rw [nvramSet_ret hindex (hm p) heap] at hret
  split at hret
  swap
  · cases hret
  next hok =>
  obtain ⟨hroom, -⟩ := hok
  rw [NvCall.writesOut_models hcall (hm p)] at hout
  have henc := hout _ (if_pos hroom)
  have heffect := effect_set hlen heap index (length_set_le hroom hinit.count v) hroom henc
  refine ⟨hall.step _, stepViews info view _, step_models hcall hm, fun q => ?_⟩
  have hlookup : (set n v ((view p).load heap).entries).lookup n = some v := lookup_set_self _ _ _
  unfold stepViews Watched.after
  dsimp only
  by_cases hq : q = p
  · rw [if_pos hq, hq, heffect]
    exact ⟨fun _ => hlookup, fun _ _ => hlookup⟩
  · rw [if_neg hq, heffect]
    refine ⟨fun _ => hlookup, fun hstale hv => ?_⟩
    -- a block that was loaded is stale now
    have hblock : ((c.step dualImage (p, .set heap index n v)).block q i).valid = true := by
      rw [block_step_ne c hq]
      have hb : (c.block q i) = _ := (hm q).block
      rw [hb]
      exact hv
    simp [hq, hblock] at hstale

theorem exec_watched_shared (w : Watched) (steps : List (Process × NvCall)) :
    (exec (Watched.step dualImage index) w steps).shared =
      exec (Shared.step dualImage) w.shared steps := by
  induction steps generalizing w with
  | nil => rfl
  | cons e steps ih => exact ih (w.step dualImage index e)

theorem freshGet_eq (hindex : checkIndex dualImage index = some (i, info)) (flash : ByteStore.Store)
    (steps : List (Process × NvCall)) (heap name : CStr) :
    freshGet dualImage flash steps heap index name =
      answer (loadEntries heap info (exec (Shared.step dualImage) { flash } steps).flash) name := by
  have hfresh := models_unloaded (s := { flash := (exec (Shared.step dualImage) { flash } steps).flash })
    (i := i) info rfl
  rw [freshGet, (nvramBufget_models hindex (nvramInit_models hindex hfresh heap).1 heap name).1,
    BlockView.load_load]
  rfl

theorem freshGet_of_spared (hindex : checkIndex dualImage index = some (i, info)) {k : Nat}
    {flash : ByteStore.Store} {steps : List (Process × NvCall)}
    (hset : SetsAt dualImage flash steps k p index n v)
    (hspared : Spared dualImage flash steps k p index i info n) (heap : CStr) :
    freshGet dualImage flash steps heap index n = v := by
  obtain ⟨heap', hstep, hret⟩ := hset
  have hall := allModelled_run dualImage flash (steps.take k)
  have hout := hspared.fits _ hstep
  have hsurvives := survives_set hindex hall hret hout
  have hafter : exec (Shared.step dualImage) { flash } (steps.take (k + 1)) =
      (exec (Shared.step dualImage) { flash } (steps.take k)).step dualImage
        (p, .set heap' index n v) := by
    rw [List.take_add_one, hstep, exec_append]
    rfl
  rw [← hafter] at hsurvives
  obtain ⟨-, view, hm, hhas⟩ := exec_inv (fun _ _ h hs => h.step hindex hs) hsurvives hspared.later
  rw [exec_watched_shared, Watched.after] at hm
  dsimp only at hm
  rw [← exec_append, List.take_append_drop] at hm
  have hloaded : ∀ heap, (loadEntries heap info
      (exec (Shared.step dualImage) { flash } steps).flash).lookup n = some v := fun heap =>
    (congrArg (List.lookup n) ((hm p).stored heap)).trans ((hhas p).stored heap)
  rw [freshGet_eq hindex, answer, hloaded heap, Option.getD_some]

/-- Two processes each set a name of their own: if both values are spared from then on, both
are there after the run. -/
theorem bothUpdates_survive (dualImage : Bool) (flash : ByteStore.Store)
    (steps : List (Process × NvCall)) (index : Int) (i : Nat) (info : BlockInfo) (k₁ k₂ : Nat)
    (n₁ v₁ n₂ v₂ : CStr) (hindex : checkIndex dualImage index = some (i, info))
    (setA : SetsAt dualImage flash steps k₁ .A index n₁ v₁)
    (setB : SetsAt dualImage flash steps k₂ .B index n₂ v₂)
    (sparedA : Spared dualImage flash steps k₁ .A index i info n₁)
    (sparedB : Spared dualImage flash steps k₂ .B index i info n₂) (heap : CStr) :
    freshGet dualImage flash steps heap index n₁ = v₁ ∧
      freshGet dualImage flash steps heap index n₂ = v₂ :=
  ⟨freshGet_of_spared hindex setA sparedA heap, freshGet_of_spared hindex setB sparedB heap⟩

def inTurn (index : Int) (n₁ v₁ n₂ v₂ : CStr) : List (Process × NvCall) :=
  [(.A, .set .empty index n₁ v₁), (.B, .set .empty index n₂ v₂)]

/-- Both processes have loaded the block before the first set. -/
def atOnce (index : Int) (n₁ v₁ n₂ v₂ : CStr) : List (Process × NvCall) :=
  [(.A, .init .empty index), (.B, .init .empty index)] ++ inTurn index n₁ v₁ n₂ v₂

theorem set_of_entries (es : List Entry) (hindex : checkIndex dualImage index = some (i, info))
    (hm : ∀ q, Models info (c.view q) i (view q)) (hes : ((view p).load .empty).entries = es)
    (hcount : es.length < MAX_CACHE_ENTRY) (henc : Encodable info (set name value es)) :
    (nvramSet dualImage .empty (c.view p) index name value).1 = 0 ∧
      (∀ es', (NvCall.set .empty index name value).writesOut dualImage (c.view p) i = some es' →
        es' = set name value es) ∧
      ∀ q, Models info ((c.step dualImage (p, .set .empty index name value)).view q) i
        (if q = p then ⟨true, false, set name value es, fun _ => set name value es⟩
          else { view q with stored := fun _ => set name value es }) := by
  have hcall : checkIndex dualImage (NvCall.set .empty index name value).target = some (i, info) := hindex
  have hlen := dataLen_pos (checkIndex_some hindex)
  have hroom : hasRoom ((view p).load .empty).entries name := Or.inr (by rw [hes]; exact hcount)
  have hset := length_set_le hroom (by rw [hes]; exact hcount.le) value
  refine ⟨?_, fun es' hout => ?_, fun q => ?_⟩
  · rw [nvramSet_ret hindex (hm p) .empty, hes, if_pos ⟨hes ▸ hroom, henc.not_refused hlen⟩]
  · rw [NvCall.writesOut_models hcall (hm p), NvCall.out, if_pos hroom, hes] at hout
    exact (Option.some.inj hout).symm
  · have heffect := effect_set hlen .empty index hset hroom (by rw [hes]; exact henc)
    rw [hes] at heffect
    have hstep := step_models (e := (p, .set .empty index name value)) hcall hm q
    unfold stepViews at hstep
    dsimp only at hstep
    rw [heffect] at hstep
    by_cases hq : q = p
    · subst hq
      rw [if_pos rfl] at hstep ⊢
      rw [heffect] at hstep
      exact hstep
    · rw [if_neg hq] at hstep ⊢
      exact hstep

theorem inTurn_spared (n₁ v₁ n₂ v₂ : CStr)
    (hindex : checkIndex dualImage index = some (i, info)) (hne : n₁ ≠ n₂)
    (h₁ : Encodable info [(n₁, v₁)]) (h₂ : Encodable info [(n₁, v₁), (n₂, v₂)]) :
    SetsAt dualImage zeroFlash (inTurn index n₁ v₁ n₂ v₂) 0 .A index n₁ v₁ ∧
      SetsAt dualImage zeroFlash (inTurn index n₁ v₁ n₂ v₂) 1 .B index n₂ v₂ ∧
      Spared dualImage zeroFlash (inTurn index n₁ v₁ n₂ v₂) 0 .A index i info n₁ ∧
      Spared dualImage zeroFlash (inTurn index n₁ v₁ n₂ v₂) 1 .B index i info n₂ := by
  have hstart : ∀ q, Models info (({ flash := zeroFlash } : Shared).view q) i
      ⟨false, false, [], fun _ => []⟩ := fun _ => models_zeroFlash (checkIndex_some hindex)
  obtain ⟨hretA, houtA, hmA⟩ := set_of_entries (p := .A) [] hindex hstart rfl (by decide) h₁
  have hset : set n₂ v₂ [(n₁, v₁)] = [(n₁, v₁), (n₂, v₂)] := by simp [Assoc.set, hne.symm]
  obtain ⟨hretB, houtB, -⟩ := set_of_entries (p := .B) [(n₁, v₁)] hindex hmA rfl (by simp [MAX_CACHE_ENTRY])
    (hset ▸ h₂)
  refine ⟨⟨.empty, rfl, hretA⟩, ⟨.empty, rfl, hretB⟩, ⟨?_, ?_, trivial⟩, ⟨?_, trivial⟩⟩
  · rintro e ⟨⟩ es hes
    rw [houtA es hes]
    exact h₁
  · intro _
    refine ⟨by simpa [NvCall.setsName] using hne.symm, rfl, fun es hes _ => ⟨?_, ?_⟩⟩
    · have hvalid := congrArg BlockT.valid (hmA .B).block
      simp only [Watched.after, Bool.and_eq_false_imp]
      exact fun _ => hvalid
    · rw [houtB es hes, hset]
      exact h₂
  · rintro e ⟨⟩ es hes
    rw [houtB es hes, hset]
    exact h₂

theorem atOnce_loses (n₁ v₁ n₂ v₂ : CStr)
    (hindex : checkIndex dualImage index = some (i, info)) (hne : n₁ ≠ n₂)
    (h₁ : Encodable info [(n₁, v₁)]) (h₂ : Encodable info [(n₂, v₂)]) :
    SetsAt dualImage zeroFlash (atOnce index n₁ v₁ n₂ v₂) 2 .A index n₁ v₁ ∧
      SetsAt dualImage zeroFlash (atOnce index n₁ v₁ n₂ v₂) 3 .B index n₂ v₂ ∧
      ∀ heap, freshGet dualImage zeroFlash (atOnce index n₁ v₁ n₂ v₂) heap index n₁ = .empty := by
  have hstart : ∀ q, Models info (({ flash := zeroFlash } : Shared).view q) i
      ⟨false, false, [], fun _ => []⟩ := fun _ => models_zeroFlash (checkIndex_some hindex)
  have hinitA := step_models (e := (.A, .init .empty index)) hindex hstart
  have hinitB := step_models (e := (.B, .init .empty index)) hindex hinitA
  obtain ⟨hretA, -, hmA⟩ := set_of_entries (p := .A) [] hindex hinitB rfl (by decide) h₁
  obtain ⟨hretB, -, hmB⟩ := set_of_entries (p := .B) [] hindex hmA rfl (by decide) h₂
  refine ⟨⟨.empty, rfl, hretA⟩, ⟨.empty, rfl, hretB⟩, fun heap => ?_⟩
  have hloaded : loadEntries heap info
      (exec (Shared.step dualImage) { flash := zeroFlash } (atOnce index n₁ v₁ n₂ v₂)).flash =
      [(n₂, v₂)] := (hmB .B).stored heap
  have hlookup : List.lookup n₁ [(n₂, v₂)] = none := by simp [List.lookup_cons, beq_eq_false_iff_ne.mpr hne]
  rw [freshGet_eq hindex, hloaded, answer, hlookup, Option.getD_none]

theorem bothUpdates_survive_inTurn :
    freshGet false zeroFlash (inTurn 1 nameA valueB nameC valueB) .empty 1 nameA = valueB ∧
      freshGet false zeroFlash (inTurn 1 nameA valueB nameC valueB) .empty 1 nameC = valueB := by
  have hindex : checkIndex false 1 = some (1, ⟨0x6000, 0x2000⟩) := by decide
  obtain ⟨setA, setB, sparedA, sparedB⟩ := inTurn_spared nameA valueB nameC valueB hindex
    (by decide) ⟨by decide, by decide⟩ ⟨by decide, by decide⟩
  exact bothUpdates_survive false zeroFlash _ 1 1 _ 0 1 _ _ _ _ hindex setA setB sparedA sparedB .empty

/-- Both sets return 0, and the first one is gone. -/
theorem concurrentSets_loseUpdate :
    nameA ≠ nameC ∧
      SetsAt false zeroFlash (atOnce 1 nameA valueB nameC valueB) 2 .A 1 nameA valueB ∧
      SetsAt false zeroFlash (atOnce 1 nameA valueB nameC valueB) 3 .B 1 nameC valueB ∧
      freshGet false zeroFlash (atOnce 1 nameA valueB nameC valueB) .empty 1 nameA ≠ valueB := by
  have hindex : checkIndex false 1 = some (1, ⟨0x6000, 0x2000⟩) := by decide
  have hne : nameA ≠ nameC := by decide
  obtain ⟨setA, setB, hlost⟩ := atOnce_loses nameA valueB nameC valueB hindex hne
    ⟨by decide, by decide⟩ ⟨by decide, by decide⟩
  refine ⟨hne, setA, setB, ?_⟩
  rw [hlost]
  decide

end Ralink.Nvram
