import Ralink.Lib.BackRef
import Ralink.BlockAck.Table

/-! What the tables are as functions of station, TID and index, in two halves, and which primitive
update of the adapter changes which part of it. -/
namespace Ralink.BlockAck
open Function

structure RecView where
  slot : Nat × Nat → Nat
  entry : Nat → BaRecEntry
  num : Nat
  bits : Nat → BitVec 16

structure OriView where
  slot : Nat × Nat → Nat
  entry : Nat → BaOriEntry
  num : Nat
  done : Nat
  bits : Nat → BitVec 16

structure TableView where
  recip : RecView
  orig : OriView
  commonCfg : BaConfig
  aid : Nat → Nat

namespace RtmpAdapter

def view (ad : RtmpAdapter) : TableView where
  recip :=
    { slot := fun k => (ad.content k.1).baRecWcidArray k.2
      entry := ad.baTable.baRecEntry
      num := ad.baTable.numAsRecipient
      bits := fun w => (ad.content w).rxBAbitmap }
  orig :=
    { slot := fun k => (ad.content k.1).baOriWcidArray k.2
      entry := ad.baTable.baOriEntry
      num := ad.baTable.numAsOriginator
      done := ad.baTable.numDoneOriginator
      bits := fun w => (ad.content w).txBAbitmap }
  commonCfg := ad.commonCfg
  aid w := (ad.content w).aid

variable (ad : RtmpAdapter) (w t i n : Nat) (b : BitVec 16) {β : Type*} (g : MacTableEntry → β)
  (e : MacTableEntry)

theorem field_setContent :
    (fun w' => g ((ad.setContent w e).content w')) = update (fun w' => g (ad.content w')) w (g e) :=
  funext fun w' => apply_update (fun _ => g) ad.content w e w'

theorem field_setContent_same (h : g e = g (ad.content w)) :
    (fun w' => g ((ad.setContent w e).content w')) = fun w' => g (ad.content w') := by
  rw [field_setContent, h, update_eq_self]

theorem update_curried (f : Nat → Nat → Nat) :
    (fun k : Nat × Nat => update f w (update (f w) t i) k.1 k.2) =
      update (fun k : Nat × Nat => f k.1 k.2) (w, t) i := by
  funext ⟨w', t'⟩
  rcases eq_or_ne w' w with rfl | hw
  · rcases eq_or_ne t' t with rfl | ht
    · simp
    · simp [ht]
  · simp [hw]

theorem view_setContent (h : e.aid = (ad.content w).aid) :
    (ad.setContent w e).view =
      { ad.view with
        recip := { ad.view.recip with
          slot := fun k => update (fun w => (ad.content w).baRecWcidArray) w e.baRecWcidArray k.1 k.2
          bits := update ad.view.recip.bits w e.rxBAbitmap }
        orig := { ad.view.orig with
          slot := fun k => update (fun w => (ad.content w).baOriWcidArray) w e.baOriWcidArray k.1 k.2
          bits := update ad.view.orig.bits w e.txBAbitmap } } := by
  have haid := ad.field_setContent_same w (·.aid) e h
  have hrec := ad.field_setContent w (·.baRecWcidArray) e
  have hori := ad.field_setContent w (·.baOriWcidArray) e
  have hrx := ad.field_setContent w (·.rxBAbitmap) e
  have htx := ad.field_setContent w (·.txBAbitmap) e
  simp only [view, haid, hrx, htx, ← hrec, ← hori]
  rfl

@[simp] theorem view_setRecSlot : (ad.setRecSlot w t i).view =
    { ad.view with recip := { ad.view.recip with slot := update ad.view.recip.slot (w, t) i } } := by
  rw [setRecSlot, view_setContent, update_curried w t i fun w => (ad.content w).baRecWcidArray]
  · simp [view]
  · rfl

@[simp] theorem view_setOriSlot : (ad.setOriSlot w t i).view =
    { ad.view with orig := { ad.view.orig with slot := update ad.view.orig.slot (w, t) i } } := by
  rw [setOriSlot, view_setContent, update_curried w t i fun w => (ad.content w).baOriWcidArray]
  · simp [view]
  · rfl

@[simp] theorem view_setRXBAbitmap : (ad.setRXBAbitmap w b).view =
    { ad.view with recip := { ad.view.recip with bits := update ad.view.recip.bits w b } } := by
  rw [setRXBAbitmap, view_setContent]
  · simp [view]
  · rfl

@[simp] theorem view_setTXBAbitmap : (ad.setTXBAbitmap w b).view =
    { ad.view with orig := { ad.view.orig with bits := update ad.view.orig.bits w b } } := by
  rw [setTXBAbitmap, view_setContent]
  · simp [view]
  · rfl

@[simp] theorem view_setBADeclineBitmap : (ad.setBADeclineBitmap w b).view = ad.view := by
  rw [setBADeclineBitmap, view_setContent]
  · simp [view]
  · rfl

@[simp] theorem view_setRec (e : BaRecEntry) : (ad.setRec i e).view =
    { ad.view with recip := { ad.view.recip with entry := update ad.view.recip.entry i e } } := rfl
@[simp] theorem view_setOri (e : BaOriEntry) : (ad.setOri i e).view =
    { ad.view with orig := { ad.view.orig with entry := update ad.view.orig.entry i e } } := rfl
@[simp] theorem view_setNumAsRecipient : (ad.setNumAsRecipient n).view =
    { ad.view with recip := { ad.view.recip with num := n } } := rfl
@[simp] theorem view_setNumAsOriginator : (ad.setNumAsOriginator n).view =
    { ad.view with orig := { ad.view.orig with num := n } } := rfl
@[simp] theorem view_setNumDoneOriginator : (ad.setNumDoneOriginator n).view =
    { ad.view with orig := { ad.view.orig with done := n } } := rfl
@[simp] theorem view_onEntry (f : ReCtx → ReCtx) : (ad.onEntry i f).view =
    { ad.view with recip := { ad.view.recip with
        entry := update ad.view.recip.entry i (f (ad.reCtx i)).entry } } := rfl
@[simp] theorem reCtx_entry : (ad.reCtx i).entry = ad.view.recip.entry i := rfl
@[simp] theorem view_send (f : MgmtFrame) : (ad.send f).view = ad.view := rfl
@[simp] theorem view_allocMem : ad.allocMem.1.view = ad.view := rfl

/-! Reads of the tables, in terms of the view. -/

@[simp] theorem content_aid : (ad.content w).aid = ad.view.aid w := rfl
@[simp] theorem content_baRecWcidArray : (ad.content w).baRecWcidArray t = ad.view.recip.slot (w, t) :=
  rfl
@[simp] theorem content_baOriWcidArray : (ad.content w).baOriWcidArray t = ad.view.orig.slot (w, t) :=
  rfl
@[simp] theorem content_rxBAbitmap : (ad.content w).rxBAbitmap = ad.view.recip.bits w := rfl
@[simp] theorem content_txBAbitmap : (ad.content w).txBAbitmap = ad.view.orig.bits w := rfl
@[simp] theorem baTable_baRecEntry : ad.baTable.baRecEntry i = ad.view.recip.entry i := rfl
@[simp] theorem baTable_baOriEntry : ad.baTable.baOriEntry i = ad.view.orig.entry i := rfl
@[simp] theorem baTable_numAsRecipient : ad.baTable.numAsRecipient = ad.view.recip.num := rfl
@[simp] theorem baTable_numAsOriginator : ad.baTable.numAsOriginator = ad.view.orig.num := rfl
@[simp] theorem baTable_numDoneOriginator : ad.baTable.numDoneOriginator = ad.view.orig.done := rfl
@[simp] theorem commonCfg_view : ad.commonCfg = ad.view.commonCfg := rfl

end RtmpAdapter

@[simp] theorem view_withMem (ad : RtmpAdapter) (mem : List Bool) : (withMem ad mem).view = ad.view :=
  rfl
@[simp] theorem view_passBy (ad : RtmpAdapter) (f : ReCtx → ReCtx) : (passBy ad f).view = ad.view :=
  rfl

end Ralink.BlockAck
