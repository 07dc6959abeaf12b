import Ralink.BlockAck.SessionInv

/-! A trace unwraps the circular sequence numbers of one session. Its position is the way
`LastIndSeq` has come since it was last reset; a packet stands ahead of that position by the
distance of its number from `LastIndSeq`. -/
namespace Ralink.BlockAck
open SeqWindow

/-- An indicated packet; `afterBar` says that a BlockAckReq moved `LastIndSeq` since the
packet before it. -/
structure Delivered where
  sequence : Nat
  position : Nat
  ahead : Nat
  afterBar : Bool
  deriving DecidableEq

/-- The packets of the turn that began with the last reset, those of the turns before it,
and the distances by which `LastIndSeq` has moved. -/
structure Trace where
  last : Option Nat := none
  position : Nat := 0
  barred : Bool := false
  turn : List Delivered := []
  finished : List (List Delivered) := []
  moves : List Nat := []
  deriving DecidableEq

def Trace.assign (t : Trace) (value : Nat) : Trace :=
  match t.last with
  | none => { t with last := some value, position := value }
  | some last =>
    { t with
      last := some value
      position := t.position + fwd 4096 last value
      moves := t.moves ++ [fwd 4096 last value] }

def Trace.reset (t : Trace) : Trace :=
  { finished := t.finished ++ [t.turn], moves := t.moves }

def Trace.deliver (t : Trace) (sequence : Nat) : Trace :=
  { t with
    barred := false
    turn := t.turn ++ [{
      sequence
      position := t.position + fwd 4096 (t.last.getD sequence) sequence
      ahead := fwd 4096 (t.last.getD sequence) sequence
      afterBar := t.barred }] }

def Trace.observe (t : Trace) : Out → Trace
  | .released _ => t
  | .lastIndSeq value => if value = RESET_RCV_SEQ then t.reset else t.assign value
  | .indicated _ sequence _ => t.deliver sequence

def Trace.observeAll (t : Trace) (out : List Out) : Trace := out.foldl Trace.observe t

@[simp] theorem observeAll_nil (t : Trace) : t.observeAll [] = t := rfl
@[simp] theorem observeAll_append (t : Trace) (o o' : List Out) :
    t.observeAll (o ++ o') = (t.observeAll o).observeAll o' := List.foldl_append
@[simp] theorem observeAll_released (t : Trace) (packet : Nat) :
    t.observeAll [.released packet] = t := rfl

/-- What holds of consecutive packets of a turn. -/
def Follows (x y : Delivered) : Prop :=
  x.position < y.position ∧
    (y.afterBar = false →
      1 ≤ fwd 4096 x.sequence y.sequence ∧ fwd 4096 x.sequence y.sequence ≤ 2048)

def Trace.turns (t : Trace) : List (List Delivered) := t.finished ++ [t.turn]

/-- Delivery in order: positions are the numbers unwrapped, packets lie within a window of
`LastIndSeq`, which only moves forward and by less than half a circle, and the packets of
a turn follow one another. -/
structure Trace.InOrder (t : Trace) : Prop where
  unwrapped : ∀ turn ∈ t.turns, ∀ p ∈ turn, p.position % 4096 = p.sequence ∧ p.ahead < 256
  forward : ∀ d ∈ t.moves, d < 2048
  order : ∀ turn ∈ t.turns, turn.IsChain Follows

structure Midway (t : Trace) (W last : Nat) (l : List ReorderingMpdu) : Prop where
  inOrder : t.InOrder
  width : W < 256
  window : Ahead W last l
  lastIs : t.last = some last
  number : t.position % 4096 = last
  beyond : ∀ p ∈ t.turn.getLast?, ∀ m ∈ l, p.position < t.position + fwd 4096 last m.sequence
  near : t.barred = false → ∀ p ∈ t.turn.getLast?, ∀ m ∈ l.head?,
    t.position + fwd 4096 last m.sequence < p.position + 2048

structure Behind (k : Nat) (t : Trace) (W last : Nat) (l : List ReorderingMpdu) : Prop
    extends Midway t W last l where
  below : ∀ p ∈ t.turn.getLast?, p.position ≤ t.position
  gap : l = [] → t.barred = false → ∀ p ∈ t.turn.getLast?, t.position + k < p.position + 2048

variable {t : Trace} {W last k v : Nat} {l pre rest : List ReorderingMpdu} {m : ReorderingMpdu}

theorem fwd_of_position {a b M : Nat} (hM : 0 < M) (h : a ≤ b) (hd : b - a < M) :
    fwd M (a % M) (b % M) = b - a := by
  have ha := Nat.mod_add_div a M
  have hb := Nat.mod_add_div b M
  have hla := Nat.mod_lt a hM
  have hlb := Nat.mod_lt b hM
  have hdiv : b / M = a / M ∨ b / M = a / M + 1 := by
    have h1 : a / M ≤ b / M := Nat.div_le_div_right h
    have h2 : b / M ≤ a / M + 1 := by
      have : b < a + M := by omega
      calc b / M ≤ (a + M) / M := Nat.div_le_div_right this.le
        _ = a / M + 1 := Nat.add_div_right a hM
    omega
  unfold fwd
  rcases hdiv with hq | hq
  · rw [hq] at hb
    split <;> omega
  · rw [hq, Nat.mul_add, Nat.mul_one] at hb
    split <;> omega

theorem Trace.InOrder.deliver (h : t.InOrder) (hlast : t.last = some last)
    (hnum : t.position % 4096 = last) {sequence : Nat} (hs : sequence < 4096)
    (hahead : fwd 4096 last sequence < 256)
    (hbeyond : ∀ p ∈ t.turn.getLast?, p.position < t.position + fwd 4096 last sequence)
    (hnear : t.barred = false → ∀ p ∈ t.turn.getLast?,
      t.position + fwd 4096 last sequence < p.position + 2048) :
    (t.deliver sequence).InOrder := by
  have hL : last < 4096 := hnum ▸ Nat.mod_lt _ (by omega)
  have hposition : (t.position + fwd 4096 last sequence) % 4096 = sequence := by
    rw [Nat.add_mod, hnum]
    unfold fwd
    split <;> omega
  have hturns : ∀ {P : List Delivered → Prop}, (∀ turn ∈ t.turns, P turn) →
      (P t.turn → P (t.deliver sequence).turn) → ∀ turn ∈ (t.deliver sequence).turns, P turn := by
    intro P hall hnew turn hmem
    rcases List.mem_append.mp hmem with hmem | hmem
    · exact hall turn (List.mem_append_left _ hmem)
    · rw [List.mem_singleton.mp hmem]
      exact hnew (hall _ (List.mem_append_right _ List.mem_cons_self))
  have hnew : (t.deliver sequence).turn = t.turn ++ [{
      sequence, position := t.position + fwd 4096 last sequence
      ahead := fwd 4096 last sequence, afterBar := t.barred }] := by
    simp [Trace.deliver, hlast]
  refine ⟨hturns h.unwrapped fun hturn p hp => ?_, h.forward, hturns h.order fun hturn => ?_⟩
  · rw [hnew] at hp
    rcases List.mem_append.mp hp with hp | hp
    · exact hturn p hp
    · rw [List.mem_singleton.mp hp]
      exact ⟨hposition, hahead⟩
  · rw [hnew, List.isChain_append]
    refine ⟨hturn, List.isChain_singleton _, fun x hx y hy => ?_⟩
    obtain rfl := Option.some.inj hy
    refine ⟨hbeyond x hx, fun hbar => ?_⟩
    have hlt := hbeyond x hx
    have hclose := hnear hbar x hx
    have hxs := (h.unwrapped t.turn (List.mem_append_right _ List.mem_cons_self) x
      (List.mem_of_getLast? hx)).1
    have hd := fwd_of_position (M := 4096) (by omega) hlt.le (by omega)
    rw [hxs, hposition] at hd
    dsimp only
    omega

theorem Midway.announce (h : Midway t W last (m :: rest)) :
    Midway (t.observe (announced m)) W last rest ∧
      (t.observe (announced m)).position = t.position ∧
      (t.observe (announced m)).barred = false ∧
      (t.observe (announced m)).turn.getLast?.map (·.position) =
        some (t.position + fwd 4096 last m.sequence) := by
  obtain ⟨hlt, h1, hw⟩ := h.window.dist (List.mem_cons_self (a := m) (l := rest))
  have hwidth := h.width
  have htop : (t.deliver m.sequence).turn.getLast? = some {
      sequence := m.sequence, position := t.position + fwd 4096 last m.sequence
      ahead := fwd 4096 last m.sequence, afterBar := t.barred } := by
    simp [Trace.deliver, h.lastIs]
  change Midway (t.deliver m.sequence) W last rest ∧ (t.deliver m.sequence).position = _ ∧
    (t.deliver m.sequence).barred = _ ∧ (t.deliver m.sequence).turn.getLast?.map _ = _
  refine ⟨⟨?_, hwidth, h.window.sublist (List.sublist_cons_self m rest), h.lastIs, h.number, ?_, ?_⟩,
    rfl, rfl, by rw [htop]; rfl⟩
  · exact h.inOrder.deliver h.lastIs h.number hlt (by omega)
      (fun p hp => h.beyond p hp m List.mem_cons_self) fun hb p hp => h.near hb p hp m rfl
  · intro p hp x hx
    obtain rfl := Option.some.inj (htop.symm.trans hp)
    have := List.rel_of_pairwise_cons h.window.sorted hx
    exact Nat.add_lt_add_left this _
  · intro _ p hp x hx
    obtain rfl := Option.some.inj (htop.symm.trans hp)
    have hx' := h.window.dist (List.mem_cons_of_mem m (List.mem_of_mem_head? hx))
    change t.position + fwd 4096 last x.sequence < t.position + fwd 4096 last m.sequence + 2048
    omega

theorem Midway.announceAll (h : Midway t W last (pre ++ rest)) :
    Midway (t.observeAll (pre.map announced)) W last rest ∧
      (t.observeAll (pre.map announced)).position = t.position ∧
      ∀ m ∈ pre.getLast?, (t.observeAll (pre.map announced)).barred = false ∧
        (t.observeAll (pre.map announced)).turn.getLast?.map (·.position) =
          some (t.position + fwd 4096 last m.sequence) := by
  induction pre generalizing t with
  | nil => exact ⟨h, rfl, fun m hm => by cases hm⟩
  | cons x pre ih =>
    obtain ⟨hmid, hpos, hbar, htop⟩ := h.announce
    obtain ⟨hmid', hpos', hlast⟩ := ih hmid
    refine ⟨hmid', hpos'.trans hpos, fun m hm => ?_⟩
    cases pre with
    | nil =>
      obtain rfl := Option.some.inj hm
      exact ⟨hbar, htop⟩
    | cons y pre =>
      have := hlast m hm
      rwa [hpos] at this

theorem Midway.assign (h : Midway t W last l) (hv : v < 4096) (hlt : fwd 4096 last v < 2048)
    (hl : ∀ m ∈ l, fwd 4096 last v < fwd 4096 last m.sequence) :
    Midway (t.assign v) W v l ∧ (t.assign v).position = t.position + fwd 4096 last v ∧
      (t.assign v).turn = t.turn ∧ (t.assign v).barred = t.barred := by
  have ht : t.assign v = { t with
      last := some v, position := t.position + fwd 4096 last v
      moves := t.moves ++ [fwd 4096 last v] } := by
    simp [Trace.assign, h.lastIs]
  have hL := h.window.1
  have hdist : ∀ m ∈ l, fwd 4096 last v + fwd 4096 v m.sequence = fwd 4096 last m.sequence := by
    intro m hm
    have := hl m hm
    rw [fwd_advance hL hv (h.window.dist hm).1 (by omega)]
    omega
  rw [ht]
  refine ⟨⟨⟨h.inOrder.unwrapped, ?_, h.inOrder.order⟩, h.width,
    (h.window.advance hv hl).mono (Nat.sub_le _ _), rfl, ?_, ?_, ?_⟩, rfl, rfl, rfl⟩
  · intro d hd
    rcases List.mem_append.mp hd with hd | hd
    · exact h.inOrder.forward d hd
    · rw [List.mem_singleton.mp hd]
      exact hlt
  · have hn := h.number
    dsimp only
    unfold fwd
    split <;> omega
  · intro p hp m hm
    rw [add_assoc, hdist m hm]
    exact h.beyond p hp m hm
  · intro hb p hp m hm
    rw [add_assoc, hdist m (List.mem_of_mem_head? hm)]
    exact h.near hb p hp m hm

theorem Behind.advance (h : Behind k t W last (pre ++ rest)) (hv : v < 4096)
    (hk : k < 2048) (hlt : fwd 4096 last v ≤ k)
    (hpre : ∀ m ∈ pre, fwd 4096 last m.sequence ≤ fwd 4096 last v)
    (hrest : ∀ m ∈ rest, fwd 4096 last v < fwd 4096 last m.sequence) :
    Behind (k - fwd 4096 last v) ((t.observeAll (pre.map announced)).assign v) W v rest ∧
      ((∀ m ∈ pre, fwd 4096 last m.sequence < fwd 4096 last v) → 0 < fwd 4096 last v →
        ∀ p ∈ ((t.observeAll (pre.map announced)).assign v).turn.getLast?,
          p.position < ((t.observeAll (pre.map announced)).assign v).position) ∧
      (∀ m ∈ pre.getLast?, fwd 4096 last m.sequence = fwd 4096 last v →
        ∀ p ∈ ((t.observeAll (pre.map announced)).assign v).turn.getLast?,
          p.position = ((t.observeAll (pre.map announced)).assign v).position) := by
  obtain ⟨hmid, hpos, htop⟩ := h.toMidway.announceAll
  obtain ⟨hmid', hpos', hturn, hbar⟩ := hmid.assign hv (by omega) hrest
  rw [hpos] at hpos'
  rw [hpos', hturn]
  -- the last packet is the one before, or the last of the part that went up
  have hcase : (pre = [] ∧ t.observeAll (pre.map announced) = t) ∨ ∃ m ∈ pre.getLast?,
      ∀ p ∈ (t.observeAll (pre.map announced)).turn.getLast?,
        p.position = t.position + fwd 4096 last m.sequence := by
    cases hp : pre.getLast? with
    | none =>
      rw [List.getLast?_eq_none_iff] at hp
      subst hp
      exact Or.inl ⟨rfl, rfl⟩
    | some m =>
      refine Or.inr ⟨m, rfl, fun p hpm => ?_⟩
      have := (htop m hp).2
      rw [Option.mem_def.mp hpm] at this
      exact Option.some.inj this
  have hdist : ∀ m ∈ pre.getLast?, m ∈ pre ∧ 1 ≤ fwd 4096 last m.sequence := fun m hm =>
    have hmem := List.mem_of_getLast? hm
    ⟨hmem, (h.window.dist (List.mem_append_left rest hmem)).2.1⟩
  refine ⟨⟨hmid', fun p hp => ?_, fun hnil hb p hp => ?_⟩, fun hstrict h0 p hp => ?_, ?_⟩
  · rw [hturn] at hp
    rw [hpos']
    rcases hcase with ⟨-, ht⟩ | ⟨m, hm, htop'⟩
    · rw [ht] at hp
      exact (h.below p hp).trans (Nat.le_add_right _ _)
    · rw [htop' p hp]
      exact Nat.add_le_add_left (hpre m (hdist m hm).1) _
  · rw [hturn] at hp
    rw [hbar] at hb
    rw [hpos']
    rcases hcase with ⟨hnilp, ht⟩ | ⟨m, hm, htop'⟩
    · rw [ht] at hp hb
      have := h.gap (by rw [hnilp, hnil]; rfl) hb p hp
      omega
    · have := (hdist m hm).2
      rw [htop' p hp]
      omega
  · rcases hcase with ⟨-, ht⟩ | ⟨m, hm, htop'⟩
    · rw [ht] at hp
      have := h.below p hp
      omega
    · rw [htop' p hp]
      exact Nat.add_lt_add_left (hstrict m (hdist m hm).1) _
  · intro m hm heq p hp
    have := (htop m hm).2
    rw [Option.mem_def.mp hp] at this
    rw [← heq]
    exact Option.some.inj this

theorem Behind.full (h : Behind k t W last l) (hk : ∀ p ∈ t.turn.getLast?, p.position = t.position) :
    Behind 2047 t W last l :=
  ⟨h.toMidway, h.below, fun _ _ p hp => by rw [hk p hp]; omega⟩

theorem Behind.of_ne_nil (h : Behind k t W last l) (hl : l ≠ []) : Behind 2047 t W last l :=
  ⟨h.toMidway, h.below, fun hnil => absurd hnil hl⟩

theorem Behind.deliver (h : Behind k t W last l)
    (hstrict : ∀ p ∈ t.turn.getLast?, p.position < t.position) :
    Behind 2047 (t.deliver last) W last l := by
  have hwidth := h.width
  have htop : (t.deliver last).turn.getLast? = some {
      sequence := last, position := t.position, ahead := 0, afterBar := t.barred } := by
    simp [Trace.deliver, h.lastIs]
  refine ⟨⟨?_, hwidth, h.window, h.lastIs, h.number, ?_, ?_⟩, ?_, ?_⟩
  · refine h.inOrder.deliver h.lastIs h.number h.window.1 (by simp) (by simpa using hstrict) ?_
    intro hb p hp
    rw [fwd_self]
    cases l with
    | nil =>
      have := h.gap rfl hb p hp
      omega
    | cons m rest =>
      have := h.near hb p hp m rfl
      omega
  · intro p hp m hm
    obtain rfl := Option.some.inj (htop.symm.trans hp)
    have := (h.window.dist hm).2.1
    change t.position < t.position + _
    omega
  · intro _ p hp m hm
    obtain rfl := Option.some.inj (htop.symm.trans hp)
    have := (h.window.dist (List.mem_of_mem_head? hm)).2.2
    change t.position + fwd 4096 last m.sequence < t.position + 2048
    omega
  · intro p hp
    obtain rfl := Option.some.inj (htop.symm.trans hp)
    exact le_refl t.position
  · intro _ _ p hp
    obtain rfl := Option.some.inj (htop.symm.trans hp)
    change t.position + 2047 < t.position + 2048
    omega

end Ralink.BlockAck
