import Mathlib.Tactic

/-! `fwd M a b` is the forward distance from `a` to `b` on a circle of `M` numbers. A window is a
list of numbers strictly increasing by distance from an origin, all within a width of it. -/
namespace SeqWindow

def fwd (M a b : Nat) : Nat := if a ≤ b then b - a else M + b - a

variable {M W o a b x y : Nat} {l : List Nat}

@[simp] theorem fwd_self (M a : Nat) : fwd M a a = 0 := by simp [fwd]

theorem fwd_lt (ha : a < M) (hb : b < M) : fwd M a b < M := by
  unfold fwd
  split <;> omega

theorem fwd_eq_mod (ha : a < M) (hb : b < M) : fwd M a b = (M + b - a) % M := by
  unfold fwd
  split
  · have h : M + b - a = (b - a) + M := by omega
    rw [h, Nat.add_mod_right, Nat.mod_eq_of_lt (by omega)]
  · rw [Nat.mod_eq_of_lt (by omega)]

theorem fwd_eq_zero (ha : a < M) : fwd M a b = 0 ↔ a = b := by
  unfold fwd
  split <;> omega

theorem fwd_injective (ho : o < M) (hx : x < M) (hy : y < M) (h : fwd M o x = fwd M o y) : x = y := by
  unfold fwd at h
  split at h <;> split at h <;> omega

theorem fwd_advance (ho : o < M) (hb : b < M) (hx : x < M) (h : fwd M o b ≤ fwd M o x) :
    fwd M b x = fwd M o x - fwd M o b := by
  unfold fwd at *
  split at h <;> split at h <;> split <;> omega

theorem fwd_passed (ho : o < M) (hb : b < M) (h : fwd M o x < fwd M o b) :
    fwd M b x = M + fwd M o x - fwd M o b := by
  unfold fwd at *
  split at h <;> split at h <;> split <;> omega

theorem fwd_succ (hM : 1 < M) (ha : a < M) : fwd M a ((a + 1) % M) = 1 := by
  rcases Nat.lt_or_ge (a + 1) M with h | h
  · rw [Nat.mod_eq_of_lt h]
    unfold fwd
    split <;> omega
  · have he : a + 1 = M := by omega
    rw [he, Nat.mod_self]
    unfold fwd
    split <;> omega

theorem eq_succ_of_fwd (hM : 1 < M) (ha : a < M) (hb : b < M) (h : fwd M a b = 1) :
    b = (a + 1) % M :=
  fwd_injective ha hb (Nat.mod_lt _ (by omega)) (h.trans (fwd_succ hM ha).symm)

/-- The half-circle comparison: `x` comes before `y`, by at most half a turn. -/
def Smaller (M x y : Nat) : Prop := M / 2 ≤ fwd M y x

theorem smaller_iff (ho : o < M) (hx : x < M) (hy : y < M) (nx : fwd M o x < M / 2)
    (ny : fwd M o y ≤ M / 2) : Smaller M x y ↔ fwd M o x < fwd M o y := by
  unfold Smaller
  rcases Nat.lt_or_ge (fwd M o x) (fwd M o y) with h | h
  · rw [fwd_passed ho hy h]
    omega
  · rw [fwd_advance ho hy hx h]
    omega

/-- A list of sequence numbers strictly ahead of `o`, within `W` of it, in order. -/
structure Window (M W o : Nat) (l : List Nat) : Prop where
  mem_lt : ∀ x ∈ l, x < M
  ahead : ∀ x ∈ l, 1 ≤ fwd M o x
  near : ∀ x ∈ l, fwd M o x ≤ W
  sorted : l.Pairwise (fun x y => fwd M o x < fwd M o y)

@[simp] theorem Window.nil : Window M W o [] := ⟨by simp, by simp, by simp, .nil⟩

theorem Window.sublist {l' : List Nat} (h : Window M W o l) (hs : l'.Sublist l) : Window M W o l' :=
  ⟨fun x hx => h.mem_lt x (hs.subset hx), fun x hx => h.ahead x (hs.subset hx),
    fun x hx => h.near x (hs.subset hx), h.sorted.sublist hs⟩

theorem Window.mono {W' : Nat} (h : Window M W o l) (hw : W ≤ W') : Window M W' o l :=
  ⟨h.mem_lt, h.ahead, fun x hx => (h.near x hx).trans hw, h.sorted⟩

theorem Window.advance (h : Window M W o l) (ho : o < M) (hb : b < M)
    (hl : ∀ x ∈ l, fwd M o b < fwd M o x) : Window M (W - fwd M o b) b l := by
  have hd : ∀ x ∈ l, fwd M b x = fwd M o x - fwd M o b := fun x hx =>
    fwd_advance ho hb (h.mem_lt x hx) (hl x hx).le
  refine ⟨h.mem_lt, fun x hx => ?_, fun x hx => ?_, ?_⟩
  · have := hl x hx
    rw [hd x hx]
    omega
  · have := h.near x hx
    rw [hd x hx]
    omega
  · refine h.sorted.imp_of_mem ?_
    intro x y hx hy hxy
    have := hl x hx
    rw [hd x hx, hd y hy]
    omega

theorem Window.length_le (h : Window M W o l) : l.length ≤ W := by
  have hp : (l.map (fwd M o)).Pairwise (· < ·) := List.pairwise_map.mpr h.sorted
  have hn : (l.map (fwd M o)).Nodup := hp.imp (fun hlt => Nat.ne_of_lt hlt)
  have hsub : (l.map (fwd M o)).toFinset ⊆ Finset.Icc 1 W := by
    intro d hd
    simp only [List.mem_toFinset, List.mem_map] at hd
    obtain ⟨x, hx, rfl⟩ := hd
    exact Finset.mem_Icc.mpr ⟨h.ahead x hx, h.near x hx⟩
  have hc := Finset.card_le_card hsub
  rw [List.toFinset_card_of_nodup hn, List.length_map, Nat.card_Icc] at hc
  omega

theorem Window.insert {l₁ l₂ : List Nat} (h : Window M W o (l₁ ++ l₂)) (hx : x < M)
    (h1 : 1 ≤ fwd M o x) (hw : fwd M o x ≤ W) (hl : ∀ y ∈ l₁, fwd M o y < fwd M o x)
    (hr : ∀ y ∈ l₂, fwd M o x < fwd M o y) : Window M W o (l₁ ++ x :: l₂) := by
  have hsplit := List.pairwise_append.mp h.sorted
  have hall : ∀ {p : Nat → Prop}, (∀ y ∈ l₁ ++ l₂, p y) → p x → ∀ y ∈ l₁ ++ x :: l₂, p y := by
    intro p hp hpx y hy
    rcases List.mem_append.mp hy with hy | hy
    · exact hp y (List.mem_append_left _ hy)
    · rcases List.mem_cons.mp hy with rfl | hy
      · exact hpx
      · exact hp y (List.mem_append_right _ hy)
  refine ⟨hall h.mem_lt hx, hall h.ahead h1, hall h.near hw, ?_⟩
  refine List.pairwise_append.mpr ⟨hsplit.1, List.pairwise_cons.mpr ⟨hr, hsplit.2.1⟩, ?_⟩
  intro y hy z hz
  rcases List.mem_cons.mp hz with rfl | hz
  · exact hl y hy
  · exact hsplit.2.2 y hy z hz

end SeqWindow
