import Mathlib.Data.Nat.Digits.Lemmas
import Mathlib.Data.Nat.Log
import Mathlib.Tactic

/-! A number is a list of words of 32 bits, the lowest first. What the words denote, and what the
lower ones of them say about carries and borrows. -/
namespace Words

def value (ws : List UInt32) : ℕ := Nat.ofDigits (2 ^ 32) (ws.map UInt32.toNat)

variable {a b w : UInt32} {as bs ws : List UInt32} {c i n : ℕ}

@[simp] theorem value_nil : value [] = 0 := rfl

@[simp] theorem value_cons : value (w :: ws) = w.toNat + 2 ^ 32 * value ws := by
  simp only [value, List.map_cons, Nat.ofDigits_cons]

theorem value_append : value (as ++ bs) = value as + (2 ^ 32) ^ as.length * value bs := by
  simp only [value, List.map_append, Nat.ofDigits_append, List.length_map]

theorem toNat_lt (w : UInt32) : w.toNat < 2 ^ 32 := UInt32.toNat_lt w

theorem value_lt (ws : List UInt32) : value ws < (2 ^ 32) ^ ws.length := by
  have hdigits : ∀ d ∈ ws.map UInt32.toNat, d < 2 ^ 32 := by
    intro d hd
    obtain ⟨w, _, rfl⟩ := List.mem_map.mp hd
    exact toNat_lt w
  simpa only [value, List.length_map] using
    Nat.ofDigits_lt_base_pow_length (by decide) hdigits

@[simp] theorem value_zeros (n : ℕ) : value (List.replicate n 0) = 0 := by
  induction n with
  | zero => rfl
  | succ n ih => rw [List.replicate_succ, value_cons, ih]; rfl

theorem value_append_zeros (ws : List UInt32) (n : ℕ) :
    value (ws ++ List.replicate n 0) = value ws := by
  rw [value_append, value_zeros, Nat.mul_zero, Nat.add_zero]

theorem value_inj (hlen : as.length = bs.length) : value as = value bs ↔ as = bs := by
  constructor
  · intro h
    have hmap : as.map UInt32.toNat = bs.map UInt32.toNat := by
      apply Nat.ofDigits_inj_of_len_eq (by decide : 1 < 2 ^ 32) (by simpa using hlen) _ _ h
      · intro d hd
        obtain ⟨w, _, rfl⟩ := List.mem_map.mp hd
        exact toNat_lt w
      · intro d hd
        obtain ⟨w, _, rfl⟩ := List.mem_map.mp hd
        exact toNat_lt w
    exact List.map_injective_iff.mpr (fun _ _ => UInt32.toNat_inj.mp) hmap
  · intro h
    rw [h]

theorem value_take (ws : List UInt32) (n : ℕ) : value (ws.take n) = value ws % (2 ^ 32) ^ n := by
  by_cases hn : n ≤ ws.length
  · have hsplit := @value_append (ws.take n) (ws.drop n)
    have hlt := value_lt (ws.take n)
    rw [List.take_append_drop] at hsplit
    rw [List.length_take, Nat.min_eq_left hn] at hsplit hlt
    rw [hsplit, Nat.add_mul_mod_self_left, Nat.mod_eq_of_lt hlt]
  · have hlt : value ws < (2 ^ 32) ^ n :=
      (value_lt ws).trans_le (Nat.pow_le_pow_right (by decide) (by omega))
    rw [List.take_of_length_le (by omega), Nat.mod_eq_of_lt hlt]

theorem value_take_succ {i : ℕ} (h : i < ws.length) :
    value (ws.take (i + 1)) = value (ws.take i) + (2 ^ 32) ^ i * ws[i].toNat := by
  rw [List.take_succ_eq_append_getElem h, value_append, List.length_take, Nat.min_eq_left h.le,
    value_cons, value_nil, Nat.mul_zero, Nat.add_zero]

theorem value_drop (ws : List UInt32) (n : ℕ) : value (ws.drop n) = value ws / (2 ^ 32) ^ n := by
  by_cases hn : n ≤ ws.length
  · have hsplit := @value_append (ws.take n) (ws.drop n)
    have hlt := value_lt (ws.take n)
    rw [List.take_append_drop] at hsplit
    rw [List.length_take, Nat.min_eq_left hn] at hsplit hlt
    rw [hsplit, Nat.add_mul_div_left _ _ (by positivity), Nat.div_eq_of_lt hlt, Nat.zero_add]
  · have hlt : value ws < (2 ^ 32) ^ n :=
      (value_lt ws).trans_le (Nat.pow_le_pow_right (by decide) (by omega))
    rw [List.drop_eq_nil_of_le (by omega), value_nil, Nat.div_eq_of_lt hlt]

theorem value_set {i : ℕ} (h : i < ws.length) :
    value (ws.set i w) + (2 ^ 32) ^ i * ws[i].toNat = value ws + (2 ^ 32) ^ i * w.toNat := by
  induction ws generalizing i with
  | nil => exact absurd h (Nat.not_lt_zero _)
  | cons v ws ih =>
    cases i with
    | zero =>
      rw [List.set_cons_zero, value_cons, value_cons, List.getElem_cons_zero]
      omega
    | succ i =>
      have hrest := ih (Nat.lt_of_succ_lt_succ h)
      rw [List.set_cons_succ, value_cons, value_cons, List.getElem_cons_succ,
        pow_succ' (2 ^ 32 : ℕ), Nat.mul_assoc, Nat.mul_assoc]
      omega

/-- The lowest `n` words of a number. -/
def toWords : ℕ → ℕ → List UInt32
  | 0, _ => []
  | n + 1, X => UInt32.ofNat X :: toWords n (X / 2 ^ 32)

@[simp] theorem length_toWords (n X : ℕ) : (toWords n X).length = n := by
  induction n generalizing X with
  | zero => rfl
  | succ n ih => rw [toWords, List.length_cons, ih]

theorem value_toWords (n X : ℕ) : value (toWords n X) = X % (2 ^ 32) ^ n := by
  induction n generalizing X with
  | zero => rw [Nat.pow_zero, Nat.mod_one]; rfl
  | succ n ih =>
    rw [toWords, value_cons, ih, UInt32.toNat_ofNat', pow_succ' (2 ^ 32 : ℕ), Nat.mod_mul]

theorem toWords_value (ws : List UInt32) : toWords ws.length (value ws) = ws := by
  apply (value_inj (length_toWords _ _)).mp
  rw [value_toWords]
  exact Nat.mod_eq_of_lt (value_lt ws)

theorem value_eq_zero_iff : value ws = 0 ↔ ∀ w ∈ ws, w = 0 := by
  induction ws with
  | nil => simp
  | cons w ws ih =>
    have hw : w.toNat = 0 ↔ w = 0 := UInt32.toNat_inj (b := 0)
    rw [value_cons, List.forall_mem_cons, ← ih, ← hw]
    omega

theorem value_cons_lt_iff (hc : c ≤ 1) :
    value (a :: as) < value (b :: bs) + c ↔
      value as < value bs + (if a.toNat < b.toNat + c then 1 else 0) := by
  have ha := toNat_lt a
  have hb := toNat_lt b
  rw [value_cons, value_cons]
  split <;> omega

theorem base_pow (n : ℕ) : (2 ^ 32) ^ n = 256 ^ (4 * n) := by
  rw [Nat.pow_mul]
  norm_num

end Words
