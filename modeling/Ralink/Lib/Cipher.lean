import Ralink.Lib.ByteStore

/-! Under each key a block cipher permutes the blocks of one length. Loops over blocks are undone
turn by turn in the reverse order. -/
namespace Cipher

/-- A permutation of the blocks of `n` bytes for each key. -/
structure BlockCipher (n : Nat) where
  encrypt : List UInt8 → List UInt8 → List UInt8
  decrypt : List UInt8 → List UInt8 → List UInt8
  length_encrypt : ∀ key {block}, block.length = n → (encrypt key block).length = n
  length_decrypt : ∀ key {block}, block.length = n → (decrypt key block).length = n
  decrypt_encrypt : ∀ key {block}, block.length = n → decrypt key (encrypt key block) = block
  encrypt_decrypt : ∀ key {block}, block.length = n → encrypt key (decrypt key block) = block

theorem xor_cancel (a k : UInt8) : a ^^^ k ^^^ k = a := by
  rw [UInt8.xor_assoc, UInt8.xor_self, UInt8.xor_zero]

section Texts

variable {as bs ks ls : List UInt8}

def xorBytes (bs ks : List UInt8) : List UInt8 := List.zipWith (· ^^^ ·) bs ks

@[simp] theorem length_xorBytes : (xorBytes bs ks).length = min bs.length ks.length :=
  List.length_zipWith

theorem xorBytes_comm : xorBytes bs ks = xorBytes ks bs :=
  List.zipWith_comm_of_comm fun _ _ => UInt8.xor_comm _ _

theorem xorBytes_append (h : bs.length = ks.length) :
    xorBytes (bs ++ as) (ks ++ ls) = xorBytes bs ks ++ xorBytes as ls :=
  List.zipWith_append h

theorem xorBytes_cancel (h : bs.length ≤ ks.length) : xorBytes (xorBytes bs ks) ks = bs := by
  induction bs generalizing ks with
  | nil => rfl
  | cons b bs ih =>
    cases ks with
    | nil => cases h
    | cons k ks =>
      have hrest := ih (Nat.le_of_succ_le_succ h)
      show (b ^^^ k ^^^ k) :: xorBytes (xorBytes bs ks) ks = b :: bs
      rw [xor_cancel, hrest]

end Texts

section Undo

variable {σ ι : Type*} {f g : σ → ι → σ} {I : σ → Prop} {s : σ} {l : List ι}

theorem foldl_inv (hf : ∀ s, ∀ i ∈ l, I s → I (f s i)) (hs : I s) : I (l.foldl f s) := by
  induction l generalizing s with
  | nil => exact hs
  | cons i l ih =>
    have hnext : I (f s i) := hf s i List.mem_cons_self hs
    exact ih (fun s j hj => hf s j (List.mem_cons_of_mem i hj)) hnext

theorem foldl_undo (hf : ∀ s, ∀ i ∈ l, I s → I (f s i)) (hg : ∀ s, ∀ i ∈ l, I s → g (f s i) i = s)
    (hs : I s) : l.reverse.foldl g (l.foldl f s) = s := by
  induction l generalizing s with
  | nil => rfl
  | cons i l ih =>
    have hnext : I (f s i) := hf s i List.mem_cons_self hs
    have hrest := ih (fun s j hj => hf s j (List.mem_cons_of_mem i hj))
      (fun s j hj => hg s j (List.mem_cons_of_mem i hj)) hnext
    rw [List.foldl_cons, List.reverse_cons, List.foldl_append, hrest, List.foldl_cons, List.foldl_nil]
    exact hg s i List.mem_cons_self hs

end Undo

end Cipher
