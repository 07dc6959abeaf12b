import Ralink.Crypt.Aes

/-! The coding of `cmm_aes.c`, and that it gives the blocks of the one of `crypt_aes.c`. The bytes
of a block are those of the square read down its columns, and the key of a round is made of the one
before as the four words of the expanded key are. -/
namespace Ralink.Crypt

open XorSpace Cipher

theorem neZero_sixteen : NeZero 16 := ⟨by decide⟩

attribute [local instance] neZero_four neZero_sixteen

def SboxTable : List UInt8 := [
  0x63, 0x7c, 0x77, 0x7b, 0xf2, 0x6b, 0x6f, 0xc5, 0x30, 0x01, 0x67, 0x2b, 0xfe, 0xd7, 0xab, 0x76,
  0xca, 0x82, 0xc9, 0x7d, 0xfa, 0x59, 0x47, 0xf0, 0xad, 0xd4, 0xa2, 0xaf, 0x9c, 0xa4, 0x72, 0xc0,
  0xb7, 0xfd, 0x93, 0x26, 0x36, 0x3f, 0xf7, 0xcc, 0x34, 0xa5, 0xe5, 0xf1, 0x71, 0xd8, 0x31, 0x15,
  0x04, 0xc7, 0x23, 0xc3, 0x18, 0x96, 0x05, 0x9a, 0x07, 0x12, 0x80, 0xe2, 0xeb, 0x27, 0xb2, 0x75,
  0x09, 0x83, 0x2c, 0x1a, 0x1b, 0x6e, 0x5a, 0xa0, 0x52, 0x3b, 0xd6, 0xb3, 0x29, 0xe3, 0x2f, 0x84,
  0x53, 0xd1, 0x00, 0xed, 0x20, 0xfc, 0xb1, 0x5b, 0x6a, 0xcb, 0xbe, 0x39, 0x4a, 0x4c, 0x58, 0xcf,
  0xd0, 0xef, 0xaa, 0xfb, 0x43, 0x4d, 0x33, 0x85, 0x45, 0xf9, 0x02, 0x7f, 0x50, 0x3c, 0x9f, 0xa8,
  0x51, 0xa3, 0x40, 0x8f, 0x92, 0x9d, 0x38, 0xf5, 0xbc, 0xb6, 0xda, 0x21, 0x10, 0xff, 0xf3, 0xd2,
  0xcd, 0x0c, 0x13, 0xec, 0x5f, 0x97, 0x44, 0x17, 0xc4, 0xa7, 0x7e, 0x3d, 0x64, 0x5d, 0x19, 0x73,
  0x60, 0x81, 0x4f, 0xdc, 0x22, 0x2a, 0x90, 0x88, 0x46, 0xee, 0xb8, 0x14, 0xde, 0x5e, 0x0b, 0xdb,
  0xe0, 0x32, 0x3a, 0x0a, 0x49, 0x06, 0x24, 0x5c, 0xc2, 0xd3, 0xac, 0x62, 0x91, 0x95, 0xe4, 0x79,
  0xe7, 0xc8, 0x37, 0x6d, 0x8d, 0xd5, 0x4e, 0xa9, 0x6c, 0x56, 0xf4, 0xea, 0x65, 0x7a, 0xae, 0x08,
  0xba, 0x78, 0x25, 0x2e, 0x1c, 0xa6, 0xb4, 0xc6, 0xe8, 0xdd, 0x74, 0x1f, 0x4b, 0xbd, 0x8b, 0x8a,
  0x70, 0x3e, 0xb5, 0x66, 0x48, 0x03, 0xf6, 0x0e, 0x61, 0x35, 0x57, 0xb9, 0x86, 0xc1, 0x1d, 0x9e,
  0xe1, 0xf8, 0x98, 0x11, 0x69, 0xd9, 0x8e, 0x94, 0x9b, 0x1e, 0x87, 0xe9, 0xce, 0x55, 0x28, 0xdf,
  0x8c, 0xa1, 0x89, 0x0d, 0xbf, 0xe6, 0x42, 0x68, 0x41, 0x99, 0x2d, 0x0f, 0xb0, 0x54, 0xbb, 0x16]

def RTMPCkipSbox (a : UInt8) : UInt8 := entry SboxTable a

def xor_32 (a b : Vector UInt8 4) : Vector UInt8 4 := .ofFn fun i => a.get i ^^^ b.get i

def xor_128 (a b : Vector UInt8 16) : Vector UInt8 16 := .ofFn fun i => a.get i ^^^ b.get i

def rcon_table : List UInt8 :=
  [0x01, 0x02, 0x04, 0x08, 0x10, 0x20, 0x40, 0x80, 0x1b, 0x36, 0x36, 0x36]

def four (key : Vector UInt8 16) (i : Fin 4) : Vector UInt8 4 :=
  .ofFn fun j => key[4 * i.val + j.val]

def fours (k₀ k₁ k₂ k₃ : Vector UInt8 4) : Vector UInt8 16 :=
  #v[k₀.get 0, k₀.get 1, k₀.get 2, k₀.get 3, k₁.get 0, k₁.get 1, k₁.get 2, k₁.get 3,
    k₂.get 0, k₂.get 1, k₂.get 2, k₂.get 3, k₃.get 0, k₃.get 1, k₃.get 2, k₃.get 3]

def next_key (key : Vector UInt8 16) (round : Nat) : Vector UInt8 16 :=
  let sbox_key := #v[RTMPCkipSbox (key.get 13), RTMPCkipSbox (key.get 14), RTMPCkipSbox (key.get 15),
    RTMPCkipSbox (key.get 12)]
  let rcon := rcon_table.getD round 0
  let k₀ := xor_32 (four key 0) sbox_key
  let k₀ := #v[k₀.get 0 ^^^ rcon, k₀.get 1, k₀.get 2, k₀.get 3]
  let k₁ := xor_32 (four key 1) k₀
  let k₂ := xor_32 (four key 2) k₁
  let k₃ := xor_32 (four key 3) k₂
  fours k₀ k₁ k₂ k₃

def byte_sub (block : Vector UInt8 16) : Vector UInt8 16 := .ofFn fun i => RTMPCkipSbox (block.get i)

def shift_row (block : Vector UInt8 16) : Vector UInt8 16 :=
  #v[block.get 0, block.get 5, block.get 10, block.get 15,
    block.get 4, block.get 9, block.get 14, block.get 3,
    block.get 8, block.get 13, block.get 2, block.get 7,
    block.get 12, block.get 1, block.get 6, block.get 11]

/-- Four bytes taken as one number and shifted up by a bit. Their high bits have been cleared. -/
def shiftLeft (andf7 : Vector UInt8 4) : Vector UInt8 4 :=
  .ofFn fun i =>
    if i = 0 then (andf7.get 0 <<< 1) &&& 0xfe
    else if andf7.get (i - 1) &&& 0x80 = 0x80 then (andf7.get i <<< 1) ||| 0x01
    else andf7.get i <<< 1

def add1bf7 (col : Vector UInt8 4) : Vector UInt8 4 :=
  let add1b : Vector UInt8 4 := .ofFn fun i => if col.get i &&& 0x80 = 0x80 then 0x1b else 0x00
  let andf7 := #v[col.get 0 &&& 0x7f, col.get 1 &&& 0x7f, col.get 2 &&& 0x7f, col.get 3 &&& 0x7f]
  xor_32 add1b (shiftLeft andf7)

def mix_column (col : Vector UInt8 4) : Vector UInt8 4 :=
  let swap_halfs := #v[col.get 2, col.get 3, col.get 0, col.get 1]
  let rotl := #v[col.get 3, col.get 0, col.get 1, col.get 2]
  let rotr := xor_32 col (add1bf7 col)
  let rotr := #v[rotr.get 1, rotr.get 2, rotr.get 3, rotr.get 0]
  let temp := xor_32 (add1bf7 col) rotr
  let tempb := xor_32 swap_halfs rotl
  xor_32 temp tempb

def mix_columns (block : Vector UInt8 16) : Vector UInt8 16 :=
  fours (mix_column (four block 0)) (mix_column (four block 1)) (mix_column (four block 2))
    (mix_column (four block 3))

def aesRound (s : Vector UInt8 16 × Vector UInt8 16) (data : Vector UInt8 16) (round : Nat) :
    Vector UInt8 16 × Vector UInt8 16 :=
  if round = 0 then (next_key s.1 round, xor_128 s.1 data)
  else if round = 10 then (s.1, xor_128 (shift_row (byte_sub s.2)) s.1)
  else (next_key s.1 round, xor_128 (mix_columns (shift_row (byte_sub s.2))) s.1)

/-- What `ciphertext` holds before is not looked at. -/
def aes128k128d (key data ciphertext : Vector UInt8 16) : Vector UInt8 16 :=
  ((List.range 11).foldl (fun s round => aesRound s data round) (key, ciphertext)).2

section Steps

variable (block : Vector UInt8 16) (col : Vector UInt8 4)

def square (block : Vector UInt8 16) : State := State.of fun r c => (four block c).get r

theorem stateBlock_toList : stateBlock block.toList = square block := by
  refine State.ext_at fun r c => ?_
  have hi : 4 * (c : Nat) + r < 16 := by omega
  rw [stateBlock, State.at_of, square, State.at_of, Nat.add_comm, four, get_ofFn]
  simp [hi]

theorem four_fours (k₀ k₁ k₂ k₃ : Vector UInt8 4) (i : Fin 4) :
    four (fours k₀ k₁ k₂ k₃) i = ![k₀, k₁, k₂, k₃] i := by
  refine Vector.ext fun j hj => ?_
  rw [four, Vector.getElem_ofFn]
  match i with
  | 0 => interval_cases j <;> rfl
  | 1 => interval_cases j <;> rfl
  | 2 => interval_cases j <;> rfl
  | 3 => interval_cases j <;> rfl

theorem ckipSbox_eq (a : UInt8) : RTMPCkipSbox a = entry aes_sbox_enc a :=
  congrArg (entry · a) (rfl : SboxTable = aes_sbox_enc)

theorem square_byte_sub : square (byte_sub block) = AES_SubBytes (square block) := by
  refine State.ext_at fun r c => ?_
  rw [square, State.at_of, AES_SubBytes, State.at_of, square, State.at_of, ← ckipSbox_eq]
  simp only [four, byte_sub, get_ofFn, Vector.getElem_ofFn]
  rfl

theorem square_shift_row : square (shift_row block) = AES_ShiftRows (square block) := by
  refine State.ext_at fun r c => ?_
  rw [square, State.at_of]
  fin_cases r <;> fin_cases c <;> rfl

theorem shift_cleared (b : UInt8) :
    ((b &&& 0x7f) <<< 1) &&& (0xfe : UInt8) = b <<< 1 ∧ (b &&& 0x7f) <<< 1 = b <<< 1 ∧
      ¬ (b &&& 0x7f) &&& 0x80 = 0x80 := by
  revert b
  exact forall_byte (by decide +kernel)

theorem shiftLeft_at (i : Fin 4) :
    (shiftLeft #v[col.get 0 &&& 0x7f, col.get 1 &&& 0x7f, col.get 2 &&& 0x7f,
      col.get 3 &&& 0x7f]).get i = col.get i <<< 1 := by
  rw [shiftLeft, get_ofFn]
  match i with
  | 0 => exact (shift_cleared (col.get 0)).1
  | 1 => exact (if_neg (shift_cleared (col.get 0)).2.2).trans (shift_cleared (col.get 1)).2.1
  | 2 => exact (if_neg (shift_cleared (col.get 1)).2.2).trans (shift_cleared (col.get 2)).2.1
  | 3 => exact (if_neg (shift_cleared (col.get 2)).2.2).trans (shift_cleared (col.get 3)).2.1

theorem xor_32_at (v w : Vector UInt8 4) (i : Fin 4) : (xor_32 v w).get i = v.get i ^^^ w.get i := by
  rw [xor_32, get_ofFn]

theorem add1bf7_at (i : Fin 4) : (add1bf7 col).get i = double (col.get i) := by
  rw [add1bf7, xor_32_at, shiftLeft_at, get_ofFn, UInt8.xor_comm]
  rfl

theorem mix_column_at (i : Fin 4) :
    (mix_column col).get i =
      mixByte (col.get i) (col.get (i + 1)) (col.get (i + 2)) (col.get (i + 3)) := by
  have hrotr (j : Fin 4) : (xor_32 col (add1bf7 col)).get j = col.get j ^^^ double (col.get j) := by
    rw [xor_32_at, add1bf7_at]
  rw [mix_column, xor_32_at, xor_32_at, xor_32_at, add1bf7_at, mixByte]
  match i with
  | 0 =>
    show double (col.get 0) ^^^ (xor_32 col (add1bf7 col)).get 1 ^^^
      (col.get 2 ^^^ col.get 3) = _
    rw [hrotr, ← UInt8.xor_assoc]
    rfl
  | 1 =>
    show double (col.get 1) ^^^ (xor_32 col (add1bf7 col)).get 2 ^^^
      (col.get 3 ^^^ col.get 0) = _
    rw [hrotr, ← UInt8.xor_assoc]
    rfl
  | 2 =>
    show double (col.get 2) ^^^ (xor_32 col (add1bf7 col)).get 3 ^^^
      (col.get 0 ^^^ col.get 1) = _
    rw [hrotr, ← UInt8.xor_assoc]
    rfl
  | 3 =>
    show double (col.get 3) ^^^ (xor_32 col (add1bf7 col)).get 0 ^^^
      (col.get 1 ^^^ col.get 2) = _
    rw [hrotr, ← UInt8.xor_assoc]
    rfl

theorem square_mix_columns : square (mix_columns block) = AES_MixColumns (square block) := by
  refine State.ext_at fun r c => ?_
  have hcolumn : four (mix_columns block) c = mix_column (four block c) := by
    rw [mix_columns, four_fours]
    fin_cases c <;> rfl
  rw [mixColumns_at, square, State.at_of, hcolumn, mix_column_at]
  simp only [square, State.at_of]

end Steps

section Expansion

variable {ws : List Word} {n m : Nat}

def expanded (n : Nat) (ws : List Word) (m : Nat) : List Word :=
  (List.range' ws.length m).foldl (expansionTurn n) ws

theorem expanded_succ (n : Nat) (ws : List Word) (m : Nat) :
    expanded n ws (m + 1) = expansionTurn n (expanded n ws m) (ws.length + m) := by
  rw [expanded, List.range'_concat, Nat.one_mul, List.foldl_append, ← expanded]
  rfl

theorem length_expanded (n : Nat) (ws : List Word) (m : Nat) :
    (expanded n ws m).length = ws.length + m := by
  induction m with
  | zero => rfl
  | succ m ih =>
    rw [expanded_succ, expansionTurn, List.length_append, ih, List.length_singleton]
    omega

theorem wordAt_turn {k K : Nat} (hK : K < ws.length) :
    wordAt (expansionTurn n ws k) K = wordAt ws K := by
  rw [wordAt, wordAt, expansionTurn, List.getD_append _ _ _ _ hK]

theorem wordAt_expanded_lt {K : Nat} (hK : K < ws.length) :
    wordAt (expanded n ws m) K = wordAt ws K := by
  induction m with
  | zero => rfl
  | succ m ih =>
    rw [expanded_succ, wordAt_turn (by rw [length_expanded]; omega), ih]

theorem wordAt_expanded (hn : 0 < n) (hws : n ≤ ws.length) {K : Nat} (hK : ws.length ≤ K)
    (hm : K < ws.length + m) :
    wordAt (expanded n ws m) K =
      xorWord (wordAt (expanded n ws m) (K - n))
        (TempWord n K (wordAt (expanded n ws m) (K - 1))) := by
  induction m with
  | zero => omega
  | succ m ih =>
    have hlen := length_expanded n ws m
    rw [expanded_succ]
    by_cases hlast : K < ws.length + m
    · rw [wordAt_turn (by omega), wordAt_turn (by omega), wordAt_turn (by omega)]
      exact ih hlast
    · obtain rfl : K = ws.length + m := by omega
      rw [wordAt_turn (K := ws.length + m - n) (by omega),
        wordAt_turn (K := ws.length + m - 1) (by omega), wordAt, expansionTurn,
        List.getD_append_right _ _ _ _ hlen.le, hlen, Nat.sub_self, List.getD_cons_zero]

end Expansion

section Keys

variable (key : Vector UInt8 16) {round : Nat}

theorem length_keyWords : (keyWords key.toList).length = 4 := by
  rw [keyWords, List.length_map, List.length_range, Vector.length_toList]
  rfl

theorem RT_AES_KeyExpansion_eq :
    RT_AES_KeyExpansion key.toList = expanded 4 (keyWords key.toList) 40 := by
  rw [RT_AES_KeyExpansion, expanded, length_keyWords, Vector.length_toList]
  rfl

theorem xor_32_eq (v w : Vector UInt8 4) : xor_32 v w = xorWord v w := by
  refine Vector.ext fun i hi => ?_
  rw [xor_32, Vector.getElem_ofFn]
  interval_cases i <;> rfl

def KeyOf (w : List Word) (RoundIndex : Nat) (key : Vector UInt8 16) : Prop :=
  ∀ c : Fin 4, four key c = wordAt w (RoundIndex * 4 + c)

theorem wordAt_keyWords (c : Fin 4) : wordAt (keyWords key.toList) c = four key c := by
  refine Vector.ext fun j hj => ?_
  have hword : wordAt (keyWords key.toList) c =
      #v[key.toList.getD (4 * c) 0, key.toList.getD (4 * c + 1) 0, key.toList.getD (4 * c + 2) 0,
        key.toList.getD (4 * c + 3) 0] := by
    simp [wordAt, keyWords]
  have hbyte {j : Nat} (hj : j < 4) : key.toList.getD (4 * c + j) 0 = (four key c)[j] := by
    have hlt : 4 * (c : Nat) + j < 16 := by omega
    simp [four, hlt]
  rw [hword]
  interval_cases j
  · exact hbyte (by omega)
  · exact hbyte (by omega)
  · exact hbyte (by omega)
  · exact hbyte (by omega)

theorem keyOf_zero : KeyOf (RT_AES_KeyExpansion key.toList) 0 key := by
  intro c
  have hlen := length_keyWords key
  rw [RT_AES_KeyExpansion_eq, wordAt_expanded_lt (by omega), Nat.zero_mul, Nat.zero_add,
    wordAt_keyWords]

theorem rcon_eq (h : round < 10) :
    ((aes_rcon.getD (round + 1) 0 >>> 24) &&& 0xff).toUInt8 = rcon_table.getD round 0 ∧
      ((aes_rcon.getD (round + 1) 0 >>> 16) &&& 0xff).toUInt8 = 0 ∧
      ((aes_rcon.getD (round + 1) 0 >>> 8) &&& 0xff).toUInt8 = 0 ∧
      (aes_rcon.getD (round + 1) 0 &&& 0xff).toUInt8 = 0 := by
  revert round
  decide

theorem TempWord_first (hround : round < 10) (t : Word) :
    TempWord 4 ((round + 1) * 4) t =
      #v[entry aes_sbox_enc (t.get 1) ^^^ rcon_table.getD round 0, entry aes_sbox_enc (t.get 2),
        entry aes_sbox_enc (t.get 3), entry aes_sbox_enc (t.get 0)] := by
  obtain ⟨h24, h16, h8, hlow⟩ := rcon_eq hround
  have hmod : (round + 1) * 4 % 4 = 0 := by omega
  have hdiv : (round + 1) * 4 / 4 = round + 1 := by omega
  unfold TempWord
  simp only [if_pos hmod, hdiv, h24, h16, h8, hlow, UInt8.xor_zero]

theorem wordAt_expansion (hround : round < 10) : let w := RT_AES_KeyExpansion key.toList
    wordAt w ((round + 1) * 4) =
        xorWord (wordAt w (round * 4)) (TempWord 4 ((round + 1) * 4) (wordAt w (round * 4 + 3))) ∧
      ∀ c < 3, wordAt w ((round + 1) * 4 + (c + 1)) =
        xorWord (wordAt w (round * 4 + (c + 1))) (wordAt w ((round + 1) * 4 + c)) := by
  have hlen := length_keyWords key
  have hstep {K : Nat} (hK : 4 ≤ K) (hK' : K < 44) :
      wordAt (RT_AES_KeyExpansion key.toList) K =
        xorWord (wordAt (RT_AES_KeyExpansion key.toList) (K - 4))
          (TempWord 4 K (wordAt (RT_AES_KeyExpansion key.toList) (K - 1))) := by
    rw [RT_AES_KeyExpansion_eq]
    exact wordAt_expanded (by omega) (by omega) (by omega) (by omega)
  constructor
  · have h := hstep (K := (round + 1) * 4) (by omega) (by omega)
    have hback : (round + 1) * 4 - 4 = round * 4 := by omega
    have hlast : (round + 1) * 4 - 1 = round * 4 + 3 := by omega
    rwa [hback, hlast] at h
  · intro c hc
    have h := hstep (K := (round + 1) * 4 + (c + 1)) (by omega) (by omega)
    have hback : (round + 1) * 4 + (c + 1) - 4 = round * 4 + (c + 1) := by omega
    have hlast : (round + 1) * 4 + (c + 1) - 1 = (round + 1) * 4 + c := by omega
    have hmod : ((round + 1) * 4 + (c + 1)) % 4 ≠ 0 := by omega
    rwa [hback, hlast, TempWord, if_neg hmod, if_neg (by omega)] at h

theorem keyOf_next {key₀ : Vector UInt8 16} (hround : round < 10)
    (h : KeyOf (RT_AES_KeyExpansion key₀.toList) round key) :
    KeyOf (RT_AES_KeyExpansion key₀.toList) (round + 1) (next_key key round) := by
  obtain ⟨hfirst, hothers⟩ := wordAt_expansion key₀ hround
  have h0 : four (next_key key round) 0 =
      wordAt (RT_AES_KeyExpansion key₀.toList) ((round + 1) * 4) := by
    have hold : four key 0 = wordAt (RT_AES_KeyExpansion key₀.toList) (round * 4) := h 0
    have hlast : four key 3 = wordAt (RT_AES_KeyExpansion key₀.toList) (round * 4 + 3) := h 3
    rw [hfirst, TempWord_first hround, ← hold, ← hlast, next_key, four_fours]
    simp only [xor_32_eq, ckipSbox_eq]
    show #v[(four key 0).get 0 ^^^ entry aes_sbox_enc (key.get 13) ^^^ rcon_table.getD round 0,
      _, _, _] = _
    rw [UInt8.xor_assoc]
    rfl
  have h1 : four (next_key key round) 1 =
      xorWord (four key 1) (four (next_key key round) 0) := by
    rw [← xor_32_eq, next_key, four_fours, four_fours]
    rfl
  have h2 : four (next_key key round) 2 =
      xorWord (four key 2) (four (next_key key round) 1) := by
    rw [← xor_32_eq, next_key, four_fours, four_fours]
    rfl
  have h3 : four (next_key key round) 3 =
      xorWord (four key 3) (four (next_key key round) 2) := by
    rw [← xor_32_eq, next_key, four_fours, four_fours]
    rfl
  have hw1 : four (next_key key round) 1 =
      wordAt (RT_AES_KeyExpansion key₀.toList) ((round + 1) * 4 + 1) := by
    rw [h1, h0, h 1]
    exact (hothers 0 (by omega)).symm
  have hw2 : four (next_key key round) 2 =
      wordAt (RT_AES_KeyExpansion key₀.toList) ((round + 1) * 4 + 2) := by
    rw [h2, hw1, h 2]
    exact (hothers 1 (by omega)).symm
  have hw3 : four (next_key key round) 3 =
      wordAt (RT_AES_KeyExpansion key₀.toList) ((round + 1) * 4 + 3) := by
    rw [h3, hw2, h 3]
    exact (hothers 2 (by omega)).symm
  intro c
  match c with
  | 0 => exact h0
  | 1 => exact hw1
  | 2 => exact hw2
  | 3 => exact hw3

end Keys

theorem square_xor_128 {w : List Word} {RoundIndex : Nat} {k : Vector UInt8 16}
    (h : KeyOf w RoundIndex k) (block : Vector UInt8 16) :
    square (xor_128 block k) = AES_AddRoundKey w RoundIndex (square block) := by
  refine State.ext_at fun r c => ?_
  have hxor : (four (xor_128 block k) c).get r = (four block c).get r ^^^ (four k c).get r := by
    simp only [four, xor_128, get_ofFn, Vector.getElem_ofFn]
    rfl
  rw [square, State.at_of, hxor, AES_AddRoundKey, State.at_of, square, State.at_of, h c]

theorem xor_128_comm (a b : Vector UInt8 16) : xor_128 a b = xor_128 b a :=
  congrArg Vector.ofFn (funext fun _ => UInt8.xor_comm _ _)

variable (key data ciphertext : Vector UInt8 16)

theorem aesRounds_eq {n : Nat} (hn : n < 10) :
    let s := (List.range (n + 1)).foldl (fun s round => aesRound s data round) (key, ciphertext)
    KeyOf (RT_AES_KeyExpansion key.toList) (n + 1) s.1 ∧
      square s.2 = (List.range' 1 n).foldl (encryptRound (RT_AES_KeyExpansion key.toList))
        (AES_AddRoundKey (RT_AES_KeyExpansion key.toList) 0 (square data)) := by
  induction n with
  | zero =>
    refine ⟨keyOf_next key (by omega) (keyOf_zero key), ?_⟩
    show square (xor_128 key data) = _
    rw [xor_128_comm, square_xor_128 (keyOf_zero key)]
    rfl
  | succ n ih =>
    obtain ⟨hkey, hstate⟩ := ih (by omega)
    rw [List.range_succ, List.foldl_append, List.range'_concat, List.foldl_append, ← hstate]
    generalize (List.range (n + 1)).foldl (fun s round => aesRound s data round)
      (key, ciphertext) = s at hkey
    have hround : aesRound s data (n + 1) = (next_key s.1 (n + 1),
        xor_128 (mix_columns (shift_row (byte_sub s.2))) s.1) := by
      rw [aesRound, if_neg (by omega), if_neg (by omega)]
    simp only [List.foldl_cons, List.foldl_nil, hround, Nat.one_mul, Nat.add_comm 1 n]
    refine ⟨keyOf_next _ hn hkey, ?_⟩
    rw [square_xor_128 hkey, square_mix_columns, square_shift_row, square_byte_sub]
    rfl

theorem aes128k128d_eq :
    square (aes128k128d key data ciphertext) = encryptState key.toList (square data) := by
  obtain ⟨hkey, hstate⟩ := aesRounds_eq key data ciphertext (n := 9) (by omega)
  have hrounds : NumberOfRound key.toList = 10 := by
    rw [NumberOfRound, Vector.length_toList]
    rfl
  rw [aes128k128d, List.range_succ, List.foldl_append, encryptState, hrounds, ← hstate]
  generalize (List.range (9 + 1)).foldl (fun s round => aesRound s data round)
    (key, ciphertext) = s at hkey
  show square (xor_128 (shift_row (byte_sub s.2)) s.1) = _
  rw [square_xor_128 hkey, square_shift_row, square_byte_sub]

/-- Both codings give the same block, and decryption gives back what was encrypted. -/
theorem one_cipher :
    (∀ (key data ciphertext : Vector UInt8 16) CipherBlockSize, AES_BLOCK_SIZES ≤ CipherBlockSize →
      RT_AES_Encrypt true data.toList key.toList CipherBlockSize =
        some (aes128k128d key data ciphertext).toList) ∧
    ∀ PlainBlock Key CipherBlockSize PlainBlockSize, PlainBlock.length = AES_BLOCK_SIZES →
      KeySize Key.length → AES_BLOCK_SIZES ≤ CipherBlockSize → AES_BLOCK_SIZES ≤ PlainBlockSize →
      ∃ CipherBlock, RT_AES_Encrypt true PlainBlock Key CipherBlockSize = some CipherBlock ∧
        RT_AES_Decrypt true CipherBlock Key PlainBlockSize = some PlainBlock := by
  constructor
  · intro key data ciphertext CipherBlockSize hsize
    have hkey : KeySize key.toList.length := .inl key.length_toList
    rw [RT_AES_Encrypt_eq data.length_toList hkey hsize, stateBlock_toList, ← aes128k128d_eq key data
      ciphertext, ← stateBlock_toList, blockState_stateBlock Vector.length_toList]
  · intro PlainBlock Key CipherBlockSize PlainBlockSize hblock hkey hcipher hplain
    refine ⟨_, RT_AES_Encrypt_eq hblock hkey hcipher, ?_⟩
    rw [RT_AES_Decrypt_eq (length_blockState _) hkey hplain, stateBlock_blockState,
      decryptState_encryptState, blockState_stateBlock hblock]

/-- At the zero block under the zero keys. -/
theorem one_cipher_zero :
    RT_AES_Encrypt true (Vector.replicate 16 0).toList (Vector.replicate 16 0).toList 16 =
        some (aes128k128d (.replicate 16 0) (.replicate 16 0) (.replicate 16 0)).toList ∧
      ∃ CipherBlock, RT_AES_Encrypt true (List.replicate 16 0) (List.replicate 32 0) 16 =
          some CipherBlock ∧
        RT_AES_Decrypt true CipherBlock (List.replicate 32 0) 16 = some (List.replicate 16 0) :=
  ⟨one_cipher.1 _ _ _ 16 le_rfl,
    one_cipher.2 _ _ 16 16 List.length_replicate (by decide) le_rfl le_rfl⟩

end Ralink.Crypt
