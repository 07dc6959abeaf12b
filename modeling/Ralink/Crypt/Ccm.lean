import Ralink.Crypt.KeyWrap
import Ralink.Lib.Buffer

/-! `AES_CCM_MAC`, `AES_CCM_Encrypt` and `AES_CCM_Decrypt` of `crypt_aes.c`. Both texts lie in one
buffer of `size` bytes and are given by their offsets in it. -/
namespace Ralink.Crypt
open ByteStore Cipher Buffer

def zeroBlock : List UInt8 := List.replicate AES_BLOCK_SIZES 0

/-- The block with the flags, the nonce and the length of the payload. -/
def controlBlock (PayloadLength : UInt32) (Nonce : List UInt8) (AADLength : Nat)
    (MACLength : UInt32) : List UInt8 :=
  let flag : UInt8 := if 0 < AADLength then 0x40 else 0
  let flag := flag ||| (((MACLength - 2) >>> 1) <<< 3).toUInt8
  let flag := flag ||| UInt8.ofNat (15 - Nonce.length - 1)
  let Block := splice zeroBlock 0 [flag]
  let Block := splice Block 1 Nonce
  let Block := if Nonce.length < 12 then splice Block 12 [(PayloadLength >>> 24).toUInt8] else Block
  let Block := if Nonce.length < 13 then splice Block 13 [(PayloadLength >>> 16).toUInt8] else Block
  splice Block 14 [(PayloadLength >>> 8).toUInt8, PayloadLength.toUInt8]

/-- The length of the associated data in front of them, and where they start behind it. -/
def aadLength (AADLength : Nat) : List UInt8 × Fin 16 :=
  if 0 < AADLength ∧ AADLength < 0xFF00 then
    (splice zeroBlock 0 [UInt8.ofNat (AADLength >>> 8), UInt8.ofNat AADLength], ⟨2, by decide⟩)
  else
    (splice zeroBlock 2 [UInt8.ofNat (AADLength >>> 24), UInt8.ofNat (AADLength >>> 16),
      UInt8.ofNat (AADLength >>> 8), UInt8.ofNat AADLength], ⟨6, by decide⟩)

section Code

variable (aes : BlockCipher 16) (Key : List UInt8) (size : Nat)

def aadLoop (AAD Block : List UInt8) (Block_Index : Fin 16) (ADD_Index : Nat)
    (Block_MAC : List UInt8) : List UInt8 :=
  if ADD_Index < AAD.length then
    let Copy_Length := min (min (AAD.length - ADD_Index) AES_BLOCK_SIZES) (AES_BLOCK_SIZES - Block_Index)
    let Block := splice Block Block_Index ((AAD.drop ADD_Index).take Copy_Length)
    aadLoop AAD zeroBlock 0 (ADD_Index + Copy_Length) (aes.encrypt Key (xorBytes Block Block_MAC))
  else Block_MAC
termination_by AAD.length - ADD_Index
decreasing_by
  have := Block_Index.isLt
  simp only [AES_BLOCK_SIZES]
  omega

/-- What the chain over the payload starts with. -/
def headerMac (PayloadLength : UInt32) (Nonce AAD : List UInt8) (MACLength : UInt32) : List UInt8 :=
  let Block_MAC := aes.encrypt Key (controlBlock PayloadLength Nonce AAD.length MACLength)
  aadLoop aes Key AAD (aadLength AAD.length).1 (aadLength AAD.length).2 0 Block_MAC

def payloadTurn (f : Store) (Payload : Nat) (Block_MAC : List UInt8) (Payload_Index Copy_Length : Nat) :
    Option (List UInt8) := do
  let bytes ← load size f (Payload + Payload_Index) Copy_Length
  some (aes.encrypt Key (xorBytes (pad AES_BLOCK_SIZES bytes) Block_MAC))

def AES_CCM_MAC (f : Store) (Payload : Nat) (PayloadLength : UInt32) (Nonce AAD : List UInt8)
    (MACLength : UInt32) : Option (List UInt8) := do
  let Block_MAC := headerMac aes Key PayloadLength Nonce AAD MACLength
  let Block_MAC ← blockLoop AES_BLOCK_SIZES (payloadTurn aes Key size f Payload)
    PayloadLength.toNat 0 Block_MAC
  some (Block_MAC.take MACLength.toNat)

def initialCTR (Nonce : List UInt8) : List UInt8 :=
  splice (splice zeroBlock 0 [UInt8.ofNat (15 - Nonce.length - 1)]) 1 Nonce

/-- `Block_CTR[15] += 1` -/
def stepCTR (Block_CTR : List UInt8) : List UInt8 := Block_CTR.modify 15 (· + 1)

def cipherTurn (src dst : Nat) (s : List UInt8 × Store) (Cipher_Index Copy_Length : Nat) :
    Option (List UInt8 × Store) := do
  let Block_CTR := stepCTR s.1
  let Block_CTR_Cipher := aes.encrypt Key Block_CTR
  let text ← xorInto size (src + Cipher_Index) (dst + Cipher_Index) (Block_CTR_Cipher.take Copy_Length) s.2
  some (Block_CTR, text)

def MACLengths : List UInt32 := [4, 6, 8, 10, 12, 14, 16]

def AES_CCM_Encrypt (f : Store) (PlainText : Nat) (PlainTextLength : UInt32)
    (Nonce AAD : List UInt8) (MACLength : UInt32) (CipherText : Nat) (CipherTextLength : UInt32) :
    Option Output :=
  if Key.length ≠ 16 then some ⟨-1, f, CipherTextLength⟩
  else if Nonce.length < 7 ∨ 13 < Nonce.length then some ⟨-2, f, CipherTextLength⟩
  else if MACLength ∉ MACLengths then some ⟨-3, f, CipherTextLength⟩
  else if CipherTextLength < PlainTextLength + MACLength then some ⟨-4, f, CipherTextLength⟩
  else do
    let Block_CTR := initialCTR Nonce
    let Block_MAC ← AES_CCM_MAC aes Key size f PlainText PlainTextLength Nonce AAD MACLength
    let Block_MAC := xorBytes Block_MAC (aes.encrypt Key Block_CTR)
    let s ← blockLoop AES_BLOCK_SIZES (cipherTurn aes Key size PlainText CipherText)
      PlainTextLength.toNat 0 (Block_CTR, f)
    let text ← save size s.2 (CipherText + PlainTextLength.toNat) Block_MAC
    some ⟨0, text, PlainTextLength + MACLength⟩

def AES_CCM_Decrypt (f : Store) (CipherText : Nat) (CipherTextLength : UInt32)
    (Nonce AAD : List UInt8) (MACLength : UInt32) (PlainText : Nat) (PlainTextLength : UInt32) :
    Option Output :=
  if Key.length ≠ 16 then some ⟨-1, f, PlainTextLength⟩
  else if Nonce.length < 7 ∨ 13 < Nonce.length then some ⟨-2, f, PlainTextLength⟩
  else if MACLength ∉ MACLengths then some ⟨-3, f, PlainTextLength⟩
  else if PlainTextLength < CipherTextLength - MACLength then some ⟨-4, f, PlainTextLength⟩
  else do
    let Block_CTR := initialCTR Nonce
    let Block_CTR_Cipher := aes.encrypt Key Block_CTR
    let mac ← load size f (CipherText + (CipherTextLength - MACLength).toNat) MACLength.toNat
    let Block_MAC_From_Cipher := xorBytes mac Block_CTR_Cipher
    let s ← blockLoop AES_BLOCK_SIZES (cipherTurn aes Key size CipherText PlainText)
      (CipherTextLength - MACLength).toNat 0 (Block_CTR, f)
    let PlainTextLength := CipherTextLength - MACLength
    let Block_MAC ← AES_CCM_MAC aes Key size s.2 PlainText PlainTextLength Nonce AAD MACLength
    if Block_MAC_From_Cipher ≠ Block_MAC then some ⟨-5, s.2, PlainTextLength⟩
    else some ⟨0, s.2, PlainTextLength⟩

end Code

section Spec

variable (aes : BlockCipher 16) (Key Nonce AAD : List UInt8)

def ctrBlock (i : Nat) : List UInt8 := stepCTR^[i] (initialCTR Nonce)

def ccmStream : Store := stream 16 fun i => aes.encrypt Key (ctrBlock Nonce (i + 1))

def ccmMac (MACLength : UInt32) (text : List UInt8) : List UInt8 :=
  (chain (aes.encrypt Key) (textBlock 16 text)
    (headerMac aes Key (UInt32.ofNat text.length) Nonce AAD MACLength) (blocks 16 text.length)).take
      MACLength.toNat

def ccmText (text : List UInt8) : List UInt8 :=
  xorBytes text (readBytes (ccmStream aes Key Nonce) 0 text.length)

@[simp] theorem length_ccmText (text : List UInt8) : (ccmText aes Key Nonce text).length = text.length := by
  simp [ccmText]

theorem ccmText_ccmText (text : List UInt8) : ccmText aes Key Nonce (ccmText aes Key Nonce text) = text := by
  have hlen := length_ccmText aes Key Nonce text
  have hcancel : xorBytes (ccmText aes Key Nonce text)
      (readBytes (ccmStream aes Key Nonce) 0 text.length) = text :=
    xorBytes_cancel (by rw [length_readBytes])
  rwa [ccmText, hlen]

theorem length_splice_block {Block bs : List UInt8} {i : Nat} (h : Block.length = 16)
    (hi : i + bs.length ≤ 16) : (splice Block i bs).length = 16 := by
  rw [length_splice (by omega), h]

theorem length_zeroBlock : zeroBlock.length = 16 := rfl

theorem length_controlBlock (h : Nonce.length ≤ 13) (PayloadLength : UInt32) (AADLength : Nat)
    (MACLength : UInt32) : (controlBlock PayloadLength Nonce AADLength MACLength).length = 16 := by
  unfold controlBlock
  apply length_splice_block _ (le_refl 16)
  have hfront : ∀ flag : UInt8, (splice (splice zeroBlock 0 [flag]) 1 Nonce).length = 16 := fun flag =>
    length_splice_block (length_splice_block length_zeroBlock (Nat.le_of_ble_eq_true rfl)) (by omega)
  split
  · apply length_splice_block _ (Nat.le_of_ble_eq_true rfl)
    split
    · exact length_splice_block (hfront _) (Nat.le_of_ble_eq_true rfl)
    · exact hfront _
  · split
    · exact length_splice_block (hfront _) (Nat.le_of_ble_eq_true rfl)
    · exact hfront _

theorem length_aadLength (AADLength : Nat) : (aadLength AADLength).1.length = 16 := by
  unfold aadLength
  split <;> rfl

theorem length_aadLoop {Block Block_MAC : List UInt8} {Block_Index : Fin 16} {ADD_Index : Nat}
    (hBlock : Block.length = 16) (hmac : Block_MAC.length = 16) :
    (aadLoop aes Key AAD Block Block_Index ADD_Index Block_MAC).length = 16 := by
  fun_induction aadLoop aes Key AAD Block Block_Index ADD_Index Block_MAC with
  | case1 Block Block_Index ADD_Index Block_MAC hlt Copy_Length Block' ih =>
    apply ih length_zeroBlock
    apply aes.length_encrypt
    have hblock : Block'.length = 16 := by
      apply length_splice_block hBlock
      rw [List.length_take]
      have hindex := Block_Index.isLt
      simp only [Copy_Length, AES_BLOCK_SIZES]
      omega
    rw [length_xorBytes, hblock, hmac, Nat.min_self]
  | case2 => exact hmac

theorem length_headerMac (h : Nonce.length ≤ 13) (PayloadLength MACLength : UInt32) :
    (headerMac aes Key PayloadLength Nonce AAD MACLength).length = 16 :=
  length_aadLoop aes Key AAD (length_aadLength _)
    (aes.length_encrypt Key (length_controlBlock Nonce h _ _ _))

theorem length_initialCTR (h : Nonce.length ≤ 13) : (initialCTR Nonce).length = 16 :=
  length_splice_block (length_splice_block length_zeroBlock (Nat.le_of_ble_eq_true rfl)) (by omega)

theorem length_ctrBlock (h : Nonce.length ≤ 13) (i : Nat) : (ctrBlock Nonce i).length = 16 := by
  induction i with
  | zero => exact length_initialCTR Nonce h
  | succ i ih =>
    rw [ctrBlock, Function.iterate_succ_apply']
    exact (List.length_modify ..).trans ih

end Spec

section Loops

variable {aes : BlockCipher 16} {Key Nonce AAD : List UInt8} {size src dst Length : Nat} {f : Store}
  {MACLength : UInt32}

theorem cipherLoop_eq (hnonce : Nonce.length ≤ 13) (hdst : dst ≤ src) (hin : src + Length ≤ size) :
    blockLoop AES_BLOCK_SIZES (cipherTurn aes Key size src dst) Length 0 (initialCTR Nonce, f) =
      some (ctrBlock Nonce (blocks 16 Length),
        writeBytes f dst (ccmText aes Key Nonce (readBytes f src Length))) := by
  have hblock : ∀ i, (aes.encrypt Key (ctrBlock Nonce (i + 1))).length = 16 := fun i =>
    aes.length_encrypt Key (length_ctrBlock Nonce hnonce (i + 1))
  let done (m : Nat) : Store := streamed (ccmStream aes Key Nonce) f src dst m
  let g (i : Nat) : List UInt8 × Store := (ctrBlock Nonce i, done (min Length (16 * i)))
  have hturn : ∀ i, 16 * i < Length →
      cipherTurn aes Key size src dst (g i) (16 * i) (min 16 (Length - 16 * i)) = some (g (i + 1)) := by
    intro i hi
    generalize hr : min 16 (Length - 16 * i) = r
    have hnext : min Length (16 * (i + 1)) = 16 * i + r := by omega
    have hstep : stepCTR (ctrBlock Nonce i) = ctrBlock Nonce (i + 1) :=
      (Function.iterate_succ_apply' stepCTR i _).symm
    have hks : readBytes (ccmStream aes Key Nonce) (16 * i) r =
        (aes.encrypt Key (ctrBlock Nonce (i + 1))).take r := readBytes_stream (hblock i) (by omega)
    show cipherTurn aes Key size src dst (ctrBlock Nonce i, done (min Length (16 * i))) (16 * i) r =
      some (ctrBlock Nonce (i + 1), done (min Length (16 * (i + 1))))
    rw [Nat.min_eq_right hi.le, hnext]
    unfold cipherTurn
    simp only [hstep]
    rw [← hks, xorInto_eq (by omega) (.inr (by rw [length_readBytes]; omega)), length_readBytes]
    simp only [done]
    rw [streamed_add hdst]
    rfl
  have hloop := blockLoop_eq hturn
  have hstart : g 0 = (initialCTR Nonce, f) := by
    show (initialCTR Nonce, done (min Length (16 * 0))) = _
    rw [Nat.mul_zero, Nat.min_zero]
    exact congrArg (initialCTR Nonce, ·) streamed_zero
  have hend : min Length (16 * blocks 16 Length) = Length := by
    have := (@lt_blocks Length 16 _ (blocks 16 Length)).not.mp (Nat.lt_irrefl _)
    omega
  rw [hstart] at hloop
  rw [hloop]
  show some (ctrBlock Nonce _, done (min Length (16 * blocks 16 Length))) = _
  rw [hend, ccmText, length_readBytes]
  rfl

theorem AES_CCM_MAC_eq {PayloadLength : UInt32} (hin : src + PayloadLength.toNat ≤ size) :
    AES_CCM_MAC aes Key size f src PayloadLength Nonce AAD MACLength =
      some (ccmMac aes Key Nonce AAD MACLength (readBytes f src PayloadLength.toNat)) := by
  let text := readBytes f src PayloadLength.toNat
  let mac := chain (aes.encrypt Key) (textBlock 16 text)
    (headerMac aes Key PayloadLength Nonce AAD MACLength)
  have hturn : ∀ i, 16 * i < PayloadLength.toNat →
      payloadTurn aes Key size f src (mac i) (16 * i) (min 16 (PayloadLength.toNat - 16 * i)) =
        some (mac (i + 1)) := by
    intro i hi
    have hblock : readBytes f (src + 16 * i) (min 16 (PayloadLength.toNat - 16 * i)) =
        (text.drop (16 * i)).take 16 := (take_drop_readBytes f src _ (16 * i) 16).symm
    unfold payloadTurn
    rw [load_eq (by omega), hblock]
    rfl
  have hloop : blockLoop AES_BLOCK_SIZES (payloadTurn aes Key size f src) PayloadLength.toNat 0
      (headerMac aes Key PayloadLength Nonce AAD MACLength) =
        some (mac (blocks 16 PayloadLength.toNat)) := blockLoop_eq hturn
  unfold AES_CCM_MAC ccmMac
  simp only [hloop, length_readBytes, Option.bind_eq_bind, Option.bind_some, UInt32.ofNat_toNat]
  rfl

theorem length_ccmMac (hnonce : Nonce.length ≤ 13) (h : MACLength ∈ MACLengths) (text : List UInt8) :
    (ccmMac aes Key Nonce AAD MACLength text).length = MACLength.toNat := by
  have hchain : (chain (aes.encrypt Key) (textBlock 16 text)
      (headerMac aes Key (UInt32.ofNat text.length) Nonce AAD MACLength)
      (blocks 16 text.length)).length = 16 :=
    length_chain (aes.length_encrypt Key) (length_headerMac aes Key Nonce AAD hnonce _ _) fun _ _ => length_textBlock
  have hle : MACLength.toNat ≤ 16 := by
    simp only [MACLengths, List.mem_cons, List.not_mem_nil, or_false] at h
    rcases h with rfl | rfl | rfl | rfl | rfl | rfl | rfl <;> decide
  rw [ccmMac, List.length_take, hchain, Nat.min_eq_left hle]

theorem AES_CCM_Encrypt_eq {PlainTextLength CipherTextLength : UInt32} (hkey : Key.length = 16)
    (hnonce : 7 ≤ Nonce.length ∧ Nonce.length ≤ 13) (hmac : MACLength ∈ MACLengths)
    (hout : PlainTextLength + MACLength ≤ CipherTextLength)
    (hin : src + PlainTextLength.toNat + MACLength.toNat ≤ size) :
    AES_CCM_Encrypt aes Key size f src PlainTextLength Nonce AAD MACLength src CipherTextLength =
      let text := readBytes f src PlainTextLength.toNat
      some ⟨0, writeBytes f src (ccmText aes Key Nonce text ++
        xorBytes (ccmMac aes Key Nonce AAD MACLength text) (aes.encrypt Key (initialCTR Nonce))),
        PlainTextLength + MACLength⟩ := by
  have hmaclen := @length_ccmMac aes Key Nonce AAD _ hnonce.2 hmac
    (readBytes f src PlainTextLength.toNat)
  have htext := length_ccmText aes Key Nonce (readBytes f src PlainTextLength.toNat)
  rw [length_readBytes] at htext
  unfold AES_CCM_Encrypt
  rw [if_neg (not_not.mpr hkey), if_neg (by omega), if_neg (not_not.mpr hmac),
    if_neg (UInt32.not_lt.mpr hout), AES_CCM_MAC_eq (by omega)]
  simp only [Option.bind_eq_bind, Option.bind_some]
  rw [cipherLoop_eq hnonce.2 le_rfl (by omega)]
  simp only [Option.bind_some]
  rw [save_eq]
  · have happ := writeBytes_append f src (ccmText aes Key Nonce (readBytes f src PlainTextLength.toNat))
      (xorBytes (ccmMac aes Key Nonce AAD MACLength (readBytes f src PlainTextLength.toNat))
        (aes.encrypt Key (initialCTR Nonce)))
    rw [htext] at happ
    rw [happ]
    rfl
  · rw [length_xorBytes, hmaclen]
    omega

def receivedMac (aes : BlockCipher 16) (Key Nonce mac : List UInt8) : List UInt8 :=
  xorBytes mac (aes.encrypt Key (initialCTR Nonce))

theorem AES_CCM_Decrypt_eq {CipherTextLength PlainTextLength : UInt32} (hkey : Key.length = 16)
    (hnonce : 7 ≤ Nonce.length ∧ Nonce.length ≤ 13) (hmac : MACLength ∈ MACLengths)
    (hlen : MACLength ≤ CipherTextLength) (hout : CipherTextLength - MACLength ≤ PlainTextLength)
    (hdst : dst ≤ src) (hin : src + CipherTextLength.toNat ≤ size) :
    AES_CCM_Decrypt aes Key size f src CipherTextLength Nonce AAD MACLength dst PlainTextLength =
      let n := (CipherTextLength - MACLength).toNat
      let text := ccmText aes Key Nonce (readBytes f src n)
      let mac := readBytes f (src + n) MACLength.toNat
      some ⟨if receivedMac aes Key Nonce mac = ccmMac aes Key Nonce AAD MACLength text then 0 else -5,
        writeBytes f dst text, CipherTextLength - MACLength⟩ := by
  have hsub : (CipherTextLength - MACLength).toNat = CipherTextLength.toNat - MACLength.toNat :=
    UInt32.toNat_sub_of_le _ _ hlen
  have hle : MACLength.toNat ≤ CipherTextLength.toNat := UInt32.le_iff_toNat_le.mp hlen
  have htext := length_ccmText aes Key Nonce (readBytes f src (CipherTextLength - MACLength).toNat)
  rw [length_readBytes] at htext
  have hread := readBytes_writeBytes f dst
    (ccmText aes Key Nonce (readBytes f src (CipherTextLength - MACLength).toNat))
  rw [htext] at hread
  unfold AES_CCM_Decrypt
  rw [if_neg (not_not.mpr hkey), if_neg (by omega), if_neg (not_not.mpr hmac),
    if_neg (UInt32.not_lt.mpr hout), load_eq (by omega)]
  simp only [Option.bind_eq_bind, Option.bind_some]
  rw [cipherLoop_eq hnonce.2 hdst (by omega)]
  simp only [Option.bind_some]
  rw [AES_CCM_MAC_eq (by omega), hread]
  simp only [Option.bind_some, receivedMac, ite_not]
  split
  · next heq => simp [heq]
  · next hne => simp [hne]

end Loops

end Ralink.Crypt
