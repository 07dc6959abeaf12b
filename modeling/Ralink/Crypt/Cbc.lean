import Ralink.Crypt.Ccm

/-! `AES_CBC_Encrypt` and `AES_CBC_Decrypt` of `crypt_aes.c`. Each text lies in a buffer of as many
bytes as its length says. The length that decryption leaves is that of the plaintext when the last
byte is a padding. -/
namespace Ralink.Crypt
open ByteStore Cipher Buffer

/-- A text that is written block by block: up to where, and how many bytes of it were written. -/
structure CbcText where
  text : Store
  start : UInt32
  written : Nat

structure CbcOutput where
  text : Store
  length : UInt32
  written : Nat

section Code

variable (aes : BlockCipher 16) (Key IV : List UInt8)

def CbcParameters : Prop := IsKek Key ∧ IV.length = 16

instance : Decidable (CbcParameters Key IV) := by unfold CbcParameters IsKek; infer_instance

def blockBefore (size : Nat) (CipherText : Store) (start : UInt32) (place : Nat) :
    Option (List UInt8) :=
  if start = 0 then some IV else load size CipherText (place - AES_BLOCK_SIZES) AES_BLOCK_SIZES

/-- Where there is less room than a block, `RT_AES_Encrypt` leaves the text and the room as they
are. -/
def encryptBlock (CipherTextLength : UInt32) (Block : List UInt8) (t : CbcText) : Option CbcText := do
  let before ← blockBefore IV CipherTextLength.toNat t.text t.start t.start.toNat
  if CipherTextLength - t.start < 16 then
    some { t with start := t.start + (CipherTextLength - t.start) }
  else do
    let text ← save CipherTextLength.toNat t.text t.start.toNat
      (aes.encrypt Key (xorBytes Block before))
    some ⟨text, t.start + 16, t.written + 16⟩

def encryptTurn (PlainText : Store) (PlainTextLength CipherTextLength : UInt32) (t : CbcText)
    (i : Nat) : Option CbcText := do
  let Block ← load PlainTextLength.toNat PlainText (AES_BLOCK_SIZES * i) AES_BLOCK_SIZES
  encryptBlock aes Key IV CipherTextLength Block t

def AES_CBC_Encrypt (PlainText : Store) (PlainTextLength : UInt32) (CipherText : Store)
    (CipherTextLength : UInt32) : Option CbcOutput :=
  let PaddingSize : UInt32 := 16 - PlainTextLength % 16
  if CipherTextLength < PlainTextLength + PaddingSize then some ⟨CipherText, CipherTextLength, 0⟩
  else if ¬ CbcParameters Key IV then some ⟨CipherText, CipherTextLength, 0⟩
  else do
    let blocks := PlainTextLength.toNat / AES_BLOCK_SIZES
    let t ← (List.range blocks).foldlM
      (encryptTurn aes Key IV PlainText PlainTextLength CipherTextLength) ⟨CipherText, 0, 0⟩
    let rest ← load PlainTextLength.toNat PlainText (AES_BLOCK_SIZES * blocks)
      (PlainTextLength.toNat % AES_BLOCK_SIZES)
    let Block := rest ++ List.replicate PaddingSize.toNat PaddingSize.toUInt8
    let t ← encryptBlock aes Key IV CipherTextLength Block t
    some ⟨t.text, t.start, t.written⟩

/-- `RT_AES_Decrypt`: the text, and the size of what was written or, where there is less room than a
block, the room. -/
def decryptBlock (CipherText : Store) (CipherTextLength PlainTextLength : UInt32) (t : CbcText)
    (i : Nat) : Option (Store × UInt32) :=
  if PlainTextLength - t.start < 16 then some (t.text, PlainTextLength - t.start)
  else do
    let Block ← load CipherTextLength.toNat CipherText (AES_BLOCK_SIZES * i) AES_BLOCK_SIZES
    let text ← save PlainTextLength.toNat t.text t.start.toNat (aes.decrypt Key Block)
    some (text, 16)

def decryptTurn (CipherText : Store) (CipherTextLength PlainTextLength : UInt32) (t : CbcText)
    (i : Nat) : Option CbcText := do
  let (text, PlainBlockSize) ← decryptBlock aes Key CipherText CipherTextLength PlainTextLength t i
  let before ← blockBefore IV CipherTextLength.toNat CipherText t.start (AES_BLOCK_SIZES * i)
  let bytes ← load PlainTextLength.toNat text t.start.toNat AES_BLOCK_SIZES
  let text ← save PlainTextLength.toNat text t.start.toNat (xorBytes bytes before)
  some ⟨text, t.start + PlainBlockSize,
    t.written + if PlainTextLength - t.start < 16 then 0 else 16⟩

def AES_CBC_Decrypt (CipherText : Store) (CipherTextLength : UInt32) (PlainText : Store)
    (PlainTextLength : UInt32) : Option CbcOutput :=
  if CipherTextLength % 16 ≠ 0 then some ⟨PlainText, PlainTextLength, 0⟩
  else if ¬ CbcParameters Key IV then some ⟨PlainText, PlainTextLength, 0⟩
  else do
    let t ← (List.range (CipherTextLength.toNat / AES_BLOCK_SIZES)).foldlM
      (decryptTurn aes Key IV CipherText CipherTextLength PlainTextLength) ⟨PlainText, 0, 0⟩
    let PaddingSize ← loadByte PlainTextLength.toNat t.text (t.start - 1).toNat
    some ⟨t.text, t.start - PaddingSize.toUInt32, t.written⟩

end Code

section Encrypt

variable {aes : BlockCipher 16} {Key IV Block : List UInt8} {PlainText CipherText f : Store}
  {PlainTextLength CipherTextLength : UInt32} {P : Nat → List UInt8} {N i : Nat}

def plainBlock (PlainText : Store) (len i : Nat) : List UInt8 :=
  if i < len / 16 then readBytes PlainText (16 * i) 16
  else readBytes PlainText (16 * (len / 16)) (len % 16) ++
    List.replicate (16 - len % 16) (UInt8.ofNat (16 - len % 16))

theorem length_plainBlock (PlainText : Store) (len i : Nat) :
    (plainBlock PlainText len i).length = 16 := by
  unfold plainBlock
  split
  · exact length_readBytes _ _ _
  · rw [List.length_append, length_readBytes, List.length_replicate]
    omega

def cipherBlock (aes : BlockCipher 16) (Key IV : List UInt8) (P : Nat → List UInt8) (i : Nat) :
    List UInt8 := chain (aes.encrypt Key) P IV (i + 1)

theorem length_chainBlock (hIV : IV.length = 16) (hP : ∀ i, (P i).length = 16) (i : Nat) :
    (chain (aes.encrypt Key) P IV i).length = 16 :=
  length_chain (fun h => aes.length_encrypt Key h) hIV fun i _ => hP i

def cbcAfter (f : Store) (block : Nat → List UInt8) (i : Nat) : CbcText :=
  ⟨writeBytes f 0 (joined block i), UInt32.ofNat (16 * i), 16 * i⟩

theorem cbcAfter_zero (f : Store) (block : Nat → List UInt8) : cbcAfter f block 0 = ⟨f, 0, 0⟩ := by
  rw [cbcAfter, joined, writeBytes_nil]
  rfl

theorem toNat_place (h : 16 * i < 2 ^ 32) : (UInt32.ofNat (16 * i)).toNat = 16 * i :=
  UInt32.toNat_ofNat_of_lt' h

theorem place_eq_zero (h : 16 * i < 2 ^ 32) : UInt32.ofNat (16 * i) = 0 ↔ i = 0 := by
  rw [← UInt32.toNat_inj, toNat_place h]
  show 16 * i = 0 ↔ i = 0
  omega

theorem place_room (h : 16 * i + 16 ≤ CipherTextLength.toNat) :
    ¬ CipherTextLength - UInt32.ofNat (16 * i) < 16 := by
  have hlt := CipherTextLength.toNat_lt
  have hplace := toNat_place (i := i) (by omega)
  rw [UInt32.lt_iff_toNat_lt, UInt32.toNat_sub, hplace]
  show ¬ _ < 16
  omega

theorem place_next (i : Nat) : UInt32.ofNat (16 * i) + 16 = UInt32.ofNat (16 * (i + 1)) := by
  rw [Nat.mul_succ, UInt32.ofNat_add]
  rfl

theorem encryptBlock_eq (hIV : IV.length = 16) (hP : ∀ i, (P i).length = 16)
    (h : 16 * i + 16 ≤ CipherTextLength.toNat) :
    encryptBlock aes Key IV CipherTextLength (P i) (cbcAfter f (cipherBlock aes Key IV P) i) =
      some (cbcAfter f (cipherBlock aes Key IV P) (i + 1)) := by
  have hlt := CipherTextLength.toNat_lt
  have hplace := toNat_place (i := i) (by omega)
  have hlen : ∀ j < i, (cipherBlock aes Key IV P j).length = 16 := fun j _ =>
    length_chainBlock hIV hP (j + 1)
  have hbefore : blockBefore IV CipherTextLength.toNat
      (writeBytes f 0 (joined (cipherBlock aes Key IV P) i)) (UInt32.ofNat (16 * i)) (16 * i) =
        some (chain (aes.encrypt Key) P IV i) := by
    rw [blockBefore]
    cases i with
    | zero => rfl
    | succ j =>
      have hread := readBytes_joined (f := f) hlen (Nat.lt_succ_self j)
      have hsub : 16 * (j + 1) - AES_BLOCK_SIZES = 16 * j := by
        show 16 * (j + 1) - 16 = 16 * j
        omega
      rw [if_neg (by rw [place_eq_zero (by omega)]; omega), hsub,
        load_eq (by show 16 * j + 16 ≤ _; omega), hread]
      rfl
  have hblock : (aes.encrypt Key (xorBytes (P i) (chain (aes.encrypt Key) P IV i))).length = 16 :=
    length_chainBlock hIV hP (i + 1)
  rw [encryptBlock, cbcAfter]
  simp only [hplace, hbefore, Option.bind_eq_bind, Option.bind_some]
  rw [if_neg (place_room h), save_eq (by rw [hblock]; exact h), Option.bind_some]
  simp only [place_next]
  rw [cbcAfter, ← writeBytes_joined hlen]
  rfl

theorem encrypt_eq (hparams : CbcParameters Key IV)
    (hroom : PlainTextLength.toNat + (16 - PlainTextLength.toNat % 16) ≤ CipherTextLength.toNat) :
    AES_CBC_Encrypt aes Key IV PlainText PlainTextLength CipherText CipherTextLength =
      let after := cbcAfter CipherText
        (cipherBlock aes Key IV (plainBlock PlainText PlainTextLength.toNat))
        (PlainTextLength.toNat / 16 + 1)
      some ⟨after.text, after.start, after.written⟩ := by
  have hIV := hparams.2
  have hlt := CipherTextLength.toNat_lt
  have hmod : (PlainTextLength % 16).toNat = PlainTextLength.toNat % 16 := UInt32.toNat_mod _ _
  have hpad : (16 - PlainTextLength % 16 : UInt32).toNat = 16 - PlainTextLength.toNat % 16 := by
    rw [UInt32.toNat_sub, hmod]
    show (2 ^ 32 - PlainTextLength.toNat % 16 + 16) % 2 ^ 32 = _
    omega
  have hsum : ¬ CipherTextLength < PlainTextLength + (16 - PlainTextLength % 16) := by
    rw [UInt32.lt_iff_toNat_lt, UInt32.toNat_add, hpad]
    omega
  have hbyte : (16 - PlainTextLength % 16 : UInt32).toUInt8 =
      UInt8.ofNat (16 - PlainTextLength.toNat % 16) := by
    apply UInt8.toNat_inj.mp
    rw [UInt32.toNat_toUInt8, hpad, UInt8.toNat_ofNat']
  generalize hlen : PlainTextLength.toNat = len at *
  have hP := length_plainBlock PlainText len
  have hloop : (List.range (len / 16)).foldlM
      (encryptTurn aes Key IV PlainText PlainTextLength CipherTextLength) ⟨CipherText, 0, 0⟩ =
        some (cbcAfter CipherText (cipherBlock aes Key IV (plainBlock PlainText len)) (len / 16)) := by
    rw [← cbcAfter_zero CipherText (cipherBlock aes Key IV (plainBlock PlainText len))]
    apply foldlM_range_eq
    intro i hi
    have hread : plainBlock PlainText len i = readBytes PlainText (16 * i) 16 := if_pos hi
    rw [encryptTurn, load_eq (by show 16 * i + 16 ≤ PlainTextLength.toNat; omega), Option.bind_eq_bind,
      Option.bind_some, ← hread]
    exact encryptBlock_eq hIV hP (by omega)
  have hlast : plainBlock PlainText len (len / 16) =
      readBytes PlainText (16 * (len / 16)) (len % 16) ++
        List.replicate (16 - len % 16) (UInt8.ofNat (16 - len % 16)) := if_neg (Nat.lt_irrefl _)
  have hend : encryptBlock aes Key IV CipherTextLength (plainBlock PlainText len (len / 16))
      (cbcAfter CipherText (cipherBlock aes Key IV (plainBlock PlainText len)) (len / 16)) =
        some (cbcAfter CipherText (cipherBlock aes Key IV (plainBlock PlainText len)) (len / 16 + 1)) :=
    encryptBlock_eq hIV hP (by omega)
  rw [AES_CBC_Encrypt]
  simp only [hlen, hsum, not_not_intro hparams, if_false, hloop, Option.bind_eq_bind, Option.bind_some]
  rw [load_eq (by show 16 * (len / 16) + len % 16 ≤ _; omega), Option.bind_some, hpad, hbyte, ← hlast,
    hend]
  rfl

end Encrypt

section Decrypt

variable {aes : BlockCipher 16} {Key IV : List UInt8} {CipherText f : Store}
  {CipherTextLength PlainTextLength : UInt32} {N i : Nat}

/-- What the block with the number is combined with. -/
def before (IV : List UInt8) (CipherText : Store) (i : Nat) : List UInt8 :=
  if i = 0 then IV else readBytes CipherText (16 * (i - 1)) 16

def clearBlock (aes : BlockCipher 16) (Key IV : List UInt8) (CipherText : Store) (i : Nat) :
    List UInt8 :=
  xorBytes (aes.decrypt Key (readBytes CipherText (16 * i) 16)) (before IV CipherText i)

theorem length_clearBlock (hIV : IV.length = 16) (i : Nat) :
    (clearBlock aes Key IV CipherText i).length = 16 := by
  have hbefore : (before IV CipherText i).length = 16 := by
    unfold before
    split
    · exact hIV
    · exact length_readBytes _ _ _
  rw [clearBlock, length_xorBytes, aes.length_decrypt Key (length_readBytes _ _ _), hbefore,
    Nat.min_self]

theorem blockBefore_eq (hin : 16 * i + 16 ≤ CipherTextLength.toNat) :
    blockBefore IV CipherTextLength.toNat CipherText (UInt32.ofNat (16 * i)) (AES_BLOCK_SIZES * i) =
      some (before IV CipherText i) := by
  have hlt := CipherTextLength.toNat_lt
  cases i with
  | zero => rfl
  | succ j =>
    have hsub : AES_BLOCK_SIZES * (j + 1) - AES_BLOCK_SIZES = 16 * j := by
      show 16 * (j + 1) - 16 = 16 * j
      omega
    rw [blockBefore, if_neg (by rw [place_eq_zero (by omega)]; omega), hsub,
      load_eq (by show 16 * j + 16 ≤ _; omega)]
    rfl

theorem decryptTurn_eq (hIV : IV.length = 16) (hin : 16 * i + 16 ≤ CipherTextLength.toNat)
    (hroom : 16 * i + 16 ≤ PlainTextLength.toNat) :
    decryptTurn aes Key IV CipherText CipherTextLength PlainTextLength
        (cbcAfter f (clearBlock aes Key IV CipherText) i) i =
      some (cbcAfter f (clearBlock aes Key IV CipherText) (i + 1)) := by
  have hlt := CipherTextLength.toNat_lt
  have hplace := toNat_place (i := i) (by omega)
  have hdecrypt : (aes.decrypt Key (readBytes CipherText (16 * i) 16)).length = 16 :=
    aes.length_decrypt Key (length_readBytes _ _ _)
  have hlen : ∀ j < i, (clearBlock aes Key IV CipherText j).length = 16 := fun j _ =>
    length_clearBlock hIV j
  have hwritten := readBytes_writeBytes (writeBytes f 0 (joined (clearBlock aes Key IV CipherText) i))
    (16 * i) (aes.decrypt Key (readBytes CipherText (16 * i) 16))
  rw [hdecrypt] at hwritten
  have hxor : (xorBytes (aes.decrypt Key (readBytes CipherText (16 * i) 16))
      (before IV CipherText i)).length = 16 := length_clearBlock hIV i
  have hblock : load CipherTextLength.toNat CipherText (AES_BLOCK_SIZES * i) AES_BLOCK_SIZES =
      some (readBytes CipherText (16 * i) 16) := load_eq hin
  have hread : load PlainTextLength.toNat
      (writeBytes (writeBytes f 0 (joined (clearBlock aes Key IV CipherText) i)) (16 * i)
        (aes.decrypt Key (readBytes CipherText (16 * i) 16))) (16 * i) AES_BLOCK_SIZES =
      some (aes.decrypt Key (readBytes CipherText (16 * i) 16)) := by
    rw [load_eq hroom]
    exact congrArg some hwritten
  rw [decryptTurn, decryptBlock, cbcAfter]
  simp only [hplace, place_room hroom, if_false, Option.bind_eq_bind, hblock,
    Option.bind_some, blockBefore_eq hin]
  rw [save_eq (by omega), Option.bind_some, Option.bind_some]
  simp only [hread, Option.bind_some]
  rw [save_eq (by omega), Option.bind_some, writeBytes_overwrite le_rfl (by omega), cbcAfter,
    ← writeBytes_joined hlen, place_next]
  rfl

theorem decryptTurn_none {t : CbcText} (hroom : PlainTextLength.toNat < t.start.toNat + 16)
    (hstart : t.start.toNat ≤ PlainTextLength.toNat) :
    decryptTurn aes Key IV CipherText CipherTextLength PlainTextLength t i = none := by
  have hshort : PlainTextLength - t.start < 16 := by
    rw [UInt32.lt_iff_toNat_lt, UInt32.toNat_sub]
    have hlt := PlainTextLength.toNat_lt
    show _ < 16
    omega
  have hread : load PlainTextLength.toNat t.text t.start.toNat AES_BLOCK_SIZES = none :=
    load_none hroom
  rw [decryptTurn, decryptBlock, if_pos hshort]
  simp only [Option.bind_eq_bind, Option.bind_some, hread, Option.bind_none, Option.bind_fun_none]

def paddingByte (aes : BlockCipher 16) (Key IV : List UInt8) (CipherText : Store) (len : Nat) :
    UInt8 :=
  (clearBlock aes Key IV CipherText (len / 16 - 1)).getD 15 0

theorem last_byte (hIV : IV.length = 16) :
    writeBytes f 0 (joined (clearBlock aes Key IV CipherText) (N + 1)) (16 * N + 15) =
      (clearBlock aes Key IV CipherText N).getD 15 0 := by
  have hread : readBytes (writeBytes f 0 (joined (clearBlock aes Key IV CipherText) (N + 1))) (16 * N) 16 =
      clearBlock aes Key IV CipherText N :=
    readBytes_joined (fun j _ => length_clearBlock hIV j) (Nat.lt_succ_self N)
  rw [← hread]
  rfl

theorem toNat_mod_sixteen (h : CipherTextLength.toNat % 16 = 0) : CipherTextLength % 16 = 0 := by
  apply UInt32.toNat_inj.mp
  rw [UInt32.toNat_mod]
  exact h

theorem decrypt_eq (hparams : CbcParameters Key IV) (hwhole : CipherTextLength.toNat % 16 = 0)
    (hpos : 0 < CipherTextLength.toNat) (hroom : CipherTextLength.toNat ≤ PlainTextLength.toNat) :
    AES_CBC_Decrypt aes Key IV CipherText CipherTextLength f PlainTextLength =
      some ⟨writeBytes f 0 (joined (clearBlock aes Key IV CipherText) (CipherTextLength.toNat / 16)),
        CipherTextLength - (paddingByte aes Key IV CipherText CipherTextLength.toNat).toUInt32,
        CipherTextLength.toNat⟩ := by
  have hlt := CipherTextLength.toNat_lt
  have hloop : (List.range (CipherTextLength.toNat / AES_BLOCK_SIZES)).foldlM
      (decryptTurn aes Key IV CipherText CipherTextLength PlainTextLength) ⟨f, 0, 0⟩ =
        some (cbcAfter f (clearBlock aes Key IV CipherText) (CipherTextLength.toNat / 16)) := by
    rw [← cbcAfter_zero f (clearBlock aes Key IV CipherText)]
    apply foldlM_range_eq
    intro i hi
    have hi' : i < CipherTextLength.toNat / 16 := hi
    exact decryptTurn_eq hparams.2 (by omega) (by omega)
  have hstart : UInt32.ofNat (16 * (CipherTextLength.toNat / 16)) = CipherTextLength := by
    apply UInt32.toNat_inj.mp
    rw [toNat_place (by omega)]
    omega
  obtain ⟨N, hN⟩ : ∃ N, CipherTextLength.toNat / 16 = N + 1 :=
    ⟨CipherTextLength.toNat / 16 - 1, by omega⟩
  have hplace : (CipherTextLength - 1).toNat = 16 * N + 15 := by
    rw [UInt32.toNat_sub]
    show (2 ^ 32 - 1 + CipherTextLength.toNat) % 2 ^ 32 = _
    omega
  rw [AES_CBC_Decrypt, if_neg (not_not_intro (toNat_mod_sixteen hwhole)),
    if_neg (not_not_intro hparams), hloop, Option.bind_eq_bind, Option.bind_some, cbcAfter]
  simp only [hstart]
  rw [hplace, loadByte_eq (by omega), Option.bind_eq_bind, Option.bind_some, hN,
    last_byte hparams.2, paddingByte, hN, Nat.add_sub_cancel]
  congr 2
  omega

theorem decrypt_short (hparams : CbcParameters Key IV) (hwhole : CipherTextLength.toNat % 16 = 0)
    (hroom : PlainTextLength.toNat < CipherTextLength.toNat) :
    AES_CBC_Decrypt aes Key IV CipherText CipherTextLength f PlainTextLength = none := by
  have hlt := CipherTextLength.toNat_lt
  have hloop : (List.range (CipherTextLength.toNat / AES_BLOCK_SIZES)).foldlM
      (decryptTurn aes Key IV CipherText CipherTextLength PlainTextLength) ⟨f, 0, 0⟩ = none := by
    rw [← cbcAfter_zero f (clearBlock aes Key IV CipherText)]
    apply foldlM_range_none (i := PlainTextLength.toNat / 16)
    · show PlainTextLength.toNat / 16 < CipherTextLength.toNat / 16
      omega
    · intro j hj
      exact decryptTurn_eq hparams.2 (by omega) (by omega)
    · have hstart : (cbcAfter f (clearBlock aes Key IV CipherText)
          (PlainTextLength.toNat / 16)).start.toNat = 16 * (PlainTextLength.toNat / 16) :=
        toNat_place (by omega)
      apply decryptTurn_none
      · omega
      · omega
  rw [AES_CBC_Decrypt, if_neg (not_not_intro (toNat_mod_sixteen hwhole)),
    if_neg (not_not_intro hparams), hloop]
  rfl

theorem decrypt_empty (hparams : CbcParameters Key IV) (h : CipherTextLength.toNat = 0) :
    AES_CBC_Decrypt aes Key IV CipherText CipherTextLength f PlainTextLength = none := by
  have hlt := PlainTextLength.toNat_lt
  rw [AES_CBC_Decrypt, if_neg (not_not_intro (toNat_mod_sixteen (by rw [h]))),
    if_neg (not_not_intro hparams), h]
  show (loadByte PlainTextLength.toNat f (2 ^ 32 - 1)).bind _ = none
  rw [loadByte_none (by omega)]
  rfl

end Decrypt

/-- What is encrypted is decrypted to what it was, with its length. -/
def CbcRoundTrips (aes : BlockCipher 16) (Key IV : List UInt8) (PlainText : Store)
    (PlainTextLength : UInt32) (CipherText : Store) (CipherTextLength : UInt32) (buf : Store)
    (bufLength : UInt32) : Prop :=
  ∃ c p, AES_CBC_Encrypt aes Key IV PlainText PlainTextLength CipherText CipherTextLength = some c ∧
    AES_CBC_Decrypt aes Key IV c.text c.length buf bufLength = some p ∧
    p.length = PlainTextLength ∧
    readBytes p.text 0 PlainTextLength.toNat = readBytes PlainText 0 PlainTextLength.toNat

/-- No access leaves the texts, and no more bytes are reported than were written. -/
def CbcBounded (aes : BlockCipher 16) (Key IV : List UInt8) (CipherText : Store)
    (CipherTextLength : UInt32) (PlainText : Store) (PlainTextLength : UInt32) : Prop :=
  ∃ p, AES_CBC_Decrypt aes Key IV CipherText CipherTextLength PlainText PlainTextLength = some p ∧
    p.length.toNat ≤ p.written

/-- An input that is rejected finds no room reported, and one that is not has a block, room for all
of it and a last byte that is not above its length. -/
def CbcSound (aes : BlockCipher 16) (Key IV : List UInt8) (CipherText : Store)
    (CipherTextLength PlainTextLength : UInt32) : Prop :=
  if CipherTextLength.toNat % 16 = 0 ∧ CbcParameters Key IV then
    0 < CipherTextLength.toNat ∧ CipherTextLength.toNat ≤ PlainTextLength.toNat ∧
      (paddingByte aes Key IV CipherText CipherTextLength.toNat).toNat ≤ CipherTextLength.toNat
  else PlainTextLength = 0

section Both

variable {aes : BlockCipher 16} {Key IV : List UInt8} {PlainText CipherText buf : Store}
  {PlainTextLength CipherTextLength bufLength : UInt32}

theorem clearBlock_cipherBlock {P : Nat → List UInt8} {N i : Nat} (hIV : IV.length = 16)
    (hP : ∀ i, (P i).length = 16) (hi : i < N) (f : Store) :
    clearBlock aes Key IV (writeBytes f 0 (joined (cipherBlock aes Key IV P) N)) i = P i := by
  have hlen : ∀ j < N, (cipherBlock aes Key IV P j).length = 16 := fun j _ =>
    length_chainBlock hIV hP (j + 1)
  have hchain : (chain (aes.encrypt Key) P IV i).length = 16 := length_chainBlock hIV hP i
  have hbefore : before IV (writeBytes f 0 (joined (cipherBlock aes Key IV P) N)) i =
      chain (aes.encrypt Key) P IV i := by
    unfold before
    split
    · next h => rw [h]; rfl
    · next h =>
      rw [readBytes_joined hlen (by omega), cipherBlock, Nat.sub_add_cancel (by omega)]
  have hinput : (xorBytes (P i) (chain (aes.encrypt Key) P IV i)).length = 16 := by
    rw [length_xorBytes, hP, hchain, Nat.min_self]
  rw [clearBlock, hbefore, readBytes_joined hlen hi, cipherBlock, chain,
    aes.decrypt_encrypt Key hinput]
  exact xorBytes_cancel (by rw [hP, hchain])

theorem joined_plainBlock (PlainText : Store) (len : Nat) :
    joined (plainBlock PlainText len) (len / 16 + 1) =
      readBytes PlainText 0 len ++
        List.replicate (16 - len % 16) (UInt8.ofNat (16 - len % 16)) := by
  have hfront : ∀ n ≤ len / 16, joined (plainBlock PlainText len) n = readBytes PlainText 0 (16 * n) := by
    intro n hn
    induction n with
    | zero => rfl
    | succ n ih =>
      rw [joined, ih (by omega), plainBlock, if_pos (by omega), Nat.mul_succ, readBytes_add,
        Nat.zero_add]
  have hsplit := readBytes_add PlainText 0 (16 * (len / 16)) (len % 16)
  rw [Nat.zero_add, Nat.div_add_mod] at hsplit
  rw [joined, hfront _ le_rfl, plainBlock, if_neg (Nat.lt_irrefl _), hsplit, List.append_assoc]

theorem cbc_roundTrips (hparams : CbcParameters Key IV)
    (hroom : PlainTextLength.toNat + (16 - PlainTextLength.toNat % 16) ≤ CipherTextLength.toNat)
    (hbuf : PlainTextLength.toNat + (16 - PlainTextLength.toNat % 16) ≤ bufLength.toNat) :
    CbcRoundTrips aes Key IV PlainText PlainTextLength CipherText CipherTextLength buf bufLength := by
  have hlt := CipherTextLength.toNat_lt
  generalize hlen : PlainTextLength.toNat = len at *
  have hP := length_plainBlock PlainText len
  have hplace : (UInt32.ofNat (16 * (len / 16 + 1))).toNat = 16 * (len / 16 + 1) :=
    toNat_place (by omega)
  have hclear : ∀ i < len / 16 + 1, clearBlock aes Key IV (writeBytes CipherText 0
      (joined (cipherBlock aes Key IV (plainBlock PlainText len)) (len / 16 + 1))) i =
        plainBlock PlainText len i := fun i hi => clearBlock_cipherBlock hparams.2 hP hi CipherText
  have hpad : paddingByte aes Key IV (writeBytes CipherText 0
      (joined (cipherBlock aes Key IV (plainBlock PlainText len)) (len / 16 + 1)))
        (16 * (len / 16 + 1)) = UInt8.ofNat (16 - len % 16) := by
    have hlast : 16 * (len / 16 + 1) / 16 - 1 = len / 16 := by omega
    rw [paddingByte, hlast, hclear _ (Nat.lt_succ_self _), plainBlock, if_neg (Nat.lt_irrefl _),
      List.getD_append_right _ _ _ _ (by rw [length_readBytes]; omega), length_readBytes,
      List.getD_replicate _ (by omega)]
  have hdecrypt := @decrypt_eq aes Key IV (writeBytes CipherText 0
    (joined (cipherBlock aes Key IV (plainBlock PlainText len)) (len / 16 + 1))) buf
    (UInt32.ofNat (16 * (len / 16 + 1))) bufLength hparams
    (by rw [hplace]; omega) (by rw [hplace]; omega) (by rw [hplace]; omega)
  rw [hplace, Nat.mul_div_cancel_left _ (by decide), joined_congr hclear, joined_plainBlock, hpad]
    at hdecrypt
  have hencrypt := @encrypt_eq aes Key IV PlainText CipherText PlainTextLength CipherTextLength hparams
    (by rw [hlen]; exact hroom)
  rw [hlen] at hencrypt
  have hlength : UInt32.ofNat (16 * (len / 16 + 1)) - (UInt8.ofNat (16 - len % 16)).toUInt32 =
      PlainTextLength := by
    have hsmall : (UInt8.ofNat (16 - len % 16)).toNat = 16 - len % 16 :=
      UInt8.toNat_ofNat_of_lt' (by show _ < 256; omega)
    apply UInt32.toNat_inj.mp
    rw [UInt32.toNat_sub, hplace, UInt8.toNat_toUInt32, hsmall, hlen]
    omega
  have hread := readBytes_writeBytes_front buf (readBytes PlainText 0 len)
    (List.replicate (16 - len % 16) (UInt8.ofNat (16 - len % 16)))
  rw [length_readBytes] at hread
  refine ⟨_, _, hencrypt, hdecrypt, hlength, ?_⟩
  rw [hlen]
  exact hread

theorem cbcBounded_iff : CbcBounded aes Key IV CipherText CipherTextLength buf bufLength ↔
    CbcSound aes Key IV CipherText CipherTextLength bufLength := by
  have hmod : CipherTextLength % 16 = 0 ↔ CipherTextLength.toNat % 16 = 0 := by
    rw [← UInt32.toNat_inj, UInt32.toNat_mod]
    exact Iff.rfl
  unfold CbcBounded CbcSound
  by_cases haccepted : CipherTextLength.toNat % 16 = 0 ∧ CbcParameters Key IV
  · obtain ⟨hwhole, hparams⟩ := haccepted
    rw [if_pos ⟨hwhole, hparams⟩]
    by_cases hempty : CipherTextLength.toNat = 0
    · rw [decrypt_empty hparams hempty]
      refine iff_of_false ?_ fun h => by omega
      rintro ⟨p, hp, -⟩
      cases hp
    · by_cases hroom : CipherTextLength.toNat ≤ bufLength.toNat
      · have hlt := CipherTextLength.toNat_lt
        have hbyte := UInt8.toNat_lt (paddingByte aes Key IV CipherText CipherTextLength.toNat)
        have hlength : (CipherTextLength -
            (paddingByte aes Key IV CipherText CipherTextLength.toNat).toUInt32).toNat ≤
              CipherTextLength.toNat ↔
            (paddingByte aes Key IV CipherText CipherTextLength.toNat).toNat ≤
              CipherTextLength.toNat := by
          rw [UInt32.toNat_sub, UInt8.toNat_toUInt32]
          omega
        rw [decrypt_eq hparams hwhole (by omega) hroom]
        constructor
        · rintro ⟨p, hp, hle⟩
          obtain rfl := Option.some.inj hp
          exact ⟨by omega, hroom, hlength.mp hle⟩
        · rintro ⟨-, -, hle⟩
          exact ⟨_, rfl, hlength.mpr hle⟩
      · rw [decrypt_short hparams hwhole (by omega)]
        refine iff_of_false ?_ fun h => hroom h.2.1
        rintro ⟨p, hp, -⟩
        cases hp
  · rw [if_neg haccepted]
    have hreject : AES_CBC_Decrypt aes Key IV CipherText CipherTextLength buf bufLength =
        some ⟨buf, bufLength, 0⟩ := by
      rw [AES_CBC_Decrypt]
      by_cases hwhole : CipherTextLength % 16 = 0
      · rw [if_neg (not_not_intro hwhole), if_pos fun h => haccepted ⟨hmod.mp hwhole, h⟩]
      · rw [if_pos hwhole]
    have hzero : bufLength.toNat ≤ 0 ↔ bufLength = 0 := by
      rw [← UInt32.toNat_inj]
      exact Nat.le_zero
    rw [hreject, ← hzero]
    constructor
    · rintro ⟨p, hp, hle⟩
      obtain rfl := Option.some.inj hp
      exact hle
    · intro hle
      exact ⟨_, rfl, hle⟩

end Both

/-- Decryption undoes encryption for every plaintext, and what it reports of other ciphertexts is
bounded exactly when these are sound. -/
theorem cbc_iff (aes : BlockCipher 16) (Key IV : List UInt8) (hparams : CbcParameters Key IV) :
    (∀ PlainText PlainTextLength CipherText CipherTextLength buf bufLength,
      PlainTextLength.toNat + (16 - PlainTextLength.toNat % 16) ≤ CipherTextLength.toNat →
      PlainTextLength.toNat + (16 - PlainTextLength.toNat % 16) ≤ bufLength.toNat →
      CbcRoundTrips aes Key IV PlainText PlainTextLength CipherText CipherTextLength buf bufLength) ∧
    ∀ Key IV CipherText CipherTextLength buf bufLength,
      CbcBounded aes Key IV CipherText CipherTextLength buf bufLength ↔
        CbcSound aes Key IV CipherText CipherTextLength bufLength :=
  ⟨fun _ _ _ _ _ _ hroom hbuf => cbc_roundTrips hparams hroom hbuf,
    fun _ _ _ _ _ _ => cbcBounded_iff⟩

theorem cbc_iff_zeroKek :
    CbcRoundTrips aesCipher zeroKek zeroKek (fun i => UInt8.ofNat i) 20 (fun _ => 0xff) 32
        (fun _ => 0xff) 40 ∧
      (CbcBounded aesCipher zeroKek zeroKek (fun i => UInt8.ofNat i) 32 (fun _ => 0xff) 40 ↔
        CbcSound aesCipher zeroKek zeroKek (fun i => UInt8.ofNat i) 32 40) := by
  obtain ⟨htrip, hbounded⟩ := cbc_iff aesCipher zeroKek zeroKek ⟨.inl rfl, rfl⟩
  exact ⟨htrip _ _ _ _ _ _ (by decide) (by decide), hbounded _ _ _ _ _ _⟩

/-- Under no cipher are 17 bytes a ciphertext, and the room for the plaintext is reported as its
length. -/
theorem runt_ciphertext : ¬ ∃ aes : BlockCipher 16,
    CbcBounded aes zeroKek zeroKek (fun _ => 0) 17 (fun _ => 0) 1024 := by
  rintro ⟨aes, h⟩
  rw [cbcBounded_iff, CbcSound, if_neg fun hc => absurd hc.1 (by decide)] at h
  exact absurd h (by decide)

end Ralink.Crypt
