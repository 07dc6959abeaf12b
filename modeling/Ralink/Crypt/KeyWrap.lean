import Ralink.Crypt.Aes

/-! `AES_Key_Wrap` and `AES_Key_Unwrap` of `crypt_aes.c`. Six passes over the 64-bit blocks of a key
mix them with a register that starts as `Default_IV`. -/
namespace Ralink.Crypt
open ByteStore Cipher

variable (aes : BlockCipher 16) (alloc : UInt32 → Bool) (Key : List UInt8)

def Default_IV : List UInt8 := List.replicate 8 0xa6

/-- The register of eight bytes and the blocks, behind each other. -/
structure Registers where
  IV : List UInt8
  pResult : List UInt8

def foldIndex (Number_Of_Block Index_j Index_i : Nat) (IV : List UInt8) : List UInt8 :=
  IV.modify 7 fun b => b ^^^ UInt8.ofNat (Number_Of_Block * Index_j + Index_i + 1)

def wrapTurn (Number_Of_Block Index_j : Nat) (r : Registers) (Index_i : Nat) : Registers :=
  let Block_Input := r.IV ++ (r.pResult.drop (Index_i * 8)).take 8
  let Block_B := aes.encrypt Key Block_Input
  { IV := foldIndex Number_Of_Block Index_j Index_i (Block_B.take 8)
    pResult := splice r.pResult (Index_i * 8) (Block_B.drop 8) }

def wrapPass (Number_Of_Block : Nat) (r : Registers) (Index_j : Nat) : Registers :=
  (List.range Number_Of_Block).foldl (wrapTurn aes Key Number_Of_Block Index_j) r

def wrapLoops (Number_Of_Block : Nat) (r : Registers) : Registers :=
  (List.range 6).foldl (wrapPass aes Key Number_Of_Block) r

def unwrapTurn (Number_Of_Block Index_j : Nat) (r : Registers) (Index_i : Nat) : Registers :=
  let IV := foldIndex Number_Of_Block Index_j Index_i r.IV
  let Block_Input := IV ++ (r.pResult.drop (Index_i * 8)).take 8
  let Block_B := aes.decrypt Key Block_Input
  { IV := Block_B.take 8
    pResult := splice r.pResult (Index_i * 8) (Block_B.drop 8) }

def unwrapPass (Number_Of_Block : Nat) (r : Registers) (Index_j : Nat) : Registers :=
  (List.range Number_Of_Block).reverse.foldl (unwrapTurn aes Key Number_Of_Block Index_j) r

def unwrapLoops (Number_Of_Block : Nat) (r : Registers) : Registers :=
  (List.range 6).reverse.foldl (unwrapPass aes Key Number_Of_Block) r

structure Output where
  ret : Int
  text : Store
  length : UInt32

def AES_Key_Wrap (PlainText : Store) (PlainTextLength : UInt32) (CipherText : Store)
    (CipherTextLength : UInt32) : Output :=
  if Key.length ≠ 16 ∧ Key.length ≠ 24 ∧ Key.length ≠ 32 then ⟨-1, CipherText, CipherTextLength⟩
  else if alloc PlainTextLength = false then ⟨-2, CipherText, CipherTextLength⟩
  else
    let pResult := readBytes PlainText 0 PlainTextLength.toNat
    let r := wrapLoops aes Key (PlainTextLength.toNat / 8) ⟨Default_IV, pResult⟩
    ⟨0, writeBytes (writeBytes CipherText 0 r.IV) 8 r.pResult, PlainTextLength + 8⟩

def AES_Key_Unwrap (CipherText : Store) (CipherTextLength : UInt32) (PlainText : Store)
    (PlainTextLength : UInt32) : Output :=
  let PlainLength := CipherTextLength - 8
  if Key.length ≠ 16 ∧ Key.length ≠ 24 ∧ Key.length ≠ 32 then ⟨-1, PlainText, PlainTextLength⟩
  else if alloc PlainLength = false then ⟨-2, PlainText, PlainTextLength⟩
  else
    let pResult := readBytes CipherText 8 PlainLength.toNat
    let r := unwrapLoops aes Key (PlainLength.toNat / 8) ⟨readBytes CipherText 0 8, pResult⟩
    ⟨0, writeBytes PlainText 0 r.pResult, PlainLength⟩

structure Whole (n len : Nat) (r : Registers) : Prop where
  IV : r.IV.length = 8
  pResult : r.pResult.length = len
  room : n * 8 ≤ len

variable {aes Key} {n i j len : Nat} {r : Registers}

variable (IV : List UInt8) {b : List UInt8}

theorem length_foldIndex : (foldIndex n j i IV).length = IV.length :=
  List.length_modify _ _ _

theorem foldIndex_foldIndex : foldIndex n j i (foldIndex n j i IV) = IV := by
  unfold foldIndex
  rw [List.modify_modify_eq]
  have hid : ∀ t : UInt8, ((fun b => b ^^^ t) ∘ fun b => b ^^^ t) = id := fun t => by
    funext b
    exact xor_cancel b t
  rw [hid, List.modify_id]

theorem halves (hb : b.length = 16) : (b.take 8).length = 8 ∧ (b.drop 8).length = 8 := by
  rw [List.length_take, List.length_drop, hb]
  exact ⟨rfl, rfl⟩

section

variable (hr : Whole n len r)
include hr

theorem Whole.input (hi : i < n) : (r.IV ++ (r.pResult.drop (i * 8)).take 8).length = 16 := by
  have hroom := hr.room
  rw [List.length_append, hr.IV, List.length_take, List.length_drop, hr.pResult,
    Nat.min_eq_left (by omega)]

theorem Whole.fits (hi : i < n) (hb : b.length = 8) : i * 8 + b.length ≤ r.pResult.length := by
  have hroom := hr.room
  rw [hb, hr.pResult]
  omega

theorem Whole.foldIndex : Whole n len ⟨foldIndex n j i r.IV, r.pResult⟩ :=
  ⟨(length_foldIndex _).trans hr.IV, hr.pResult, hr.room⟩

theorem Whole.wrapTurn (hi : i < n) : Whole n len (wrapTurn aes Key n j r i) := by
  obtain ⟨hfst, hsnd⟩ := halves (aes.length_encrypt Key (hr.input hi))
  have hlen := length_splice (hr.fits hi hsnd)
  exact ⟨(length_foldIndex _).trans hfst, hlen.trans hr.pResult, hr.room⟩

theorem Whole.unwrapTurn (hi : i < n) : Whole n len (unwrapTurn aes Key n j r i) := by
  obtain ⟨hfst, hsnd⟩ := halves (aes.length_decrypt Key ((hr.foldIndex (j := j)).input hi))
  have hlen := length_splice (hr.fits hi hsnd)
  exact ⟨hfst, hlen.trans hr.pResult, hr.room⟩

end

theorem Whole.splice (hr : Whole n len r) (hi : i < n) {b : List UInt8} (hb : b.length = 16) :
    ((splice r.pResult (i * 8) (b.drop 8)).drop (i * 8)).take 8 = b.drop 8 ∧
      splice (splice r.pResult (i * 8) (b.drop 8)) (i * 8)
        ((r.pResult.drop (i * 8)).take 8) = r.pResult := by
  obtain ⟨-, hsnd⟩ := halves hb
  have hroom := hr.fits hi hsnd
  have hread := @take_drop_splice _ _ (b.drop 8) (Nat.le_of_add_right_le hroom)
  have hback := splice_splice hroom
  rw [hsnd] at hread hback
  exact ⟨hread, hback⟩

theorem unwrap_wrapTurn (hr : Whole n len r) (hi : i < n) :
    unwrapTurn aes Key n j (wrapTurn aes Key n j r i) i = r := by
  have hin := hr.input hi
  obtain ⟨hread, hback⟩ := hr.splice hi (aes.length_encrypt Key hin)
  unfold unwrapTurn wrapTurn
  simp only [foldIndex_foldIndex, hread, List.take_append_drop, aes.decrypt_encrypt Key hin,
    List.take_left' hr.IV, List.drop_left' hr.IV, hback]

theorem wrap_unwrapTurn (hr : Whole n len r) (hi : i < n) :
    wrapTurn aes Key n j (unwrapTurn aes Key n j r i) i = r := by
  have hlen : (Crypt.foldIndex n j i r.IV).length = 8 := hr.foldIndex.IV
  have hin := (hr.foldIndex (j := j) (i := i)).input hi
  obtain ⟨hread, hback⟩ := hr.splice hi (aes.length_decrypt Key hin)
  unfold wrapTurn unwrapTurn
  simp only [hread, List.take_append_drop, aes.encrypt_decrypt Key hin, List.take_left' hlen,
    List.drop_left' hlen, foldIndex_foldIndex, hback]

theorem Whole.wrapPass (hr : Whole n len r) : Whole n len (wrapPass aes Key n r j) :=
  foldl_inv (fun _ _ hi hs => hs.wrapTurn (List.mem_range.mp hi)) hr

theorem Whole.unwrapPass (hr : Whole n len r) : Whole n len (unwrapPass aes Key n r j) :=
  foldl_inv (fun _ _ hi hs => hs.unwrapTurn (List.mem_range.mp (List.mem_reverse.mp hi))) hr

theorem unwrap_wrapPass (hr : Whole n len r) :
    unwrapPass aes Key n (wrapPass aes Key n r j) j = r :=
  foldl_undo (fun _ _ hi hs => hs.wrapTurn (List.mem_range.mp hi))
    (fun _ _ hi hs => unwrap_wrapTurn hs (List.mem_range.mp hi)) hr

theorem wrap_unwrapPass (hr : Whole n len r) :
    wrapPass aes Key n (unwrapPass aes Key n r j) j = r := by
  have hundo : (List.range n).reverse.reverse.foldl (wrapTurn aes Key n j)
      (unwrapPass aes Key n r j) = r :=
    foldl_undo (fun _ _ hi hs => hs.unwrapTurn (List.mem_range.mp (List.mem_reverse.mp hi)))
      (fun _ _ hi hs => wrap_unwrapTurn hs (List.mem_range.mp (List.mem_reverse.mp hi))) hr
  rwa [List.reverse_reverse] at hundo

theorem Whole.wrapLoops (hr : Whole n len r) : Whole n len (wrapLoops aes Key n r) :=
  foldl_inv (fun _ _ _ hs => hs.wrapPass) hr

theorem Whole.unwrapLoops (hr : Whole n len r) : Whole n len (unwrapLoops aes Key n r) :=
  foldl_inv (fun _ _ _ hs => hs.unwrapPass) hr

theorem unwrap_wrapLoops (hr : Whole n len r) :
    unwrapLoops aes Key n (wrapLoops aes Key n r) = r :=
  foldl_undo (fun _ _ _ hs => hs.wrapPass) (fun _ _ _ hs => unwrap_wrapPass hs) hr

theorem wrap_unwrapLoops (hr : Whole n len r) :
    wrapLoops aes Key n (unwrapLoops aes Key n r) = r := by
  have hundo : (List.range 6).reverse.reverse.foldl (wrapPass aes Key n)
      (unwrapLoops aes Key n r) = r :=
    foldl_undo (fun _ _ _ hs => hs.unwrapPass) (fun _ _ _ hs => wrap_unwrapPass hs) hr
  rwa [List.reverse_reverse] at hundo

def IsKek (Key : List UInt8) : Prop :=
  Key.length = 16 ∨ Key.length = 24 ∨ Key.length = 32

def plainRegisters (PlainText : Store) (len : Nat) : Registers :=
  ⟨Default_IV, readBytes PlainText 0 len⟩

def cipherRegisters (CipherText : Store) (len : Nat) : Registers :=
  ⟨readBytes CipherText 0 8, readBytes CipherText 8 len⟩

theorem whole_plain (PlainText : Store) (len : Nat) :
    Whole (len / 8) len (plainRegisters PlainText len) :=
  ⟨rfl, length_readBytes _ _ _, Nat.div_mul_le_self len 8⟩

theorem whole_cipher (CipherText : Store) (len : Nat) :
    Whole (len / 8) len (cipherRegisters CipherText len) :=
  ⟨length_readBytes _ _ _, length_readBytes _ _ _, Nat.div_mul_le_self len 8⟩

section Calls

variable {alloc : UInt32 → Bool} {PlainText CipherText : Store}
  {PlainTextLength CipherTextLength : UInt32}

theorem wrap_eq (hkey : IsKek Key) (hmem : alloc PlainTextLength = true) :
    AES_Key_Wrap aes alloc Key PlainText PlainTextLength CipherText CipherTextLength =
      ⟨0, writeBytes CipherText 0
        ((wrapLoops aes Key (PlainTextLength.toNat / 8)
            (plainRegisters PlainText PlainTextLength.toNat)).IV ++
          (wrapLoops aes Key (PlainTextLength.toNat / 8)
            (plainRegisters PlainText PlainTextLength.toNat)).pResult), PlainTextLength + 8⟩ := by
  have hIV := (@Whole.wrapLoops aes Key _ _ _ (whole_plain PlainText PlainTextLength.toNat)).IV
  unfold AES_Key_Wrap
  rw [if_neg (by unfold IsKek at hkey; omega), if_neg (by rw [hmem]; decide)]
  rw [← writeBytes_append, hIV]
  rfl

theorem unwrap_eq (hkey : IsKek Key) (hmem : alloc (CipherTextLength - 8) = true) :
    AES_Key_Unwrap aes alloc Key CipherText CipherTextLength PlainText PlainTextLength =
      ⟨0, writeBytes PlainText 0
        (unwrapLoops aes Key ((CipherTextLength - 8).toNat / 8)
          (cipherRegisters CipherText (CipherTextLength - 8).toNat)).pResult,
        CipherTextLength - 8⟩ := by
  unfold AES_Key_Unwrap
  rw [if_neg (by unfold IsKek at hkey; omega), if_neg (by rw [hmem]; decide)]
  rfl

end Calls

/-- Some plaintext of whole blocks, at least two of them, is wrapped as these bytes. -/
def IsWrap (aes : BlockCipher 16) (Key : List UInt8) (CipherText : Store)
    (CipherTextLength : UInt32) : Prop :=
  ∃ (PlainText : Store) (PlainTextLength : UInt32),
    8 ∣ PlainTextLength.toNat ∧ 16 ≤ PlainTextLength.toNat ∧
    PlainTextLength.toNat + 8 < 2 ^ 32 ∧
    let out := AES_Key_Wrap aes (fun _ => true) Key PlainText PlainTextLength (fun _ => 0) 0
    out.length = CipherTextLength ∧
      readBytes out.text 0 out.length.toNat = readBytes CipherText 0 CipherTextLength.toNat

/-- Wrapping and unwrapping both succeed and give the plaintext back. -/
def UnwrapsTo (aes : BlockCipher 16) (alloc alloc' : UInt32 → Bool) (Key : List UInt8)
    (PlainText : Store) (PlainTextLength : UInt32) (CipherText : Store) (CipherTextLength : UInt32)
    (buf : Store) (bufLength : UInt32) : Prop :=
  let w := AES_Key_Wrap aes alloc Key PlainText PlainTextLength CipherText CipherTextLength
  let u := AES_Key_Unwrap aes alloc' Key w.text w.length buf bufLength
  w.ret = 0 ∧ u.ret = 0 ∧ u.length = PlainTextLength ∧
    readBytes u.text 0 PlainTextLength.toNat = readBytes PlainText 0 PlainTextLength.toNat

/-- What is not a wrap is reported, and the output is left alone. -/
def Authenticated (aes : BlockCipher 16) (alloc : UInt32 → Bool) (Key : List UInt8)
    (CipherText : Store) (CipherTextLength : UInt32) (buf : Store) (bufLength : UInt32) : Prop :=
  ¬ IsWrap aes Key CipherText CipherTextLength →
    let u := AES_Key_Unwrap aes alloc Key CipherText CipherTextLength buf bufLength
    u.ret ≠ 0 ∧ u.text = buf ∧ u.length = bufLength

section Wraps

variable {alloc alloc' : UInt32 → Bool} {PlainText CipherText buf : Store}
  {PlainTextLength CipherTextLength bufLength : UInt32}

theorem cipherRegisters_written (hr : Whole n len r) (f : Store) :
    cipherRegisters (writeBytes f 0 (r.IV ++ r.pResult)) len = r := by
  have hread := readBytes_writeBytes f 0 (r.IV ++ r.pResult)
  rw [List.length_append, hr.IV, hr.pResult, readBytes_add, Nat.zero_add] at hread
  obtain ⟨hIV, hpResult⟩ := List.append_inj hread (by rw [length_readBytes, hr.IV])
  unfold cipherRegisters
  rw [hIV, hpResult]

theorem unwrapsTo (hkey : IsKek Key) (hmem : alloc PlainTextLength = true)
    (hmem' : alloc' PlainTextLength = true) :
    UnwrapsTo aes alloc alloc' Key PlainText PlainTextLength CipherText CipherTextLength buf
      bufLength := by
  have hwhole := whole_plain PlainText PlainTextLength.toNat
  have hsub : PlainTextLength + 8 - 8 = PlainTextLength := by
    rw [UInt32.add_sub_cancel]
  unfold UnwrapsTo
  rw [wrap_eq hkey hmem]
  simp only
  rw [unwrap_eq hkey (by rwa [hsub])]
  simp only
  rw [hsub, cipherRegisters_written hwhole.wrapLoops, unwrap_wrapLoops hwhole]
  refine ⟨trivial, trivial, rfl, ?_⟩
  have hread := readBytes_writeBytes buf 0 (plainRegisters PlainText PlainTextLength.toNat).pResult
  rwa [hwhole.pResult] at hread

theorem isWrap_iff (hkey : IsKek Key) :
    IsWrap aes Key CipherText CipherTextLength ↔
      8 ∣ CipherTextLength.toNat ∧ 24 ≤ CipherTextLength.toNat ∧
        (unwrapLoops aes Key ((CipherTextLength.toNat - 8) / 8)
          (cipherRegisters CipherText (CipherTextLength.toNat - 8))).IV = Default_IV := by
  constructor
  · rintro ⟨PlainText, len, hdvd, hlen, hfits, hout⟩
    rw [wrap_eq hkey rfl] at hout
    obtain ⟨rfl, hbytes⟩ := hout
    have hwhole := whole_plain PlainText len.toNat
    have hnat : (len + 8).toNat = 8 + len.toNat := by
      rw [UInt32.toNat_add]
      show (len.toNat + 8) % 2 ^ 32 = 8 + len.toNat
      omega
    have hregs : cipherRegisters CipherText len.toNat =
        wrapLoops aes Key (len.toNat / 8) (plainRegisters PlainText len.toNat) := by
      rw [← cipherRegisters_written hwhole.wrapLoops (fun _ => 0)]
      rw [hnat, readBytes_add, readBytes_add, Nat.zero_add] at hbytes
      obtain ⟨hIV, hpResult⟩ := List.append_inj hbytes (by rw [length_readBytes, length_readBytes])
      unfold cipherRegisters
      rw [hIV, hpResult]
    rw [hnat, Nat.add_sub_cancel_left, hregs, unwrap_wrapLoops hwhole]
    exact ⟨by omega, by omega, rfl⟩
  · rintro ⟨hdvd, hlen, hIV⟩
    have hwhole := whole_cipher CipherText (CipherTextLength.toNat - 8)
    have hback := @wrap_unwrapLoops aes Key _ _ _ hwhole
    have hplain := @Whole.unwrapLoops aes Key _ _ _ hwhole
    have hlt := CipherTextLength.toNat_lt
    have hnat : (CipherTextLength - 8).toNat = CipherTextLength.toNat - 8 := by
      rw [UInt32.toNat_sub_of_le]
      · rfl
      · rw [UInt32.le_iff_toNat_le]
        show 8 ≤ CipherTextLength.toNat
        omega
    generalize hr : unwrapLoops aes Key ((CipherTextLength.toNat - 8) / 8)
      (cipherRegisters CipherText (CipherTextLength.toNat - 8)) = r at hIV hback hplain
    have hregs : plainRegisters (writeBytes (fun _ => 0) 0 r.pResult)
        (CipherTextLength.toNat - 8) = r := by
      have hread := readBytes_writeBytes (fun _ => 0) 0 r.pResult
      rw [hplain.pResult] at hread
      unfold plainRegisters
      rw [hread, ← hIV]
    refine ⟨writeBytes (fun _ => 0) 0 r.pResult, CipherTextLength - 8, by omega, by omega,
      by omega, ?_⟩
    rw [wrap_eq hkey rfl, hnat, hregs, hback]
    have hlength : CipherTextLength - 8 + 8 = CipherTextLength := UInt32.sub_add_cancel _ _
    have hsplit : readBytes CipherText 0 CipherTextLength.toNat =
        (cipherRegisters CipherText (CipherTextLength.toNat - 8)).IV ++
          (cipherRegisters CipherText (CipherTextLength.toNat - 8)).pResult := by
      have hsum : CipherTextLength.toNat = 8 + (CipherTextLength.toNat - 8) := by omega
      rw [hsum, readBytes_add, Nat.zero_add, Nat.add_sub_cancel_left]
      rfl
    have hread := readBytes_writeBytes (fun _ => 0) 0 (readBytes CipherText 0 CipherTextLength.toNat)
    rw [length_readBytes] at hread
    simp only [hlength]
    rw [← hsplit, hread]
    exact ⟨trivial, rfl⟩

theorem authenticated_iff (hkey : IsKek Key) :
    Authenticated aes alloc Key CipherText CipherTextLength buf bufLength ↔
      IsWrap aes Key CipherText CipherTextLength ∨ alloc (CipherTextLength - 8) = false := by
  unfold Authenticated
  by_cases hmem : alloc (CipherTextLength - 8) = true
  · rw [unwrap_eq hkey hmem]
    simp [hmem]
  · rw [Bool.not_eq_true] at hmem
    have hfail : AES_Key_Unwrap aes alloc Key CipherText CipherTextLength buf bufLength =
        ⟨-2, buf, bufLength⟩ := by
      unfold AES_Key_Unwrap
      rw [if_neg (by unfold IsKek at hkey; omega), if_pos hmem]
    rw [hfail]
    simp [hmem]

end Wraps

/-- Unwrapping inverts wrapping for every plaintext. It tells that something is not a wrap only
when its working buffer cannot be allocated. -/
theorem keyWrap_iff (aes : BlockCipher 16) (Key : List UInt8) (hkey : IsKek Key) :
    (∀ alloc alloc' PlainText PlainTextLength CipherText CipherTextLength buf bufLength,
      8 ∣ PlainTextLength.toNat → 16 ≤ PlainTextLength.toNat → alloc PlainTextLength = true →
      alloc' PlainTextLength = true →
      UnwrapsTo aes alloc alloc' Key PlainText PlainTextLength CipherText CipherTextLength buf
        bufLength) ∧
    ∀ alloc CipherText CipherTextLength buf bufLength,
      Authenticated aes alloc Key CipherText CipherTextLength buf bufLength ↔
        IsWrap aes Key CipherText CipherTextLength ∨ alloc (CipherTextLength - 8) = false :=
  ⟨fun _ _ _ _ _ _ _ _ _ _ hmem hmem' => unwrapsTo hkey hmem hmem',
    fun _ _ _ _ _ => authenticated_iff hkey⟩

def zeroKek : List UInt8 := List.replicate 16 0

theorem keyWrap_iff_zeroKek :
    UnwrapsTo aesCipher (fun _ => true) (fun _ => true) zeroKek (fun i => UInt8.ofNat i) 24
        (fun _ => 0xff) 0 (fun _ => 0xff) 0 ∧
      (Authenticated aesCipher (fun _ => true) zeroKek (fun i => UInt8.ofNat i) 32 (fun _ => 0xff) 0 ↔
        IsWrap aesCipher zeroKek (fun i => UInt8.ofNat i) 32 ∨ true = false) := by
  obtain ⟨hwrap, hunwrap⟩ := keyWrap_iff aesCipher zeroKek (.inl rfl)
  exact ⟨hwrap _ _ _ _ _ _ _ _ (by decide) (by decide) rfl rfl, hunwrap (fun _ => true) _ _ _ _⟩

/-- Under no cipher are 25 bytes a wrap, and 17 bytes are returned as the key in them. -/
theorem no_wrap_accepted : ¬ ∃ aes : BlockCipher 16,
    Authenticated aes (fun _ => true) zeroKek (fun _ => 0) 25 (fun _ => 0) 0 := by
  rintro ⟨aes, h⟩
  rcases (authenticated_iff (.inl rfl)).mp h with hwrap | hmem
  · obtain ⟨hdvd, -, -⟩ := (isWrap_iff (.inl rfl)).mp hwrap
    exact absurd hdvd (by decide)
  · exact Bool.noConfusion hmem

end Ralink.Crypt
