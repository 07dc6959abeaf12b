import Ralink.Crypt.Ccmp

/-! `RTMPSoftDecryptAES` of `cmm_aes.c` decrypts a whole frame, with its counter and MIC blocks
built by hand. It is compared with `RTMPSoftDecryptCCMP` on the body of the same frame. -/
namespace Ralink.Crypt
open ByteStore Cipher Buffer

section Code

variable (aes : BlockCipher 16) (a4_exists qc_exists : Bool) (mpdu : Store)

def construct_mic_header1 (header_length : Nat) : List UInt8 :=
  [UInt8.ofNat ((header_length - 2) / 256), UInt8.ofNat ((header_length - 2) % 256),
    mpdu 0 &&& 0xcf, mpdu 1 &&& 0xc7] ++ readBytes mpdu 4 12

def construct_mic_header2 : List UInt8 :=
  let mic_header2 := splice zeroBlock 0 (readBytes mpdu 16 6 ++ [mpdu 22 &&& 0x0f, 0x00])
  let mic_header2 :=
    if !qc_exists && a4_exists then splice mic_header2 8 (readBytes mpdu 24 6) else mic_header2
  let mic_header2 :=
    if qc_exists && !a4_exists then splice mic_header2 8 [mpdu 24 &&& 0x0f, mpdu 25 &&& 0x00]
    else mic_header2
  if qc_exists && a4_exists then
    splice mic_header2 8 (readBytes mpdu 24 6 ++ [mpdu 30 &&& 0x0f, mpdu 31 &&& 0x00])
  else mic_header2

def priority : UInt8 :=
  if qc_exists && a4_exists then mpdu 30 &&& 0x0f
  else if qc_exists && !a4_exists then mpdu 24 &&& 0x0f else 0x00

def construct_mic_iv (payload_length : UInt32) (pn_vector : PN) : List UInt8 :=
  [0x59, priority a4_exists qc_exists mpdu] ++ readBytes mpdu 10 6 ++
    pn_vector.toList.reverse ++
    [(payload_length / 256).toUInt8, (payload_length % 256).toUInt8]

def construct_ctr_preload (pn_vector : PN) (c : Nat) : List UInt8 :=
  [0x01, priority a4_exists qc_exists mpdu] ++ readBytes mpdu 10 6 ++
    pn_vector.toList.reverse ++
    [UInt8.ofNat (c / 256), UInt8.ofNat (c % 256)]

/-- `n` bytes at `payload_index`, put under the counter block `c` and stored eight bytes lower. -/
def payloadBlock (Key : List UInt8) (size : Nat) (PN : PN) (pData : Store) (payload_index n c : Nat) :
    Option Store := do
  let aes_out := aes.encrypt Key (construct_ctr_preload a4_exists qc_exists pData PN c)
  let bytes ← load size pData payload_index n
  save size pData (payload_index - 8) ((xorBytes aes_out (pad 16 bytes)).take n)

def micBlock (Key : List UInt8) (size : Nat) (pData : Store) (aes_out : List UInt8)
    (payload_index n : Nat) : Option (List UInt8) := do
  let bytes ← load size pData payload_index n
  some (aes.encrypt Key (xorBytes aes_out (pad 16 bytes)))

/-- The loop over the whole blocks of the payload, and the short final one. -/
def decryptPayload (Key : List UInt8) (size : Nat) (PN : PN) (pData : Store) (payload_index
    num_blocks payload_remainder : Nat) : Option Store := do
  let pData ← (List.range num_blocks).foldlM (fun pData i =>
    payloadBlock aes a4_exists qc_exists Key size PN pData (payload_index + 16 * i) 16 (i + 1)) pData
  if 0 < payload_remainder then
    payloadBlock aes a4_exists qc_exists Key size PN pData (payload_index + 16 * num_blocks)
      payload_remainder (num_blocks + 1)
  else some pData

def payloadMic (Key : List UInt8) (size : Nat) (pData : Store) (payload_index num_blocks
    payload_remainder : Nat) (aes_out : List UInt8) : Option (List UInt8) := do
  let aes_out ← (List.range num_blocks).foldlM (fun aes_out i =>
    micBlock aes Key size pData aes_out (payload_index + 16 * i) 16) aes_out
  if 0 < payload_remainder then
    micBlock aes Key size pData aes_out (payload_index + 16 * num_blocks) payload_remainder
  else some aes_out

end Code

def HeaderLen (pData : Store) : Nat :=
  24 + (if a4_exists pData then 6 else 0) + (if qc_exists pData then 2 else 0)

structure DecryptedFrame where
  ret : Bool
  pData : Store

def RTMPSoftDecryptAES (aes : BlockCipher 16) (pWpaKey : CIPHER_KEY) (size : Nat) (pData : Store)
    (DataByteCnt : UInt32) : Option DecryptedFrame :=
  let a4 := a4_exists pData
  let qc := qc_exists pData
  let HeaderLen := HeaderLen pData
  if pWpaKey.KeyLen = 0 then some ⟨false, pData⟩
  else do
    let Key := pWpaKey.Key
    let PN ← loadPN size pData HeaderLen
    let payload_len := DataByteCnt - UInt32.ofNat HeaderLen - 8 - 8
    let payload_remainder := (payload_len % 16).toNat
    let num_blocks := (payload_len / 16).toNat
    let pData ← decryptPayload aes a4 qc Key size PN pData (HeaderLen + 8) num_blocks payload_remainder
    let payload_index := HeaderLen + 8 + 16 * num_blocks + payload_remainder
    let aes_out := aes.encrypt Key (construct_ctr_preload a4 qc pData PN 0)
    let mic ← load size pData payload_index 8
    let TrailMIC := (xorBytes aes_out (pad 16 mic)).take 8
    -- the protected frame bit is forced on
    let pData := writeBytes pData 1 [pData 1 ||| 0x40]
    let aes_out := aes.encrypt Key (construct_mic_iv a4 qc pData payload_len PN)
    let aes_out := aes.encrypt Key (xorBytes aes_out (construct_mic_header1 pData HeaderLen))
    let aes_out := aes.encrypt Key (xorBytes aes_out (construct_mic_header2 a4 qc pData))
    let aes_out ← payloadMic aes Key size pData HeaderLen num_blocks payload_remainder aes_out
    some ⟨aes_out.take 8 = TrailMIC, pData⟩

section Spec

variable {aes : BlockCipher 16} {a4 qc : Bool} {mpdu mpdu' f : Store} {pn : PN} {size : Nat}
  {Key : List UInt8}

theorem pn_cases (pn : PN) : ∃ a b c d e f, pn = #v[a, b, c, d, e, f] := by
  obtain ⟨⟨l⟩, h⟩ := pn
  rcases l with _ | ⟨a, _ | ⟨b, _ | ⟨c, _ | ⟨d, _ | ⟨e, _ | ⟨f, _ | ⟨_, _⟩⟩⟩⟩⟩⟩⟩
  case cons.cons.cons.cons.cons.cons.nil => exact ⟨a, b, c, d, e, f, rfl⟩
  all_goals simp at h

theorem construct_ctr_preload_eq (c : Nat) : construct_ctr_preload a4 qc mpdu pn c =
    0x01 :: RTMPConstructCCMPNonce mpdu a4 qc pn ++ [UInt8.ofNat (c / 256), UInt8.ofNat (c % 256)] := by
  obtain ⟨a, b, c, d, e, f, rfl⟩ := pn_cases pn
  cases a4 <;> cases qc <;> rfl

theorem construct_mic_iv_eq (payload_length : UInt32) : construct_mic_iv a4 qc mpdu payload_length pn =
    0x59 :: RTMPConstructCCMPNonce mpdu a4 qc pn ++
      [(payload_length / 256).toUInt8, (payload_length % 256).toUInt8] := by
  obtain ⟨a, b, c, d, e, f, rfl⟩ := pn_cases pn
  cases a4 <;> cases qc <;> rfl

theorem length_construct_ctr_preload (c : Nat) : (construct_ctr_preload a4 qc mpdu pn c).length = 16 := by
  simp [construct_ctr_preload]

theorem nonceOf_congr {f g : Store} (h : ∀ a < HeaderLen f, g a = f a) :
    RTMPConstructCCMPNonce g (a4_exists f) (qc_exists f) pn = nonceOf f pn := by
  have hlen : 24 ≤ HeaderLen f := by
    unfold HeaderLen
    omega
  have haddr2 : readBytes g 10 6 = readBytes f 10 6 := readBytes_congr fun i hi => h _ (by omega)
  unfold nonceOf RTMPConstructCCMPNonce
  rw [haddr2]
  congr 3
  cases hqc : qc_exists f with
  | false => rfl
  | true =>
    cases ha4 : a4_exists f with
    | false =>
      have h24 := h 24 (by simp [HeaderLen, hqc, ha4])
      simp [h24]
    | true =>
      have h30 := h 30 (by simp [HeaderLen, hqc, ha4])
      simp [h30]

theorem take_xorBytes_pad {ks bs : List UInt8} :
    (xorBytes ks (pad 16 bs)).take bs.length = xorBytes bs (ks.take bs.length) := by
  have hpad : (pad 16 bs).take bs.length = bs := by
    rw [pad, List.take_append_of_le_length le_rfl, List.take_length]
  rw [xorBytes_comm, xorBytes, List.take_zipWith, hpad]
  rfl

theorem xorBytes_take {ks bs : List UInt8} : xorBytes bs (ks.take bs.length) = xorBytes bs ks := by
  have hle : (xorBytes bs ks).length ≤ bs.length := by
    rw [length_xorBytes]
    exact Nat.min_le_left _ _
  rw [← List.take_of_length_le hle, xorBytes, xorBytes, List.take_zipWith, List.take_length]

theorem payloadBlock_eq {idx n c : Nat} (hn : n ≤ 16) (hidx : 8 ≤ idx) (hin : idx + n ≤ size) :
    payloadBlock aes a4 qc Key size pn f idx n c =
      some (writeBytes f (idx - 8) (xorBytes (readBytes f idx n)
        ((aes.encrypt Key (construct_ctr_preload a4 qc f pn c)).take n))) := by
  have hE : (aes.encrypt Key (construct_ctr_preload a4 qc f pn c)).length = 16 :=
    aes.length_encrypt Key (length_construct_ctr_preload c)
  have htext := @take_xorBytes_pad (aes.encrypt Key (construct_ctr_preload a4 qc f pn c))
    (readBytes f idx n)
  rw [length_readBytes] at htext
  unfold payloadBlock
  rw [load_eq hin]
  simp only [Option.bind_eq_bind, Option.bind_some]
  rw [htext, save_eq]
  simp only [length_xorBytes, length_readBytes, List.length_take, hE]
  omega

theorem micBlock_eq {mac : List UInt8} {idx n : Nat} (hin : idx + n ≤ size) :
    micBlock aes Key size f mac idx n =
      some (aes.encrypt Key (xorBytes (pad 16 (readBytes f idx n)) mac)) := by
  unfold micBlock
  rw [load_eq hin]
  simp only [Option.bind_eq_bind, Option.bind_some]
  rw [xorBytes_comm]

end Spec

section Frame

variable {aes : BlockCipher 16} {f : Store} {pn : PN} {size n : Nat} {Key : List UInt8}

def aesCtr (f : Store) (pn : PN) (c : Nat) : List UInt8 :=
  0x01 :: nonceOf f pn ++ [UInt8.ofNat (c / 256), UInt8.ofNat (c % 256)]

def aesStream (aes : BlockCipher 16) (Key : List UInt8) (f : Store) (pn : PN) : Store :=
  stream 16 fun i => aes.encrypt Key (aesCtr f pn (i + 1))

theorem length_aesCtr (c : Nat) : (aesCtr f pn c).length = 16 := by
  simp [aesCtr]

def partFrame (aes : BlockCipher 16) (Key : List UInt8) (f : Store) (pn : PN) (m : Nat) : Store :=
  streamed (aesStream aes Key f pn) f (HeaderLen f + 8) (HeaderLen f) m

theorem partFrame_header {a m : Nat} (h : a < HeaderLen f) : partFrame aes Key f pn m a = f a :=
  writeBytes_outside (.inl h)

theorem payloadBlock_step {i r : Nat} (hr : r ≤ 16) (hin : HeaderLen f + 8 + 16 * i + r ≤ size) :
    payloadBlock aes (a4_exists f) (qc_exists f) Key size pn (partFrame aes Key f pn (16 * i))
      (HeaderLen f + 8 + 16 * i) r (i + 1) = some (partFrame aes Key f pn (16 * i + r)) := by
  have hctr : construct_ctr_preload (a4_exists f) (qc_exists f) (partFrame aes Key f pn (16 * i)) pn (i + 1) =
      aesCtr f pn (i + 1) := by
    rw [construct_ctr_preload_eq, nonceOf_congr fun a ha => partFrame_header ha]
    rfl
  have hks : readBytes (aesStream aes Key f pn) (16 * i) r =
      (aes.encrypt Key (aesCtr f pn (i + 1))).take r :=
    readBytes_stream (aes.length_encrypt Key (length_aesCtr _)) hr
  have hidx : HeaderLen f + 8 + 16 * i - 8 = HeaderLen f + 16 * i := by omega
  rw [payloadBlock_eq hr (by omega) hin, hctr, ← hks, hidx]
  exact congrArg some (streamed_add (by omega))

theorem decryptPayload_eq (hin : HeaderLen f + 8 + n ≤ size) :
    decryptPayload aes (a4_exists f) (qc_exists f) Key size pn f (HeaderLen f + 8) (n / 16) (n % 16) =
      some (partFrame aes Key f pn n) := by
  have hloop := @foldlM_range_eq _ (n / 16) (fun i => partFrame aes Key f pn (16 * i))
    (fun pData i => payloadBlock aes (a4_exists f) (qc_exists f) Key size pn pData
      (HeaderLen f + 8 + 16 * i) 16 (i + 1))
    fun i hi => payloadBlock_step le_rfl (by omega)
  have hstart : partFrame aes Key f pn (16 * 0) = f := streamed_zero
  have hsum : 16 * (n / 16) + n % 16 = n := Nat.div_add_mod n 16
  rw [hstart] at hloop
  unfold decryptPayload
  rw [hloop]
  show (if 0 < n % 16 then _ else _) = _
  split
  · rw [payloadBlock_step (by omega) (by omega), hsum]
  · next hr =>
    have hall : 16 * (n / 16) = n := by omega
    rw [hall]

theorem payloadMic_eq {p : Store} {off : Nat} (iv : List UInt8) (hin : off + n ≤ size) :
    payloadMic aes Key size p off (n / 16) (n % 16) iv =
      some (chain (aes.encrypt Key) (textBlock 16 (readBytes p off n)) iv (blocks 16 n)) := by
  let mac := chain (aes.encrypt Key) (textBlock 16 (readBytes p off n)) iv
  have hstep : ∀ {i r : Nat}, min 16 (n - 16 * i) = r → 16 * i + r ≤ n →
      micBlock aes Key size p (mac i) (off + 16 * i) r = some (mac (i + 1)) := by
    intro i r hr hle
    have hblock : pad 16 (readBytes p (off + 16 * i) r) = textBlock 16 (readBytes p off n) i := by
      rw [textBlock, take_drop_readBytes, hr]
    rw [micBlock_eq (by omega), hblock]
    rfl
  have hloop := @foldlM_range_eq _ (n / 16) mac
    (fun aes_out i => micBlock aes Key size p aes_out (off + 16 * i) 16)
    fun i hi => hstep (by omega) (by omega)
  have hstart : mac 0 = iv := rfl
  rw [hstart] at hloop
  unfold payloadMic
  rw [hloop]
  show (if 0 < n % 16 then _ else _) = _
  split
  · next hr =>
    have hblocks : blocks 16 n = n / 16 + 1 := by
      unfold blocks
      omega
    rw [hstep (by omega) (by omega), hblocks]
  · next hr =>
    have hblocks : blocks 16 n = n / 16 := by
      unfold blocks
      omega
    rw [hblocks]

end Frame

section Blocks

variable {aes : BlockCipher 16} {f : Store} {pn : PN} {Key AAD Nonce : List UInt8}

theorem controlBlock_eq {AADLength : Nat} (h : 0 < AADLength) (PayloadLength : UInt32) :
    controlBlock PayloadLength (nonceOf f pn) AADLength LEN_CCMP_MIC =
      0x59 :: nonceOf f pn ++ [(PayloadLength >>> 8).toUInt8, PayloadLength.toUInt8] := by
  have hlen := length_nonceOf f pn
  have hput : ∀ x a b : UInt8, splice (splice (splice zeroBlock 0 [x]) 1 (nonceOf f pn)) 14 [a, b] =
      x :: nonceOf f pn ++ [a, b] := by
    intro x a b
    simp [splice, zeroBlock, hlen]
  unfold controlBlock
  simp only [if_pos h, hlen]
  exact hput _ _ _

theorem headerMac_eq {PayloadLength MACLength : UInt32} (hlen : 14 < AAD.length ∧ AAD.length ≤ 30) :
    headerMac aes Key PayloadLength Nonce AAD MACLength =
      aes.encrypt Key (xorBytes (pad 16 (AAD.drop 14)) (aes.encrypt Key
        (xorBytes (UInt8.ofNat (AAD.length >>> 8) :: UInt8.ofNat AAD.length :: AAD.take 14)
          (aes.encrypt Key (controlBlock PayloadLength Nonce AAD.length MACLength))))) := by
  have hfirst : splice (splice zeroBlock 0 [UInt8.ofNat (AAD.length >>> 8), UInt8.ofNat AAD.length]) 2
      (AAD.take 14) = UInt8.ofNat (AAD.length >>> 8) :: UInt8.ofNat AAD.length :: AAD.take 14 := by
    have htake : (AAD.take 14).length = 14 := by
      rw [List.length_take]
      omega
    rw [splice, htake]
    exact List.append_nil _
  have hsecond : splice zeroBlock 0 (AAD.drop 14) = pad 16 (AAD.drop 14) := by
    rw [splice, zeroBlock, pad, List.take_zero, List.nil_append, Nat.zero_add, List.drop_replicate]
  unfold headerMac aadLength
  simp only [if_pos (show 0 < AAD.length ∧ AAD.length < 0xFF00 by omega)]
  rw [aadLoop, if_pos (by omega)]
  simp only [Nat.sub_zero, List.drop_zero]
  have hcopy : min (min AAD.length AES_BLOCK_SIZES) (AES_BLOCK_SIZES - ((⟨2, by decide⟩ : Fin 16) : Nat)) = 14 := by
    show min (min AAD.length 16) 14 = 14
    omega
  have hcopy' : min (min (AAD.length - 14) AES_BLOCK_SIZES) (AES_BLOCK_SIZES - ((0 : Fin 16) : Nat)) =
      AAD.length - 14 := by
    show min (min (AAD.length - 14) 16) 16 = AAD.length - 14
    omega
  rw [hcopy, Nat.zero_add, aadLoop, if_pos (by omega)]
  simp only
  rw [hcopy', aadLoop, if_neg (by omega)]
  have htake : (AAD.drop 14).take (AAD.length - 14) = AAD.drop 14 :=
    List.take_of_length_le (by rw [List.length_drop])
  rw [htake]
  show aes.encrypt Key (xorBytes (splice zeroBlock 0 _) (aes.encrypt Key (xorBytes (splice _ 2 _) _))) = _
  rw [hfirst, hsecond]

theorem ctrBlock_eq (i : Nat) :
    ctrBlock (nonceOf f pn) i = 0x01 :: nonceOf f pn ++ [0, UInt8.ofNat i] := by
  induction i with
  | zero => rfl
  | succ i ih =>
    have hnext : UInt8.ofNat (i + 1) = UInt8.ofNat i + 1 := UInt8.ofNat_add i 1
    rw [ctrBlock, Function.iterate_succ_apply']
    show stepCTR (ctrBlock (nonceOf f pn) i) = _
    rw [ih, hnext]
    rfl

theorem aesCtr_eq_ctrBlock {c : Nat} (h : c < 256) : aesCtr f pn c = ctrBlock (nonceOf f pn) c := by
  rw [ctrBlock_eq, aesCtr, Nat.div_eq_of_lt h, Nat.mod_eq_of_lt h]
  rfl

/-- A data frame, as opposed to one of the subtypes without a body. -/
def CarriesBody (f : Store) : Prop := frame_type f = BTYPE_DATA ∧ f 0 &&& 0x40 = 0

theorem mask_fc0 (h : CarriesBody f) : f 0 &&& 0xcf = f 0 &&& 0x8f := by
  have hmask : f 0 &&& 0xcf = (f 0 &&& 0x8f) ||| (f 0 &&& 0x40) := by
    apply UInt8.toBitVec_inj.mp
    simp only [UInt8.toBitVec_and, UInt8.toBitVec_or]
    rw [← BitVec.and_or_distrib_left]
    rfl
  rw [hmask, h.2, UInt8.or_zero]

theorem mask_fc1 (b : UInt8) : (b ||| 0x40) &&& 0xc7 = (b &&& 0xc7) ||| 0x40 := by
  apply UInt8.toBitVec_inj.mp
  simp only [UInt8.toBitVec_and, UInt8.toBitVec_or]
  rw [BitVec.and_or_distrib_right]
  rfl

theorem headerBlocks_eq {p : Store} (hbody : CarriesBody f) (h1 : p 1 = f 1 ||| 0x40)
    (hp : ∀ a < HeaderLen f, a ≠ 1 → p a = f a) :
    (14 < (aadOf f).length ∧ (aadOf f).length ≤ 30) ∧
    construct_mic_header1 p (HeaderLen f) =
      UInt8.ofNat ((aadOf f).length >>> 8) :: UInt8.ofNat (aadOf f).length :: (aadOf f).take 14 ∧
    construct_mic_header2 (a4_exists f) (qc_exists f) p = pad 16 ((aadOf f).drop 14) := by
  have hlen : 24 ≤ HeaderLen f := by
    unfold HeaderLen
    omega
  have h0 : p 0 &&& 0xcf = f 0 &&& 0x8f := by rw [hp 0 (by omega) (by omega), mask_fc0 hbody]
  have h1 : p 1 &&& 0xc7 = (f 1 &&& 0xc7) ||| 0x40 := by rw [h1, mask_fc1]
  have h22 := hp 22 (by omega) (by omega)
  have hread : ∀ {o k : Nat}, 2 ≤ o → o + k ≤ HeaderLen f → readBytes p o k = readBytes f o k := by
    intro o k ho hk
    exact readBytes_congr fun i hi => hp _ (by omega) (by omega)
  have haad : aadOf f = RTMPConstructCCMPAAD f true (a4_exists f) (qc_exists f) := by
    rw [aadOf, decide_eq_true hbody.1]
  unfold construct_mic_header1 construct_mic_header2
  rw [haad, h0, h1, h22, hread (by omega) (by omega), hread (o := 16) (by omega) (by omega)]
  have h24 : qc_exists f = true → a4_exists f = false → p 24 = f 24 := by
    intro hqc ha4
    exact hp 24 (by simp [HeaderLen, hqc, ha4]) (by omega)
  have h30 : qc_exists f = true → a4_exists f = true → p 30 = f 30 := by
    intro hqc ha4
    exact hp 30 (by simp [HeaderLen, hqc, ha4]) (by omega)
  have haddr4 : a4_exists f = true → readBytes p 24 6 = readBytes f 24 6 := by
    intro ha4
    exact hread (by omega) (by simp [HeaderLen, ha4])
  unfold HeaderLen RTMPConstructCCMPAAD
  cases ha4 : a4_exists f with
  | false =>
    cases hqc : qc_exists f with
    | false =>
      refine ⟨by simp, ?_, rfl⟩
      simp
      rfl
    | true =>
      rw [h24 hqc ha4]
      refine ⟨by simp, ?_, ?_⟩
      · simp
        rfl
      · simp
        rfl
  | true =>
    rw [haddr4 ha4]
    cases hqc : qc_exists f with
    | false =>
      refine ⟨by simp, ?_, ?_⟩
      · simp
        rfl
      · simp
        rfl
    | true =>
      rw [h30 hqc ha4]
      refine ⟨by simp, ?_, ?_⟩
      · simp
        rfl
      · simp
        rfl

theorem lengthBytes_eq (n : UInt32) :
    (n / 256).toUInt8 = (n >>> 8).toUInt8 ∧ (n % 256).toUInt8 = n.toUInt8 := by
  constructor
  · apply UInt8.toNat_inj.mp
    have hshift : (n >>> 8).toNat = n.toNat / 256 := by
      rw [UInt32.toNat_shiftRight]
      exact Nat.shiftRight_eq_div_pow _ _
    rw [UInt32.toNat_toUInt8, UInt32.toNat_toUInt8, UInt32.toNat_div, hshift]
    rfl
  · apply UInt8.toNat_inj.mp
    rw [UInt32.toNat_toUInt8, UInt32.toNat_toUInt8, UInt32.toNat_mod]
    show n.toNat % 256 % 256 = n.toNat % 256
    omega

theorem headerMac_frame {p : Store} {n : UInt32} (hbody : CarriesBody f) (h1 : p 1 = f 1 ||| 0x40)
    (hp : ∀ a < HeaderLen f, a ≠ 1 → p a = f a) :
    aes.encrypt Key (xorBytes (aes.encrypt Key (xorBytes
        (aes.encrypt Key (construct_mic_iv (a4_exists f) (qc_exists f) p n pn))
        (construct_mic_header1 p (HeaderLen f))))
      (construct_mic_header2 (a4_exists f) (qc_exists f) p)) =
    headerMac aes Key n (nonceOf f pn) (aadOf f) LEN_CCMP_MIC := by
  obtain ⟨hlen, hheader1, hheader2⟩ := headerBlocks_eq hbody h1 hp
  have hnonce : RTMPConstructCCMPNonce p (a4_exists f) (qc_exists f) pn = nonceOf f pn := by
    have hset := @nonceOf_congr pn f (writeBytes p 1 [f 1]) (by
      intro a ha
      rw [writeBytes_apply]
      split
      · next h =>
        have ha1 : a = 1 := by
          simp only [List.length_singleton] at h
          omega
        subst ha1
        rfl
      · next h => exact hp a ha (by simp only [List.length_singleton] at h; omega))
    rw [← hset]
    unfold RTMPConstructCCMPNonce
    rw [readBytes_writeBytes_disjoint (by simp), writeBytes_outside (by simp), writeBytes_outside (by simp)]
  rw [headerMac_eq hlen, hheader1, hheader2, construct_mic_iv_eq, hnonce, controlBlock_eq (by omega),
    (lengthBytes_eq n).1, (lengthBytes_eq n).2, xorBytes_comm]
  congr 3
  exact xorBytes_comm

end Blocks

section Decryption

variable {aes : BlockCipher 16} {f : Store} {pWpaKey : CIPHER_KEY} {size n : Nat} {DataByteCnt : UInt32}

def framePN (f : Store) : PN := pnOf fun a => f (HeaderLen f + a)

def aesText (aes : BlockCipher 16) (Key : List UInt8) (f : Store) (n : Nat) : List UInt8 :=
  xorBytes (readBytes f (HeaderLen f + 8) n) (readBytes (aesStream aes Key f (framePN f)) 0 n)

theorem length_aesText {Key : List UInt8} : (aesText aes Key f n).length = n := by
  simp [aesText]

theorem HeaderLen_bounds : 24 ≤ HeaderLen f ∧ HeaderLen f ≤ 32 := by
  unfold HeaderLen
  split <;> split <;> omega

theorem payload_len_eq (hcnt : DataByteCnt.toNat = HeaderLen f + n + 16) :
    (DataByteCnt - UInt32.ofNat (HeaderLen f) - 8 - 8).toNat = n := by
  have hlt := DataByteCnt.toNat_lt
  have hbounds := HeaderLen_bounds (f := f)
  have hhdr : (UInt32.ofNat (HeaderLen f)).toNat = HeaderLen f := by
    rw [UInt32.toNat_ofNat', Nat.mod_eq_of_lt (by omega)]
  have h8 : (8 : UInt32).toNat = 8 := rfl
  rw [UInt32.toNat_sub, UInt32.toNat_sub, UInt32.toNat_sub, hhdr, hcnt, h8]
  omega

theorem trailMic_eq {Key : List UInt8} {pn : PN} {mac : List UInt8} (hmac : mac.length = 8) :
    (xorBytes (aes.encrypt Key (aesCtr f pn 0)) (pad 16 mac)).take 8 =
      receivedMac aes Key (nonceOf f pn) mac := by
  have htake := @take_xorBytes_pad (aes.encrypt Key (aesCtr f pn 0)) mac
  have hzero : aesCtr f pn 0 = initialCTR (nonceOf f pn) := aesCtr_eq_ctrBlock (by omega)
  rw [hmac] at htake
  rw [htake, hzero, receivedMac, ← hmac, xorBytes_take]

theorem RTMPSoftDecryptAES_eq (hkey : pWpaKey.KeyLen ≠ 0) (hbody : CarriesBody f)
    (hcnt : DataByteCnt.toNat = HeaderLen f + n + 16) (hsize : DataByteCnt.toNat ≤ size) :
    RTMPSoftDecryptAES aes pWpaKey size f DataByteCnt =
      let text := aesText aes pWpaKey.Key f n
      let nonce := nonceOf f (framePN f)
      some ⟨ccmMac aes pWpaKey.Key nonce (aadOf f) LEN_CCMP_MIC text =
          receivedMac aes pWpaKey.Key nonce (readBytes f (HeaderLen f + 8 + n) 8),
        writeBytes (writeBytes f (HeaderLen f) text) 1 [f 1 ||| 0x40]⟩ := by
  let p := partFrame aes pWpaKey.Key f (framePN f) n
  let q := writeBytes p 1 [f 1 ||| 0x40]
  have hbounds := HeaderLen_bounds (f := f)
  have hlen := payload_len_eq hcnt
  have hlen' : DataByteCnt - UInt32.ofNat (HeaderLen f) - 8 - 8 = UInt32.ofNat n := by
    rw [← hlen, UInt32.ofNat_toNat]
  rw [hlen'] at hlen
  have hrem : (UInt32.ofNat n % 16).toNat = n % 16 := by
    rw [UInt32.toNat_mod, hlen]
    rfl
  have hnum : (UInt32.ofNat n / 16).toNat = n / 16 := by
    rw [UInt32.toNat_div, hlen]
    rfl
  have hindex : HeaderLen f + 8 + 16 * (n / 16) + n % 16 = HeaderLen f + 8 + n := by omega
  have hp1 : p 1 = f 1 := partFrame_header (by omega)
  have hctr : construct_ctr_preload (a4_exists f) (qc_exists f) p (framePN f) 0 = aesCtr f (framePN f) 0 := by
    rw [construct_ctr_preload_eq, nonceOf_congr fun a ha => partFrame_header ha]
    rfl
  have hmic : readBytes p (HeaderLen f + 8 + n) 8 = readBytes f (HeaderLen f + 8 + n) 8 := by
    apply readBytes_writeBytes_disjoint
    right
    rw [length_streamed]
    omega
  have htext : readBytes q (HeaderLen f) n = aesText aes pWpaKey.Key f n := by
    have hread := readBytes_writeBytes f (HeaderLen f) (aesText aes pWpaKey.Key f n)
    rw [length_aesText] at hread
    rw [← hread]
    apply readBytes_writeBytes_disjoint
    right
    simp only [List.length_singleton]
    omega
  have hq1 : q 1 = f 1 ||| 0x40 := rfl
  have hq : ∀ a < HeaderLen f, a ≠ 1 → q a = f a := by
    intro a ha ha1
    have hout : q a = p a := writeBytes_outside (by simp only [List.length_singleton]; omega)
    rw [hout]
    exact partFrame_header ha
  have hiv := @headerMac_frame aes _ (framePN f) pWpaKey.Key _ (UInt32.ofNat n) hbody hq1 hq
  have hpn : loadPN size f (HeaderLen f) = some (framePN f) := loadPN_eq (by omega)
  have hpayload : decryptPayload aes (a4_exists f) (qc_exists f) pWpaKey.Key size (framePN f) f
      (HeaderLen f + 8) (n / 16) (n % 16) = some p := decryptPayload_eq (by omega)
  unfold RTMPSoftDecryptAES
  simp only [if_neg hkey, hpn, Option.bind_eq_bind, Option.bind_some, hlen', hrem, hnum, hpayload, hindex]
  rw [load_eq (by omega)]
  simp only [Option.bind_some]
  rw [payloadMic_eq _ (by omega), hctr, hmic, trailMic_eq (length_readBytes ..), hp1]
  simp only [Option.bind_some]
  rw [hiv, htext]
  unfold ccmMac
  rw [length_aesText]
  rfl

end Decryption

section Agreement

variable {aes : BlockCipher 16} {key : CIPHER_KEY} {f : Store} {n : Nat}

def bodyOf (f : Store) : Store := fun a => f (HeaderLen f + a)

/-- Both decryptors give the same verdict on a frame with `n` bytes of payload, and the same
plaintext if they accept it. -/
def Agree (aes : BlockCipher 16) (key : CIPHER_KEY) (f : Store) (n : Nat) : Prop :=
  ∃ a c, RTMPSoftDecryptAES aes key (HeaderLen f + n + 16) f (UInt32.ofNat (HeaderLen f + n + 16)) = some a ∧
    RTMPSoftDecryptCCMP aes f key (n + 16) (bodyOf f) (UInt16.ofNat (n + 16)) = some c ∧
    a.ret = c.ret ∧ (a.ret = true → c.DataLen.toNat = n ∧
      readBytes a.pData (HeaderLen f) n = readBytes c.pData 0 n)

/-- The counter blocks for the MIC and the payload blocks, as they are stepped. -/
def ccmCounters (f : Store) (n : Nat) : List (List UInt8) :=
  (List.range (blocks 16 n + 1)).map (ctrBlock (nonceOf f (framePN f)))

def aesCounters (f : Store) (n : Nat) : List (List UInt8) :=
  (List.range (blocks 16 n + 1)).map
    (construct_ctr_preload (a4_exists f) (qc_exists f) f (framePN f))

def CountersDistinct (f : Store) (n : Nat) : Prop := (ccmCounters f n).Nodup ∧ (aesCounters f n).Nodup

theorem ctrBlock_inj {nonce : PN} {i j : Nat} (h : ctrBlock (nonceOf f nonce) i = ctrBlock (nonceOf f nonce) j) :
    i % 256 = j % 256 := by
  rw [ctrBlock_eq, ctrBlock_eq] at h
  have hlast := List.append_cancel_left h
  have hbyte := congrArg UInt8.toNat (List.cons.inj (List.cons.inj hlast).2).1
  rwa [UInt8.toNat_ofNat', UInt8.toNat_ofNat'] at hbyte

theorem aesCtr_inj {nonce : PN} {i j : Nat} (hi : i < 2 ^ 16) (hj : j < 2 ^ 16)
    (h : aesCtr f nonce i = aesCtr f nonce j) : i = j := by
  have hlast := List.append_cancel_left h
  have hhigh := congrArg UInt8.toNat (List.cons.inj hlast).1
  have hlow := congrArg UInt8.toNat (List.cons.inj (List.cons.inj hlast).2).1
  rw [UInt8.toNat_ofNat', UInt8.toNat_ofNat'] at hhigh hlow
  omega

theorem ccmCounters_nodup : (ccmCounters f n).Nodup ↔ n ≤ 4080 := by
  have hblocks : blocks 16 n + 1 ≤ 256 ↔ n ≤ 4080 := by
    unfold blocks
    omega
  rw [← hblocks, ccmCounters, List.nodup_map_iff_inj_on List.nodup_range]
  constructor
  · intro hinj
    by_contra hlong
    have hzero : UInt8.ofNat 256 = UInt8.ofNat 0 := rfl
    have hsame : ctrBlock (nonceOf f (framePN f)) 256 = ctrBlock (nonceOf f (framePN f)) 0 := by
      rw [ctrBlock_eq, ctrBlock_eq, hzero]
    have habs := hinj 256 (List.mem_range.mpr (by omega)) 0 (List.mem_range.mpr (by omega)) hsame
    omega
  · intro hshort i hi j hj h
    have hi := List.mem_range.mp hi
    have hj := List.mem_range.mp hj
    have hmod := ctrBlock_inj h
    omega

theorem aesCounters_nodup (hn : n + 16 < 2 ^ 16) : (aesCounters f n).Nodup := by
  rw [aesCounters, List.nodup_map_iff_inj_on List.nodup_range]
  intro i hi j hj h
  have hi := List.mem_range.mp hi
  have hj := List.mem_range.mp hj
  have hblocks : blocks 16 n + 1 ≤ 2 ^ 16 := by
    unfold blocks
    omega
  rw [construct_ctr_preload_eq, construct_ctr_preload_eq] at h
  exact aesCtr_inj (by omega) (by omega) h

theorem decryptors_eq (hkey : key.KeyLen ≠ 0) (hbody : CarriesBody f) (hn : n + 16 < 2 ^ 16) :
    let nonce := nonceOf f (framePN f)
    let received := receivedMac aes key.Key nonce (readBytes f (HeaderLen f + 8 + n) 8)
    let text := aesText aes key.Key f n
    let text' := ccmText aes key.Key nonce (readBytes f (HeaderLen f + 8) n)
    let mac := ccmMac aes key.Key nonce (aadOf f) LEN_CCMP_MIC
    ∃ a c, RTMPSoftDecryptAES aes key (HeaderLen f + n + 16) f (UInt32.ofNat (HeaderLen f + n + 16)) = some a ∧
      RTMPSoftDecryptCCMP aes f key (n + 16) (bodyOf f) (UInt16.ofNat (n + 16)) = some c ∧
      (a.ret = true ↔ mac text = received) ∧ (c.ret = true ↔ mac text' = received) ∧
      readBytes a.pData (HeaderLen f) n = text ∧ readBytes c.pData 0 n = text' ∧
      (c.ret = true → c.DataLen.toNat = n) := by
  intro nonce received text text' mac
  have hbounds := HeaderLen_bounds (f := f)
  have hcnt : (UInt32.ofNat (HeaderLen f + n + 16)).toNat = HeaderLen f + n + 16 := by
    rw [UInt32.toNat_ofNat', Nat.mod_eq_of_lt (by omega)]
  have hlen : (UInt16.ofNat (n + 16)).toNat = n + 16 := by
    rw [UInt16.toNat_ofNat', Nat.mod_eq_of_lt (by omega)]
  have haes := @RTMPSoftDecryptAES_eq aes _ _ (HeaderLen f + n + 16) _ _ hkey hbody hcnt hcnt.le
  have hccm := @RTMPSoftDecryptCCMP_eq aes f (bodyOf f) _ (n + 16) (UInt16.ofNat (n + 16)) hkey (by omega) hlen.le
  have hbytes : ∀ o k : Nat, readBytes (bodyOf f) o k = readBytes f (HeaderLen f + o) k := by
    intro o k
    simp only [readBytes, bodyOf, Nat.add_assoc]
  have hat : HeaderLen f + (n + 8) = HeaderLen f + 8 + n := by omega
  have hreceived : receivedMic aes f key (bodyOf f) (n + 16) = received := by
    have hend : n + 16 - 8 = n + 8 := by omega
    unfold receivedMic
    rw [hend, hbytes, hat]
    rfl
  have htext' : ccmpText aes f key (bodyOf f) (n + 16) = text' := by
    unfold ccmpText
    rw [Nat.add_sub_cancel, hbytes]
    rfl
  have hmac : recomputedMic aes f key (bodyOf f) (n + 16) = mac text' := by
    unfold recomputedMic
    rw [htext']
    rfl
  simp only [hlen, hreceived, htext', hmac, Nat.add_sub_cancel] at hccm
  have hplain : readBytes (writeBytes (writeBytes f (HeaderLen f) text) 1 [f 1 ||| 0x40]) (HeaderLen f) n =
      text := by
    have hread := readBytes_writeBytes f (HeaderLen f) text
    rw [length_aesText] at hread
    refine Eq.trans (readBytes_writeBytes_disjoint ?_) hread
    right
    simp only [List.length_singleton]
    omega
  have hplain' : readBytes (writeBytes (bodyOf f) 0 text') 0 n = text' := by
    have hread := readBytes_writeBytes (bodyOf f) 0 text'
    rwa [length_ccmText, length_readBytes] at hread
  have hn' : (UInt16.ofNat n).toNat = n := by
    rw [UInt16.toNat_ofNat', Nat.mod_eq_of_lt (by omega)]
  by_cases hok : received = mac text'
  · rw [if_pos hok] at hccm
    refine ⟨_, _, haes, hccm, decide_eq_true_iff, ?_, hplain, hplain', fun _ => hn'⟩
    exact iff_of_true rfl hok.symm
  · rw [if_neg hok] at hccm
    refine ⟨_, _, haes, hccm, decide_eq_true_iff, ?_, hplain, hplain', ?_⟩
    · exact iff_of_false Bool.false_ne_true fun h => hok h.symm
    · intro h
      cases h

theorem aesText_eq (hn : n ≤ 4080) :
    aesText aes key.Key f n = ccmText aes key.Key (nonceOf f (framePN f)) (readBytes f (HeaderLen f + 8) n) := by
  unfold aesText ccmText
  rw [length_readBytes]
  congr 1
  apply readBytes_stream_congr
  intro i hi
  have hlt := lt_blocks.mp hi
  rw [aesCtr_eq_ctrBlock (by omega)]

theorem agree (hbody : CarriesBody f) (hn : n ≤ 4080) : Agree aes key f n := by
  by_cases hkey : key.KeyLen = 0
  · refine ⟨⟨false, f⟩, ⟨false, bodyOf f, UInt16.ofNat (n + 16)⟩, ?_, ?_, rfl, ?_⟩
    · unfold RTMPSoftDecryptAES
      exact if_pos hkey
    · unfold RTMPSoftDecryptCCMP
      exact if_pos hkey
    · intro h
      cases h
  · obtain ⟨a, c, ha, hc, haret, hcret, htext, htext', hlen⟩ :=
      @decryptors_eq aes _ _ n hkey hbody (by omega)
    have hverdict : a.ret = c.ret := by
      rw [Bool.eq_iff_iff, haret, hcret, aesText_eq hn]
    refine ⟨a, c, ha, hc, hverdict, ?_⟩
    intro h
    refine ⟨hlen (hverdict ▸ h), ?_⟩
    rw [htext, htext', aesText_eq hn]

/-- The two decryptors agree, and no counter block is used twice, on the payloads of up to 255
blocks. -/
theorem decryptors_agree_iff (aes : BlockCipher 16) (key : CIPHER_KEY) (f : Store) (n : Nat)
    (hbody : CarriesBody f) (hn : n + 16 < 2 ^ 16) :
    (Agree aes key f n ∧ CountersDistinct f n) ↔ n ≤ 4080 := by
  constructor
  · rintro ⟨-, hcounters, -⟩
    exact ccmCounters_nodup.mp hcounters
  · intro hshort
    exact ⟨agree hbody hshort, ccmCounters_nodup.mpr hshort, aesCounters_nodup hn⟩

end Agreement

def dataFrame : Store := fun a => if a = 0 then 0x08 else 0

theorem decryptors_agree_iff_dataFrame :
    (CarriesBody dataFrame ∧ 4096 + 16 < 2 ^ 16) ∧
      ((Agree aesCipher (zeroKey 4 16) dataFrame 4096 ∧ CountersDistinct dataFrame 4096) ↔
        4096 ≤ 4080) :=
  ⟨⟨⟨by decide, by decide⟩, by omega⟩,
    decryptors_agree_iff aesCipher (zeroKey 4 16) dataFrame 4096 ⟨by decide, by decide⟩ (by omega)⟩

/-- A payload of 256 blocks uses the counter block of the MIC again. -/
theorem counter_reused : ¬ ∀ (aes : BlockCipher 16) (key : CIPHER_KEY) (f : Store) (n : Nat),
    CarriesBody f → n ≤ 7935 → Agree aes key f n ∧ CountersDistinct f n := by
  intro h
  have hcounters := (h aesCipher (zeroKey 4 16) dataFrame 4096 ⟨by decide, by decide⟩ (by omega)).2.1
  have habs := ccmCounters_nodup.mp hcounters
  omega

end Ralink.Crypt
