import Ralink.Crypt.Ccm

/-! `RTMPSoftEncryptCCMP` and `RTMPSoftDecryptCCMP` of `cmm_aes.c`: what of an 802.11 header is
authenticated, the nonce, the CCMP header, and the two passes over the body of a frame. -/
namespace Ralink.Crypt
open ByteStore Cipher Buffer

structure CIPHER_KEY where
  Key : List UInt8
  RxMic : List UInt8
  CipherAlg : UInt8
  /-- 0: the entry is invalid. -/
  KeyLen : UInt8
  length_Key : Key.length = 16
  length_RxMic : RxMic.length = 8

abbrev PN := Vector UInt8 6

section Header

variable (pHdr : Store)

def BTYPE_DATA : UInt8 := 2

def frame_type : UInt8 := (pHdr 0 >>> 2) &&& 0x03

def frame_subtype : UInt8 := (pHdr 0 >>> 4) &&& 0x0f

def from_ds : UInt8 := (pHdr 1 &&& 0x2) >>> 1

def to_ds : UInt8 := pHdr 1 &&& 0x1

def a4_exists : Bool := from_ds pHdr &&& to_ds pHdr ≠ 0

/-- `SUBTYPE_QDATA`, `SUBTYPE_QDATA_CFACK`, `SUBTYPE_QDATA_CFPOLL` and `SUBTYPE_QDATA_CFACK_CFPOLL`. -/
def qc_exists : Bool := frame_subtype pHdr ∈ [0x08, 0x09, 0x0a, 0x0b]

/-- The masked header: frame control, the addresses, sequence control, Address 4 and QoS control. -/
def RTMPConstructCCMPAAD (isDataFrame a4_exists qc_exists : Bool) : List UInt8 :=
  [if isDataFrame then pHdr 0 &&& 0x8f else pHdr 0, (pHdr 1 &&& 0xc7) ||| 0x40] ++
    readBytes pHdr 4 18 ++ [pHdr 22 &&& 0x0f, 0x00] ++
    (if a4_exists then readBytes pHdr 24 6 else []) ++
    (if qc_exists && a4_exists then [pHdr 30 &&& 0x0f, 0x00]
      else if qc_exists && !a4_exists then [pHdr 24 &&& 0x0f, 0x00] else [])

/-- The priority, Address 2 and the packet number, its highest byte first. -/
def RTMPConstructCCMPNonce (a4_exists qc_exists : Bool) (pn : PN) : List UInt8 :=
  [if qc_exists && !a4_exists then pHdr 24 &&& 0x0f
    else if qc_exists && a4_exists then pHdr 30 &&& 0x0f else 0] ++
    readBytes pHdr 10 6 ++ [pn[5], pn[4], pn[3], pn[2], pn[1], pn[0]]

def RTMPConstructCCMPHdr (key_idx : UInt8) (pn : PN) : List UInt8 :=
  [pn[0], pn[1], 0, (key_idx <<< 6) ||| 0x20, pn[2], pn[3], pn[4], pn[5]]

def aadOf : List UInt8 :=
  RTMPConstructCCMPAAD pHdr (frame_type pHdr = BTYPE_DATA) (a4_exists pHdr) (qc_exists pHdr)

def nonceOf (pn : PN) : List UInt8 := RTMPConstructCCMPNonce pHdr (a4_exists pHdr) (qc_exists pHdr) pn

@[simp] theorem length_nonceOf (pn : PN) : (nonceOf pHdr pn).length = 13 := by
  simp [nonceOf, RTMPConstructCCMPNonce]

end Header

section Bodies

variable (aes : BlockCipher 16) (pHdr : Store)

def LEN_CCMP_HDR : UInt32 := 8
def LEN_CCMP_MIC : UInt32 := 8

/-- In place: the buffer has room for the MIC behind the payload. -/
def RTMPSoftEncryptCCMP (pIV : PN) (pKey : List UInt8) (size : Nat) (pData : Store)
    (DataLen : UInt32) : Option (Bool × Store) := do
  let out_len := DataLen + 8
  let out ← AES_CCM_Encrypt aes pKey size pData 0 DataLen (nonceOf pHdr pIV) (aadOf pHdr) LEN_CCMP_MIC
    0 out_len
  some (out.ret = 0, out.text)

/-- What is returned, and what the body and its length are afterwards. -/
structure Decrypted where
  ret : Bool
  pData : Store
  DataLen : UInt16

def loadPN (size : Nat) (pData : Store) (off : Nat) : Option PN := do
  let pn0 ← loadByte size pData off
  let pn1 ← loadByte size pData (off + 1)
  let pn2 ← loadByte size pData (off + 4)
  let pn3 ← loadByte size pData (off + 5)
  let pn4 ← loadByte size pData (off + 6)
  let pn5 ← loadByte size pData (off + 7)
  some #v[pn0, pn1, pn2, pn3, pn4, pn5]

/-- The plaintext is stored from the start of the body on, over the CCMP header. -/
def RTMPSoftDecryptCCMP (pKey : CIPHER_KEY) (size : Nat) (pData : Store) (DataLen : UInt16) :
    Option Decrypted :=
  if pKey.KeyLen = 0 then some ⟨false, pData, DataLen⟩
  else do
    let out_len := DataLen.toUInt32
    let pn ← loadPN size pData 0
    let cipherData_len := DataLen.toUInt32 - LEN_CCMP_HDR
    let out ← AES_CCM_Decrypt aes pKey.Key size pData 8 cipherData_len (nonceOf pHdr pn) (aadOf pHdr)
      LEN_CCMP_MIC 0 out_len
    if out.ret ≠ 0 then some ⟨false, out.text, DataLen⟩
    else some ⟨true, out.text, out.length.toUInt16⟩

end Bodies

section Decryption

variable {aes : BlockCipher 16} {pHdr pHdr' pData : Store} {pKey : CIPHER_KEY} {size : Nat}
  {DataLen : UInt16}

def pnOf (pData : Store) : PN := #v[pData 0, pData 1, pData 4, pData 5, pData 6, pData 7]

theorem loadPN_eq {off : Nat} (h : off + 8 ≤ size) :
    loadPN size pData off = some (pnOf fun a => pData (off + a)) := by
  unfold loadPN
  rw [loadByte_eq (by omega), loadByte_eq (by omega), loadByte_eq (by omega), loadByte_eq (by omega),
    loadByte_eq (by omega), loadByte_eq (by omega)]
  rfl

def ccmpText (aes : BlockCipher 16) (pHdr : Store) (pKey : CIPHER_KEY) (pData : Store) (n : Nat) :
    List UInt8 :=
  ccmText aes pKey.Key (nonceOf pHdr (pnOf pData)) (readBytes pData 8 (n - 16))

def recomputedMic (aes : BlockCipher 16) (pHdr : Store) (pKey : CIPHER_KEY) (pData : Store) (n : Nat) :
    List UInt8 :=
  ccmMac aes pKey.Key (nonceOf pHdr (pnOf pData)) (aadOf pHdr) LEN_CCMP_MIC
    (ccmpText aes pHdr pKey pData n)

/-- The MIC at the end of the body, deciphered. -/
def receivedMic (aes : BlockCipher 16) (pHdr : Store) (pKey : CIPHER_KEY) (pData : Store) (n : Nat) :
    List UInt8 :=
  receivedMac aes pKey.Key (nonceOf pHdr (pnOf pData)) (readBytes pData (n - 8) 8)

theorem RTMPSoftDecryptCCMP_eq (hkey : pKey.KeyLen ≠ 0) (hlen : 16 ≤ DataLen.toNat)
    (hsize : DataLen.toNat ≤ size) :
    RTMPSoftDecryptCCMP aes pHdr pKey size pData DataLen =
      let n := DataLen.toNat
      let text := ccmpText aes pHdr pKey pData n
      if receivedMic aes pHdr pKey pData n = recomputedMic aes pHdr pKey pData n
      then some ⟨true, writeBytes pData 0 text, UInt16.ofNat (n - 16)⟩
      else some ⟨false, writeBytes pData 0 text, DataLen⟩ := by
  have hnonce := length_nonceOf pHdr (pnOf pData)
  have hcipher : (DataLen.toUInt32 - LEN_CCMP_HDR).toNat = DataLen.toNat - 8 := by
    rw [UInt32.toNat_sub_of_le _ _ (by rw [UInt32.le_iff_toNat_le]; show 8 ≤ DataLen.toNat; omega)]
    rfl
  have hmac : LEN_CCMP_MIC ≤ DataLen.toUInt32 - LEN_CCMP_HDR := by
    rw [UInt32.le_iff_toNat_le, hcipher]
    show 8 ≤ DataLen.toNat - 8
    omega
  have hplain : (DataLen.toUInt32 - LEN_CCMP_HDR - LEN_CCMP_MIC).toNat = DataLen.toNat - 16 := by
    rw [UInt32.toNat_sub_of_le _ _ hmac, hcipher]
    show DataLen.toNat - 8 - 8 = DataLen.toNat - 16
    omega
  have hout : DataLen.toUInt32 - LEN_CCMP_HDR - LEN_CCMP_MIC ≤ DataLen.toUInt32 := by
    rw [UInt32.le_iff_toNat_le, hplain]
    show DataLen.toNat - 16 ≤ DataLen.toNat
    omega
  have hat : 8 + (DataLen.toNat - 16) = DataLen.toNat - 8 := by omega
  have hend : (DataLen.toUInt32 - LEN_CCMP_HDR - LEN_CCMP_MIC).toUInt16 =
      UInt16.ofNat (DataLen.toNat - 16) := by
    rw [← hplain]
    rfl
  unfold RTMPSoftDecryptCCMP
  have hzero : (fun a => pData (0 + a)) = pData := by
    funext a
    rw [Nat.zero_add]
  rw [if_neg hkey, loadPN_eq (by omega), hzero]
  simp only [Option.bind_eq_bind, Option.bind_some]
  rw [AES_CCM_Decrypt_eq pKey.length_Key (by omega) (by decide) hmac hout (by omega) (by omega)]
  have hmac8 : LEN_CCMP_MIC.toNat = 8 := rfl
  simp only [Option.bind_some, hplain, hat, hend, hmac8]
  unfold receivedMic recomputedMic ccmpText
  split
  · rfl
  · rfl

theorem RTMPSoftEncryptCCMP_eq {pIV : PN} {n : Nat} (hn : n + 8 < 2 ^ 32) :
    RTMPSoftEncryptCCMP aes pHdr pIV pKey.Key (n + 8) pData (UInt32.ofNat n) =
      let text := readBytes pData 0 n
      let mac := ccmMac aes pKey.Key (nonceOf pHdr pIV) (aadOf pHdr) LEN_CCMP_MIC text
      some (true, writeBytes pData 0 (ccmText aes pKey.Key (nonceOf pHdr pIV) text ++
        receivedMac aes pKey.Key (nonceOf pHdr pIV) mac)) := by
  have hnonce := length_nonceOf pHdr pIV
  have hlen : (UInt32.ofNat n).toNat = n := by
    rw [UInt32.toNat_ofNat', Nat.mod_eq_of_lt (by omega)]
  have hout : UInt32.ofNat n + LEN_CCMP_MIC ≤ UInt32.ofNat n + 8 := UInt32.le_refl _
  unfold RTMPSoftEncryptCCMP
  simp only
  rw [AES_CCM_Encrypt_eq pKey.length_Key (by omega) (by decide) hout
    (by rw [hlen, Nat.zero_add]; exact le_refl _), hlen]
  rfl

end Decryption

/-- What a header may go through on its way: Retry, Power Management, More Data, the sequence
number, the QoS bits above the TID, and the duration. -/
structure Carried (pHdr pHdr' : Store) : Prop where
  fc0 : pHdr' 0 = pHdr 0
  fc1 : pHdr' 1 &&& 0xc7 = pHdr 1 &&& 0xc7
  addresses : readBytes pHdr' 4 18 = readBytes pHdr 4 18
  fragment : pHdr' 22 &&& 0x0f = pHdr 22 &&& 0x0f
  address4 : a4_exists pHdr = true → readBytes pHdr' 24 6 = readBytes pHdr 24 6
  tid : qc_exists pHdr = true →
    pHdr' (if a4_exists pHdr then 30 else 24) &&& 0x0f = pHdr (if a4_exists pHdr then 30 else 24) &&& 0x0f

section Carried

variable {pHdr pHdr' : Store}

section

variable (h : Carried pHdr pHdr')
include h

theorem Carried.a4_exists_eq : a4_exists pHdr' = a4_exists pHdr := by
  have hmask : ∀ b : UInt8, (b &&& 0x2 = b &&& 0xc7 &&& 0x2) ∧ (b &&& 0x1 = b &&& 0xc7 &&& 0x1) := by
    intro b
    rw [UInt8.and_assoc, UInt8.and_assoc]
    exact ⟨rfl, rfl⟩
  unfold a4_exists from_ds to_ds
  rw [(hmask (pHdr' 1)).1, (hmask (pHdr' 1)).2, h.fc1, ← (hmask (pHdr 1)).1, ← (hmask (pHdr 1)).2]

theorem Carried.qc_exists_eq : qc_exists pHdr' = qc_exists pHdr := by
  unfold qc_exists frame_subtype
  rw [h.fc0]

theorem Carried.tid_eq (hqc : qc_exists pHdr = true) :
    if a4_exists pHdr then pHdr' 30 &&& 0x0f = pHdr 30 &&& 0x0f
      else pHdr' 24 &&& 0x0f = pHdr 24 &&& 0x0f := by
  have htid := h.tid hqc
  split
  · next ha4 => simpa [ha4] using htid
  · next ha4 => simpa [ha4] using htid

theorem Carried.aadOf_eq : aadOf pHdr' = aadOf pHdr := by
  unfold aadOf frame_type RTMPConstructCCMPAAD
  rw [h.a4_exists_eq, h.qc_exists_eq, h.fc0, h.fc1, h.addresses, h.fragment]
  congr 1
  · congr 1
    split
    · next ha4 => exact h.address4 ha4
    · rfl
  · cases hqc : qc_exists pHdr with
    | false => rfl
    | true =>
      have htid := h.tid_eq hqc
      cases ha4 : a4_exists pHdr with
      | false => simpa [ha4] using htid
      | true => simpa [ha4] using htid

theorem Carried.nonceOf_eq (pn : PN) : nonceOf pHdr' pn = nonceOf pHdr pn := by
  have haddr2 : readBytes pHdr' 10 6 = readBytes pHdr 10 6 := by
    have h' := congrArg (fun bs => (bs.drop 6).take 6) h.addresses
    simp only [take_drop_readBytes] at h'
    exact h'
  unfold nonceOf RTMPConstructCCMPNonce
  rw [h.a4_exists_eq, h.qc_exists_eq, haddr2]
  congr 3
  cases hqc : qc_exists pHdr with
  | false => rfl
  | true =>
    have htid := h.tid_eq hqc
    cases ha4 : a4_exists pHdr with
    | false => simpa [ha4] using htid
    | true => simpa [ha4] using htid

end

end Carried

section RoundTrip

variable {aes : BlockCipher 16} {pHdr pHdr' pData body : Store} {pKey : CIPHER_KEY} {pn : PN}
  {key_idx : UInt8} {n : Nat}

theorem body_parts {cipher mac : List UInt8} (hcipher : cipher.length = n)
    (h : readBytes body 0 (n + 16) = RTMPConstructCCMPHdr key_idx pn ++ (cipher ++ mac)) :
    pnOf body = pn ∧ readBytes body 8 n = cipher ∧ readBytes body (n + 8) 8 = mac := by
  have hsum : n + 16 = 8 + (n + 8) := by omega
  rw [hsum, readBytes_add, readBytes_add] at h
  obtain ⟨hhdr, htail⟩ := List.append_inj h (by rw [length_readBytes]; rfl)
  obtain ⟨htext, hend⟩ := List.append_inj htail (by rw [length_readBytes, hcipher])
  rw [Nat.zero_add] at htext hend
  rw [Nat.add_comm 8 n] at hend
  refine ⟨?_, htext, hend⟩
  simp only [readBytes, List.range, List.range.loop, List.map_cons, List.map_nil, RTMPConstructCCMPHdr,
    List.cons.injEq, Nat.zero_add] at hhdr
  obtain ⟨h0, h1, -, -, h4, h5, h6, h7, -⟩ := hhdr
  unfold pnOf
  rw [h0, h1, h4, h5, h6, h7]
  apply Vector.ext
  intro i hi
  rcases i with _ | _ | _ | _ | _ | _ | i
  all_goals first | rfl | omega

/-- A payload comes back from the body that was built from it, whatever the header went through.
The buffers have just the bytes of the bodies. -/
def RoundTrips (aes : BlockCipher 16) (pKey : CIPHER_KEY) : Prop :=
  ∀ (pHdr pHdr' pData : Store) (pn : PN) (key_idx : UInt8) (payload : List UInt8),
    payload.length + 16 < 2 ^ 16 → Carried pHdr pHdr' → readBytes pData 0 payload.length = payload →
    ∃ out, RTMPSoftEncryptCCMP aes pHdr pn pKey.Key (payload.length + 8) pData
        (UInt32.ofNat payload.length) = some (true, out) ∧
      ∀ body, readBytes body 0 (payload.length + 16) =
          RTMPConstructCCMPHdr key_idx pn ++ readBytes out 0 (payload.length + 8) →
        ∃ body', RTMPSoftDecryptCCMP aes pHdr' pKey (payload.length + 16) body
            (UInt16.ofNat (payload.length + 16)) =
              some ⟨true, body', UInt16.ofNat payload.length⟩ ∧
          readBytes body' 0 payload.length = payload

/-- A body whose MIC is not that of its payload is refused. -/
def MicChecked (aes : BlockCipher 16) (pKey : CIPHER_KEY) : Prop :=
  ∀ (pHdr pData : Store) (DataLen : UInt16), 16 ≤ DataLen.toNat →
    recomputedMic aes pHdr pKey pData DataLen.toNat ≠ receivedMic aes pHdr pKey pData DataLen.toNat →
    ∃ pData', RTMPSoftDecryptCCMP aes pHdr pKey DataLen.toNat pData DataLen =
      some ⟨false, pData', DataLen⟩

theorem roundTrips (hkey : pKey.KeyLen ≠ 0) : RoundTrips aes pKey := by
  intro pHdr pHdr' pData pn key_idx payload hlen hcarried hplain
  generalize hn : payload.length = n at *
  let cipher := ccmText aes pKey.Key (nonceOf pHdr pn) payload
  let mac := ccmMac aes pKey.Key (nonceOf pHdr pn) (aadOf pHdr) LEN_CCMP_MIC payload
  have hcipher : cipher.length = n := (length_ccmText ..).trans hn
  have hnonce := length_nonceOf pHdr pn
  have hmac : mac.length = 8 := length_ccmMac (by omega) (by decide) payload
  have hsent : (receivedMac aes pKey.Key (nonceOf pHdr pn) mac).length = 8 := by
    rw [receivedMac, length_xorBytes, hmac, aes.length_encrypt _ (length_initialCTR _ (by omega))]
    rfl
  have henc := @RTMPSoftEncryptCCMP_eq aes pHdr pData pKey pn n (by omega)
  simp only [hplain] at henc
  refine ⟨_, henc, ?_⟩
  intro body hbody
  have hread := readBytes_writeBytes pData 0
    (cipher ++ receivedMac aes pKey.Key (nonceOf pHdr pn) mac)
  rw [List.length_append, hcipher, hsent] at hread
  rw [hread] at hbody
  obtain ⟨hpn, htext, hend⟩ := body_parts hcipher hbody
  have hDataLen : (UInt16.ofNat (n + 16)).toNat = n + 16 := by
    rw [UInt16.toNat_ofNat', Nat.mod_eq_of_lt (by omega)]
  have hat : n + 16 - 8 = n + 8 := by omega
  have hpayload : ccmpText aes pHdr' pKey body (n + 16) = payload := by
    unfold ccmpText
    rw [hpn, hcarried.nonceOf_eq, Nat.add_sub_cancel, htext]
    exact ccmText_ccmText ..
  have hmics : receivedMic aes pHdr' pKey body (n + 16) = recomputedMic aes pHdr' pKey body (n + 16) := by
    unfold receivedMic recomputedMic
    rw [hpayload, hpn, hcarried.nonceOf_eq, hcarried.aadOf_eq, hat, hend]
    apply xorBytes_cancel
    rw [hmac, aes.length_encrypt _ (length_initialCTR _ (by omega))]
    exact Nat.le_of_ble_eq_true rfl
  have hdec := @RTMPSoftDecryptCCMP_eq aes pHdr' body pKey (n + 16) (UInt16.ofNat (n + 16)) hkey (by omega) (by omega)
  simp only [hDataLen, if_pos hmics, hpayload, Nat.add_sub_cancel] at hdec
  refine ⟨_, hdec, ?_⟩
  have hback := readBytes_writeBytes body 0 payload
  rwa [hn] at hback

theorem micChecked (hkey : pKey.KeyLen ≠ 0) : MicChecked aes pKey := by
  intro pHdr pData DataLen hlen hne
  have hdec := @RTMPSoftDecryptCCMP_eq aes pHdr pData pKey _ _ hkey hlen le_rfl
  simp only [if_neg hne.symm] at hdec
  exact ⟨_, hdec⟩

end RoundTrip

/-- CCMP frames come back through any change of the header that the standard allows, and no other
body is taken for one with its MIC. -/
theorem ccmp_roundTrip (aes : BlockCipher 16) (pKey : CIPHER_KEY) (hkey : pKey.KeyLen ≠ 0) :
    RoundTrips aes pKey ∧ MicChecked aes pKey :=
  ⟨roundTrips hkey, micChecked hkey⟩

def zeroKey (CipherAlg KeyLen : UInt8) : CIPHER_KEY :=
  ⟨List.replicate 16 0, List.replicate 8 0, CipherAlg, KeyLen, rfl, rfl⟩

/-- A QoS data frame, and the frame that is sent again. -/
def qosHeader : Store := fun i =>
  [0x88, 0x01, 0, 0, 2, 2, 2, 2, 2, 2, 4, 4, 4, 4, 4, 4, 6, 6, 6, 6, 6, 6, 0x10, 0, 5, 0].getD i 0

def retriedHeader : Store := fun i => if i = 1 then 0x09 else qosHeader i

theorem retried_carried : Carried qosHeader retriedHeader :=
  ⟨rfl, by decide, rfl, rfl, fun _ => rfl, fun _ => rfl⟩

def counting : Store := fun i => UInt8.ofNat (i + 1)

/-- A header, and behind it what an encryption left in its buffer. -/
def behind (hdr : List UInt8) (out : Store) : Store := fun i => hdr.getD i (out (i - hdr.length))

theorem ccmp_roundTrip_retried :
    (∃ out body', RTMPSoftEncryptCCMP aesCipher qosHeader (.replicate 6 7) (zeroKey 4 16).Key 13
          counting 5 = some (true, out) ∧
        RTMPSoftDecryptCCMP aesCipher retriedHeader (zeroKey 4 16) 21
          (behind (RTMPConstructCCMPHdr 1 (.replicate 6 7)) out) 21 = some ⟨true, body', 5⟩ ∧
        readBytes body' 0 5 = [1, 2, 3, 4, 5]) ∧
      ∃ pData', RTMPSoftDecryptCCMP aesCipher qosHeader (zeroKey 4 16) 21 counting 21 =
        some ⟨false, pData', 21⟩ := by
  obtain ⟨htrip, hmic⟩ := ccmp_roundTrip aesCipher (zeroKey 4 16) (by decide)
  obtain ⟨out, henc, hdec⟩ := htrip qosHeader retriedHeader counting (.replicate 6 7) 1
    [1, 2, 3, 4, 5] (by decide) retried_carried rfl
  obtain ⟨body', hbody', htext⟩ := hdec (behind (RTMPConstructCCMPHdr 1 (.replicate 6 7)) out) rfl
  exact ⟨⟨out, body', henc, hbody', htext⟩, hmic qosHeader counting 21 (by decide) (by decide +kernel)⟩

end Ralink.Crypt
