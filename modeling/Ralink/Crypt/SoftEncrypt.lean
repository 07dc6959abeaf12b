import Ralink.Crypt.SoftDecrypt
import Ralink.Crypt.SoftAes

/-! `RTMPSoftConstructIVHdr` and `RTMPSoftEncryptionAction`, with WEP of `cmm_wep.c`. What they make
of a payload is deciphered by the receiving functions to the payload. -/
namespace Ralink.Crypt
open ByteStore Cipher Buffer

section Code

variable (T : Tables) (aes : BlockCipher 16) (alloc : Allocation)

def RTMPConstructWEPIVHdr (key_idx : UInt8) (pn : PN) : List UInt8 :=
  pn.toList.take 3 ++ [key_idx <<< 6]

/-- The ICV is stored behind the data, and both are enciphered in place. -/
def RTMPSoftEncryptWEP (pIvHdr : PN) (pKey : CIPHER_KEY) (size : Nat) (pData : Store)
    (DataByteCnt : UInt32) : Option (Bool × Store) :=
  if alloc.ctx = false then some (false, pData)
  else if pKey.KeyLen = 0 then some (false, pData)
  else do
    let ARC4_CTX ← RTMPInitWepEngine alloc 6 (fun i => pIvHdr.toList.getD i 0) pKey.Key pKey.KeyLen
    let bytes ← load size pData 0 DataByteCnt.toNat
    let pData ← save size pData DataByteCnt.toNat (RTMPTkipPutUInt32 (icv T bytes))
    let pData ← ARC4_Compute size 0 0 (DataByteCnt + 4).toNat ARC4_CTX pData
    some (true, pData)

def RTMPSoftConstructIVHdr (CipherAlg key_id : UInt8) (pTxIv : PN) : List UInt8 :=
  if CipherAlg = CIPHER_WEP64 ∨ CipherAlg = CIPHER_WEP128 then RTMPConstructWEPIVHdr key_id pTxIv
  else if CipherAlg = CIPHER_TKIP then []
  else if CipherAlg = CIPHER_AES then RTMPConstructCCMPHdr key_id pTxIv
  else []

/-- The data and `ext_len`, whatever the encryption returns. -/
def RTMPSoftEncryptionAction (CipherAlg : UInt8) (pHdr : Store) (size : Nat) (pSrcBufData : Store)
    (SrcBufLen : UInt32) (pKey : CIPHER_KEY) (TxTsc : PN) : Option (Store × Nat) :=
  if CipherAlg = CIPHER_WEP64 ∨ CipherAlg = CIPHER_WEP128 then do
    let r ← RTMPSoftEncryptWEP T alloc TxTsc pKey size pSrcBufData SrcBufLen
    some (r.2, 4)
  else if CipherAlg = CIPHER_TKIP then some (pSrcBufData, 0)
  else if CipherAlg = CIPHER_AES then do
    let r ← RTMPSoftEncryptCCMP aes pHdr TxTsc pKey.Key size pSrcBufData SrcBufLen
    some (r.2, 8)
  else some (pSrcBufData, 0)

end Code

section Wep

variable {T : Tables} {alloc alloc' : Allocation} {pKey : CIPHER_KEY} {pn : PN} {key_idx : UInt8}
  {pData body : Store} {n : Nat}

theorem getUInt32_putUInt32 (x : UInt32) : RTMPTkipGetUInt32 (RTMPTkipPutUInt32 x) = x := by
  apply UInt32.toBitVec_inj.mp
  refine BitVec.eq_of_getLsbD_eq fun i hi => ?_
  simp only [RTMPTkipGetUInt32, RTMPTkipPutUInt32, List.foldr, UInt32.toBitVec_or,
    UInt32.toBitVec_shiftLeft, UInt32.toBitVec_shiftRight, UInt8.toBitVec_toUInt32,
    UInt32.toBitVec_toUInt8]
  interval_cases i <;> simp

def wepContext (iv : List UInt8) (pKey : CIPHER_KEY) : ARC4_CTX :=
  ARC4_INIT ((splice (splice (List.replicate 16 0) 0 iv) 3 (pKey.Key.take pKey.KeyLen.toNat)).take
    (3 + pKey.KeyLen).toNat)

theorem initWepEngine_some {size : Nat} {pIv : Store} (hseed : alloc.seed = true) (hsize : 3 ≤ size)
    (hkey : pKey.KeyLen.toNat ≤ 13) : RTMPInitWepEngine alloc size pIv pKey.Key pKey.KeyLen =
      some (wepContext (readBytes pIv 0 3) pKey) := by
  unfold RTMPInitWepEngine
  rw [if_neg (by rw [hseed]; exact Bool.noConfusion), load_eq (by omega), Option.bind_eq_bind,
    Option.bind_some, if_pos (by omega)]
  rfl

theorem readBytes_vector (pn : PN) : readBytes (fun i => pn.toList.getD i 0) 0 3 = pn.toList.take 3 := by
  refine List.ext_getElem (by simp) fun i hi _ => ?_
  have hlt : i < 6 := by
    rw [length_readBytes] at hi
    omega
  simp [readBytes, hlt]

def wepCipher (T : Tables) (pKey : CIPHER_KEY) (pn : PN) (payload : List UInt8) : List UInt8 :=
  xorBytes (payload ++ RTMPTkipPutUInt32 (icv T payload))
    (arc4Stream (payload.length + 4) (wepContext (pn.toList.take 3) pKey))

theorem length_wepCipher (payload : List UInt8) :
    (wepCipher T pKey pn payload).length = payload.length + 4 := by
  simp [wepCipher, RTMPTkipPutUInt32]

theorem encryptWEP_eq {payload : List UInt8} (hctx : alloc.ctx = true) (hseed : alloc.seed = true)
    (hkey : pKey.KeyLen ≠ 0) (hshort : pKey.KeyLen.toNat ≤ 13) (hn : payload.length + 4 < 2 ^ 32)
    (hplain : readBytes pData 0 payload.length = payload) :
    ∃ out, RTMPSoftEncryptWEP T alloc pn pKey (payload.length + 4) pData
        (UInt32.ofNat payload.length) = some (true, out) ∧
      readBytes out 0 (payload.length + 4) = wepCipher T pKey pn payload := by
  have hlen : (UInt32.ofNat payload.length).toNat = payload.length :=
    UInt32.toNat_ofNat_of_lt' (show _ < 2 ^ 32 by omega)
  have hlen4 : (UInt32.ofNat payload.length + 4).toNat = payload.length + 4 := by
    rw [UInt32.toNat_add, hlen]
    exact Nat.mod_eq_of_lt hn
  have hstored := readBytes_writeBytes pData payload.length (RTMPTkipPutUInt32 (icv T payload))
  have htext : readBytes (writeBytes pData payload.length (RTMPTkipPutUInt32 (icv T payload))) 0
      (payload.length + 4) = payload ++ RTMPTkipPutUInt32 (icv T payload) := by
    rw [readBytes_add, readBytes_writeBytes_disjoint (.inl (by omega)), hplain, Nat.zero_add]
    exact congrArg _ hstored
  have hread := readBytes_writeBytes
    (writeBytes pData payload.length (RTMPTkipPutUInt32 (icv T payload))) 0 (wepCipher T pKey pn payload)
  rw [length_wepCipher] at hread
  refine ⟨_, ?_, hread⟩
  unfold RTMPSoftEncryptWEP
  rw [if_neg (by rw [hctx]; exact Bool.noConfusion), if_neg hkey,
    initWepEngine_some hseed (by omega) hshort, readBytes_vector, hlen, hlen4]
  simp only [Option.bind_eq_bind, Option.bind_some]
  rw [load_eq (by omega), hplain]
  simp only [Option.bind_some]
  rw [save_eq (show _ + 4 ≤ _ from le_rfl)]
  simp only [Option.bind_some]
  rw [ARC4_Compute_some le_rfl (by omega), htext]
  rfl

theorem decryptWEP_eq {payload : List UInt8} (hctx : alloc.ctx = true) (hseed : alloc.seed = true)
    (hkey : pKey.KeyLen ≠ 0) (hshort : pKey.KeyLen.toNat ≤ 13) (hn : payload.length + 8 < 2 ^ 16)
    (hbody : readBytes body 0 (payload.length + 8) =
      RTMPConstructWEPIVHdr key_idx pn ++ wepCipher T pKey pn payload) :
    ∃ body', RTMPSoftDecryptWEP T alloc pKey (payload.length + 8) body
        (UInt16.ofNat (payload.length + 8)) = some ⟨true, body', UInt16.ofNat payload.length⟩ ∧
      readBytes body' 0 payload.length = payload := by
  have hlen : (UInt16.ofNat (payload.length + 8) - 4).toNat = payload.length + 4 := by
    rw [UInt16.toNat_sub, UInt16.toNat_ofNat_of_lt' hn]
    show (65536 - 4 + (payload.length + 8)) % 65536 = _
    omega
  have hlen' : UInt16.ofNat (payload.length + 8) - 4 - 4 = UInt16.ofNat payload.length := by
    apply UInt16.toNat_inj.mp
    rw [UInt16.toNat_sub, hlen, UInt16.toNat_ofNat_of_lt' (show _ < 2 ^ 16 by omega)]
    show (65536 - 4 + (payload.length + 4)) % 65536 = _
    omega
  -- the IV and what is enciphered
  have hsum : payload.length + 8 = 4 + (payload.length + 4) := by omega
  rw [hsum, readBytes_add, Nat.zero_add] at hbody
  obtain ⟨hhdr, hcipher⟩ := List.append_inj hbody (by simp [RTMPConstructWEPIVHdr])
  have hiv : readBytes body 0 3 = pn.toList.take 3 := by
    rw [show 4 = 3 + 1 from rfl, readBytes_add] at hhdr
    exact (List.append_inj hhdr (by simp)).1
  have hclear : xorBytes (wepCipher T pKey pn payload)
      (arc4Stream (payload.length + 4) (wepContext (pn.toList.take 3) pKey)) =
        payload ++ RTMPTkipPutUInt32 (icv T payload) :=
    xorBytes_cancel (by simp [RTMPTkipPutUInt32])
  have hput : (RTMPTkipPutUInt32 (icv T payload)).length = 4 := rfl
  have hparts := (readBytes_append_iff (o := 0)).mp
    (readBytes_writeBytes body 0 (payload ++ RTMPTkipPutUInt32 (icv T payload)))
  rw [hput, Nat.zero_add] at hparts
  refine ⟨_, ?_, hparts.1⟩
  unfold RTMPSoftDecryptWEP
  rw [if_neg (by rw [hctx]; exact Bool.noConfusion), if_neg hkey,
    initWepEngine_some hseed (by omega) hshort, hiv]
  simp only [Option.bind_eq_bind, Option.bind_some, hlen, hlen',
    UInt16.toNat_ofNat_of_lt' (show payload.length < UInt16.size from show _ < 2 ^ 16 by omega)]
  rw [ARC4_Compute_some (by omega) (by omega), hcipher, hclear]
  simp only [Option.bind_some]
  rw [load_eq (by omega), load_eq (by omega), hparts.1, hparts.2]
  simp only [Option.bind_some, getUInt32_putUInt32]
  exact if_neg (not_not.mpr rfl)

end Wep

section RoundTrip

variable (T : Tables) (aes : BlockCipher 16) (alloc alloc' : Allocation) (pKey : CIPHER_KEY)

/-- What one station enciphers the other one deciphers to the same payload. Both have the key, and
the header may go through what a header goes through. -/
def SoftRoundTrips : Prop :=
  ∀ (pHdr pHdr' pData : Store) (TxTsc : PN) (key_id UserPriority : UInt8) (payload : List UInt8),
    payload.length + overhead pKey.CipherAlg < 2 ^ 16 → Carried pHdr pHdr' →
    readBytes pData 0 payload.length = payload →
    ∃ out ext_len, RTMPSoftEncryptionAction T aes alloc pKey.CipherAlg pHdr (payload.length + ext_len)
        pData (UInt32.ofNat payload.length) pKey TxTsc = some (out, ext_len) ∧
      ∀ body, readBytes body 0 (payload.length + overhead pKey.CipherAlg) =
          RTMPSoftConstructIVHdr pKey.CipherAlg key_id TxTsc ++
            readBytes out 0 (payload.length + ext_len) →
        ∃ body', RTMPSoftDecryptionAction T aes alloc' pHdr' UserPriority pKey
            (payload.length + overhead pKey.CipherAlg) body
            (UInt16.ofNat (payload.length + overhead pKey.CipherAlg)) =
              some ⟨true, body', UInt16.ofNat payload.length⟩ ∧
          readBytes body' 0 payload.length = payload

/-- The software ciphers. A WEP key fits its seed of 16 bytes behind the IV. -/
structure SoftCipher : Prop where
  alg : pKey.CipherAlg = CIPHER_WEP64 ∨ pKey.CipherAlg = CIPHER_WEP128 ∨ pKey.CipherAlg = CIPHER_AES
  len : pKey.KeyLen ≠ 0
  seed : pKey.CipherAlg ≠ CIPHER_AES → pKey.KeyLen.toNat ≤ 13

variable {T aes alloc alloc' pKey}

theorem wep_softRoundTrips (hwep : pKey.CipherAlg = CIPHER_WEP64 ∨ pKey.CipherAlg = CIPHER_WEP128)
    (h : SoftCipher pKey) (halloc : alloc.ctx = true ∧ alloc.seed = true)
    (halloc' : alloc'.ctx = true ∧ alloc'.seed = true) : SoftRoundTrips T aes alloc alloc' pKey := by
  intro pHdr pHdr' pData TxTsc key_id UserPriority payload hlen _ hplain
  have hnaes : pKey.CipherAlg ≠ CIPHER_AES := by
    rcases hwep with h | h <;> rw [h] <;> decide
  have hover : overhead pKey.CipherAlg = 8 := by
    rcases hwep with h | h <;> rw [h] <;> rfl
  rw [hover] at hlen ⊢
  obtain ⟨out, henc, hout⟩ := @encryptWEP_eq T alloc pKey TxTsc pData payload halloc.1 halloc.2
    h.len (h.seed hnaes) (by omega) hplain
  refine ⟨out, 4, ?_, fun body hbody => ?_⟩
  · unfold RTMPSoftEncryptionAction
    rw [if_pos hwep, henc]
    rfl
  · unfold RTMPSoftConstructIVHdr at hbody
    rw [if_pos hwep, hout] at hbody
    unfold RTMPSoftDecryptionAction
    rw [if_pos hwep]
    exact decryptWEP_eq halloc'.1 halloc'.2 h.len (h.seed hnaes) hlen hbody

theorem ccmp_softRoundTrips (haes : pKey.CipherAlg = CIPHER_AES) (h : SoftCipher pKey) :
    SoftRoundTrips T aes alloc alloc' pKey := by
  intro pHdr pHdr' pData TxTsc key_id UserPriority payload hlen hcarried hplain
  have hover : overhead CIPHER_AES = 16 := rfl
  rw [haes, hover] at hlen ⊢
  obtain ⟨out, henc, hdec⟩ := @roundTrips aes pKey h.len pHdr pHdr' pData TxTsc key_id payload hlen
    hcarried hplain
  refine ⟨out, 8, ?_, fun body hbody => ?_⟩
  · unfold RTMPSoftEncryptionAction
    rw [if_neg (by decide), if_neg (by decide), if_pos rfl, henc]
    rfl
  · obtain ⟨body', hbody', htext⟩ := hdec body hbody
    refine ⟨body', ?_, htext⟩
    unfold RTMPSoftDecryptionAction
    rw [haes, if_neg (by decide), if_neg (by decide), if_pos rfl]
    exact hbody'

end RoundTrip

theorem soft_roundTrip (T : Tables) (aes : BlockCipher 16) (alloc alloc' : Allocation)
    (pKey : CIPHER_KEY) (h : SoftCipher pKey) (halloc : alloc.ctx = true ∧ alloc.seed = true)
    (halloc' : alloc'.ctx = true ∧ alloc'.seed = true) : SoftRoundTrips T aes alloc alloc' pKey := by
  by_cases haes : pKey.CipherAlg = CIPHER_AES
  · exact ccmp_softRoundTrips haes h
  · refine wep_softRoundTrips ?_ h halloc halloc'
    rcases h.alg with h | h | h
    · exact .inl h
    · exact .inr h
    · exact absurd h haes

theorem soft_roundTrip_wep64 : ∃ out body',
    RTMPSoftEncryptionAction crcTables aesCipher allocated CIPHER_WEP64 qosHeader 9 counting 5
        (zeroKey CIPHER_WEP64 5) (.replicate 6 7) = some (out, 4) ∧
      RTMPSoftDecryptionAction crcTables aesCipher allocated retriedHeader 5 (zeroKey CIPHER_WEP64 5)
          13 (behind (RTMPSoftConstructIVHdr CIPHER_WEP64 1 (.replicate 6 7)) out) 13 =
        some ⟨true, body', 5⟩ ∧
      readBytes body' 0 5 = [1, 2, 3, 4, 5] := by
  obtain ⟨out, ext_len, henc, hdec⟩ := soft_roundTrip crcTables aesCipher allocated allocated
    (zeroKey CIPHER_WEP64 5) ⟨.inl rfl, by decide, fun _ => by decide⟩ ⟨rfl, rfl⟩ ⟨rfl, rfl⟩
    qosHeader retriedHeader counting (.replicate 6 7) 1 5 [1, 2, 3, 4, 5] (by decide)
    retried_carried rfl
  obtain rfl : ext_len = 4 := by
    have h := henc
    rw [RTMPSoftEncryptionAction, if_pos (.inl rfl)] at h
    obtain ⟨r, -, hr⟩ := Option.bind_eq_some_iff.mp h
    exact (Prod.mk.inj (Option.some.inj hr)).2.symm
  obtain ⟨body', hbody', htext⟩ :=
    hdec (behind (RTMPSoftConstructIVHdr CIPHER_WEP64 1 (.replicate 6 7)) out) rfl
  exact ⟨out, body', henc, hbody', htext⟩

/-- A whole frame with a CCMP body of up to 255 blocks of payload is deciphered in place, too. -/
theorem ccmp_frame_received (aes : BlockCipher 16) (pKey : CIPHER_KEY) (hkey : pKey.KeyLen ≠ 0)
    (pHdr frame pData : Store) (TxTsc : PN) (key_id : UInt8) (payload : List UInt8)
    (hlen : payload.length ≤ 4080) (hcarried : Carried pHdr frame) (hbody : CarriesBody frame)
    (hplain : readBytes pData 0 payload.length = payload) :
    ∃ out, RTMPSoftEncryptCCMP aes pHdr TxTsc pKey.Key (payload.length + 8) pData
        (UInt32.ofNat payload.length) = some (true, out) ∧
      (readBytes frame (HeaderLen frame) (payload.length + 16) =
          RTMPConstructCCMPHdr key_id TxTsc ++ readBytes out 0 (payload.length + 8) →
        ∃ frame', RTMPSoftDecryptAES aes pKey (HeaderLen frame + payload.length + 16) frame
            (UInt32.ofNat (HeaderLen frame + payload.length + 16)) = some ⟨true, frame'⟩ ∧
          readBytes frame' (HeaderLen frame) payload.length = payload) := by
  obtain ⟨out, henc, hdec⟩ := @roundTrips aes pKey hkey pHdr frame pData TxTsc key_id payload
    (by omega) hcarried hplain
  refine ⟨out, henc, fun hframe => ?_⟩
  obtain ⟨body', hbody', htext⟩ := hdec (bodyOf frame) (by
    rw [← hframe]
    refine List.map_congr_left fun i _ => ?_
    rw [Nat.zero_add]
    rfl)
  obtain ⟨a, c, ha, hc, hret, htexts⟩ := @agree aes pKey frame payload.length hbody hlen
  obtain rfl : c = ⟨true, body', UInt16.ofNat payload.length⟩ :=
    Option.some.inj (hc.symm.trans hbody')
  obtain ⟨-, hsame⟩ := htexts hret
  obtain ⟨ret, frame'⟩ := a
  obtain rfl : ret = true := hret
  exact ⟨frame', ha, hsame.trans htext⟩

/-- A frame of one block and one byte of payload, with the packet number 7. -/
def sentFrame (out : Store) : Store := fun i =>
  if i < 26 then retriedHeader i
  else behind (RTMPConstructCCMPHdr 1 (.replicate 6 7)) out (i - 26)

theorem ccmp_frame_received_sent : ∃ out frame',
    RTMPSoftEncryptCCMP aesCipher qosHeader (.replicate 6 7) (zeroKey 4 16).Key 25 counting 17 =
        some (true, out) ∧
      RTMPSoftDecryptAES aesCipher (zeroKey 4 16) 59 (sentFrame out) 59 = some ⟨true, frame'⟩ ∧
      readBytes frame' 26 17 = readBytes counting 0 17 := by
  have hbody : CarriesBody retriedHeader := ⟨by decide, by decide⟩
  -- the same encryption, first for what it leaves and then for the frame that is made of it
  obtain ⟨out', henc', -⟩ := ccmp_frame_received aesCipher (zeroKey 4 16) (by decide) qosHeader
    retriedHeader counting (.replicate 6 7) 1 (readBytes counting 0 17) (by decide) retried_carried
    hbody rfl
  obtain ⟨out, henc, hdec⟩ := ccmp_frame_received aesCipher (zeroKey 4 16) (by decide) qosHeader
    (sentFrame out') counting (.replicate 6 7) 1 (readBytes counting 0 17) (by decide)
    ⟨rfl, retried_carried.fc1, rfl, rfl, fun h => absurd h (by decide), fun _ => rfl⟩ hbody rfl
  obtain rfl : out' = out := (Prod.mk.inj (Option.some.inj (henc'.symm.trans henc))).2
  have hheader : HeaderLen (sentFrame out') = 26 := show HeaderLen retriedHeader = 26 by decide
  rw [hheader, length_readBytes] at hdec
  obtain ⟨frame', hframe, htext⟩ := hdec rfl
  exact ⟨out', frame', henc, hframe, htext⟩

end Ralink.Crypt
