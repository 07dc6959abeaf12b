import Ralink.Crypt.Ccmp
import Ralink.Crypt.Tkip

/-! `RTMPSoftDecryptWEP`, `RTMPSoftDecryptTKIP` and `RTMPSoftDecryptionAction` on the body of a
frame, and the lengths with which they stay inside of it. -/
namespace Ralink.Crypt
open ByteStore Cipher Buffer

/-- What `os_alloc_mem` gives for the ARC4 context and for the seed of WEP, and what the context
holds before it is written. -/
structure Allocation where
  ctx : Bool
  seed : Bool
  stale : ARC4_CTX

section Code

variable (T : Tables)

def RTMPInitWepEngine (alloc : Allocation) (size : Nat) (pIv : Store) (pKey : List UInt8)
    (KeyLen : UInt8) : Option ARC4_CTX :=
  if alloc.seed = false then some alloc.stale
  else do
    let iv ← load size pIv 0 3
    -- the seed has 16 bytes
    if 3 + KeyLen.toNat ≤ 16 then
      let seed := splice (splice (List.replicate 16 0) 0 iv) 3 (pKey.take KeyLen.toNat)
      some (ARC4_INIT (seed.take (3 + KeyLen).toNat))
    else none

def RTMPSoftDecryptWEP (alloc : Allocation) (pKey : CIPHER_KEY) (size : Nat) (pData : Store)
    (DataByteCnt : UInt16) : Option Decrypted :=
  if alloc.ctx = false then some ⟨false, pData, DataByteCnt⟩
  else if pKey.KeyLen = 0 then some ⟨false, pData, DataByteCnt⟩
  else do
    let ARC4_CTX ← RTMPInitWepEngine alloc size pData pKey.Key pKey.KeyLen
    let ciphertext_len := DataByteCnt - 4
    let pData ← ARC4_Compute size 4 0 ciphertext_len.toNat ARC4_CTX pData
    let plaintext_len := ciphertext_len - 4
    let trailfcs ← load size pData plaintext_len.toNat 4
    let plaintext ← load size pData 0 plaintext_len.toNat
    if icv T plaintext ≠ RTMPTkipGetUInt32 trailfcs then some ⟨false, pData, DataByteCnt⟩
    else some ⟨true, pData, plaintext_len⟩

structure Addresses where
  DA : List UInt8
  SA : List UInt8
  TA : List UInt8

def addresses (pHdr : Store) : Addresses :=
  let Addr1 := readBytes pHdr 4 6
  let Addr2 := readBytes pHdr 10 6
  let Addr3 := readBytes pHdr 16 6
  let Octet := readBytes pHdr 24 6
  if to_ds pHdr = 0 ∧ from_ds pHdr = 1 then ⟨Addr1, Addr3, Addr2⟩
  else if to_ds pHdr = 0 ∧ from_ds pHdr = 0 then ⟨Addr1, Addr2, Addr2⟩
  else if to_ds pHdr = 1 ∧ from_ds pHdr = 0 then ⟨Addr3, Addr2, Addr2⟩
  else ⟨Addr3, Octet, Addr2⟩

def loadRC4Key (pHdr : Store) (pKey : CIPHER_KEY) (size : Nat) (pData : Store) : Option (List UInt8) := do
  let b0 ← loadByte size pData 0
  let b2 ← loadByte size pData 2
  let eiv ← load size pData 4 4
  some (RTMPTkipMixKey T pKey.Key (addresses pHdr).TA ((b0.toUInt32 <<< 8) ||| b2.toUInt32)
    (RTMPTkipGetUInt32 eiv))

def RTMPSoftDecryptTKIP (pHdr : Store) (UserPriority : UInt8) (pKey : CIPHER_KEY) (size : Nat)
    (pData : Store) (DataByteCnt : UInt16) : Option Decrypted :=
  if pKey.KeyLen = 0 then some ⟨false, pData, DataByteCnt⟩
  else do
    let RC4Key ← loadRC4Key T pHdr pKey size pData
    let ciphertext_len := DataByteCnt.toUInt32 - 8
    let pData ← ARC4_Compute size 8 0 ciphertext_len.toNat (ARC4_INIT RC4Key) pData
    let plaintext_len := ciphertext_len - 4
    let trailfcs ← load size pData plaintext_len.toNat 4
    let plaintext ← load size pData 0 plaintext_len.toNat
    if icv T plaintext ≠ RTMPTkipGetUInt32 trailfcs then some ⟨false, pData, DataByteCnt⟩
    else
      let plaintext_len := plaintext_len - 8
      let TrailMIC ← load size pData plaintext_len.toNat 8
      let plaintext ← load size pData 0 plaintext_len.toNat
      let engine := RTMPInitMICEngine (addresses pHdr).DA (addresses pHdr).SA UserPriority pKey.RxMic
      if RTMPTkipGetMIC (RTMPTkipAppend engine plaintext) ≠ TrailMIC then
        some ⟨false, pData, DataByteCnt⟩
      else some ⟨true, pData, plaintext_len.toUInt16⟩

def CIPHER_WEP64 : UInt8 := 1
def CIPHER_WEP128 : UInt8 := 2
def CIPHER_TKIP : UInt8 := 3
def CIPHER_AES : UInt8 := 4

/-- `ret` tells `NDIS_STATUS_SUCCESS` from `NDIS_STATUS_FAILURE`. -/
def RTMPSoftDecryptionAction (aes : BlockCipher 16) (alloc : Allocation) (pHdr : Store)
    (UserPriority : UInt8) (pKey : CIPHER_KEY) (size : Nat) (pData : Store) (DataByteCnt : UInt16) :
    Option Decrypted :=
  if pKey.CipherAlg = CIPHER_WEP64 ∨ pKey.CipherAlg = CIPHER_WEP128 then
    RTMPSoftDecryptWEP T alloc pKey size pData DataByteCnt
  else if pKey.CipherAlg = CIPHER_TKIP then
    RTMPSoftDecryptTKIP T pHdr UserPriority pKey size pData DataByteCnt
  else if pKey.CipherAlg = CIPHER_AES then
    RTMPSoftDecryptCCMP aes pHdr pKey size pData DataByteCnt
  else some ⟨false, pData, DataByteCnt⟩

end Code

/-- A run on a body of `n` bytes that leaves it nowhere, does not lengthen it, and fails if the body
is shorter than the overhead. -/
def Inside (overhead : Nat) (DataByteCnt : UInt16) (run : Option Decrypted) : Prop :=
  ∃ r, run = some r ∧ r.DataLen ≤ DataByteCnt ∧ (DataByteCnt.toNat < overhead → r.ret = false)

section Inside

variable {T : Tables} {aes : BlockCipher 16} {alloc : Allocation} {pHdr pData : Store}
  {UserPriority : UInt8} {pKey : CIPHER_KEY} {DataByteCnt : UInt16} {overhead : Nat}

theorem not_inside_none : ¬ Inside overhead DataByteCnt none := by
  rintro ⟨r, hr, -⟩
  cases hr

theorem inside_failed {f : Store} : Inside overhead DataByteCnt (some ⟨false, f, DataByteCnt⟩) :=
  ⟨_, rfl, UInt16.le_refl _, fun _ => rfl⟩

theorem inside_verdict {f : Store} {p : Prop} [Decidable p] {len : UInt16}
    (hlong : overhead ≤ DataByteCnt.toNat) (hlen : len ≤ DataByteCnt) :
    Inside overhead DataByteCnt (if p then some ⟨false, f, DataByteCnt⟩ else some ⟨true, f, len⟩) := by
  split
  · exact inside_failed
  · exact ⟨_, rfl, hlen, fun hshort => absurd hlong (Nat.not_le_of_lt hshort)⟩

theorem RTMPInitWepEngine_eq {size : Nat} (hsize : 3 ≤ size) :
    (∃ c, RTMPInitWepEngine alloc size pData pKey.Key pKey.KeyLen = some c) ↔
      alloc.seed = false ∨ pKey.KeyLen.toNat ≤ 13 := by
  unfold RTMPInitWepEngine
  by_cases hseed : alloc.seed = false
  · rw [if_pos hseed]
    exact iff_of_true ⟨_, rfl⟩ (.inl hseed)
  · rw [if_neg hseed, load_eq (by omega)]
    simp only [Option.bind_eq_bind, Option.bind_some]
    split
    · next hfits => exact iff_of_true ⟨_, rfl⟩ (.inr (by omega))
    · next hlong =>
      refine iff_of_false ?_ ?_
      · rintro ⟨c, hc⟩
        cases hc
      · rintro (h | h)
        · exact hseed h
        · omega

theorem wep_inside_iff (hkey : pKey.KeyLen ≠ 0) :
    Inside 8 DataByteCnt (RTMPSoftDecryptWEP T alloc pKey DataByteCnt.toNat pData DataByteCnt) ↔
      alloc.ctx = false ∨
        8 ≤ DataByteCnt.toNat ∧ (alloc.seed = false ∨ pKey.KeyLen.toNat ≤ 13) := by
  have hlt := DataByteCnt.toNat_lt
  have h4 : (DataByteCnt - 4).toNat = (2 ^ 16 - 4 + DataByteCnt.toNat) % 2 ^ 16 := UInt16.toNat_sub _ _
  have h8 : (DataByteCnt - 4 - 4).toNat = (2 ^ 16 - 4 + (DataByteCnt - 4).toNat) % 2 ^ 16 :=
    UInt16.toNat_sub _ _
  unfold RTMPSoftDecryptWEP
  by_cases hctx : alloc.ctx = false
  · rw [if_pos hctx]
    exact iff_of_true inside_failed (.inl hctx)
  · rw [if_neg hctx, if_neg hkey, or_iff_right hctx]
    by_cases hlong : 8 ≤ DataByteCnt.toNat
    · have hengine := @RTMPInitWepEngine_eq alloc pData pKey DataByteCnt.toNat (by omega)
      rw [← hengine, and_iff_right hlong]
      cases hc : RTMPInitWepEngine alloc DataByteCnt.toNat pData pKey.Key pKey.KeyLen with
      | none =>
        refine iff_of_false not_inside_none ?_
        rintro ⟨c, hc'⟩
        cases hc'
      | some c =>
        refine iff_of_true ?_ ⟨c, rfl⟩
        simp only [Option.bind_eq_bind, Option.bind_some]
        rw [ARC4_Compute_some (by omega) (by omega)]
        simp only [Option.bind_some]
        rw [load_eq (by omega), load_eq (by omega)]
        simp only [Option.bind_some]
        apply inside_verdict hlong
        rw [UInt16.le_iff_toNat_le]
        omega
    · refine iff_of_false ?_ fun h => hlong h.1
      cases hc : RTMPInitWepEngine alloc DataByteCnt.toNat pData pKey.Key pKey.KeyLen with
      | none => exact not_inside_none
      | some c =>
        simp only [Option.bind_eq_bind, Option.bind_some]
        by_cases hiv : DataByteCnt.toNat < 4
        · rw [ARC4_Compute_none (by omega) (by omega) (by omega)]
          exact not_inside_none
        · rw [ARC4_Compute_some (by omega) (by omega)]
          simp only [Option.bind_some]
          rw [load_none (by omega)]
          exact not_inside_none

/-- What a TKIP body of `n` bytes is deciphered to: the plaintext, the MIC and the ICV. -/
def tkipText (T : Tables) (pHdr : Store) (pKey : CIPHER_KEY) (pData : Store) (n : Nat) : List UInt8 :=
  let RC4Key := RTMPTkipMixKey T pKey.Key (addresses pHdr).TA
    (((pData 0).toUInt32 <<< 8) ||| (pData 2).toUInt32) (RTMPTkipGetUInt32 (readBytes pData 4 4))
  xorBytes (readBytes pData 8 (n - 8)) (arc4Stream (n - 8) (ARC4_INIT RC4Key))

def IcvMatches (T : Tables) (pHdr : Store) (pKey : CIPHER_KEY) (pData : Store) (n : Nat) : Prop :=
  icv T ((tkipText T pHdr pKey pData n).take (n - 12)) =
    RTMPTkipGetUInt32 ((tkipText T pHdr pKey pData n).drop (n - 12))

theorem loadRC4Key_none {size : Nat} (h : size < 8) : loadRC4Key T pHdr pKey size pData = none := by
  unfold loadRC4Key
  rw [load_none (a := 4) (by omega)]
  simp

theorem tkip_inside_iff (hkey : pKey.KeyLen ≠ 0) :
    Inside 20 DataByteCnt
        (RTMPSoftDecryptTKIP T pHdr UserPriority pKey DataByteCnt.toNat pData DataByteCnt) ↔
      20 ≤ DataByteCnt.toNat ∨
        12 ≤ DataByteCnt.toNat ∧ ¬ IcvMatches T pHdr pKey pData DataByteCnt.toNat := by
  have hlt := DataByteCnt.toNat_lt
  have hcnt : DataByteCnt.toUInt32.toNat = DataByteCnt.toNat := UInt16.toNat_toUInt32 _
  generalize hn : DataByteCnt.toNat = n at *
  have hcipher : (DataByteCnt.toUInt32 - 8).toNat = (2 ^ 32 - 8 + n) % 2 ^ 32 := by
    rw [UInt32.toNat_sub, hcnt]
    rfl
  have hplain : (DataByteCnt.toUInt32 - 8 - 4).toNat =
      (2 ^ 32 - 4 + (DataByteCnt.toUInt32 - 8).toNat) % 2 ^ 32 := UInt32.toNat_sub _ _
  have htext : (DataByteCnt.toUInt32 - 8 - 4 - 8).toNat =
      (2 ^ 32 - 8 + (DataByteCnt.toUInt32 - 8 - 4).toNat) % 2 ^ 32 := UInt32.toNat_sub _ _
  unfold RTMPSoftDecryptTKIP
  rw [if_neg hkey]
  by_cases hiv : n < 8
  · rw [loadRC4Key_none hiv]
    exact iff_of_false not_inside_none (by omega)
  by_cases hicv : n < 12
  · refine iff_of_false ?_ (by omega)
    cases loadRC4Key T pHdr pKey n pData with
    | none => exact not_inside_none
    | some RC4Key =>
      simp only [Option.bind_eq_bind, Option.bind_some]
      rw [ARC4_Compute_some (by omega) (by omega)]
      simp only [Option.bind_some]
      rw [load_none (by omega)]
      exact not_inside_none
  have hlen : (tkipText T pHdr pKey pData n).length = n - 8 := by
    simp [tkipText]
  have hread := readBytes_writeBytes pData 0 (tkipText T pHdr pKey pData n)
  rw [hlen] at hread
  have hfront : readBytes (writeBytes pData 0 (tkipText T pHdr pKey pData n)) 0 (n - 12) =
      (tkipText T pHdr pKey pData n).take (n - 12) := by
    have hpart := take_drop_readBytes (writeBytes pData 0 (tkipText T pHdr pKey pData n)) 0 (n - 8) 0
      (n - 12)
    rw [hread, List.drop_zero, Nat.min_eq_left (by omega)] at hpart
    exact hpart.symm
  have hback : readBytes (writeBytes pData 0 (tkipText T pHdr pKey pData n)) (n - 12) 4 =
      (tkipText T pHdr pKey pData n).drop (n - 12) := by
    have hpart := take_drop_readBytes (writeBytes pData 0 (tkipText T pHdr pKey pData n)) 0 (n - 8)
      (n - 12) 4
    rw [hread, Nat.min_eq_left (by omega), List.take_of_length_le (by rw [List.length_drop]; omega),
      Nat.zero_add] at hpart
    exact hpart.symm
  have hrc4 : loadRC4Key T pHdr pKey n pData = some (RTMPTkipMixKey T pKey.Key (addresses pHdr).TA
      (((pData 0).toUInt32 <<< 8) ||| (pData 2).toUInt32) (RTMPTkipGetUInt32 (readBytes pData 4 4))) := by
    unfold loadRC4Key
    rw [loadByte_eq (by omega), loadByte_eq (by omega), load_eq (by omega)]
    rfl
  have hcipher' : (DataByteCnt.toUInt32 - 8).toNat = n - 8 := by omega
  have hplain' : (DataByteCnt.toUInt32 - 8 - 4).toNat = n - 12 := by omega
  rw [hrc4]
  simp only [Option.bind_eq_bind, Option.bind_some]
  rw [hcipher', ARC4_Compute_some (by omega) (by omega)]
  simp only [Option.bind_some]
  rw [hplain', load_eq (by omega), load_eq (by omega)]
  simp only [Option.bind_some]
  have hstored : xorBytes (readBytes pData 8 (n - 8)) (arc4Stream (n - 8) (ARC4_INIT
      (RTMPTkipMixKey T pKey.Key (addresses pHdr).TA (((pData 0).toUInt32 <<< 8) ||| (pData 2).toUInt32)
        (RTMPTkipGetUInt32 (readBytes pData 4 4))))) = tkipText T pHdr pKey pData n := rfl
  rw [hstored, hfront, hback]
  unfold IcvMatches
  by_cases hmatch : icv T ((tkipText T pHdr pKey pData n).take (n - 12)) =
      RTMPTkipGetUInt32 ((tkipText T pHdr pKey pData n).drop (n - 12))
  · rw [if_neg (not_not.mpr hmatch)]
    by_cases hlong : 20 ≤ n
    · refine iff_of_true ?_ (.inl hlong)
      rw [load_eq (by omega), load_eq (by omega)]
      simp only [Option.bind_some]
      apply inside_verdict (by omega)
      rw [UInt16.le_iff_toNat_le, UInt32.toNat_toUInt16, htext]
      omega
    · refine iff_of_false ?_ ?_
      · rw [load_none (by omega)]
        exact not_inside_none
      · rintro (h | h)
        · exact hlong h
        · exact h.2 hmatch
  · rw [if_pos hmatch]
    exact iff_of_true inside_failed (.inr ⟨by omega, hmatch⟩)

theorem loadPN_none {size off : Nat} (h : size < off + 8) : loadPN size pData off = none := by
  unfold loadPN
  rw [loadByte_none (a := off + 7) (by omega)]
  simp

theorem ccmp_inside_iff (hkey : pKey.KeyLen ≠ 0) :
    Inside 16 DataByteCnt (RTMPSoftDecryptCCMP aes pHdr pKey DataByteCnt.toNat pData DataByteCnt) ↔
      8 ≤ DataByteCnt.toNat := by
  have hlt := DataByteCnt.toNat_lt
  by_cases hlong : 16 ≤ DataByteCnt.toNat
  · refine iff_of_true ?_ (by omega)
    rw [RTMPSoftDecryptCCMP_eq hkey hlong le_rfl]
    simp only
    rw [← ite_not]
    apply inside_verdict hlong
    rw [UInt16.le_iff_toNat_le, UInt16.toNat_ofNat']
    omega
  · unfold RTMPSoftDecryptCCMP
    rw [if_neg hkey]
    by_cases hhdr : 8 ≤ DataByteCnt.toNat
    · refine iff_of_true ?_ hhdr
      -- the lengths wrap, and the output length is found too small for what they wrap to
      have hshort : DataByteCnt.toUInt32 < DataByteCnt.toUInt32 - LEN_CCMP_HDR - LEN_CCMP_MIC := by
        have hmac : LEN_CCMP_MIC.toNat = 8 := rfl
        have hhdr : LEN_CCMP_HDR.toNat = 8 := rfl
        rw [UInt32.lt_iff_toNat_lt, UInt32.toNat_sub, UInt32.toNat_sub, hmac, hhdr,
          UInt16.toNat_toUInt32]
        omega
      have hnonce := length_nonceOf pHdr (pnOf fun a => pData (0 + a))
      have hdec : AES_CCM_Decrypt aes pKey.Key DataByteCnt.toNat pData 8
          (DataByteCnt.toUInt32 - LEN_CCMP_HDR) (nonceOf pHdr (pnOf fun a => pData (0 + a))) (aadOf pHdr)
          LEN_CCMP_MIC 0 DataByteCnt.toUInt32 = some ⟨-4, pData, DataByteCnt.toUInt32⟩ := by
        unfold AES_CCM_Decrypt
        rw [if_neg (not_not.mpr pKey.length_Key), if_neg (by omega), if_neg (by decide), if_pos hshort]
      rw [loadPN_eq (by omega)]
      simp only [Option.bind_eq_bind, Option.bind_some]
      rw [hdec]
      exact inside_failed
    · rw [loadPN_none (by omega)]
      exact iff_of_false not_inside_none hhdr

end Inside

/-- The IV header with the ICV, the MIC or both. -/
def overhead (CipherAlg : UInt8) : Nat :=
  if CipherAlg = CIPHER_TKIP then 20 else if CipherAlg = CIPHER_AES then 16 else 8

def IsCipher (CipherAlg : UInt8) : Prop :=
  CipherAlg = CIPHER_WEP64 ∨ CipherAlg = CIPHER_WEP128 ∨ CipherAlg = CIPHER_TKIP ∨ CipherAlg = CIPHER_AES

/-- The bodies that are decrypted without leaving them. -/
def Harmless (T : Tables) (alloc : Allocation) (pHdr : Store) (pKey : CIPHER_KEY) (pData : Store)
    (n : Nat) : Prop :=
  if pKey.CipherAlg = CIPHER_TKIP then 20 ≤ n ∨ 12 ≤ n ∧ ¬ IcvMatches T pHdr pKey pData n
  else if pKey.CipherAlg = CIPHER_AES then 8 ≤ n
  else alloc.ctx = false ∨ 8 ≤ n ∧ (alloc.seed = false ∨ pKey.KeyLen.toNat ≤ 13)

/-- The decryption of a body stays inside of it, and fails if the body is too short, only for these
bodies. -/
theorem softDecryption_inside_iff (T : Tables) (aes : BlockCipher 16) (alloc : Allocation)
    (pHdr : Store) (UserPriority : UInt8) (pKey : CIPHER_KEY) (pData : Store) (DataByteCnt : UInt16)
    (hkey : pKey.KeyLen ≠ 0) (halg : IsCipher pKey.CipherAlg) :
    Inside (overhead pKey.CipherAlg) DataByteCnt
        (RTMPSoftDecryptionAction T aes alloc pHdr UserPriority pKey DataByteCnt.toNat pData
          DataByteCnt) ↔
      Harmless T alloc pHdr pKey pData DataByteCnt.toNat := by
  unfold overhead Harmless RTMPSoftDecryptionAction
  rcases halg with h | h | h | h
  · rw [h]
    exact wep_inside_iff hkey
  · rw [h]
    exact wep_inside_iff hkey
  · rw [h]
    exact tkip_inside_iff hkey
  · rw [h]
    exact ccmp_inside_iff hkey

/-- An entry of `FCSTAB_32`, one bit of its index after the other. -/
def crcEntry (index : UInt8) : UInt32 :=
  (List.range 8).foldl (fun c _ => if c &&& 1 = 1 then (c >>> 1) ^^^ 0xEDB88320 else c >>> 1)
    index.toUInt32

/-- The table of the CRC. The ones of the key mixing are of no use to WEP. -/
def crcTables : Tables := ⟨crcEntry, fun _ => 0, fun _ => 0⟩

def allocated : Allocation := ⟨true, true, ⟨0, 0, id⟩⟩

theorem softDecryption_inside_iff_tkip :
    Inside (overhead CIPHER_TKIP) 20
        (RTMPSoftDecryptionAction crcTables aesCipher allocated qosHeader 5 (zeroKey CIPHER_TKIP 16) 20
          counting 20) ↔
      Harmless crcTables allocated qosHeader (zeroKey CIPHER_TKIP 16) counting 20 :=
  softDecryption_inside_iff crcTables aesCipher allocated qosHeader 5 (zeroKey CIPHER_TKIP 16)
    counting 20 (by decide) (.inr (.inr (.inl rfl)))

/-- Four bytes under a WEP key: the ICV is looked for behind 65532 bytes of plaintext. -/
theorem runt_leaves_body : ¬ ∀ (T : Tables) (aes : BlockCipher 16) (alloc : Allocation) (pHdr : Store)
    (UserPriority : UInt8) (pKey : CIPHER_KEY) (pData : Store) (DataByteCnt : UInt16),
    pKey.KeyLen ≠ 0 → IsCipher pKey.CipherAlg →
    Inside (overhead pKey.CipherAlg) DataByteCnt
      (RTMPSoftDecryptionAction T aes alloc pHdr UserPriority pKey DataByteCnt.toNat pData
        DataByteCnt) := by
  intro h
  have hrunt : Inside 8 4
      (RTMPSoftDecryptWEP crcTables allocated (zeroKey CIPHER_WEP64 5) (4 : UInt16).toNat (fun _ => 0) 4) :=
    h crcTables aesCipher allocated (fun _ => 0) 0 (zeroKey CIPHER_WEP64 5) (fun _ => 0) 4
      (by decide) (.inl rfl)
  rcases (wep_inside_iff (by decide)).mp hrunt with hctx | ⟨hlong, -⟩
  · cases hctx
  · exact absurd hlong (by decide)

end Ralink.Crypt
