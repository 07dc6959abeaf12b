import Ralink.Wpa.KeyData

/-! What the key data of a frame is when it is decrypted, and when decrypting it stays inside the
frame and inside `KEYDATA`. -/
namespace Ralink.Wpa.KeyData
open Sized Cipher Crypt

variable (aes : BlockCipher 16) (mem : Memory) (e : MAC_TABLE_ENTRY) (Msg : EAPOL_PACKET)

def decrypted : List Byte :=
  let data := (keyDataOf Msg).take Msg.KeyDesc.KeyDataLen.toNat
  if Msg.KeyDesc.KeyInfo.KeyDescVer = KEY_DESC_AES then
    bytes (unwrapLoops aes (octets (KEK e.PTK)) ((data.length - 8) / 8)
      ⟨octets (data.take 8), octets (data.drop 8)⟩).pResult
  else
    bytes (TKIP_GTK_KEY_WRAP (octets (KEK e.PTK)) (octets Msg.KeyDesc.KeyIv.toList) (octets data))

/-- The buffer that decryption needs can be allocated. -/
def granted : Bool :=
  if Msg.KeyDesc.KeyInfo.KeyDescVer = KEY_DESC_AES then
    mem.alloc (UInt32.ofNat Msg.KeyDesc.KeyDataLen.toNat - 8)
  else mem.arc4

def plainLength : Nat :=
  if Msg.KeyDesc.KeyInfo.KeyDescVer = KEY_DESC_AES then Msg.KeyDesc.KeyDataLen.toNat - 8
  else Msg.KeyDesc.KeyDataLen.toNat

/-- The key data is there in full, and begins with the register if it is an AES key wrap. -/
structure Present : Prop where
  present : Msg.KeyDesc.KeyDataLen.toNat ≤ (keyDataOf Msg).length
  register : Msg.KeyDesc.KeyInfo.KeyDescVer = KEY_DESC_AES → 8 ≤ Msg.KeyDesc.KeyDataLen.toNat

/-- The key data is there and has room in `KEYDATA`. -/
structure Decrypts : Prop extends Present Msg where
  room : plainLength Msg ≤ MAX_LEN_OF_RSNIE

variable {aes mem e Msg}

theorem length_octets (bs : List Byte) : (octets bs).length = bs.length := List.length_map _

theorem length_bytes (bs : List UInt8) : (bytes bs).length = bs.length := List.length_map _

theorem length_keyDataOf : (keyDataOf Msg).length < 2 ^ 16 := by
  have hbody := Msg.Body_Len.isLt
  unfold keyDataOf
  rw [List.length_take]
  omega

theorem length_decrypted (h : Present Msg) : (decrypted aes e Msg).length = plainLength Msg := by
  have hdata : ((keyDataOf Msg).take Msg.KeyDesc.KeyDataLen.toNat).length =
      Msg.KeyDesc.KeyDataLen.toNat := by
    rw [List.length_take, Nat.min_eq_left h.present]
  unfold decrypted plainLength
  split
  · next haes =>
    have hregister := h.register haes
    have hwhole : Whole ((Msg.KeyDesc.KeyDataLen.toNat - 8) / 8) (Msg.KeyDesc.KeyDataLen.toNat - 8)
        ⟨octets (((keyDataOf Msg).take Msg.KeyDesc.KeyDataLen.toNat).take 8),
          octets (((keyDataOf Msg).take Msg.KeyDesc.KeyDataLen.toNat).drop 8)⟩ := by
      refine ⟨?_, ?_, Nat.div_mul_le_self _ 8⟩
      · rw [length_octets, List.length_take, hdata, Nat.min_eq_left hregister]
      · rw [length_octets, List.length_drop, hdata]
    rw [length_bytes, hdata]
    exact hwhole.unwrapLoops.pResult
  · rw [length_bytes, length_TKIP_GTK_KEY_WRAP, length_octets, hdata]

theorem toNat_plainLength {len : Nat} (h : len < 2 ^ 16) :
    (UInt32.ofNat len - 8).toNat = if 8 ≤ len then len - 8 else 2 ^ 32 - 8 + len := by
  have hlen : (UInt32.ofNat len).toNat = len := UInt32.toNat_ofNat_of_lt' (by
    show len < 2 ^ 32
    omega)
  rw [UInt32.toNat_sub, hlen]
  show (2 ^ 32 - 8 + len) % 2 ^ 32 = _
  split <;> omega

theorem slices_eq {data : List Byte} {len : Nat} (h : len ≤ data.length) (hregister : 8 ≤ len) :
    slice data 8 = some ((data.take len).take 8) ∧
      slice (data.drop 8) (len - 8) = some ((data.take len).drop 8) := by
  constructor
  · rw [slice, if_pos (by omega), List.take_take, Nat.min_eq_left hregister]
  · rw [slice, if_pos (by rw [List.length_drop]; omega), List.drop_take]

theorem decryptKeyData_present (hmem : granted mem Msg = true) (h : Present Msg) :
    decryptKeyData aes mem e Msg =
      (store mem.zeroed (decrypted aes e Msg)).map fun KEYDATA =>
        ⟨KEYDATA, plainLength Msg, plainLength Msg⟩ := by
  have hdata : ((keyDataOf Msg).take Msg.KeyDesc.KeyDataLen.toNat).length =
      Msg.KeyDesc.KeyDataLen.toNat := by
    rw [List.length_take, Nat.min_eq_left h.present]
  unfold granted at hmem
  unfold decryptKeyData decrypted plainLength
  by_cases haes : Msg.KeyDesc.KeyInfo.KeyDescVer = KEY_DESC_AES
  · obtain ⟨hIV, hpResult⟩ := slices_eq h.present (h.register haes)
    have hplain : (UInt32.ofNat Msg.KeyDesc.KeyDataLen.toNat - 8).toNat =
        Msg.KeyDesc.KeyDataLen.toNat - 8 := by
      rw [toNat_plainLength Msg.KeyDesc.KeyDataLen.isLt, if_pos (h.register haes)]
    rw [if_pos haes] at hmem
    simp only [if_pos haes]
    rw [AES_Key_Unwrap, if_neg (by rw [hmem]; decide), hplain, hIV, hpResult, hdata, Option.map_eq_bind]
    rfl
  · have htext : slice (keyDataOf Msg) Msg.KeyDesc.KeyDataLen.toNat =
        some ((keyDataOf Msg).take Msg.KeyDesc.KeyDataLen.toNat) := if_pos h.present
    rw [if_neg haes] at hmem
    simp only [if_neg haes]
    rw [TKIP_GTK_KEY_UNWRAP, if_neg (by rw [hmem]; decide), htext, Option.map_eq_bind]
    rfl

theorem present_of_isSome (hmem : granted mem Msg = true)
    (h : (decryptKeyData aes mem e Msg).isSome) : Present Msg := by
  have hframe := @length_keyDataOf Msg
  unfold granted at hmem
  unfold decryptKeyData at h
  by_cases haes : Msg.KeyDesc.KeyInfo.KeyDescVer = KEY_DESC_AES
  · rw [if_pos haes] at hmem
    rw [if_pos haes, AES_Key_Unwrap, if_neg (by rw [hmem]; decide)] at h
    obtain ⟨hIV, h⟩ := isSome_bind.mp h
    obtain ⟨IV, hIV'⟩ := Option.isSome_iff_exists.mp hIV
    obtain ⟨hpResult, -⟩ := isSome_bind.mp (h IV hIV')
    have hIVlen := isSome_slice.mp hIV
    have hlen := isSome_slice.mp hpResult
    rw [toNat_plainLength Msg.KeyDesc.KeyDataLen.isLt, List.length_drop] at hlen
    by_cases hregister : 8 ≤ Msg.KeyDesc.KeyDataLen.toNat
    · rw [if_pos hregister] at hlen
      exact ⟨by omega, fun _ => hregister⟩
    · rw [if_neg hregister] at hlen
      omega
  · rw [if_neg haes] at hmem
    rw [if_neg haes, TKIP_GTK_KEY_UNWRAP, if_neg (by rw [hmem]; decide)] at h
    obtain ⟨htext, -⟩ := isSome_bind.mp h
    exact ⟨isSome_slice.mp htext, fun heq => absurd heq haes⟩

theorem decryptKeyData_decrypts (hmem : granted mem Msg = true) (h : Decrypts Msg) :
    decryptKeyData aes mem e Msg =
      some ⟨decrypted aes e Msg ++ mem.zeroed.drop (decrypted aes e Msg).length, plainLength Msg,
        plainLength Msg⟩ := by
  have hroom : (decrypted aes e Msg).length ≤ MAX_LEN_OF_RSNIE :=
    (length_decrypted h.toPresent).le.trans h.room
  rw [decryptKeyData_present hmem h.toPresent, store, if_pos hroom]
  rfl

theorem decryptKeyData_none (hmem : granted mem Msg = true) (h : ¬ Decrypts Msg) :
    decryptKeyData aes mem e Msg = none := by
  cases hsome : decryptKeyData aes mem e Msg with
  | none => rfl
  | some b =>
    have hpresent : Present Msg := present_of_isSome hmem (Option.isSome_of_mem hsome)
    have hroom : ¬ (decrypted aes e Msg).length ≤ MAX_LEN_OF_RSNIE := by
      intro hroom
      exact h ⟨hpresent, (length_decrypted hpresent).ge.trans hroom⟩
    rw [decryptKeyData_present hmem hpresent, store, if_neg hroom] at hsome
    cases hsome

theorem decryptKeyData_refused (hmem : granted mem Msg = false) :
    decryptKeyData aes mem e Msg =
      some ⟨mem.zeroed, 0,
        if Msg.KeyDesc.KeyInfo.KeyDescVer = KEY_DESC_AES then 0 else Msg.KeyDesc.KeyDataLen.toNat⟩ := by
  unfold granted at hmem
  unfold decryptKeyData
  by_cases haes : Msg.KeyDesc.KeyInfo.KeyDescVer = KEY_DESC_AES
  · rw [if_pos haes] at hmem
    rw [if_pos haes, if_pos haes, AES_Key_Unwrap, if_pos hmem]
  · rw [if_neg haes] at hmem
    rw [if_neg haes, if_neg haes, TKIP_GTK_KEY_UNWRAP, if_pos hmem]

theorem carried_decrypted (h : Present Msg) (KEYDATA : List Byte) :
    Buffered.carried ⟨decrypted aes e Msg ++ KEYDATA, plainLength Msg, plainLength Msg⟩ =
      decrypted aes e Msg := by
  have hlen := @length_decrypted aes e Msg h
  unfold Buffered.carried
  rw [← hlen]
  exact List.take_left

theorem clearKeyData_group {type : MsgType} (hkey : hasGroupKey e type = true)
    (hlen : Msg.KeyDesc.KeyDataLen ≠ 0) :
    clearKeyData aes mem e type Msg =
      (decryptKeyData aes mem e Msg).map fun b => some (b, groupKeyIndex e type Msg) := by
  have hne : ¬ Msg.KeyDesc.KeyDataLen.toNat = 0 := fun h => hlen (BitVec.eq_of_toNat_eq h)
  rw [clearKeyData, if_neg hne, if_pos hkey]

section Messages

variable {C : Crypto} {cfg : Config} {type : MsgType} {link : APCLI_STRUCT}
  {readable : Buffered → List Byte}

theorem process_plain (hkey : hasGroupKey e type = false) :
    processKeyData aes cfg mem readable Msg type e link =
      if type = .EAPOL_PAIR_MSG_2 ∨ type = .EAPOL_PAIR_MSG_3 →
          Msg.KeyDesc.KeyDataLen.toNat ≤ (keyDataOf Msg).length ∧
            Msg.KeyDesc.KeyDataLen.toNat ≤ MAX_LEN_OF_RSNIE then
        some (true, link, [])
      else none := by
  rw [processKeyData, clearKeyData]
  by_cases hlen : Msg.KeyDesc.KeyDataLen.toNat = 0
  · rw [if_pos hlen, hlen]
    simp
  · rw [if_neg hlen, if_neg (by rw [hkey]; decide)]
    by_cases htype : type = .EAPOL_PAIR_MSG_2 ∨ type = .EAPOL_PAIR_MSG_3
    · have hskip : (type = .EAPOL_PAIR_MSG_2 ∨ type = .EAPOL_PAIR_MSG_3) ∧
          ¬ (e.bWPA2 = true ∧ type = .EAPOL_PAIR_MSG_3) := by
        refine ⟨htype, ?_⟩
        rintro ⟨hwpa2, rfl⟩
        simp [hasGroupKey, hwpa2] at hkey
      rw [if_pos htype]
      simp only [htype, forall_const, slice]
      by_cases hpresent : Msg.KeyDesc.KeyDataLen.toNat ≤ (keyDataOf Msg).length
      · have hdata : ((keyDataOf Msg).take Msg.KeyDesc.KeyDataLen.toNat).length =
            Msg.KeyDesc.KeyDataLen.toNat := by
          rw [List.length_take, Nat.min_eq_left hpresent]
        rw [if_pos hpresent]
        simp only [Option.bind_eq_bind, Option.bind_some, store, hdata, hpresent, true_and]
        split
        · simp only [Option.bind_some, Option.pure_def, RTMPParseEapolKeyData, if_pos hskip]
        · rfl
      · rw [if_neg hpresent]
        simp [hpresent]
    · rw [if_neg htype]
      simp [htype]

theorem sanity_processed {readable : Buffered → List Byte} (hkeydata : mem.keydata = true)
    (hreplay : bReplayDiff e type Msg = false) (hmic : micDiff C e type Msg = false) :
    PeerWpaMessageSanity C aes cfg mem readable Msg type e link =
      processKeyData aes cfg mem readable Msg type e link := by
  rw [PeerWpaMessageSanity, if_neg (by rw [hkeydata]; decide), if_neg (by rw [hreplay]; decide),
    if_neg (by rw [hmic]; decide)]

end Messages

end Ralink.Wpa.KeyData
