import Ralink.Wpa.KeyInstall
import Ralink.Wpa.KeyDecrypt

/-! When the key data of a frame is processed inside the buffers, and the group key that is
installed is the one that the key data has. -/
namespace Ralink.Wpa.KeyData
open Sized Cipher Crypt

/-- The group key that the key data of a frame has, with its index. Of several the last one
counts. -/
def carriedGtk (aes : BlockCipher 16) (e : MAC_TABLE_ENTRY) (Msg : EAPOL_PACKET) : Option Found :=
  if e.bWPA2 then (gtks (decrypted aes e Msg)).getLast?
  else if decrypted aes e Msg = [] then none
  else some (Msg.KeyDesc.KeyInfo.KeyIndex.toNat, decrypted aes e Msg)

section Calls

variable (C : Crypto) (aes : BlockCipher 16) (cfg : Config) (mem : Memory) (Msg : EAPOL_PACKET)
  (type : MsgType) (e : MAC_TABLE_ENTRY) (link : APCLI_STRUCT)

/-- When a message with a group key is accepted, the key data has one, and that is the one
installed. -/
def InstallsCarried (r : Bool × APCLI_STRUCT × List Act) : Prop :=
  r.1 = true → hasGroupKey e type = true →
    ∃ g, carriedGtk aes e Msg = some g ∧ Installs cfg e r.2.1 r.2.2 g

/-- The call reads and writes inside its buffers, and installs what the key data has. -/
def Contained : Prop :=
  ∃ r, PeerWpaMessageSanity C aes cfg mem Buffered.carried Msg type e link = some r ∧
    InstallsCarried aes cfg Msg type e r

/-- The key data of WPA2 is decrypted and parsed inside, and the last key in it fits, unless one of
them is too short. -/
def Wpa2Sound : Prop :=
  granted mem Msg = true ∧ Decrypts Msg ∧ Inside (decrypted aes e Msg) ∧
    ((∃ g ∈ gtks (decrypted aes e Msg), g.2.length < LEN_WEP64) ∨
      Fits cfg e link ((gtks (decrypted aes e Msg)).getLast?.getD (0, [])).2.length)

/-- The key data of WPA is a key that has room in `GTK` and fits. Without the buffer for its
decryption it counts as a key of no bytes, with TKIP only if its length does in 8 bits. -/
def Wpa1Sound : Prop :=
  granted mem Msg = true ∧ Decrypts Msg ∧ plainLength Msg ≤ MAX_LEN_GTK ∧
      Fits cfg e link (plainLength Msg) ∨
    granted mem Msg = false ∧
      (Msg.KeyDesc.KeyInfo.KeyDescVer = KEY_DESC_AES ∨ Msg.KeyDesc.KeyDataLen.toNat % 256 = 0) ∧
      Fits cfg e link 0

def Sound : Prop :=
  mem.keydata = true → bReplayDiff e type Msg = false →
    (hasGroupKey e type = true →
      Msg.KeyDesc.KeyDataLen ≠ 0 ∧
        if e.bWPA2 then Wpa2Sound aes cfg mem Msg e link else Wpa1Sound cfg mem Msg e link) ∧
    (hasGroupKey e type = false → type = .EAPOL_PAIR_MSG_2 ∨ type = .EAPOL_PAIR_MSG_3 →
      Msg.KeyDesc.KeyDataLen.toNat ≤ (keyDataOf Msg).length ∧
        Msg.KeyDesc.KeyDataLen.toNat ≤ MAX_LEN_OF_RSNIE)

variable {C aes cfg mem Msg type e link}

theorem exists_map_iff {α β : Type*} {x : Option α} {f : α → β} {P : β → Prop} :
    (∃ r, x.map f = some r ∧ P r) ↔ ∃ a, x = some a ∧ P (f a) := by
  cases x with
  | none => simp
  | some a => simp

theorem wpa2_parsed {d : List Byte} {index : Nat} (hwpa2 : e.bWPA2 = true)
    (hkey : hasGroupKey e type = true) (hd : d.length ≤ MAX_LEN_OF_RSNIE)
    (hcarried : carriedGtk aes e Msg = (gtks d).getLast?) :
    (∃ r, RTMPParseEapolKeyData cfg d d.length index type e link = some r ∧
        InstallsCarried aes cfg Msg type e r) ↔
      Inside d ∧ ((∃ g ∈ gtks d, g.2.length < LEN_WEP64) ∨
        Fits cfg e link ((gtks d).getLast?.getD (0, [])).2.length) := by
  have hend : 0 + d.length = (BitVec.ofNat 8 d.length).toNat := by
    unfold MAX_LEN_OF_RSNIE at hd
    rw [BitVec.toNat_ofNat]
    omega
  rw [parse_wpa2 hwpa2 hkey, exists_map_iff]
  by_cases hinside : Inside d
  · rw [kdeLoop_inside hinside hend]
    simp only [Option.some.injEq, exists_eq_left', hinside, true_and]
    unfold outcome
    by_cases hshort : ∃ g ∈ gtks d, g.2.length < LEN_WEP64
    · rw [if_pos hshort]
      exact iff_of_true nofun (.inl hshort)
    · have hbounds := gtks_bounds hinside hshort
      rw [if_neg hshort, or_iff_right hshort, InstallsCarried, hcarried]
      simp only [hkey, forall_const]
      cases hlast : (gtks d).getLast? with
      | none =>
        exact @installs_iff cfg e link (0, []) none (by decide) (Nat.zero_le _) (.inr rfl)
      | some g =>
        obtain ⟨hidx, hroom⟩ := hbounds g (List.mem_of_getLast? hlast)
        exact @installs_iff cfg e link g (some g) hidx hroom (.inl rfl)
  · apply iff_of_false
    · rintro ⟨found, hfound, -⟩
      exact hinside (inside_of_kdeLoop hend (Option.isSome_of_mem hfound))
    · exact fun h => hinside h.1

theorem wpa1_parsed {d : List Byte} {len index : Nat} (hwpa2 : e.bWPA2 = false)
    (hkey : hasGroupKey e type = true) (hlen : len % 256 = d.length) (hindex : index < 4)
    (hcarried : carriedGtk aes e Msg = some (index, d) ∨ d = []) :
    (∃ r, RTMPParseEapolKeyData cfg d len index type e link = some r ∧
        InstallsCarried aes cfg Msg type e r) ↔
      d.length ≤ MAX_LEN_GTK ∧ Fits cfg e link d.length := by
  have hcopy : copyGtk d d.length = if d.length ≤ MAX_LEN_GTK then some d else none := by
    rw [copyGtk, slice, if_pos (Nat.le_refl _), List.take_length]
    rfl
  rw [parse_wpa1 hwpa2 hkey, exists_map_iff, BitVec.toNat_ofNat]
  rw [show len % 2 ^ 8 = d.length from hlen, hcopy]
  by_cases hroom : d.length ≤ MAX_LEN_GTK
  · rw [if_pos hroom]
    simp only [Option.some.injEq, exists_eq_left', hroom, true_and, InstallsCarried, hkey,
      forall_const]
    exact installs_iff hindex hroom hcarried
  · rw [if_neg hroom]
    simp [hroom]

theorem carriedGtk_of_zero (h : Msg.KeyDesc.KeyDataLen = 0) : carriedGtk aes e Msg = none := by
  have hdata : (keyDataOf Msg).take (BitVec.toNat (0 : BitVec 16)) = [] := List.take_zero
  have hdecrypted : decrypted aes e Msg = [] := by
    unfold decrypted
    rw [h]
    simp only [hdata]
    split
    · rfl
    · rfl
  unfold carriedGtk
  rw [hdecrypted]
  split
  · rw [gtks, elements]
    · rfl
    · simp
  · rfl

theorem groupKeyIndex_lt : groupKeyIndex e type Msg < 4 := by
  unfold groupKeyIndex
  split
  · exact Msg.KeyDesc.KeyInfo.KeyIndex.isLt
  · decide

theorem refused_parsed {len : Nat} (hmem : granted mem Msg = false)
    (hkey : hasGroupKey e type = true)
    (hlen : len % 256 = 0 ↔
      Msg.KeyDesc.KeyInfo.KeyDescVer = KEY_DESC_AES ∨ Msg.KeyDesc.KeyDataLen.toNat % 256 = 0) :
    (∃ r, RTMPParseEapolKeyData cfg [] len (groupKeyIndex e type Msg) type e link = some r ∧
        InstallsCarried aes cfg Msg type e r) ↔
      if e.bWPA2 then Wpa2Sound aes cfg mem Msg e link else Wpa1Sound cfg mem Msg e link := by
  cases hwpa2 : e.bWPA2 with
  | true =>
    have hloop : kdeLoop (BitVec.ofNat 8 len) 0 [] (0, []) = none := by
      rw [kdeLoop]
      rfl
    rw [parse_wpa2 hwpa2 hkey, hloop, if_pos rfl]
    simp [Wpa2Sound, hmem]
  | false =>
    simp only [Bool.false_eq_true, if_false, Wpa1Sound, hmem, false_and, false_or, true_and, ← hlen]
    by_cases hzero : len % 256 = 0
    · rw [wpa1_parsed hwpa2 hkey hzero groupKeyIndex_lt (.inr rfl)]
      simp [hzero]
    · have hcopy : copyGtk [] (BitVec.ofNat 8 len).toNat = none := by
        rw [BitVec.toNat_ofNat, copyGtk, slice, if_neg (by simpa using hzero)]
        rfl
      rw [parse_wpa1 hwpa2 hkey, hcopy]
      simp [hzero]

theorem carriedGtk_wpa1 (hwpa2 : e.bWPA2 = false) (hkey : hasGroupKey e type = true) :
    carriedGtk aes e Msg = some (groupKeyIndex e type Msg, decrypted aes e Msg) ∨
      decrypted aes e Msg = [] := by
  have htype : type = .EAPOL_GROUP_MSG_1 := by
    simpa [hasGroupKey, hwpa2] using hkey
  by_cases hnil : decrypted aes e Msg = []
  · exact .inr hnil
  · left
    simp [carriedGtk, hwpa2, hnil, groupKeyIndex, htype]

theorem processed_group_iff (hkey : hasGroupKey e type = true) (hlen : Msg.KeyDesc.KeyDataLen ≠ 0) :
    (∃ r, processKeyData aes cfg mem Buffered.carried Msg type e link = some r ∧
        InstallsCarried aes cfg Msg type e r) ↔
      if e.bWPA2 then Wpa2Sound aes cfg mem Msg e link else Wpa1Sound cfg mem Msg e link := by
  rw [processKeyData, clearKeyData_group hkey hlen]
  cases hmem : granted mem Msg with
  | false =>
    rw [decryptKeyData_refused hmem, Option.map_some, Option.bind_eq_bind, Option.bind_some]
    apply refused_parsed hmem hkey
    split
    · next haes => simp [haes]
    · next haes => simp [haes]
  | true =>
    by_cases hdecrypts : Decrypts Msg
    · have hplain := @length_decrypted aes e Msg hdecrypts.toPresent
      have hroom : (decrypted aes e Msg).length ≤ MAX_LEN_OF_RSNIE := hplain.le.trans hdecrypts.room
      rw [decryptKeyData_decrypts hmem hdecrypts, Option.map_some, Option.bind_eq_bind,
        Option.bind_some]
      simp only [carried_decrypted hdecrypts.toPresent, Wpa2Sound, Wpa1Sound, hmem, hdecrypts,
        true_and, Bool.true_eq_false, false_and, or_false]
      rw [← hplain]
      cases hwpa2 : e.bWPA2 with
      | true =>
        have hcarried : carriedGtk aes e Msg = (gtks (decrypted aes e Msg)).getLast? := by
          rw [carriedGtk, if_pos hwpa2]
        exact wpa2_parsed hwpa2 hkey hroom hcarried
      | false =>
        unfold MAX_LEN_OF_RSNIE at hroom
        exact wpa1_parsed hwpa2 hkey (Nat.mod_eq_of_lt (by omega)) groupKeyIndex_lt
          (carriedGtk_wpa1 hwpa2 hkey)
    · rw [decryptKeyData_none hmem hdecrypts]
      simp [Wpa2Sound, Wpa1Sound, hmem, hdecrypts]

theorem processed_plain_iff (hkey : hasGroupKey e type = false) :
    (processKeyData aes cfg mem Buffered.carried Msg type e link).isSome ↔
      (type = .EAPOL_PAIR_MSG_2 ∨ type = .EAPOL_PAIR_MSG_3 →
        Msg.KeyDesc.KeyDataLen.toNat ≤ (keyDataOf Msg).length ∧
          Msg.KeyDesc.KeyDataLen.toNat ≤ MAX_LEN_OF_RSNIE) := by
  rw [process_plain hkey]
  split
  · next h => exact iff_of_true rfl h
  · next h => exact iff_of_false nofun h

/-- When a call with a valid MIC is contained. -/
theorem contained_iff (hmic : micDiff C e type Msg = false) :
    Contained C aes cfg mem Msg type e link ↔ Sound aes cfg mem Msg type e link := by
  have hfalse : ∀ l : APCLI_STRUCT, InstallsCarried aes cfg Msg type e (false, l, []) :=
    fun _ hok => absurd hok Bool.false_ne_true
  unfold Contained Sound
  by_cases hkeydata : mem.keydata = true
  · cases hreplay : bReplayDiff e type Msg with
    | true =>
      rw [PeerWpaMessageSanity, if_neg (by rw [hkeydata]; decide), if_pos hreplay]
      exact iff_of_true ⟨_, rfl, hfalse link⟩ fun _ hfresh =>
        absurd hfresh (by decide)
    | false =>
      simp only [sanity_processed hkeydata hreplay hmic, hkeydata, forall_const]
      cases hkey : hasGroupKey e type with
      | false =>
        have hsome := @processed_plain_iff aes cfg mem Msg type e link hkey
        have hcarried : ∀ r, InstallsCarried aes cfg Msg type e r := by
          intro r _ hgroup
          rw [hkey] at hgroup
          cases hgroup
        simp only [hcarried, and_true, Bool.false_eq_true, false_implies, true_and, forall_const,
          ← hsome, Option.isSome_iff_exists]
      | true =>
        simp only [forall_const, Bool.true_eq_false, false_implies, and_true]
        by_cases hlen : Msg.KeyDesc.KeyDataLen = 0
        · have hnone : processKeyData aes cfg mem Buffered.carried Msg type e link = some (true, link, []) := by
            rw [processKeyData, clearKeyData, if_pos (by rw [hlen]; rfl)]
            rfl
          rw [hnone]
          simp only [Option.some.injEq, exists_eq_left', InstallsCarried, hkey, forall_const,
            carriedGtk_of_zero hlen, hlen, ne_eq, not_true_eq_false, false_and, iff_false]
          rintro ⟨g, hg, -⟩
          cases hg
        · rw [processed_group_iff hkey hlen]
          exact (and_iff_right hlen).symm
  · rw [PeerWpaMessageSanity, if_pos (by simpa using hkeydata)]
    exact iff_of_true ⟨_, rfl, hfalse link⟩ fun h => absurd h hkeydata

end Calls

/-- A second message of the 4-way handshake with 300 bytes of key data. -/
def longMsg2 : EAPOL_PACKET where
  ProVer := 1
  ProType := 3
  Body_Len := 395
  KeyDesc :=
    { DescType := 2, KeyInfo := ⟨0x01, 0x0a⟩, KeyLength := Vector.replicate 2 0
      ReplayCounter := 0
      KeyNonce := Vector.replicate 32 0, KeyIv := Vector.replicate 16 0
      KeyRsc := Vector.replicate 8 0, KeyId := Vector.replicate 8 0
      KeyMic := Vector.replicate 16 0, KeyDataLen := 300, KeyData := List.replicate 300 0 }

/-- Hashes that are zero, under which the frame has the right MIC. -/
def zeroHashes : Crypto where
  RT_HMAC_MD5 _ _ := Vector.replicate 16 0
  RT_HMAC_SHA1 _ _ := Vector.replicate 20 0
  AES_Key_Unwrap _ _ := []
  TKIP_GTK_KEY_UNWRAP _ _ _ := []

def freshMemory : Memory := ⟨true, Vector.replicate 255 0, fun _ => true, true⟩

/-- The MIC of the frame is right, and its key data does not stay inside. -/
theorem longMsg2_overflows :
    micDiff zeroHashes default .EAPOL_PAIR_MSG_2 longMsg2 = false ∧
      ¬ Contained zeroHashes aesCipher default freshMemory longMsg2 .EAPOL_PAIR_MSG_2 default
        default := by
  have hmic : micDiff zeroHashes default .EAPOL_PAIR_MSG_2 longMsg2 = false := by decide
  refine ⟨hmic, ?_⟩
  rintro ⟨r, hr, -⟩
  rw [sanity_processed rfl (by decide) hmic] at hr
  have hroom := (processed_plain_iff (by decide)).mp (Option.isSome_of_mem hr) (.inl rfl)
  exact absurd hroom.2 (by decide)

theorem contained_iff_longMsg2 :
    Contained zeroHashes aesCipher default freshMemory longMsg2 .EAPOL_PAIR_MSG_2 default
        default ↔
      Sound aesCipher default freshMemory longMsg2 .EAPOL_PAIR_MSG_2 default default :=
  contained_iff (by decide)

end Ralink.Wpa.KeyData
