import Ralink.Wpa.KeyInstall
import Ralink.Wpa.Delivered

/-! When the messages of a handshake, as one side constructs them, are accepted by the other side,
and the group key that is installed is the one that was sent. -/
namespace Ralink.Wpa.KeyData
open Sized Cipher Crypt
open Function

section Parsing

variable {KeyDataLength : Byte} {skip_offset n : Nat} {p stale tail : List Byte} {found : Found}

theorem kdeLoop_end (h : KeyDataLength.toNat < skip_offset + 2) (hp : 2 ≤ p.length) :
    kdeLoop KeyDataLength skip_offset p found = some (some found) := by
  match p with
  | [] => simp at hp
  | [_] => simp at hp
  | Eid :: Len :: rest => rw [kdeLoop_cons, if_neg (by omega)]

theorem kdeLoop_zeros (h : skip_offset + n = KeyDataLength.toNat) (hstale : 2 ≤ stale.length) :
    kdeLoop KeyDataLength skip_offset (List.replicate n 0 ++ stale) found = some (some found) := by
  induction n using Nat.twoStepInduction generalizing skip_offset with
  | zero => exact kdeLoop_end (by omega) hstale
  | one => exact kdeLoop_end (by omega) (by simp; omega)
  | more n ih _ =>
    have hcons : List.replicate (n + 2) (0 : Byte) ++ stale =
        0 :: 0 :: (List.replicate n 0 ++ stale) := rfl
    have htold : Told 0 (List.replicate n 0 ++ stale) := nofun
    have hrest := @ih (skip_offset + 2) (by omega)
    rw [hcons, kdeLoop_cons, if_pos (by show skip_offset + 2 + 0 ≤ _; omega), turn_told htold]
    exact hrest

/-- The padding is read as a KDE, and what lies behind it completes one with a group key. -/
def PadCompleted (pad_len : Nat) (stale : List Byte) : Prop :=
  2 ≤ pad_len ∧ (List.replicate (pad_len - 2) 0 ++ stale).take 4 = OUI_WPA2 ++ [KDE_GTK]

theorem told_of_not_isGtk {Eid : Byte} {rest : List Byte} (hlen : 4 ≤ rest.length)
    (h : ¬ IsGtk Eid rest) : Told Eid rest := by
  intro hEid
  refine ⟨by omega, ?_⟩
  intro htake
  refine ⟨hlen, ?_⟩
  rw [List.getElem?_eq_getElem (by omega)]
  intro hType
  apply h
  refine ⟨hEid, ?_⟩
  rw [List.take_succ_eq_append_getElem (by omega), htake, Option.some.inj hType]

theorem kdeLoop_padding (h : skip_offset + n = KeyDataLength.toNat) (hstale : 4 ≤ stale.length) :
    (PadCompleted n stale → kdeLoop KeyDataLength skip_offset (padding n ++ stale) found = none) ∧
      (¬ PadCompleted n stale →
        kdeLoop KeyDataLength skip_offset (padding n ++ stale) found = some (some found)) := by
  match n with
  | 0 =>
    refine ⟨fun hpad => absurd hpad.1 (by decide), fun _ => kdeLoop_end (by omega) ?_⟩
    show 2 ≤ stale.length
    omega
  | 1 =>
    refine ⟨fun hpad => absurd hpad.1 (by decide), fun _ => kdeLoop_end (by omega) ?_⟩
    show 2 ≤ (0xDD :: stale).length
    rw [List.length_cons]
    omega
  | n + 2 =>
    have hcons : padding (n + 2) ++ stale = 0xDD :: 0 :: (List.replicate n 0 ++ stale) := rfl
    have hlen : 4 ≤ (List.replicate n (0 : Byte) ++ stale).length := by
      rw [List.length_append]
      omega
    have hzero : (0 : Byte).toNat ≤ (List.replicate n (0 : Byte) ++ stale).length := Nat.zero_le _
    rw [hcons, kdeLoop_cons, if_pos (by show skip_offset + 2 + 0 ≤ _; omega)]
    constructor
    · rintro ⟨-, hpad⟩
      have hgtk : IsGtk 0xDD (List.replicate n 0 ++ stale) := ⟨rfl, hpad⟩
      rw [turn_isGtk hgtk hzero, if_neg (by decide)]
      rfl
    · intro hpad
      have hgtk : ¬ IsGtk 0xDD (List.replicate n 0 ++ stale) := fun hgtk =>
        hpad ⟨Nat.le_add_left 2 n, hgtk.2⟩
      rw [turn_told (told_of_not_isGtk hlen hgtk)]
      exact kdeLoop_zeros (by show skip_offset + 2 + 0 + n = _; omega) (by omega)

theorem kdeLoop_gtk {e : MAC_TABLE_ENTRY} {cipher : NDIS_802_11_WEP_STATUS} {idx : Byte} {GTK : GTK}
    (hwpa2 : e.bWPA2 = true) (h : skip_offset + 8 + gtkLen cipher ≤ KeyDataLength.toNat) :
    kdeLoop KeyDataLength skip_offset (encapsulatedGtk e cipher idx GTK ++ tail) found =
      kdeLoop KeyDataLength (skip_offset + 8 + gtkLen cipher) tail
        (idx.toNat % 4, GTK.toList.take (gtkLen cipher)) := by
  have hsmall : gtkLen cipher = 16 ∨ gtkLen cipher = 32 := by
    unfold gtkLen
    split
    · exact .inl rfl
    · exact .inr rfl
  have hlen : (GTK.toList.take (gtkLen cipher)).length = gtkLen cipher := by
    rw [List.length_take, Vector.length_toList]
    omega
  have hcons : encapsulatedGtk e cipher idx GTK ++ tail =
      WPA_KDE_TYPE :: (4 + (2 + BitVec.ofNat 8 (gtkLen cipher))) ::
        (OUI_WPA2 ++ [KDE_GTK, idx &&& 0x03, 0x00] ++
          (GTK.toList.take (gtkLen cipher) ++ tail)) := by
    rw [encapsulatedGtk, if_pos hwpa2]
    rfl
  have hLen : (4 + (2 + BitVec.ofNat 8 (gtkLen cipher)) : Byte).toNat = 6 + gtkLen cipher := by
    rcases hsmall with h16 | h32
    · rw [h16]
      rfl
    · rw [h32]
      rfl
  have hgtk : IsGtk WPA_KDE_TYPE (OUI_WPA2 ++ [KDE_GTK, idx &&& 0x03, 0x00] ++
      (GTK.toList.take (gtkLen cipher) ++ tail)) := ⟨rfl, rfl⟩
  have hfits : (4 + (2 + BitVec.ofNat 8 (gtkLen cipher)) : Byte).toNat ≤
      (OUI_WPA2 ++ [KDE_GTK, idx &&& 0x03, 0x00] ++
        (GTK.toList.take (gtkLen cipher) ++ tail)).length := by
    rw [hLen, List.length_append, @List.length_append _ (GTK.toList.take _), hlen]
    show _ ≤ 6 + _
    omega
  have hidx : (idx &&& 0x03).toNat % 4 = idx.toNat % 4 := by
    have hand := Nat.and_two_pow_sub_one_eq_mod idx.toNat 2
    rw [BitVec.toNat_and]
    change idx.toNat &&& 3 = idx.toNat % 4 at hand
    show (idx.toNat &&& 3) % 4 = _
    rw [hand, Nat.mod_mod]
  have hkey : gtkIn (WPA_KDE_TYPE, (OUI_WPA2 ++ [KDE_GTK, idx &&& 0x03, 0x00] ++
      (GTK.toList.take (gtkLen cipher) ++ tail)).take (4 + (2 + BitVec.ofNat 8 (gtkLen cipher)) :
        Byte).toNat) = some (idx.toNat % 4, GTK.toList.take (gtkLen cipher)) := by
    rw [gtkIn_of_isGtk hgtk hfits (by omega), hLen, Nat.add_sub_cancel_left]
    show some ((idx &&& 0x03).toNat % 4, (GTK.toList.take (gtkLen cipher) ++ tail).take _) = _
    rw [hidx, List.take_left' hlen]
  have hdrop : (OUI_WPA2 ++ [KDE_GTK, idx &&& 0x03, 0x00] ++
      (GTK.toList.take (gtkLen cipher) ++ tail)).drop (6 + gtkLen cipher) = tail := by
    rw [← List.drop_drop]
    show (GTK.toList.take (gtkLen cipher) ++ tail).drop _ = tail
    rw [List.drop_left' hlen]
  rw [hcons, kdeLoop_cons, if_pos (by omega), turn_isGtk hgtk hfits, if_pos (by omega),
    if_neg (by omega), hkey, hLen, hdrop, ← Nat.add_assoc]
  rfl

theorem kdeLoop_gtk_padding {e : MAC_TABLE_ENTRY} {cipher : NDIS_802_11_WEP_STATUS} {idx : Byte}
    {GTK : GTK} (hwpa2 : e.bWPA2 = true)
    (h : skip_offset + 8 + gtkLen cipher + n = KeyDataLength.toNat) (hstale : 4 ≤ stale.length) :
    let p := encapsulatedGtk e cipher idx GTK ++ (padding n ++ stale)
    (PadCompleted n stale → kdeLoop KeyDataLength skip_offset p found = none) ∧
      (¬ PadCompleted n stale → kdeLoop KeyDataLength skip_offset p found =
        some (some (idx.toNat % 4, GTK.toList.take (gtkLen cipher)))) := by
  intro p
  have hgtk := @kdeLoop_gtk KeyDataLength skip_offset (padding n ++ stale) found e cipher idx GTK hwpa2
    (by omega)
  rw [hgtk]
  exact kdeLoop_padding h hstale

/-- An element that reads as a KDE with a group key of a length that is refused or has no room. -/
def BadElement (rsnie : Vector Byte 255) (len : Nat) : Prop :=
  4 ≤ len ∧ rsnie.toList.take 4 = OUI_WPA2 ++ [KDE_GTK] ∧ (len < 11 ∨ 38 < len)

theorem kdeLoop_rsn {rsnie : Vector Byte 255} {len : Byte} (hne : len ≠ 0) (hlen : len.toNat ≤ 64)
    (htail : ∃ bs, tail = WPA_KDE_TYPE :: bs ∧ 3 ≤ bs.length)
    (h : skip_offset + 2 + len.toNat ≤ KeyDataLength.toNat) :
    (BadElement rsnie len.toNat → ∀ g, kdeLoop KeyDataLength skip_offset
        (RTMPInsertRSNIE rsnie len ++ tail) found ≠ some (some g)) ∧
      (¬ BadElement rsnie len.toNat → ∃ found', kdeLoop KeyDataLength skip_offset
        (RTMPInsertRSNIE rsnie len ++ tail) found =
          kdeLoop KeyDataLength (skip_offset + 2 + len.toNat) tail found') := by
  obtain ⟨bs, rfl, hbs⟩ := htail
  have hbody : (rsnie.toList.take len.toNat).length = len.toNat := by
    rw [List.length_take, Vector.length_toList]
    omega
  generalize hie : (if (rsnie.toList.drop 2).take 3 = OUI_WPA2 then IE_RSN else IE_WPA) = ie
  have hcons : RTMPInsertRSNIE rsnie len ++ WPA_KDE_TYPE :: bs =
      ie :: len :: (rsnie.toList.take len.toNat ++ WPA_KDE_TYPE :: bs) := by
    rw [RTMPInsertRSNIE, if_pos hne, ← hie]
    rfl
  have hfits : len.toNat ≤ (rsnie.toList.take len.toNat ++ WPA_KDE_TYPE :: bs).length := by
    rw [List.length_append, hbody]
    omega
  have hfour : 4 ≤ (rsnie.toList.take len.toNat ++ WPA_KDE_TYPE :: bs).length := by
    rw [List.length_append, List.length_cons]
    omega
  have hdrop : (rsnie.toList.take len.toNat ++ WPA_KDE_TYPE :: bs).drop len.toNat =
      WPA_KDE_TYPE :: bs := List.drop_left' hbody
  -- A shorter element does not read as such a KDE, as the type of the next one is none of its bytes.
  have hgtk : IsGtk ie (rsnie.toList.take len.toNat ++ WPA_KDE_TYPE :: bs) ↔
      4 ≤ len.toNat ∧ rsnie.toList.take 4 = OUI_WPA2 ++ [KDE_GTK] := by
    constructor
    · rintro ⟨-, htake⟩
      by_cases hleast : 4 ≤ len.toNat
      · rw [List.take_append_of_le_length (by omega), List.take_take,
          Nat.min_eq_left hleast] at htake
        exact ⟨hleast, htake⟩
      · have hget := congrArg (fun as : List Byte => as[len.toNat]?) htake
        simp only [List.getElem?_take, if_pos (Nat.lt_of_not_le hleast)] at hget
        rw [List.getElem?_append_right hbody.le, hbody, Nat.sub_self] at hget
        have hlt : len.toNat < 4 := Nat.lt_of_not_le hleast
        interval_cases len.toNat <;> cases hget
    · rintro ⟨hleast, htake⟩
      refine ⟨?_, ?_⟩
      · rw [← hie]
        apply if_neg
        intro hOUI
        have hget := congrArg (fun as : List Byte => as[2]?) htake
        have hget' := congrArg (fun as : List Byte => as[0]?) hOUI
        simp only [List.getElem?_take, List.getElem?_drop] at hget hget'
        simp only [Nat.reduceLT, if_true, Nat.add_zero] at hget hget'
        rw [hget] at hget'
        cases hget'
      · rw [List.take_append_of_le_length (by omega), List.take_take, Nat.min_eq_left hleast]
        exact htake
  rw [hcons, kdeLoop_cons, if_pos h, hdrop]
  by_cases hfront : IsGtk ie (rsnie.toList.take len.toNat ++ WPA_KDE_TYPE :: bs)
  · obtain ⟨hleast, htake⟩ := hgtk.mp hfront
    rw [turn_isGtk hfront hfits]
    by_cases hroom : 6 ≤ len.toNat ∧ len.toNat ≤ 38
    · rw [if_pos hroom]
      by_cases hshort : len.toNat < 11
      · rw [if_pos hshort]
        exact ⟨fun _ g => nofun, fun hgood => absurd ⟨hleast, htake, .inl hshort⟩ hgood⟩
      · rw [if_neg hshort, gtkIn_of_isGtk hfront hfits hroom.1]
        refine ⟨fun hbad => ?_, fun _ => ⟨_, rfl⟩⟩
        have hlast := hbad.2.2
        omega
    · rw [if_neg hroom]
      refine ⟨fun _ g => nofun, fun hgood => absurd ⟨hleast, htake, ?_⟩ hgood⟩
      omega
  · rw [turn_told (told_of_not_isGtk hfour hfront)]
    refine ⟨fun hbad => ?_, fun _ => ⟨_, rfl⟩⟩
    exact absurd (hgtk.mpr ⟨hbad.1, hbad.2.1⟩) hfront

end Parsing

/-- One side of a handshake: its entry of the other side, and what it sends and receives with. -/
structure Side where
  cfg : Config
  pool : Pool
  mem : Memory
  entry : MAC_TABLE_ENTRY
  link : APCLI_STRUCT
  params : Params

variable (C : Crypto) (aes : BlockCipher 16)

def Side.sends (s : Side) (type : MsgType) : EAPOL_PACKET :=
  sent C aes s.pool s.entry type s.params

def Side.receives (s : Side) (type : MsgType) (Msg : EAPOL_PACKET) :
    Option (Bool × APCLI_STRUCT × List Act) :=
  PeerWpaMessageSanity C aes s.cfg s.mem Buffered.KEYDATA Msg type s.entry s.link

/-- A supplicant answers with the counter of what it answers. -/
def Side.answering (supp auth : Side) : Side :=
  { supp with entry := { supp.entry with R_Counter := auth.entry.R_Counter } }

/-- The two sides share a PTK and agree on the modes, the authenticator asks with a new counter, and
all allocations succeed. -/
structure Paired (auth supp : Side) : Prop where
  PTK : auth.entry.PTK = supp.entry.PTK
  AuthMode : auth.entry.AuthMode = supp.entry.AuthMode
  GroupCipher : supp.link.GroupCipher = auth.params.GroupKeyWepStatus
  cipher : auth.params.GroupKeyWepStatus = .Encryption2Enabled ∨
    auth.params.GroupKeyWepStatus = .Encryption3Enabled
  index : auth.params.DefaultKeyIdx = 1 ∨ auth.params.DefaultKeyIdx = 2
  counter : supp.entry.R_Counter < auth.entry.R_Counter
  authRSNIE : auth.params.RSNIE_Len.toNat ≤ 64
  suppRSNIE : supp.params.RSNIE_Len.toNat ≤ 64
  supplicant : match supp.cfg.OpMode with
    | .AP => supp.entry.EntryType = .APCLI
    | .STA => 0 < supp.cfg.MAX_MBSSID_NUM
  authPool : auth.pool.Grants
  suppPool : supp.pool.Grants
  authMemory : auth.mem.Grants
  suppMemory : supp.mem.Grants

/-- The group key that is sent is in use, with the keys for the MICs exchanged. -/
def GroupKeyAgrees (p : Params) (link : APCLI_STRUCT) : Prop :=
  let sender := groupKey (groupAlg p.GroupKeyWepStatus) true p.GTK.toList (gtkLen p.GroupKeyWepStatus)
  let key := link.SharedKey p.DefaultKeyIdx.toNat
  link.DefaultKeyId = p.DefaultKeyIdx.toNat ∧ key.Key = sender.Key ∧
    (p.GroupKeyWepStatus = .Encryption2Enabled →
      key.TxMic = sender.RxMic ∧ key.RxMic = sender.TxMic)

/-- A message of the authenticator is accepted, and a group key in it installed. -/
def SupplicantUnderstands (auth supp : Side) (type : MsgType) : Prop :=
  ∃ r, supp.receives C aes type (auth.sends C aes type) = some r ∧ r.1 = true ∧
    (hasGroupKey supp.entry type = true → GroupKeyAgrees auth.params r.2.1)

def AuthenticatorAccepts (auth supp : Side) (type : MsgType) : Prop :=
  ∃ r, auth.receives C aes type ((supp.answering auth).sends C aes type) = some r ∧ r.1 = true

def Understood (auth supp : Side) : Prop :=
  (∀ type, type = .EAPOL_PAIR_MSG_3 ∨ type = .EAPOL_GROUP_MSG_1 →
      SupplicantUnderstands C aes auth supp type) ∧
    ∀ type, type.toAuthenticator → AuthenticatorAccepts C aes auth supp type

/-- How long the key data of the third message is before it is padded. -/
def msg3Length (auth : Side) : Nat := (groupKeyData auth.entry .EAPOL_PAIR_MSG_3 auth.params).length

/-- The third message of WPA2 can be read: its RSN element is not taken for a group key of a wrong
length, and what `KEYDATA` held behind the padding does not complete a KDE with one. -/
def Legible (auth supp : Side) : Prop :=
  auth.entry.bWPA2 = true →
    ¬ BadElement auth.params.RSNIE auth.params.RSNIE_Len.toNat ∧
      (keyDescVer auth.entry auth.params.GroupKeyWepStatus = KEY_DESC_AES →
        ¬ PadCompleted (padLen (msg3Length auth))
          (supp.mem.zeroed.drop (msg3Length auth + padLen (msg3Length auth))))

variable {C aes} {auth supp : Side} {type : MsgType}

theorem Paired.bWPA2 (h : Paired auth supp) : supp.entry.bWPA2 = auth.entry.bWPA2 := by
  unfold MAC_TABLE_ENTRY.bWPA2
  rw [h.AuthMode]

theorem Paired.hasGroupKey (h : Paired auth supp) (type : MsgType) :
    hasGroupKey supp.entry type = KeyData.hasGroupKey auth.entry type := by
  unfold KeyData.hasGroupKey
  rw [h.bWPA2]

theorem firstBytes_congr {n : Nat} {as bs : List Byte} (h : ∀ i < n, as.getD i 0 = bs.getD i 0) :
    firstBytes n as = firstBytes n bs := by
  apply Vector.ext
  intro i hi
  simp only [firstBytes, Vector.getElem_ofFn]
  exact h i hi

theorem groupKey_received {cipher : NDIS_802_11_WEP_STATUS} {GTK : GTK} {rest : List Byte} {n m : Nat}
    (hcipher : cipher = .Encryption2Enabled ∨ cipher = .Encryption3Enabled) :
    let key := groupKey (groupAlg cipher) false (GTK.toList.take (gtkLen cipher) ++ rest) n
    let sender := groupKey (groupAlg cipher) true GTK.toList m
    key.Key = sender.Key ∧
      (cipher = .Encryption2Enabled → key.TxMic = sender.RxMic ∧ key.RxMic = sender.TxMic) := by
  have hget : ∀ i < gtkLen cipher,
      (GTK.toList.take (gtkLen cipher) ++ rest).getD i 0 = GTK.toList.getD i 0 := by
    intro i hi
    have hlen : (GTK.toList.take (gtkLen cipher)).length = gtkLen cipher := by
      rw [List.length_take, Vector.length_toList]
      unfold gtkLen
      split <;> rfl
    rw [List.getD_append _ _ _ _ (by omega), List.getD_eq_getElem?_getD, List.getD_eq_getElem?_getD,
      List.getElem?_take, if_pos hi]
  rcases hcipher with rfl | rfl
  · have hlen : gtkLen .Encryption2Enabled = 32 := rfl
    rw [hlen] at hget ⊢
    have hpart : ∀ a, a + 8 ≤ 32 → firstBytes 8 ((GTK.toList.take 32 ++ rest).drop a) =
        firstBytes 8 (GTK.toList.drop a) := by
      intro a ha
      apply firstBytes_congr
      intro i hi
      have hi' := hget (a + i) (by omega)
      simpa [List.getD_eq_getElem?_getD, List.getElem?_drop] using hi'
    refine ⟨firstBytes_congr fun i hi => hget i (by omega), fun _ => ⟨?_, ?_⟩⟩
    · exact hpart 24 (by decide)
    · exact hpart 16 (by decide)
  · exact ⟨firstBytes_congr hget, nofun⟩

theorem installed_agrees (h : Paired auth supp) :
    let r := installGroupKey supp.cfg supp.entry supp.link
      (auth.params.DefaultKeyIdx.toNat,
        auth.params.GTK.toList.take (gtkLen auth.params.GroupKeyWepStatus))
    r.1 = true ∧ GroupKeyAgrees auth.params r.2.1 := by
  have hidx : ¬ auth.params.DefaultKeyIdx.toNat > 3 := by
    rcases h.index with hidx | hidx <;> rw [hidx] <;> decide
  have hsupp := h.supplicant
  have hcipher := h.GroupCipher
  have hlen : (auth.params.GTK.toList.take (gtkLen auth.params.GroupKeyWepStatus)).length =
      gtkLen auth.params.GroupKeyWepStatus := by
    rw [List.length_take, Vector.length_toList]
    unfold gtkLen
    split <;> rfl
  unfold installGroupKey GroupKeyAgrees
  simp only [if_neg hidx]
  cases hop : supp.cfg.OpMode with
  | AP =>
    rw [hop] at hsupp
    have hreceived := @groupKey_received _ auth.params.GTK [] (gtkLen auth.params.GroupKeyWepStatus)
      (gtkLen auth.params.GroupKeyWepStatus) h.cipher
    rw [List.append_nil] at hreceived
    simp only [hsupp, if_true, APCliInstallSharedKey, hcipher]
    rcases h.cipher with htkip | haes
    · rw [htkip] at hlen hreceived ⊢
      have hlong : (auth.params.GTK.toList.take (gtkLen .Encryption2Enabled)).length ≥ 32 := hlen.ge
      rw [if_pos ⟨rfl, hlong⟩]
      simp only [update_self, true_and]
      exact ⟨hreceived.1, fun _ => hreceived.2 rfl⟩
    · rw [haes] at hlen hreceived ⊢
      have hlong : (auth.params.GTK.toList.take (gtkLen .Encryption3Enabled)).length ≥ 16 := hlen.ge
      rw [if_neg (by rintro ⟨hne, -⟩; cases hne), if_pos ⟨rfl, hlong⟩]
      simp only [update_self, true_and]
      exact hreceived
  | STA =>
    rw [hop] at hsupp
    have hmax : ¬ 0 ≥ supp.cfg.MAX_MBSSID_NUM := Nat.not_le_of_lt hsupp
    have halg : groupAlg auth.params.GroupKeyWepStatus ≠ .CIPHER_NONE := by
      rcases h.cipher with htkip | haes
      · rw [htkip]
        decide
      · rw [haes]
        decide
    have hbad : ¬ badGtkLen (groupAlg auth.params.GroupKeyWepStatus)
        (gtkLen auth.params.GroupKeyWepStatus) = true := by
      rcases h.cipher with htkip | haes
      · rw [htkip]
        decide
      · rw [haes]
        decide
    simp only [WPAInstallSharedKey, if_neg hmax, hcipher, if_neg halg, hlen, if_neg hbad, update_self,
      true_and]
    exact groupKey_received h.cipher

theorem receives_sent {s t : Side} (hmem : t.mem.Grants) (hpool : s.pool.Grants)
    (hptk : s.entry.PTK = t.entry.PTK) (htype : type ≠ .EAPOL_PAIR_MSG_1)
    (hreplay : bReplayDiff t.entry type (s.sends C aes type) = false) :
    t.receives C aes type (s.sends C aes type) =
      processKeyData aes t.cfg t.mem Buffered.KEYDATA (s.sends C aes type) type t.entry t.link :=
  sanity_processed hmem.keydata hreplay (micDiff_sent hpool hptk htype)

theorem length_rsnElement_le {p : Params} (hlen : p.RSNIE_Len.toNat ≤ 64) :
    (rsnElement type p).length ≤ 66 := by
  unfold rsnElement
  split
  · unfold RTMPInsertRSNIE
    split
    · rw [List.length_append, List.length_take, List.length_cons, List.length_cons, List.length_nil]
      omega
    · exact Nat.zero_le _
  · exact Nat.zero_le _

theorem plain_sent {pool : Pool} {e : MAC_TABLE_ENTRY} {p : Params} (hpool : pool.Grants)
    (hlen : p.RSNIE_Len.toNat ≤ 64) (htype : type = .EAPOL_PAIR_MSG_2 ∨ type = .EAPOL_PAIR_MSG_3)
    (hkey : hasGroupKey e type = false) :
    (sent C aes pool e type p).KeyDesc.KeyDataLen.toNat ≤ (keyDataOf (sent C aes pool e type p)).length ∧
      (sent C aes pool e type p).KeyDesc.KeyDataLen.toNat ≤ MAX_LEN_OF_RSNIE := by
  have hne : type ≠ .EAPOL_PAIR_MSG_1 := by
    rcases htype with rfl | rfl <;> nofun
  have hother : ¬ (type = .EAPOL_PAIR_MSG_1 ∨ type = .EAPOL_PAIR_MSG_4 ∨
      type = .EAPOL_GROUP_MSG_2) := by
    rcases htype with rfl | rfl <;> simp
  have hgroup : ¬ ((type = .EAPOL_PAIR_MSG_3 ∧ e.bWPA2 = true) ∨ type = .EAPOL_GROUP_MSG_1) := by
    simpa [hasGroupKey] using hkey
  have hrsn := @length_rsnElement_le type p hlen
  have hlen' : (rsnElement type p).length ≤ 512 := by omega
  obtain ⟨m, hm⟩ := @sent_setKeyMic C aes pool e type p hpool hne
  have hdata := @keyDataOf_set (header e type p) (rsnElement type p) rfl hlen'
  have hdatalen := @keyDataLen_set (header e type p) (rsnElement type p) hlen'
  rw [hm, ConstructEapolKeyData, if_neg hother, if_neg (by rw [hpool.mpool]; decide)]
  simp only [if_neg hgroup]
  change (setKeyData (header e type p) (rsnElement type p)).KeyDesc.KeyDataLen.toNat ≤
      (keyDataOf (setKeyData (header e type p) (rsnElement type p))).length ∧
    (setKeyData (header e type p) (rsnElement type p)).KeyDesc.KeyDataLen.toNat ≤ 255
  rw [hdata, hdatalen]
  exact ⟨Nat.le_refl _, by omega⟩

theorem receives_plain {s t : Side} (hmem : t.mem.Grants) (hpool : s.pool.Grants)
    (hptk : s.entry.PTK = t.entry.PTK) (hlen : s.params.RSNIE_Len.toNat ≤ 64)
    (htype : type ≠ .EAPOL_PAIR_MSG_1) (hkey : hasGroupKey s.entry type = false)
    (hkey' : hasGroupKey t.entry type = false)
    (hreplay : bReplayDiff t.entry type (s.sends C aes type) = false) :
    t.receives C aes type (s.sends C aes type) = some (true, t.link, []) := by
  rw [receives_sent hmem hpool hptk htype hreplay, process_plain hkey', if_pos]
  intro hplain
  exact plain_sent hpool hlen hplain hkey

theorem accepts (h : Paired auth supp) (htype : type.toAuthenticator) :
    AuthenticatorAccepts C aes auth supp type := by
  have hne : type ≠ .EAPOL_PAIR_MSG_1 := by
    rcases htype with rfl | rfl | rfl <;> nofun
  have hkey : ∀ e, hasGroupKey e type = false := by
    intro e
    rcases htype with rfl | rfl | rfl <;> simp [hasGroupKey]
  obtain ⟨-, -, hcounter⟩ := @sent_fields C aes supp.pool (supp.answering auth).entry type supp.params
    h.suppPool hne
  have hreplay : bReplayDiff auth.entry type ((supp.answering auth).sends C aes type) = false := by
    rcases htype with rfl | rfl | rfl <;>
      exact decide_eq_false fun hdiff => hdiff hcounter
  exact ⟨_, @receives_plain C aes type (supp.answering auth) auth h.authMemory h.suppPool h.PTK.symm
    h.suppRSNIE hne (hkey _) (hkey _) hreplay, rfl⟩

theorem bReplayDiff_asked (h : Paired auth supp)
    (htype : type = .EAPOL_PAIR_MSG_3 ∨ type = .EAPOL_GROUP_MSG_1) :
    bReplayDiff supp.entry type (auth.sends C aes type) = false := by
  have hne : type ≠ .EAPOL_PAIR_MSG_1 := by
    rcases htype with rfl | rfl <;> nofun
  obtain ⟨-, -, hcounter⟩ := @sent_fields C aes auth.pool auth.entry type auth.params h.authPool hne
  have hless : supp.entry.R_Counter < (auth.sends C aes type).KeyDesc.ReplayCounter :=
    lt_of_lt_of_eq h.counter hcounter.symm
  rcases htype with rfl | rfl <;> exact decide_eq_false fun hdiff => hdiff.1 hless

theorem index_lt (h : Paired auth supp) : auth.params.DefaultKeyIdx.toNat < 4 := by
  rcases h.index with hidx | hidx <;> rw [hidx] <;> decide

theorem padLen_gtk (cipher : NDIS_802_11_WEP_STATUS) (n : Nat) : padLen (n + gtkLen cipher) = padLen n := by
  unfold padLen gtkLen
  split
  · show (8 - (n + 16) % 8) % 8 = _
    omega
  · show (8 - (n + 32) % 8) % 8 = _
    omega

def padded (e : MAC_TABLE_ENTRY) (type : MsgType) (p : Params) : Nat :=
  if keyDescVer e p.GroupKeyWepStatus = KEY_DESC_AES then padLen (groupKeyData e type p).length else 0

theorem plain_eq (e : MAC_TABLE_ENTRY) (type : MsgType) (p : Params) :
    plainKeyData (keyDescVer e p.GroupKeyWepStatus) (groupKeyData e type p) =
      groupKeyData e type p ++ padding (padded e type p) := by
  unfold plainKeyData padded
  split
  · rfl
  · exact (List.append_nil _).symm

theorem length_padding (n : Nat) : (padding n).length = n := by
  unfold padding
  split
  · next h => rw [h]; rfl
  · rw [List.length_cons, List.length_replicate]
    omega

theorem padded_le (e : MAC_TABLE_ENTRY) (type : MsgType) (p : Params) : padded e type p < 8 := by
  unfold padded padLen
  split <;> omega

theorem length_groupKeyData_le {e : MAC_TABLE_ENTRY} {p : Params} (hlen : p.RSNIE_Len.toNat ≤ 64) :
    (groupKeyData e type p).length ≤ 106 := by
  have hrsn := @length_rsnElement_le type p hlen
  have hgtk := length_encapsulatedGtk e p.GroupKeyWepStatus p.DefaultKeyIdx p.GTK
  have hmost : gtkLen p.GroupKeyWepStatus ≤ 32 := by
    unfold gtkLen
    split <;> decide
  rw [groupKeyData, List.length_append, hgtk]
  split <;> omega

theorem length_zeroed (mem : Memory) : mem.zeroed.length = 255 := by
  simp [Memory.zeroed]

def behind (auth supp : Side) (type : MsgType) : List Byte :=
  supp.mem.zeroed.drop ((groupKeyData auth.entry type auth.params).length +
    padded auth.entry type auth.params)

theorem length_behind (h : Paired auth supp) : 4 ≤ (behind auth supp type).length := by
  have hlen := @length_groupKeyData_le type auth.entry _ h.authRSNIE
  have hpad := padded_le auth.entry type auth.params
  unfold behind
  rw [List.length_drop, length_zeroed]
  omega

theorem receives_group (h : Paired auth supp) (htype : type = .EAPOL_PAIR_MSG_3 ∨ type = .EAPOL_GROUP_MSG_1)
    (hkey : hasGroupKey auth.entry type = true) :
    supp.receives C aes type (auth.sends C aes type) =
      RTMPParseEapolKeyData supp.cfg
        (groupKeyData auth.entry type auth.params ++
          (padding (padded auth.entry type auth.params) ++ behind auth supp type))
        ((groupKeyData auth.entry type auth.params).length + padded auth.entry type auth.params)
        (groupKeyIndex supp.entry type (auth.sends C aes type)) type supp.entry supp.link := by
  have hne : type ≠ .EAPOL_PAIR_MSG_1 := by
    rcases htype with rfl | rfl <;> nofun
  have hlen := @length_groupKeyData_le type auth.entry _ h.authRSNIE
  have hpad := padded_le auth.entry type auth.params
  have hplain : (groupKeyData auth.entry type auth.params ++
      padding (padded auth.entry type auth.params)).length =
        (groupKeyData auth.entry type auth.params).length + padded auth.entry type auth.params := by
    rw [List.length_append, length_padding]
  have hprocess := @process_group C aes auth.pool supp.mem auth.entry supp.entry type auth.params
    supp.cfg supp.link h.authPool h.suppMemory h.PTK hkey ((h.hasGroupKey type).trans hkey) _
    (plain_eq auth.entry type auth.params) (by
      rw [hplain]
      show _ ≤ 255
      omega)
  rw [hplain, List.append_assoc] at hprocess
  rw [receives_sent h.suppMemory h.authPool h.PTK hne (bReplayDiff_asked h htype)]
  exact hprocess

def Obstructed (auth supp : Side) (type : MsgType) : Prop :=
  (type = .EAPOL_PAIR_MSG_3 ∧ BadElement auth.params.RSNIE auth.params.RSNIE_Len.toNat) ∨
    PadCompleted (padded auth.entry type auth.params) (behind auth supp type)

theorem kdeLoop_rsnElement {KeyDataLength : Byte} {tail : List Byte} {found : Found} {p : Params}
    (htype : type = .EAPOL_PAIR_MSG_3 ∨ type = .EAPOL_GROUP_MSG_1) (hlen : p.RSNIE_Len.toNat ≤ 64)
    (htail : ∃ bs, tail = WPA_KDE_TYPE :: bs ∧ 3 ≤ bs.length)
    (h : (rsnElement type p).length ≤ KeyDataLength.toNat) :
    (type = .EAPOL_PAIR_MSG_3 ∧ BadElement p.RSNIE p.RSNIE_Len.toNat →
        ∀ g, kdeLoop KeyDataLength 0 (rsnElement type p ++ tail) found ≠ some (some g)) ∧
      (¬ (type = .EAPOL_PAIR_MSG_3 ∧ BadElement p.RSNIE p.RSNIE_Len.toNat) →
        ∃ found', kdeLoop KeyDataLength 0 (rsnElement type p ++ tail) found =
          kdeLoop KeyDataLength (rsnElement type p).length tail found') := by
  by_cases hrsn : p.RSNIE_Len ≠ 0 ∧ (type = .EAPOL_PAIR_MSG_2 ∨ type = .EAPOL_PAIR_MSG_3)
  · have helement : rsnElement type p = RTMPInsertRSNIE p.RSNIE p.RSNIE_Len := if_pos hrsn
    have hmsg3 : type = .EAPOL_PAIR_MSG_3 := by
      rcases htype with rfl | rfl
      · rfl
      · simp at hrsn
    have hlength : (RTMPInsertRSNIE p.RSNIE p.RSNIE_Len).length = 0 + 2 + p.RSNIE_Len.toNat := by
      rw [RTMPInsertRSNIE, if_pos hrsn.1, List.length_append, List.length_take, Vector.length_toList,
        Nat.min_eq_left (by omega)]
      rfl
    rw [helement, hlength] at h
    obtain ⟨hbad, hgood⟩ := @kdeLoop_rsn KeyDataLength 0 tail found p.RSNIE _ hrsn.1 hlen htail h
    rw [helement, hlength]
    exact ⟨fun hbad' => hbad hbad'.2, fun hgood' => hgood fun hbad' => hgood' ⟨hmsg3, hbad'⟩⟩
  · have helement : rsnElement type p = [] := if_neg hrsn
    rw [helement]
    refine ⟨?_, fun _ => ⟨found, rfl⟩⟩
    rintro ⟨hmsg3, hleast, -⟩
    apply absurd _ hrsn
    refine ⟨?_, .inr hmsg3⟩
    intro hzero
    rw [hzero] at hleast
    exact absurd hleast (by decide)

theorem kdeLoop_received (h : Paired auth supp) (hwpa2 : auth.entry.bWPA2 = true)
    (htype : type = .EAPOL_PAIR_MSG_3 ∨ type = .EAPOL_GROUP_MSG_1) {KeyDataLength : Byte}
    (hlength : KeyDataLength.toNat = (groupKeyData auth.entry type auth.params).length +
      padded auth.entry type auth.params) :
    let found := kdeLoop KeyDataLength 0 (groupKeyData auth.entry type auth.params ++
      (padding (padded auth.entry type auth.params) ++ behind auth supp type)) (0, [])
    (Obstructed auth supp type → ∀ g, found ≠ some (some g)) ∧
      (¬ Obstructed auth supp type → found = some (some (auth.params.DefaultKeyIdx.toNat,
        auth.params.GTK.toList.take (gtkLen auth.params.GroupKeyWepStatus)))) := by
  have hgtk := length_encapsulatedGtk auth.entry auth.params.GroupKeyWepStatus
    auth.params.DefaultKeyIdx auth.params.GTK
  rw [if_pos hwpa2] at hgtk
  rw [groupKeyData, List.length_append, hgtk] at hlength
  have htail : ∃ bs, encapsulatedGtk auth.entry auth.params.GroupKeyWepStatus
      auth.params.DefaultKeyIdx auth.params.GTK ++ (padding (padded auth.entry type auth.params) ++
        behind auth supp type) = WPA_KDE_TYPE :: bs ∧ 3 ≤ bs.length := by
    rw [encapsulatedGtk, if_pos hwpa2]
    refine ⟨_, rfl, ?_⟩
    simp [OUI_WPA2]
  obtain ⟨hbad, hgood⟩ := @kdeLoop_rsnElement type KeyDataLength _ (0, []) auth.params htype h.authRSNIE
    htail (by omega)
  intro found
  have hfound : found = kdeLoop KeyDataLength 0 (rsnElement type auth.params ++ (encapsulatedGtk
      auth.entry auth.params.GroupKeyWepStatus auth.params.DefaultKeyIdx auth.params.GTK ++
        (padding (padded auth.entry type auth.params) ++ behind auth supp type))) (0, []) := by
    unfold found groupKeyData
    rw [List.append_assoc]
  rw [hfound]
  by_cases hfront : type = .EAPOL_PAIR_MSG_3 ∧
      BadElement auth.params.RSNIE auth.params.RSNIE_Len.toNat
  · exact ⟨fun _ => hbad hfront, fun hclear => absurd (.inl hfront) hclear⟩
  · obtain ⟨found', hpassed⟩ := hgood hfront
    obtain ⟨hcompleted, hdone⟩ := @kdeLoop_gtk_padding KeyDataLength
      (rsnElement type auth.params).length (padded auth.entry type auth.params)
      (behind auth supp type) found' auth.entry auth.params.GroupKeyWepStatus
      auth.params.DefaultKeyIdx auth.params.GTK hwpa2 (by omega) (length_behind h)
    rw [Nat.mod_eq_of_lt (index_lt h)] at hdone
    rw [hpassed]
    constructor
    · rintro (hfront' | hpad) g
      · exact absurd hfront' hfront
      · rw [hcompleted hpad]
        exact (Option.some_ne_none _).symm
    · exact fun hclear => hdone fun hpad => hclear (.inr hpad)

theorem understands_wpa2_iff (h : Paired auth supp) (hwpa2 : auth.entry.bWPA2 = true)
    (htype : type = .EAPOL_PAIR_MSG_3 ∨ type = .EAPOL_GROUP_MSG_1) :
    SupplicantUnderstands C aes auth supp type ↔ ¬ Obstructed auth supp type := by
  have hkey : hasGroupKey auth.entry type = true := by
    rcases htype with rfl | rfl <;> simp [hasGroupKey, hwpa2]
  have hkey' := (h.hasGroupKey type).trans hkey
  have hmost := @length_groupKeyData_le type auth.entry _ h.authRSNIE
  have hpad := padded_le auth.entry type auth.params
  obtain ⟨hbad, hgood⟩ := @kdeLoop_received auth supp type h hwpa2 htype
    (BitVec.ofNat 8 ((groupKeyData auth.entry type auth.params).length +
      padded auth.entry type auth.params)) (by
    rw [BitVec.toNat_ofNat, Nat.mod_eq_of_lt (by omega)])
  unfold SupplicantUnderstands
  rw [receives_group h htype hkey, parse_wpa2 (h.bWPA2.trans hwpa2) hkey']
  by_cases hobstructed : Obstructed auth supp type
  · apply iff_of_false
    · rintro ⟨r, hr, hok, -⟩
      obtain ⟨found, hfound, rfl⟩ := Option.map_eq_some_iff.mp hr
      cases found with
      | none => cases hok
      | some g => exact hbad hobstructed g hfound
    · exact fun hclear => hclear hobstructed
  · rw [hgood hobstructed]
    obtain ⟨hok, hagrees⟩ := installed_agrees h
    exact iff_of_true ⟨_, rfl, hok, fun _ => hagrees⟩ hobstructed

theorem understands_wpa1_group (h : Paired auth supp) (hwpa2 : auth.entry.bWPA2 = false) :
    SupplicantUnderstands C aes auth supp .EAPOL_GROUP_MSG_1 := by
  have hkey : hasGroupKey auth.entry .EAPOL_GROUP_MSG_1 = true := by simp [hasGroupKey]
  have hkey' := (h.hasGroupKey .EAPOL_GROUP_MSG_1).trans hkey
  have hdata : groupKeyData auth.entry .EAPOL_GROUP_MSG_1 auth.params =
      auth.params.GTK.toList.take (gtkLen auth.params.GroupKeyWepStatus) := by
    have hrsn : rsnElement .EAPOL_GROUP_MSG_1 auth.params = [] := if_neg (by simp)
    rw [groupKeyData, hrsn, encapsulatedGtk, hwpa2]
    rfl
  have hsmall : gtkLen auth.params.GroupKeyWepStatus = 16 ∨
      gtkLen auth.params.GroupKeyWepStatus = 32 := by
    unfold gtkLen
    split
    · exact .inl rfl
    · exact .inr rfl
  have hlen : (auth.params.GTK.toList.take (gtkLen auth.params.GroupKeyWepStatus)).length =
      gtkLen auth.params.GroupKeyWepStatus := by
    rw [List.length_take, Vector.length_toList]
    omega
  have hpad : padded auth.entry .EAPOL_GROUP_MSG_1 auth.params = 0 := by
    rw [padded, hdata, hlen]
    unfold padLen
    split
    · omega
    · rfl
  have hindex : groupKeyIndex supp.entry .EAPOL_GROUP_MSG_1
      (auth.sends C aes .EAPOL_GROUP_MSG_1) = auth.params.DefaultKeyIdx.toNat := by
    obtain ⟨hinfo, -, -⟩ := @sent_fields C aes auth.pool auth.entry .EAPOL_GROUP_MSG_1 auth.params
      h.authPool (by decide)
    have hfill : (header auth.entry .EAPOL_GROUP_MSG_1 auth.params).KeyDesc.KeyInfo.KeyIndex =
        auth.params.DefaultKeyIdx.setWidth 2 := by
      show (fillKeyInfo auth.entry.bWPA2 _ _ _ ⟨0, 0⟩).KeyIndex = _
      rw [hwpa2]
      exact keyIndex_fill _ _
    rw [groupKeyIndex, if_pos ⟨h.bWPA2.trans hwpa2, rfl⟩, Side.sends, hinfo, hfill,
      BitVec.toNat_setWidth]
    exact Nat.mod_eq_of_lt (index_lt h)
  have hcopy : copyGtk (auth.params.GTK.toList.take (gtkLen auth.params.GroupKeyWepStatus) ++
      (padding 0 ++ behind auth supp .EAPOL_GROUP_MSG_1))
        (gtkLen auth.params.GroupKeyWepStatus) =
      some (auth.params.GTK.toList.take (gtkLen auth.params.GroupKeyWepStatus)) := by
    have hslice : slice (auth.params.GTK.toList.take (gtkLen auth.params.GroupKeyWepStatus) ++
        (padding 0 ++ behind auth supp .EAPOL_GROUP_MSG_1))
          (gtkLen auth.params.GroupKeyWepStatus) =
        some (auth.params.GTK.toList.take (gtkLen auth.params.GroupKeyWepStatus)) := by
      rw [slice, if_pos (by rw [List.length_append, hlen]; omega), List.take_left' hlen]
    rw [copyGtk, hslice]
    simp only [Option.bind_eq_bind, Option.bind_some]
    exact if_pos (by unfold MAX_LEN_GTK; omega)
  obtain ⟨hok, hagrees⟩ := installed_agrees h
  have hmod : (BitVec.ofNat 8 (gtkLen auth.params.GroupKeyWepStatus)).toNat =
      gtkLen auth.params.GroupKeyWepStatus := by
    rw [BitVec.toNat_ofNat, Nat.mod_eq_of_lt (by omega)]
  refine ⟨_, ?_, hok, fun _ => hagrees⟩
  rw [receives_group h (.inr rfl) hkey, parse_wpa1 (h.bWPA2.trans hwpa2) hkey', hdata, hpad, hlen,
    hindex, Nat.add_zero, hmod, hcopy]
  rfl

theorem understands_wpa1_msg3 (h : Paired auth supp) (hwpa2 : auth.entry.bWPA2 = false) :
    SupplicantUnderstands C aes auth supp .EAPOL_PAIR_MSG_3 := by
  have hkey : hasGroupKey auth.entry .EAPOL_PAIR_MSG_3 = false := by simp [hasGroupKey, hwpa2]
  have hkey' := (h.hasGroupKey .EAPOL_PAIR_MSG_3).trans hkey
  refine ⟨_, receives_plain h.suppMemory h.authPool h.PTK h.authRSNIE (by decide) hkey hkey'
    (bReplayDiff_asked h (.inl rfl)), rfl, ?_⟩
  intro hgroup
  rw [hkey'] at hgroup
  cases hgroup

theorem not_obstructed_group (hwpa2 : auth.entry.bWPA2 = true) :
    ¬ Obstructed auth supp .EAPOL_GROUP_MSG_1 := by
  have hpad : padded auth.entry .EAPOL_GROUP_MSG_1 auth.params = 0 := by
    have hrsn : rsnElement .EAPOL_GROUP_MSG_1 auth.params = [] := if_neg (by simp)
    have hlen := length_encapsulatedGtk auth.entry auth.params.GroupKeyWepStatus
      auth.params.DefaultKeyIdx auth.params.GTK
    rw [if_pos hwpa2] at hlen
    rw [padded, groupKeyData, hrsn, List.nil_append, hlen, padLen_gtk]
    split
    · rfl
    · rfl
  rintro (⟨hmsg3, -⟩ | ⟨hleast, -⟩)
  · cases hmsg3
  · rw [hpad] at hleast
    exact absurd hleast (by decide)

theorem legible_iff : Legible auth supp ↔
    (auth.entry.bWPA2 = true → ¬ Obstructed auth supp .EAPOL_PAIR_MSG_3) := by
  unfold Legible Obstructed behind padded msg3Length
  apply forall_congr'
  intro _
  by_cases haes : keyDescVer auth.entry auth.params.GroupKeyWepStatus = KEY_DESC_AES
  · simp [haes]
  · simp [haes, PadCompleted]

/-- When the two sides of a handshake understand each other. -/
theorem understood_iff (h : Paired auth supp) : Understood C aes auth supp ↔ Legible auth supp := by
  rw [legible_iff]
  constructor
  · intro hunderstood hwpa2
    exact (understands_wpa2_iff h hwpa2 (.inl rfl)).mp (hunderstood.1 _ (.inl rfl))
  · intro hlegible
    refine ⟨?_, fun type htype => accepts h htype⟩
    cases hwpa2 : auth.entry.bWPA2 with
    | false =>
      rintro type (rfl | rfl)
      · exact understands_wpa1_msg3 h hwpa2
      · exact understands_wpa1_group h hwpa2
    | true =>
      rintro type (rfl | rfl)
      · exact (understands_wpa2_iff h hwpa2 (.inl rfl)).mpr (hlegible hwpa2)
      · exact (understands_wpa2_iff h hwpa2 (.inr rfl)).mpr (not_obstructed_group hwpa2)

/-- `KEYDATA` with the start of a group key KDE at offset 48. -/
def usedBuffer : List Byte :=
  List.replicate 48 0 ++ [0x00, 0x0F, 0xAC, 0x01] ++ List.replicate 203 0

theorem length_usedBuffer : usedBuffer.length = 255 := by
  rw [usedBuffer, List.length_append, List.length_append, List.length_replicate, List.length_replicate]
  rfl

def usedMemory : Memory where
  keydata := true
  KEYDATA := ⟨usedBuffer.toArray, length_usedBuffer⟩
  alloc _ := true
  arc4 := true

/-- An RSN element of 20 bytes: CCMP for both ciphers and a preshared key. -/
def pskElement : List Byte :=
  [0x01, 0x00, 0x00, 0x0F, 0xAC, 0x04, 0x01, 0x00, 0x00, 0x0F, 0xAC, 0x04, 0x01, 0x00, 0x00, 0x0F,
    0xAC, 0x02, 0x00, 0x00] ++ List.replicate 235 0

theorem length_pskElement : pskElement.length = 255 := by
  rw [pskElement, List.length_append, List.length_replicate]
  rfl

def pskParams : Params where
  GroupKeyWepStatus := .Encryption3Enabled
  DefaultKeyIdx := 1
  KeyNonce := Vector.replicate 32 0
  TxRSC := Vector.replicate 6 0
  GTK := Vector.replicate 32 7
  RSNIE := ⟨pskElement.toArray, length_pskElement⟩
  RSNIE_Len := 20

def pskEntry (R_Counter : BitVec 64) : MAC_TABLE_ENTRY :=
  { (default : MAC_TABLE_ENTRY) with
    AuthMode := .WPA2PSK, WepStatus := .Encryption3Enabled, R_Counter }

def pskSide (OpMode : OpMode) (R_Counter : BitVec 64) : Side where
  cfg := { (default : Config) with OpMode, MAX_MBSSID_NUM := 1 }
  pool := ⟨true, fun _ => 0, fun _ => true, true, true⟩
  mem := usedMemory
  entry := pskEntry R_Counter
  link := { (default : APCLI_STRUCT) with GroupCipher := .Encryption3Enabled }
  params := pskParams

theorem paired_psk : Paired (pskSide .AP 1) (pskSide .STA 0) where
  PTK := rfl
  AuthMode := rfl
  GroupCipher := rfl
  cipher := .inr rfl
  index := .inl rfl
  counter := by decide
  authRSNIE := by decide
  suppRSNIE := by decide
  supplicant := Nat.one_pos
  authPool := ⟨rfl, fun _ _ => rfl, rfl, rfl⟩
  suppPool := ⟨rfl, fun _ _ => rfl, rfl, rfl⟩
  authMemory := ⟨rfl, fun _ _ => rfl, rfl⟩
  suppMemory := ⟨rfl, fun _ _ => rfl, rfl⟩

/-- The two bytes of padding and the four bytes behind them are taken for a group key of 250
bytes. -/
theorem psk_msg3_obstructed : Paired (pskSide .AP 1) (pskSide .STA 0) ∧
    ¬ Understood default aesCipher (pskSide .AP 1) (pskSide .STA 0) := by
  refine ⟨paired_psk, ?_⟩
  rintro ⟨hunderstood, -⟩
  have hclear := (understands_wpa2_iff paired_psk rfl (.inl rfl)).mp (hunderstood _ (.inl rfl))
  exact hclear (.inr ⟨by decide +kernel, by decide +kernel⟩)

theorem understood_iff_psk :
    Understood default aesCipher (pskSide .AP 1) (pskSide .STA 0) ↔
      Legible (pskSide .AP 1) (pskSide .STA 0) :=
  understood_iff paired_psk

end Ralink.Wpa.KeyData
