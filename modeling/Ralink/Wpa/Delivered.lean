import Ralink.Wpa.Construct
import Ralink.Wpa.KeyDecrypt

/-! The MIC of a frame from `ConstructEapolMsg` is the one that is expected, and its key data is
decrypted to what it was made from. -/
namespace Ralink.Wpa.KeyData
open ByteStore Sized Cipher Crypt

def TX_EAPOL_BUFFER : Nat := 1500

def zeroFrame : EAPOL_PACKET where
  ProVer := 0
  ProType := 0
  Body_Len := 0
  KeyDesc :=
    { DescType := 0, KeyInfo := ⟨0, 0⟩, KeyLength := #v[0, 0], ReplayCounter := 0
      KeyNonce := Vector.replicate 32 0, KeyIv := Vector.replicate 16 0
      KeyRsc := Vector.replicate 8 0, KeyId := Vector.replicate 8 0
      KeyMic := Vector.replicate 16 0, KeyDataLen := 0
      KeyData := List.replicate (TX_EAPOL_BUFFER - (LENGTH_EAPOL_H + MIN_LEN_OF_EAPOL_KEY_MSG)) 0 }

/-- All that the sender asks for is allocated. -/
structure Pool.Grants (pool : Pool) : Prop where
  mpool : pool.mpool = true
  alloc : ∀ len, len ≤ 512 → pool.alloc len = true
  arc4 : pool.arc4 = true
  OutBuffer : pool.OutBuffer = true

/-- All that the receiver asks for is allocated. -/
structure Memory.Grants (mem : Memory) : Prop where
  keydata : mem.keydata = true
  alloc : ∀ len, len ≤ 512 → mem.alloc len = true
  arc4 : mem.arc4 = true

variable {C : Crypto} {aes : BlockCipher 16} {pool : Pool} {mem : Memory}
  {auth supp e : MAC_TABLE_ENTRY} {type : MsgType} {pMsg : EAPOL_PACKET}

@[simp] theorem bytes_octets (bs : List Byte) : bytes (octets bs) = bs := by
  rw [bytes, octets, List.map_map]
  exact List.map_id bs

@[simp] theorem octets_bytes (bs : List UInt8) : octets (bytes bs) = bs := by
  rw [bytes, octets, List.map_map]
  exact List.map_id bs

theorem octets_halves {IV pResult : List UInt8} (hIV : IV.length = 8) :
    octets ((bytes (IV ++ pResult)).take 8) = IV ∧
      octets ((bytes (IV ++ pResult)).drop 8) = pResult := by
  constructor
  · rw [bytes, ← List.map_take, List.take_left' hIV]
    exact octets_bytes IV
  · rw [bytes, ← List.map_drop, List.drop_left' hIV]
    exact octets_bytes pResult

theorem length_KEK (ptk : PTK) : (octets (KEK ptk)).length = 16 := by
  simp [octets, KEK]

theorem micDiff_calculated {ver : BitVec 3} (hbuf : pool.OutBuffer = true)
    (hver : pMsg.KeyDesc.KeyInfo.KeyDescVer = ver) (hdesc : ver = KEY_DESC_AES ∨ ver = KEY_DESC_TKIP)
    (hmic : pMsg.KeyDesc.KeyMic = Vector.replicate 16 0) :
    micDiff C e type (CalculateMIC C pool ver e.PTK pMsg) = false := by
  have hset : CalculateMIC C pool ver e.PTK pMsg =
      setKeyMic pMsg (mic C ver e.PTK (pMsg.bytes.take pMsg.eapol_len)) :=
    if_neg (by rw [hbuf]; decide)
  have hclear : ∀ m, (setKeyMic pMsg m).clearMic = pMsg := by
    intro m
    unfold setKeyMic EAPOL_PACKET.clearMic
    rw [← hmic]
  have hframe : ∀ m, frameMic C e.PTK (setKeyMic pMsg m) =
      mic C ver e.PTK (pMsg.bytes.take pMsg.eapol_len) := by
    intro m
    have hinfo : (setKeyMic pMsg m).KeyDesc.KeyInfo.KeyDescVer = ver := hver
    have hlen : (setKeyMic pMsg m).eapol_len = pMsg.eapol_len := rfl
    unfold frameMic
    rw [hclear, hinfo, hlen]
    rcases hdesc with rfl | rfl
    · rfl
    · rfl
  rw [micDiff, hset, hframe]
  simp [setKeyMic]

theorem keyDataOf_set {data : List Byte} (hbody : pMsg.Body_Len = BitVec.ofNat 16 MIN_LEN_OF_EAPOL_KEY_MSG)
    (hlen : data.length ≤ 512) : keyDataOf (setKeyData pMsg data) = data := by
  have htotal : (setKeyData pMsg data).Body_Len.toNat - MIN_LEN_OF_EAPOL_KEY_MSG = data.length := by
    simp only [setKeyData, hbody, MIN_LEN_OF_EAPOL_KEY_MSG, BitVec.toNat_add, BitVec.toNat_ofNat]
    omega
  unfold keyDataOf
  rw [htotal]
  exact List.take_left

theorem keyDataLen_set {data : List Byte} (hlen : data.length ≤ 512) :
    (setKeyData pMsg data).KeyDesc.KeyDataLen.toNat = data.length := by
  show (BitVec.ofNat 16 data.length).toNat = data.length
  rw [BitVec.toNat_ofNat, Nat.mod_eq_of_lt (by omega)]

def plainKeyData (ver : BitVec 3) (Key_Data : List Byte) : List Byte :=
  if ver = KEY_DESC_AES then Key_Data ++ padding (padLen Key_Data.length) else Key_Data

def wrapped (aes : BlockCipher 16) (ptk : PTK) (text : List Byte) : Registers :=
  wrapLoops aes (octets (KEK ptk)) (text.length / 8) ⟨Default_IV, octets text⟩

theorem whole_text (text : List Byte) :
    Whole (text.length / 8) text.length ⟨Default_IV, octets text⟩ :=
  ⟨rfl, length_octets text, Nat.div_mul_le_self _ 8⟩

theorem length_wrapped (ptk : PTK) (text : List Byte) :
    (wrapped aes ptk text).IV.length = 8 ∧ (wrapped aes ptk text).pResult.length = text.length := by
  have hwhole := @Whole.wrapLoops aes (octets (KEK ptk)) _ _ _ (whole_text text)
  exact ⟨hwhole.IV, hwhole.pResult⟩

theorem encrypted_aes {Key_Data : List Byte} {KeyIv : Vector Byte 16} (hpool : pool.Grants)
    (hlen : (plainKeyData KEY_DESC_AES Key_Data).length ≤ 400) :
    encryptedKeyData aes pool e KEY_DESC_AES KeyIv Key_Data =
      bytes ((wrapped aes e.PTK (plainKeyData KEY_DESC_AES Key_Data)).IV ++
        (wrapped aes e.PTK (plainKeyData KEY_DESC_AES Key_Data)).pResult) := by
  have hplain : plainKeyData KEY_DESC_AES Key_Data = Key_Data ++ padding (padLen Key_Data.length) :=
    if_pos rfl
  rw [encryptedKeyData, if_pos rfl]
  simp only
  rw [← hplain]
  generalize plainKeyData KEY_DESC_AES Key_Data = text at hlen
  have htoNat : (UInt32.ofNat text.length).toNat = text.length := UInt32.toNat_ofNat_of_lt' (by
    show text.length < 2 ^ 32
    omega)
  have hmem : pool.alloc (UInt32.ofNat text.length) = true := by
    apply hpool.alloc
    rw [UInt32.le_iff_toNat_le, htoNat]
    show text.length ≤ 512
    omega
  have hsum : (UInt32.ofNat text.length + 8).toNat = 8 + text.length := by
    rw [UInt32.toNat_add, htoNat]
    show (text.length + 8) % 2 ^ 32 = 8 + text.length
    omega
  have hregs : plainRegisters (writeBytes (fun _ => 0) 0 (octets text)) text.length =
      ⟨Default_IV, octets text⟩ := by
    have hread := readBytes_writeBytes (fun _ => 0) 0 (octets text)
    rw [length_octets] at hread
    rw [plainRegisters, hread]
  obtain ⟨hIV, hpResult⟩ := @length_wrapped aes e.PTK text
  have hread := readBytes_writeBytes pool.eGTK 0
    ((wrapped aes e.PTK text).IV ++ (wrapped aes e.PTK text).pResult)
  rw [List.length_append, hIV, hpResult] at hread
  rw [wrap_eq (.inl (length_KEK e.PTK)) hmem, htoNat, hregs, hsum]
  exact congrArg bytes hread

section RoundTrip

variable {ver : BitVec 3} {Key_Data : List Byte} {KeyIv : Vector Byte 16}

theorem length_encrypted (hpool : pool.Grants) (hlen : (plainKeyData ver Key_Data).length ≤ 400) :
    (encryptedKeyData aes pool e ver KeyIv Key_Data).length =
      (plainKeyData ver Key_Data).length + if ver = KEY_DESC_AES then 8 else 0 := by
  by_cases hver : ver = KEY_DESC_AES
  · subst hver
    obtain ⟨hIV, hpResult⟩ := @length_wrapped aes e.PTK (plainKeyData KEY_DESC_AES Key_Data)
    rw [encrypted_aes hpool hlen, length_bytes, List.length_append, hIV, hpResult, if_pos rfl,
      Nat.add_comm]
  · rw [encryptedKeyData, if_neg hver, if_pos hpool.arc4, if_neg hver, plainKeyData, if_neg hver,
      length_bytes, length_TKIP_GTK_KEY_WRAP, length_octets, Nat.add_zero]

theorem decrypted_encrypted (hpool : pool.Grants) (hptk : auth.PTK = supp.PTK)
    (hlen : (plainKeyData ver Key_Data).length ≤ 400) {Msg : EAPOL_PACKET}
    (hver : Msg.KeyDesc.KeyInfo.KeyDescVer = ver) (hiv : Msg.KeyDesc.KeyIv = KeyIv)
    (hdata : keyDataOf Msg = encryptedKeyData aes pool auth ver KeyIv Key_Data)
    (hdatalen : Msg.KeyDesc.KeyDataLen.toNat =
      (encryptedKeyData aes pool auth ver KeyIv Key_Data).length) :
    decrypted aes supp Msg = plainKeyData ver Key_Data := by
  unfold decrypted
  rw [hver, hiv, hdata, hdatalen, ← hptk, List.take_length]
  by_cases haes : ver = KEY_DESC_AES
  · subst haes
    obtain ⟨hIV, hpResult⟩ := @length_wrapped aes auth.PTK (plainKeyData KEY_DESC_AES Key_Data)
    have hundo : unwrapLoops aes (octets (KEK auth.PTK))
        ((plainKeyData KEY_DESC_AES Key_Data).length / 8)
        (wrapped aes auth.PTK (plainKeyData KEY_DESC_AES Key_Data)) = _ :=
      unwrap_wrapLoops (whole_text _)
    obtain ⟨htake, hdrop⟩ := @octets_halves _
      (wrapped aes auth.PTK (plainKeyData KEY_DESC_AES Key_Data)).pResult hIV
    rw [encrypted_aes hpool hlen]
    simp only [if_true, length_bytes, List.length_append, hIV, hpResult, Nat.add_sub_cancel_left,
      htake, hdrop]
    exact (congrArg (fun r => bytes r.pResult) hundo).trans (bytes_octets _)
  · rw [encryptedKeyData, if_neg haes, if_pos hpool.arc4, plainKeyData, if_neg haes]
    simp only [if_neg haes, octets_bytes, TKIP_GTK_KEY_WRAP_twice, bytes_octets]

end RoundTrip

structure Params where
  GroupKeyWepStatus : NDIS_802_11_WEP_STATUS
  DefaultKeyIdx : Byte
  KeyNonce : Nonce
  TxRSC : Vector Byte 6
  GTK : GTK
  RSNIE : Vector Byte 255
  RSNIE_Len : Byte

def sent (C : Crypto) (aes : BlockCipher 16) (pool : Pool) (e : MAC_TABLE_ENTRY) (type : MsgType)
    (p : Params) : EAPOL_PACKET :=
  ConstructEapolMsg C aes pool e p.GroupKeyWepStatus type p.DefaultKeyIdx p.KeyNonce p.TxRSC p.GTK
    p.RSNIE p.RSNIE_Len zeroFrame

def header (e : MAC_TABLE_ENTRY) (type : MsgType) (p : Params) : EAPOL_PACKET where
  ProVer := EAPOL_VER
  ProType := EAPOLKey
  Body_Len := BitVec.ofNat 16 MIN_LEN_OF_EAPOL_KEY_MSG
  KeyDesc :=
    fillDescriptor e p.GroupKeyWepStatus type p.DefaultKeyIdx p.KeyNonce p.TxRSC zeroFrame.KeyDesc

def rsnElement (type : MsgType) (p : Params) : List Byte :=
  if p.RSNIE_Len ≠ 0 ∧ (type = .EAPOL_PAIR_MSG_2 ∨ type = .EAPOL_PAIR_MSG_3) then
    RTMPInsertRSNIE p.RSNIE p.RSNIE_Len
  else []

/-- The key data of a message with a group key, as it is encrypted. -/
def groupKeyData (e : MAC_TABLE_ENTRY) (type : MsgType) (p : Params) : List Byte :=
  rsnElement type p ++ encapsulatedGtk e p.GroupKeyWepStatus p.DefaultKeyIdx p.GTK

section Messages

variable {p : Params}

theorem keyDescVer_cases (e : MAC_TABLE_ENTRY) (cipher : NDIS_802_11_WEP_STATUS) :
    keyDescVer e cipher = KEY_DESC_AES ∨ keyDescVer e cipher = KEY_DESC_TKIP := by
  unfold keyDescVer
  split
  · exact .inl rfl
  · exact .inr rfl

theorem keyDescVer_fill (bWPA2 : Bool) (ver : BitVec 3) (type : MsgType) (idx : Byte) :
    (fillKeyInfo bWPA2 ver type idx ⟨0, 0⟩).KeyDescVer = ver := by
  unfold fillKeyInfo
  generalize idx.setWidth 2 = i
  cases type <;> revert bWPA2 ver i <;> decide

theorem keyIndex_fill (ver : BitVec 3) (idx : Byte) :
    (fillKeyInfo false ver .EAPOL_GROUP_MSG_1 idx ⟨0, 0⟩).KeyIndex = idx.setWidth 2 := by
  unfold fillKeyInfo
  generalize idx.setWidth 2 = i
  revert ver i
  decide

theorem sent_eq (htype : type ≠ .EAPOL_PAIR_MSG_1) :
    sent C aes pool e type p =
      CalculateMIC C pool (keyDescVer e p.GroupKeyWepStatus) e.PTK
        (ConstructEapolKeyData aes pool e p.GroupKeyWepStatus (keyDescVer e p.GroupKeyWepStatus)
          type p.DefaultKeyIdx p.GTK p.RSNIE p.RSNIE_Len (header e type p)) :=
  if_pos htype

theorem sent_setKeyMic (hpool : pool.Grants) (htype : type ≠ .EAPOL_PAIR_MSG_1) :
    ∃ m, sent C aes pool e type p =
      setKeyMic
        (ConstructEapolKeyData aes pool e p.GroupKeyWepStatus (keyDescVer e p.GroupKeyWepStatus)
          type p.DefaultKeyIdx p.GTK p.RSNIE p.RSNIE_Len (header e type p)) m :=
  ⟨_, (sent_eq htype).trans (if_neg (by rw [hpool.OutBuffer]; decide))⟩

theorem constructed_fields (ver : BitVec 3) :
    let Msg := ConstructEapolKeyData aes pool e p.GroupKeyWepStatus ver type p.DefaultKeyIdx p.GTK
      p.RSNIE p.RSNIE_Len pMsg
    Msg.KeyDesc.KeyInfo = pMsg.KeyDesc.KeyInfo ∧ Msg.KeyDesc.KeyIv = pMsg.KeyDesc.KeyIv ∧
      Msg.KeyDesc.ReplayCounter = pMsg.KeyDesc.ReplayCounter ∧
      Msg.KeyDesc.KeyMic = pMsg.KeyDesc.KeyMic := by
  unfold ConstructEapolKeyData
  split
  · exact ⟨rfl, rfl, rfl, rfl⟩
  · split
    · exact ⟨rfl, rfl, rfl, rfl⟩
    · simp only
      split
      · exact ⟨rfl, rfl, rfl, rfl⟩
      · exact ⟨rfl, rfl, rfl, rfl⟩

theorem sent_fields (hpool : pool.Grants) (htype : type ≠ .EAPOL_PAIR_MSG_1) :
    (sent C aes pool e type p).KeyDesc.KeyInfo = (header e type p).KeyDesc.KeyInfo ∧
      (sent C aes pool e type p).KeyDesc.KeyIv = (header e type p).KeyDesc.KeyIv ∧
      (sent C aes pool e type p).KeyDesc.ReplayCounter = e.R_Counter := by
  obtain ⟨m, hm⟩ := @sent_setKeyMic C aes pool e type p hpool htype
  obtain ⟨hinfo, hiv, hcounter, -⟩ := @constructed_fields aes pool e type (header e type p) p
    (keyDescVer e p.GroupKeyWepStatus)
  rw [hm]
  exact ⟨hinfo, hiv, hcounter⟩

theorem keyDescVer_sent (hpool : pool.Grants) (htype : type ≠ .EAPOL_PAIR_MSG_1) :
    (sent C aes pool e type p).KeyDesc.KeyInfo.KeyDescVer = keyDescVer e p.GroupKeyWepStatus := by
  obtain ⟨hinfo, -, -⟩ := @sent_fields C aes pool e type p hpool htype
  rw [hinfo]
  exact keyDescVer_fill _ _ _ _

theorem micDiff_sent (hpool : pool.Grants) (hptk : auth.PTK = supp.PTK)
    (htype : type ≠ .EAPOL_PAIR_MSG_1) : micDiff C supp type (sent C aes pool auth type p) = false := by
  obtain ⟨hinfo, -, -, hmic⟩ := @constructed_fields aes pool auth type (header auth type p) p
    (keyDescVer auth p.GroupKeyWepStatus)
  rw [sent_eq htype, hptk]
  apply micDiff_calculated hpool.OutBuffer _ (keyDescVer_cases _ _) hmic
  rw [hinfo]
  exact keyDescVer_fill _ _ _ _

theorem sent_group (hpool : pool.Grants) (hkey : hasGroupKey e type = true)
    (hlen : (plainKeyData (keyDescVer e p.GroupKeyWepStatus) (groupKeyData e type p)).length ≤ 400) :
    let data := encryptedKeyData aes pool e (keyDescVer e p.GroupKeyWepStatus)
      (header e type p).KeyDesc.KeyIv (groupKeyData e type p)
    keyDataOf (sent C aes pool e type p) = data ∧
      (sent C aes pool e type p).KeyDesc.KeyDataLen.toNat = data.length := by
  intro data
  have htype : type ≠ .EAPOL_PAIR_MSG_1 := by
    rintro rfl
    simp [hasGroupKey] at hkey
  have hgroup : (type = .EAPOL_PAIR_MSG_3 ∧ e.bWPA2 = true) ∨ type = .EAPOL_GROUP_MSG_1 := by
    simpa [hasGroupKey] using hkey
  have hother : ¬ (type = .EAPOL_PAIR_MSG_1 ∨ type = .EAPOL_PAIR_MSG_4 ∨
      type = .EAPOL_GROUP_MSG_2) := by
    rcases hgroup with ⟨rfl, -⟩ | rfl <;> simp
  have hlen' : data.length ≤ 512 := by
    rw [length_encrypted hpool hlen]
    split <;> omega
  obtain ⟨m, hm⟩ := @sent_setKeyMic C aes pool e type p hpool htype
  rw [hm, ConstructEapolKeyData, if_neg hother, if_neg (by rw [hpool.mpool]; decide)]
  simp only [if_pos hgroup]
  exact ⟨@keyDataOf_set (header e type p) data rfl hlen', @keyDataLen_set (header e type p) data hlen'⟩

theorem length_encapsulatedGtk (e : MAC_TABLE_ENTRY) (cipher : NDIS_802_11_WEP_STATUS) (idx : Byte)
    (GTK : GTK) :
    (encapsulatedGtk e cipher idx GTK).length = (if e.bWPA2 then 8 else 0) + gtkLen cipher := by
  have hlen : (GTK.toList.take (gtkLen cipher)).length = gtkLen cipher := by
    rw [List.length_take, Vector.length_toList]
    unfold gtkLen
    split <;> rfl
  unfold encapsulatedGtk
  rw [List.length_append, hlen]
  split
  · rfl
  · rfl

theorem length_plain_le (ver : BitVec 3) (Key_Data : List Byte) :
    Key_Data.length ≤ (plainKeyData ver Key_Data).length := by
  unfold plainKeyData
  split
  · rw [List.length_append]
    omega
  · exact Nat.le_refl _

theorem process_group {cfg : Config} {link : APCLI_STRUCT} (hpool : pool.Grants) (hmem : mem.Grants)
    (hptk : auth.PTK = supp.PTK) (hkey : hasGroupKey auth type = true)
    (hkey' : hasGroupKey supp type = true) {plain : List Byte}
    (hplain : plainKeyData (keyDescVer auth p.GroupKeyWepStatus) (groupKeyData auth type p) = plain)
    (hlen : plain.length ≤ MAX_LEN_OF_RSNIE) :
    processKeyData aes cfg mem Buffered.KEYDATA (sent C aes pool auth type p) type supp link =
      RTMPParseEapolKeyData cfg (plain ++ mem.zeroed.drop plain.length) plain.length
        (groupKeyIndex supp type (sent C aes pool auth type p)) type supp link := by
  have htype : type ≠ .EAPOL_PAIR_MSG_1 := by
    rintro rfl
    simp [hasGroupKey] at hkey
  unfold MAX_LEN_OF_RSNIE at hlen
  have hlen' : (plainKeyData (keyDescVer auth p.GroupKeyWepStatus)
      (groupKeyData auth type p)).length ≤ 400 := by
    rw [hplain]
    omega
  obtain ⟨-, hiv, -⟩ := @sent_fields C aes pool auth type p hpool htype
  have hver := @keyDescVer_sent C aes pool auth type p hpool htype
  obtain ⟨hdata, hdatalen⟩ := @sent_group C aes pool auth type p hpool hkey hlen'
  have hdecrypted := @decrypted_encrypted aes pool auth supp _ _ _ hpool hptk hlen' _ hver hiv hdata
    hdatalen
  have hlength := @length_encrypted aes pool auth (keyDescVer auth p.GroupKeyWepStatus) _
    (header auth type p).KeyDesc.KeyIv hpool hlen'
  rw [hplain] at hdecrypted hlength
  rw [hlength] at hdatalen
  have hsome : 16 ≤ plain.length := by
    have hle := length_plain_le (keyDescVer auth p.GroupKeyWepStatus) (groupKeyData auth type p)
    have hgtk := length_encapsulatedGtk auth p.GroupKeyWepStatus p.DefaultKeyIdx p.GTK
    have hleast : 16 ≤ gtkLen p.GroupKeyWepStatus := by
      unfold gtkLen
      split <;> decide
    rw [hplain, groupKeyData, List.length_append, hgtk] at hle
    omega
  have hplainLength : plainLength (sent C aes pool auth type p) = plain.length := by
    unfold plainLength
    rw [hver, hdatalen]
    split
    · rfl
    · rfl
  have hgranted : granted mem (sent C aes pool auth type p) = true := by
    unfold granted
    rw [hver, hdatalen]
    split
    · apply hmem.alloc
      rw [UInt32.le_iff_toNat_le, toNat_plainLength (by omega), if_pos (by omega)]
      show plain.length + 8 - 8 ≤ 512
      omega
    · exact hmem.arc4
  have hdecrypts : Decrypts (sent C aes pool auth type p) := by
    refine ⟨⟨?_, ?_⟩, ?_⟩
    · rw [hdatalen, hdata, hlength]
    · intro _
      omega
    · rw [hplainLength]
      exact hlen
  have hne : (sent C aes pool auth type p).KeyDesc.KeyDataLen ≠ 0 := by
    intro hzero
    rw [hzero] at hdatalen
    change 0 = _ at hdatalen
    omega
  rw [processKeyData, clearKeyData_group hkey' hne, decryptKeyData_decrypts hgranted hdecrypts,
    hdecrypted, hplainLength]
  rfl

end Messages

end Ralink.Wpa.KeyData
