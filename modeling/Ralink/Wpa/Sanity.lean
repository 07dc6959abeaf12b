import Ralink.Wpa.Entry

/-! What a received frame is checked for, how its key data is parsed, and how a pairwise or a group
key is installed. -/
namespace Ralink.Wpa
open Function

/-- The pairwise key in a PTK, for the authenticator with `bAE` and else for the supplicant. -/
def pairwiseKey (WepStatus : NDIS_802_11_WEP_STATUS) (ptk : PTK) (bAE : Bool) :
    Option CIPHER_KEY :=
  let first := firstBytes 8 (ptk.toList.drop 48)
  let second := firstBytes 8 (ptk.toList.drop 56)
  match WepStatus with
  | .Encryption2Enabled =>
    some
      { KeyLen := 16, Key := TK ptk, CipherAlg := .CIPHER_TKIP
        TxMic := if bAE then first else second
        RxMic := if bAE then second else first }
  | .Encryption3Enabled => some { noKey with KeyLen := 16, Key := TK ptk, CipherAlg := .CIPHER_AES }
  | _ => none

def WPAInstallPairwiseKey (e : MAC_TABLE_ENTRY) (bAE : Bool) : MAC_TABLE_ENTRY × List Act :=
  match pairwiseKey e.WepStatus e.PTK bAE with
  | none => ({ e with PairwiseKey := noKey }, [])
  | some key => ({ e with PairwiseKey := key }, [.installPairwise key])

def groupAlg : NDIS_802_11_WEP_STATUS → CipherAlg
  | .GroupWEP40Enabled => .CIPHER_WEP64
  | .GroupWEP104Enabled => .CIPHER_WEP128
  | .Encryption2Enabled => .CIPHER_TKIP
  | .Encryption3Enabled => .CIPHER_AES
  | _ => .CIPHER_NONE

/-- The length is too small, or is none of the two of a WEP key. -/
def badGtkLen (alg : CipherAlg) (GtkLen : Nat) : Bool :=
  if alg = .CIPHER_WEP64 ∨ alg = .CIPHER_WEP128 then GtkLen ≠ 5 ∧ GtkLen ≠ 13 else GtkLen < 16

def groupKey (alg : CipherAlg) (bAE : Bool) (pGtk : List Byte) (GtkLen : Nat) : CIPHER_KEY :=
  if alg = .CIPHER_WEP64 ∨ alg = .CIPHER_WEP128 then
    { noKey with KeyLen := GtkLen, Key := firstBytes 16 (pGtk.take GtkLen), CipherAlg := alg }
  else if alg = .CIPHER_TKIP then
    let first := firstBytes 8 (pGtk.drop 16)
    let second := firstBytes 8 (pGtk.drop 24)
    { KeyLen := 16, Key := firstBytes 16 pGtk, CipherAlg := alg
      TxMic := if bAE then first else second
      RxMic := if bAE then second else first }
  else { noKey with KeyLen := 16, Key := firstBytes 16 pGtk, CipherAlg := alg }

def WPAInstallSharedKey (cfg : Config) (GroupCipher : NDIS_802_11_WEP_STATUS) (BssIdx KeyIdx : Nat)
    (bAE : Bool) (pGtk : List Byte) (GtkLen : Nat) (SharedKey : Nat → CIPHER_KEY) :
    (Nat → CIPHER_KEY) × List Act :=
  let alg := groupAlg GroupCipher
  if BssIdx ≥ cfg.MAX_MBSSID_NUM then (SharedKey, [])
  else if alg = .CIPHER_NONE then (update SharedKey KeyIdx noKey, [])
  else if badGtkLen alg GtkLen then
    (update SharedKey KeyIdx { noKey with CipherAlg := alg }, [])
  else
    let key := groupKey alg bAE pGtk GtkLen
    (update SharedKey KeyIdx key, [.installShared KeyIdx key])

/-- The bytes at `pKey` go into the table of the interface. -/
def APCliInstallSharedKey (pKey : List Byte) (DefaultKeyIdx : Nat) (link : APCLI_STRUCT) :
    Bool × APCLI_STRUCT :=
  let store (len : Nat) (key : CIPHER_KEY) : APCLI_STRUCT :=
    { link with
      GTK := pKey.take len ++ link.GTK.drop len
      DefaultKeyId := DefaultKeyIdx
      SharedKey := update link.SharedKey DefaultKeyIdx key }
  if link.GroupCipher = .Encryption2Enabled ∧ pKey.length ≥ 32 then
    (true, store 32 { groupKey .CIPHER_TKIP false pKey 32 with KeyLen := 32 })
  else if link.GroupCipher = .Encryption3Enabled ∧ pKey.length ≥ 16 then
    (true, store 16 (groupKey .CIPHER_AES false pKey 16))
  else (false, link)

inductive MsgType where
  | EAPOL_PAIR_MSG_1
  | EAPOL_PAIR_MSG_2
  | EAPOL_PAIR_MSG_3
  | EAPOL_PAIR_MSG_4
  | EAPOL_GROUP_MSG_1
  | EAPOL_GROUP_MSG_2
  deriving DecidableEq

def MAC_TABLE_ENTRY.bWPA2 (e : MAC_TABLE_ENTRY) : Bool :=
  e.AuthMode = .WPA2 ∨ e.AuthMode = .WPA2PSK

/-- The index and the bytes of `GTK`, as far as they have been set. -/
abbrev Found := Nat × List Byte

/-- The elements of the key data, with the index and the key that have been found so far; `none`
for a key that is too short. Its length is taken in 8 bits. -/
def parseKde : List Byte → Found → Option Found
  | Eid :: Len :: octets, found =>
    if h : Len.toNat ≤ octets.length then
      if Eid = 0xdd ∧ octets.take 3 = [0x00, 0x0F, 0xAC] ∧ octets[3]? = some 1 then
        let GTKLEN := (Len.toNat + 250) % 256
        if GTKLEN < 5 then none
        else
          parseKde (octets.drop Len.toNat)
            ((octets.getD 4 0).toNat % 4, (octets.drop 6).take GTKLEN)
      else parseKde (octets.drop Len.toNat) found
    else some found
  | _, found => some found
termination_by data => data.length
decreasing_by all_goals simp only [List.length_drop, List.length_cons]; omega

/-- The group key in the key data of a message with its index, `none` when it is refused. -/
def gtkOf (e : MAC_TABLE_ENTRY) (type : MsgType) (GroupKeyIndex : Nat) (KeyData : List Byte) :
    Option Found :=
  if e.bWPA2 = true ∧ (type = .EAPOL_PAIR_MSG_3 ∨ type = .EAPOL_GROUP_MSG_1) then
    parseKde KeyData (0, [])
  else if e.bWPA2 = false ∧ type = .EAPOL_GROUP_MSG_1 then some (GroupKeyIndex, KeyData)
  else some (0, [])

def installGroupKey (cfg : Config) (e : MAC_TABLE_ENTRY) (link : APCLI_STRUCT) (found : Found) :
    Bool × APCLI_STRUCT × List Act :=
  let (DefaultIdx, gtk) := found
  if DefaultIdx > 3 then (false, link, [])
  else
    match cfg.OpMode with
    | .AP =>
      if e.EntryType = .APCLI then
        let (ok, link) := APCliInstallSharedKey gtk DefaultIdx link
        (ok, link, [])
      else (true, link, [])
    | .STA =>
      let link :=
        { link with GTK := gtk ++ link.GTK.drop gtk.length, DefaultKeyId := DefaultIdx }
      let (SharedKey, acts) :=
        WPAInstallSharedKey cfg link.GroupCipher 0 DefaultIdx false link.GTK gtk.length
          link.SharedKey
      (true, { link with SharedKey }, acts)

/-- The length of the key data is taken in 8 bits. -/
def RTMPParseEapolKeyData (cfg : Config) (pKeyData : List Byte) (GroupKeyIndex : Nat)
    (type : MsgType) (e : MAC_TABLE_ENTRY) (link : APCLI_STRUCT) :
    Bool × APCLI_STRUCT × List Act :=
  if (type = .EAPOL_PAIR_MSG_2 ∨ type = .EAPOL_PAIR_MSG_3) ∧
      ¬ (e.bWPA2 = true ∧ type = .EAPOL_PAIR_MSG_3) then (true, link, [])
  else
    match gtkOf e type GroupKeyIndex (pKeyData.take (pKeyData.length % 256)) with
    | none => (false, link, [])
    | some found => installGroupKey cfg e link found

/-- The bytes that the length of the key data says are there. -/
def KEY_DESCRIPTER.data (k : KEY_DESCRIPTER) : List Byte :=
  (List.range k.KeyDataLen.toNat).map fun i => k.KeyData.getD i 0

/-- A supplicant wants a larger counter and takes zero too, an authenticator wants its own. -/
def bReplayDiff (e : MAC_TABLE_ENTRY) (type : MsgType) (Msg : EAPOL_PACKET) : Bool :=
  match type with
  | .EAPOL_PAIR_MSG_1 | .EAPOL_PAIR_MSG_3 | .EAPOL_GROUP_MSG_1 =>
    ¬ e.R_Counter < Msg.KeyDesc.ReplayCounter ∧ Msg.KeyDesc.ReplayCounter ≠ 0
  | .EAPOL_PAIR_MSG_2 | .EAPOL_PAIR_MSG_4 | .EAPOL_GROUP_MSG_2 =>
    Msg.KeyDesc.ReplayCounter ≠ e.R_Counter

variable (C : Crypto)

def micDiff (e : MAC_TABLE_ENTRY) (type : MsgType) (Msg : EAPOL_PACKET) : Bool :=
  type ≠ .EAPOL_PAIR_MSG_1 ∧ Msg.KeyDesc.KeyMic ≠ frameMic C e.PTK Msg

/-- The key data in the clear, with the index of a group key; `none` when there is nothing to
parse. -/
def clearKeyData (e : MAC_TABLE_ENTRY) (type : MsgType) (Msg : EAPOL_PACKET) :
    Option (List Byte × Nat) :=
  let k := Msg.KeyDesc
  if k.KeyDataLen = 0 then none
  else if (type = .EAPOL_PAIR_MSG_3 ∧ e.bWPA2 = true) ∨ type = .EAPOL_GROUP_MSG_1 then
    some
      (if k.KeyInfo.KeyDescVer = KEY_DESC_AES then C.AES_Key_Unwrap k.data (KEK e.PTK)
        else C.TKIP_GTK_KEY_UNWRAP (KEK e.PTK) k.KeyIv k.data,
        if e.bWPA2 = false ∧ type = .EAPOL_GROUP_MSG_1 then k.KeyInfo.KeyIndex.toNat else 0)
  else if type = .EAPOL_PAIR_MSG_2 ∨ type = .EAPOL_PAIR_MSG_3 then some (k.data, 0)
  else none

/-- With the verdict comes the link, on which parsing the key data may have installed a key. -/
def PeerWpaMessageSanity (cfg : Config) (env : Env) (Msg : EAPOL_PACKET) (type : MsgType)
    (e : MAC_TABLE_ENTRY) (link : APCLI_STRUCT) : Bool × APCLI_STRUCT × List Act :=
  if env.keydata = false then (false, link, [])
  else if bReplayDiff e type Msg then (false, link, [])
  else if micDiff C e type Msg then (false, link, [])
  else
    match clearKeyData C e type Msg with
    | none => (true, link, [])
    | some (KEYDATA, GroupKeyIndex) =>
      RTMPParseEapolKeyData cfg KEYDATA GroupKeyIndex type e link

variable {C} {cfg : Config} {env : Env} {Msg : EAPOL_PACKET} {type : MsgType}
  {e : MAC_TABLE_ENTRY} {link : APCLI_STRUCT}

def MsgType.toAuthenticator (type : MsgType) : Prop :=
  type = .EAPOL_PAIR_MSG_2 ∨ type = .EAPOL_PAIR_MSG_4 ∨ type = .EAPOL_GROUP_MSG_2

/-- What a message to an authenticator has to carry. -/
def Genuine (C : Crypto) (e : MAC_TABLE_ENTRY) (Msg : EAPOL_PACKET) : Prop :=
  Msg.KeyDesc.ReplayCounter = e.R_Counter ∧ Msg.KeyDesc.KeyMic = frameMic C e.PTK Msg

instance : Decidable (Genuine C e Msg) := inferInstanceAs (Decidable (_ ∧ _))

theorem parse_pairMsg2 (KEYDATA : List Byte) (index : Nat) :
    RTMPParseEapolKeyData cfg KEYDATA index .EAPOL_PAIR_MSG_2 e link = (true, link, []) := by
  simp [RTMPParseEapolKeyData]

theorem sanity_toAuthenticator (h : type.toAuthenticator) :
    PeerWpaMessageSanity C cfg env Msg type e link =
      (env.keydata && decide (Genuine C e Msg), link, []) := by
  have hparse : ∀ d, clearKeyData C e type Msg = some d →
      RTMPParseEapolKeyData cfg d.1 d.2 type e link = (true, link, []) := by
    intro d hd
    rcases h with rfl | rfl | rfl
    · exact parse_pairMsg2 d.1 d.2
    · simp [clearKeyData] at hd
    · simp [clearKeyData] at hd
  have hreplay : bReplayDiff e type Msg = decide (Msg.KeyDesc.ReplayCounter ≠ e.R_Counter) := by
    rcases h with rfl | rfl | rfl <;> rfl
  have hmic : micDiff C e type Msg = decide (Msg.KeyDesc.KeyMic ≠ frameMic C e.PTK Msg) := by
    rcases h with rfl | rfl | rfl <;> simp [micDiff]
  unfold PeerWpaMessageSanity Genuine
  rw [hreplay, hmic]
  cases env.keydata with
  | false => rfl
  | true =>
    by_cases hc : Msg.KeyDesc.ReplayCounter = e.R_Counter
    · by_cases hm : Msg.KeyDesc.KeyMic = frameMic C e.PTK Msg
      · cases hd : clearKeyData C e type Msg with
        | none => simp [hc, hm]
        | some d => simpa [hc, hm] using hparse d hd
      · simp [hm]
    · simp [hc]

end Ralink.Wpa
