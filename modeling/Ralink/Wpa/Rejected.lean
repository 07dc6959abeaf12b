import Ralink.Wpa.Port

/-! What a frame that is refused has overwritten before the check that it fails. -/
namespace Ralink.Wpa
open Function
open Station (Wcid)

variable {C : Crypto} {cfg : Config} {env : Env} {i : Wcid} {Elem : MLME_QUEUE_ELEM} {l : Local}
  {pAd pAd' : RTMP_ADAPTER} {e : MAC_TABLE_ENTRY} {link : APCLI_STRUCT} {Msg : EAPOL_PACKET}
  {idx : Nat} {found : Found} {gtk GTK : List Byte} {type : MsgType}

def MAC_TABLE_ENTRY.handshake (e : MAC_TABLE_ENTRY) :=
  (e.PTK, e.ANonce, e.SNonce, e.R_Counter, e.WpaState, e.GTKState, e.PortSecured,
    e.PrivacyFilter, e.PairwiseKey)

def MULTISSID_STRUCT.groupKeys (m : MULTISSID_STRUCT) := (m.GTK, m.DefaultKeyId, m.SharedKey)

def APCLI_STRUCT.groupKeys (k : APCLI_STRUCT) := (k.GTK, k.DefaultKeyId, k.SharedKey)

/-- The handshake of the entry and all group keys are the same. -/
structure Unchanged (i : Wcid) (pAd pAd' : RTMP_ADAPTER) : Prop where
  handshake : (pAd'.Content i).handshake = (pAd.Content i).handshake
  MBSSID : ∀ idx, (pAd'.MBSSID idx).groupKeys = (pAd.MBSSID idx).groupKeys
  ApCliTab : ∀ idx, (pAd'.ApCliTab idx).groupKeys = (pAd.ApCliTab idx).groupKeys
  StaCfg : pAd'.StaCfg.groupKeys = pAd.StaCfg.groupKeys

structure Left (l l' : Local) : Prop where
  handshake : l'.entry.handshake = l.entry.handshake
  mbss : l'.mbss.groupKeys = l.mbss.groupKeys
  link : l'.link.groupKeys = l.link.groupKeys

theorem Unchanged.refl (i : Wcid) (pAd : RTMP_ADAPTER) : Unchanged i pAd pAd :=
  ⟨rfl, fun _ => rfl, fun _ => rfl, rfl⟩

theorem Left.refl (l : Local) : Left l l := ⟨rfl, rfl, rfl⟩

/-- The group key in a message 3, with its index. `none` when there is nothing to parse, and inside
for a key that is too short. -/
def groupKeyIn (C : Crypto) (e : MAC_TABLE_ENTRY) (Msg : EAPOL_PACKET) : Option (Option Found) :=
  if e.bWPA2 then
    (clearKeyData C e .EAPOL_PAIR_MSG_3 Msg).map fun d =>
      parseKde (d.1.take (d.1.length % 256)) (0, [])
  else none

/-- The bytes of a group key that a link keeps, and the key for the slot when it has slots. An AP
client refuses the group key when it is too short. -/
def keptOf (cfg : Config) (link : APCLI_STRUCT) (gtk : List Byte) :
    Option (List Byte × Option CIPHER_KEY) :=
  match cfg.OpMode with
  | .AP =>
    if link.GroupCipher = .Encryption2Enabled ∧ gtk.length ≥ 32 then
      some (gtk.take 32, some { groupKey .CIPHER_TKIP false gtk 32 with KeyLen := 32 })
    else if link.GroupCipher = .Encryption3Enabled ∧ gtk.length ≥ 16 then
      some (gtk.take 16, some (groupKey .CIPHER_AES false gtk 16))
    else none
  | .STA =>
    let alg := groupAlg link.GroupCipher
    some
      (gtk,
        if cfg.MAX_MBSSID_NUM = 0 then none
        else if alg = .CIPHER_NONE then some noKey
        else if badGtkLen alg gtk.length then some { noKey with CipherAlg := alg }
        else some (groupKey alg false link.GTK gtk.length))

/-- The link holds a group key already. -/
def APCLI_STRUCT.Holds (link : APCLI_STRUCT) (idx : Nat) (kept : List Byte × Option CIPHER_KEY) :
    Prop :=
  link.DefaultKeyId = idx ∧ kept.1 <+: link.GTK ∧ ∀ key ∈ kept.2, link.SharedKey idx = key

/-- The message 3 brings the counter and the group key that are there already, or a group key that
is refused. -/
def Repeats (C : Crypto) (cfg : Config) (Msg : EAPOL_PACKET) (l : Local) : Prop :=
  match groupKeyIn C l.entry Msg with
  | none => l.entry.R_Counter = Msg.KeyDesc.ReplayCounter
  | some none => True
  | some (some (idx, gtk)) =>
    ∀ kept ∈ keptOf cfg l.link gtk,
      l.entry.R_Counter = Msg.KeyDesc.ReplayCounter ∧ l.link.Holds idx kept

/-- The frame leaves alone what it is refused with: no message 2 brings another nonce or another
PTK, and no message 3 with a good counter and a good MIC, but another nonce, brings another counter
or another group key. -/
def Harmless (C : Crypto) (cfg : Config) (Elem : MLME_QUEUE_ELEM) (l : Local) : Prop :=
  let k := Elem.Msg.KeyDesc
  match handlerOf cfg l.entry Elem with
  | some .PeerPairMsg2Action =>
    takesMsg2 Elem l.entry = true → inBss cfg l.entry = true →
      l.entry.SNonce = k.KeyNonce ∧
        l.entry.PTK =
          WpaDerivePTK C l.mbss.PMK l.entry.ANonce l.mbss.Bssid k.KeyNonce l.entry.Addr
  | some .PeerPairMsg3Action =>
    takesSupplicant cfg Elem .EAPOL_PAIR_MSG_3 l.entry = true →
      bReplayDiff l.entry .EAPOL_PAIR_MSG_3 Elem.Msg = false →
        micDiff C l.entry .EAPOL_PAIR_MSG_3 Elem.Msg = false → l.entry.ANonce ≠ k.KeyNonce →
          Repeats C cfg Elem.Msg l
  | _ => True

end Ralink.Wpa
