import Ralink.Wpa.Sanity

/-! Each handler works on one entry with its BSS and its link, and ends by dropping the frame or by
handling it. -/
namespace Ralink.Wpa
open Function
open Station (Wcid MAX_APCLI_NUM MAIN_MBSSID)

def PEER_MSG1_RETRY_TIMER_CTR : Nat := 0
def PEER_MSG3_RETRY_TIMER_CTR : Nat := 10
def GROUP_MSG1_RETRY_TIMER_CTR : Nat := 20

def drop (l : Local) : Out := ⟨.dropped, [], l⟩

def Out.then (o : Out) (f : Local → Out) : Out :=
  let o' := f o.next
  ⟨o'.verdict, o.acts ++ o'.acts, o'.next⟩

def isClient (e : MAC_TABLE_ENTRY) : Bool := e.EntryType = .CLIENT

def tooShort (Elem : MLME_QUEUE_ELEM) : Bool :=
  Elem.MsgLen < LENGTH_802_11 + LENGTH_802_1_H + LENGTH_EAPOL_H + MIN_LEN_OF_EAPOL_KEY_MSG

variable (C : Crypto) (cfg : Config) (env : Env) (i : Wcid) (Elem : MLME_QUEUE_ELEM) (l : Local)

/-- The entry belongs to a BSS. In a build for stations the BSS is not asked for. -/
def inBss (e : MAC_TABLE_ENTRY) : Bool := cfg.OpMode = .STA ∨ e.apidx < cfg.BssidNum

/-- There is an address to answer from: that of the AP client or that of the station. -/
def hasCurrentAddr (e : MAC_TABLE_ENTRY) : Bool :=
  match cfg.OpMode with
  | .AP => e.EntryType = .APCLI ∧ e.MatchAPCLITabIdx < MAX_APCLI_NUM
  | .STA => true

/-- The handshake is with a client that is being set up by a registrar. -/
def isEnrollee (l : Local) : Bool :=
  l.entry.Addr = l.mbss.WscControl.EntryAddr ∧ l.mbss.WscControl.EapMsgRunning

/-- The cached key of the entry becomes that of the BSS, and its identifier is sent. -/
def takePmk (l : Local) : Local × Option PMKID :=
  match l.entry.AuthMode, l.entry.PMKID_CacheIdx with
  | .WPA2, some idx =>
    ({ l with mbss.PMK := (l.mbss.PMKIDCache idx).PMK }, some (l.mbss.PMKIDCache idx).PMKID)
  | _, _ => (l, none)

def sendMsg1 (l : Local) : Out :=
  let (l, pmkid) := takePmk l
  ⟨.handled, [.pairMsg1 l.entry.R_Counter l.entry.ANonce pmkid],
    { l with entry.RetryTimer := true, entry.WpaState := .AS_PTKSTART }⟩

def canStart (e : MAC_TABLE_ENTRY) : Bool :=
  cfg.OpMode = .AP ∧ isClient e ∧ e.apidx < cfg.BssidNum ∧
    ¬ (e.WpaState > .AS_PTKSTART ∨ e.WpaState < .AS_INITPMK)

def WPAStart4WayHS : Out :=
  if env.closed = true ∨ canStart cfg l.entry = false then drop l
  else if isEnrollee l then ⟨.handled, [], { l with entry.WpaState := .AS_NOTUSE }⟩
  else
    let l :=
      { l with entry.R_Counter := l.entry.R_Counter + 1, entry.ANonce := env.random }
    if env.mpool i = false then drop l else sendMsg1 l

def WPAStart2WayGroupHS : Out :=
  if isClient l.entry = false ∨ inBss cfg l.entry = false ∨ env.mpool i = false then drop l
  else
    let l := { l with entry.R_Counter := l.entry.R_Counter + 1 }
    match cfg.OpMode with
    | .AP => ⟨.handled, [.groupMsg1 l.entry.R_Counter l.mbss.DefaultKeyId l.mbss.GTK], l⟩
    | .STA => ⟨.oops, [], l⟩

/-- The internal command is told from a frame by its length. -/
def WpaEAPOLStartAction (internal : Bool) : Out :=
  if internal = false ∧ cfg.OpMode = .AP ∧ l.entry.apidx = MAIN_MBSSID ∧
      l.mbss.WscControl.enabled ∧
      (l.entry.AuthMode = .WPAPSK ∨ l.entry.AuthMode = .WPA2PSK) ∧ l.entry.bWscCapable then
    drop l
  else if l.entry.PortSecured = .WPA_802_1X_PORT_NOT_SECURED ∧ l.entry.WpaState < .AS_PTKSTART ∧
      (l.entry.AuthMode = .WPAPSK ∨ l.entry.AuthMode = .WPA2PSK ∨
        (l.entry.AuthMode = .WPA2 ∧ l.entry.PMKID_CacheIdx ≠ none)) then
    WPAStart4WayHS cfg env i
      { l with
        entry.PrivacyFilter := .PrivFilter8021xWEP
        entry.WpaState := .AS_INITPSK
        entry.PortSecured := .WPA_802_1X_PORT_NOT_SECURED
        entry.R_Counter := 0
        entry.ReTryCounter := PEER_MSG1_RETRY_TIMER_CTR }
  else drop l

def derivePtk (l : Local) (Msg : EAPOL_PACKET) : Local :=
  { l with
    entry.SNonce := Msg.KeyDesc.KeyNonce
    entry.PTK := WpaDerivePTK C l.mbss.PMK l.entry.ANonce l.mbss.Bssid Msg.KeyDesc.KeyNonce
      l.entry.Addr }

def sendMsg3 (l : Local) : Out :=
  let l :=
    { l with
      entry.WpaState := .AS_PTKINIT_NEGOTIATING
      entry.R_Counter := l.entry.R_Counter + 1
      entry.ReTryCounter := PEER_MSG3_RETRY_TIMER_CTR
      entry.RetryTimer := true }
  ⟨.handled, [.pairMsg3 l.entry.R_Counter l.entry.ANonce l.mbss.DefaultKeyId l.mbss.GTK], l⟩

def takesMsg2 (e : MAC_TABLE_ENTRY) : Bool :=
  isClient e ∧ tooShort Elem = false ∧ ¬ e.WpaState < .AS_PTKSTART

def PeerPairMsg2Action : Out :=
  if takesMsg2 Elem l.entry = false then drop l
  else
    match cfg.OpMode with
    | .STA => ⟨.oops, [], { l with entry.SNonce := Elem.Msg.KeyDesc.KeyNonce }⟩
    | .AP =>
      if inBss cfg l.entry = false then drop l
      else
        let l := derivePtk C l Elem.Msg
        let (ok, link, acts) :=
          PeerWpaMessageSanity C cfg env Elem.Msg .EAPOL_PAIR_MSG_2 l.entry l.link
        let l := { l with link }
        if ok = false ∨ env.mpool i = false then ⟨.dropped, acts, l⟩
        else Out.then ⟨.handled, acts, l⟩ sendMsg3

/-- A registrar that has been waiting for this client is done with it. -/
def WscInformFromWPA (l : Local) : Local :=
  if l.mbss.WscControl.enabled ∧ l.entry.apidx < cfg.BssidNum ∧
      l.entry.Addr = l.mbss.WscControl.EntryAddr then
    { l with
      mbss.WscControl.EntryAddr := Vector.replicate 6 0
      mbss.WscControl.EapolTimerRunning := false
      mbss.WscControl.waitsForDone := false
      entry.bWscCapable := false }
  else l

def pmkidOf (PMK : PMK) (Bssid Addr : Mac) : PMKID :=
  firstBytes 16
    (C.RT_HMAC_SHA1 PMK.toList (ascii "PMK Name" ++ Bssid.toList ++ Addr.toList)).toList

def cachePmk (l : Local) : Local :=
  if cfg.OpMode = .AP ∧ l.entry.AuthMode = .WPA2 then
    { l with
      mbss.PMKIDCache := Pmkid.RTMPAddPMKIDCache l.mbss.PMKIDCache l.entry.Addr
        (pmkidOf C l.mbss.PMK l.mbss.Bssid l.entry.Addr) l.mbss.PMK env.Now }
  else l

def openPort (bAE : Bool) (l : Local) : Out :=
  let (entry, acts) := WPAInstallPairwiseKey l.entry bAE
  ⟨.handled, acts,
    { l with
      entry :=
        { entry with
          PrivacyFilter := .PrivFilterAcceptAll
          WpaState := .AS_PTKINITDONE
          PortSecured := .WPA_802_1X_PORT_SECURED } }⟩

/-- With WPA2 the group key has been sent before, otherwise it is sent now. -/
def afterMsg4 (l : Local) : Out :=
  let l := if cfg.OpMode = .AP then WscInformFromWPA cfg l else l
  if l.entry.bWPA2 then
    ⟨.handled, [],
      cachePmk C cfg env
        { l with entry.GTKState := .REKEY_ESTABLISHED, entry.RetryTimer := false }⟩
  else
    let o := WPAStart2WayGroupHS cfg env i l
    if o.verdict = .oops then o
    else
      ⟨.handled, o.acts,
        { o.next with
          entry.ReTryCounter := GROUP_MSG1_RETRY_TIMER_CTR, entry.RetryTimer := true }⟩

def takesMsg4 (e : MAC_TABLE_ENTRY) : Bool :=
  isClient e ∧ tooShort Elem = false ∧ ¬ e.WpaState < .AS_PTKINIT_NEGOTIATING ∧ inBss cfg e

def PeerPairMsg4Action : Out :=
  if takesMsg4 cfg Elem l.entry = false then drop l
  else
    let (ok, link, acts) :=
      PeerWpaMessageSanity C cfg env Elem.Msg .EAPOL_PAIR_MSG_4 l.entry l.link
    let l := { l with link }
    if ok = false then ⟨.dropped, acts, l⟩
    else (Out.then ⟨.handled, acts, l⟩ (openPort true)).then (afterMsg4 C cfg env i)

/-- The headers in front of a message 2 of the group key handshake are counted in part only. -/
def takesGroupMsg2 (e : MAC_TABLE_ENTRY) : Bool :=
  isClient e ∧
    ¬ (Elem.MsgLen + (2 ^ 32 - LENGTH_802_11)) % 2 ^ 32 <
        LENGTH_802_1_H + LENGTH_EAPOL_H + MIN_LEN_OF_EAPOL_KEY_MSG ∧
    e.WpaState = .AS_PTKINITDONE ∧ inBss cfg e

def PeerGroupMsg2Action : Out :=
  if takesGroupMsg2 cfg Elem l.entry = false then drop l
  else
    let (ok, link, acts) :=
      PeerWpaMessageSanity C cfg env Elem.Msg .EAPOL_GROUP_MSG_2 l.entry l.link
    let l := { l with link }
    if ok = false then ⟨.dropped, acts, l⟩
    else
      ⟨.handled, acts,
        { l with entry.GTKState := .REKEY_ESTABLISHED, entry.RetryTimer := false }⟩

/-- A station asks for a new pairwise key. Neither counter nor MIC are looked at. -/
def updatePairwiseKey : Out :=
  let WpaState :=
    match l.entry.AuthMode with
    | .WPA | .WPA2 => .AS_INITPMK
    | .WPAPSK | .WPA2PSK => .AS_INITPSK
    | _ => l.entry.WpaState
  Out.then
    ⟨.handled, [.removePairwise],
      { l with
        entry :=
          { l.entry with
            PairwiseKey := noKey
            Sst := .SST_ASSOC
            WpaState := WpaState
            GTKState := .REKEY_NEGOTIATING
            PrivacyFilter := .PrivFilter8021xWEP
            ReTryCounter := PEER_MSG1_RETRY_TIMER_CTR
            PortSecured := .WPA_802_1X_PORT_NOT_SECURED
            R_Counter := 0 } }⟩
    (fun l => let o := WPAStart4WayHS cfg env i l; ⟨.handled, o.acts, o.next⟩)

/-- A message is looked at. A message 1 of the group key handshake may be of any length. -/
def takesSupplicant (type : MsgType) (e : MAC_TABLE_ENTRY) : Bool :=
  (e.EntryType = .CLIENT ∨ e.EntryType = .APCLI) ∧
    (type = .EAPOL_GROUP_MSG_1 ∨ tooShort Elem = false) ∧ hasCurrentAddr cfg e

def PeerPairMsg1Action : Out :=
  if takesSupplicant cfg Elem .EAPOL_PAIR_MSG_1 l.entry = false then drop l
  else
    let k := Elem.Msg.KeyDesc
    let (ok, link, acts) :=
      PeerWpaMessageSanity C cfg env Elem.Msg .EAPOL_PAIR_MSG_1 l.entry l.link
    let l := { l with link }
    if ok = false then ⟨.dropped, acts, l⟩
    else
      ⟨.handled, acts ++ if env.mpool i then [.pairMsg2 k.ReplayCounter env.random] else [],
        { l with
          entry.R_Counter := k.ReplayCounter
          entry.ANonce := k.KeyNonce
          entry.SNonce := env.random
          entry.PTK := WpaDerivePTK C l.link.PMK k.KeyNonce l.entry.Addr env.random
            l.link.CurrentAddress
          entry.WpaState := .AS_PTKINIT_NEGOTIATING }⟩

/-- The pairwise key is installed. With WPA2 the port is opened now, otherwise with the group
key. -/
def installMsg3 (l : Local) : Out :=
  let (entry, acts) := WPAInstallPairwiseKey { l.entry with WpaState := .AS_PTKINITDONE } false
  let link :=
    match cfg.OpMode with
    | .AP => l.link
    | .STA =>
      { l.link with
        PTK := entry.PTK, SharedKey := update l.link.SharedKey 0 entry.PairwiseKey }
  let entry :=
    if l.entry.bWPA2 then
      { entry with
        PortSecured := .WPA_802_1X_PORT_SECURED, PrivacyFilter := .PrivFilterAcceptAll }
    else if cfg.OpMode = .AP then { entry with RetryTimer := true }
    else entry
  ⟨.handled, acts ++ [.pairMsg4 entry.R_Counter], { l with link, entry }⟩

def PeerPairMsg3Action : Out :=
  if takesSupplicant cfg Elem .EAPOL_PAIR_MSG_3 l.entry = false then drop l
  else
    let k := Elem.Msg.KeyDesc
    let (ok, link, acts) :=
      PeerWpaMessageSanity C cfg env Elem.Msg .EAPOL_PAIR_MSG_3 l.entry l.link
    let l := { l with link }
    if ok = false then ⟨.dropped, acts, l⟩
    else
      let l := { l with entry.R_Counter := k.ReplayCounter }
      if l.entry.ANonce ≠ k.KeyNonce ∨ env.mpool i = false then ⟨.dropped, acts, l⟩
      else Out.then ⟨.handled, acts, l⟩ (installMsg3 cfg)

def PeerGroupMsg1Action : Out :=
  if takesSupplicant cfg Elem .EAPOL_GROUP_MSG_1 l.entry = false then drop l
  else
    let k := Elem.Msg.KeyDesc
    let (ok, link, acts) :=
      PeerWpaMessageSanity C cfg env Elem.Msg .EAPOL_GROUP_MSG_1 l.entry l.link
    let l := { l with link }
    if ok = false then ⟨.dropped, acts, l⟩
    else
      let l :=
        { l with
          entry.RetryTimer := if cfg.OpMode = .AP then false else l.entry.RetryTimer
          entry.R_Counter := k.ReplayCounter }
      if env.mpool i = false then ⟨.dropped, acts, l⟩
      else
        ⟨.handled, acts ++ [.groupMsg2 k.ReplayCounter],
          { l with
            entry.PortSecured := .WPA_802_1X_PORT_SECURED
            entry.PrivacyFilter := .PrivFilterAcceptAll }⟩

/-- A registrar that is not about to finish forgets the client. -/
def forgetEnrollee (l : Local) : Local :=
  let w := l.mbss.WscControl
  if l.entry.Addr = w.EntryAddr ∧ w.EapolTimerRunning ∧ w.waitsForDone = false then
    { l with
      mbss.WscControl.EapolTimerRunning := false
      mbss.WscControl.EapMsgRunning := false
      mbss.WscControl.EntryAddr := Vector.replicate 6 0 }
  else l

/-- The key that is cached for an address is given up. -/
def forgetPmk (info : Pmkid.BSSIDInfo) (Addr : Mac) : Pmkid.BSSIDInfo :=
  match Pmkid.RTMPSearchPMKIDCache info Addr with
  | some idx => Pmkid.RTMPDeletePMKIDCache info idx
  | none => info

/-- The address is that of the entry, and only a client is counted and has a cached key. -/
def MacTableDeleteEntry (l : Local) : Local :=
  if l.entry.EntryType = .NONE then l
  else if isClient l.entry ∧ cfg.OpMode = .AP then
    let l := forgetEnrollee
      { l with
        mbss.PMKIDCache := forgetPmk l.mbss.PMKIDCache l.entry.Addr
        mbss.StaCount := (l.mbss.StaCount + 255) % 256 }
    { l with entry.RetryTimer := false, entry.bWscCapable := false, entry.EntryType := .NONE }
  else { l with entry.RetryTimer := false, entry.EntryType := .NONE }

def MlmeDeAuthAction : Out :=
  if env.mpool i = false then drop l
  else ⟨.handled, [.deauth], MacTableDeleteEntry cfg l⟩

def retries (mode : NDIS_802_11_AUTHENTICATION_MODE) : Bool :=
  mode = .WPA ∨ mode = .WPAPSK ∨ mode = .WPA2 ∨ mode = .WPA2PSK

/-- What is done at an expiry when the counter has been counted up. -/
def retryTurn (l : Local) : Out :=
  let count := l.entry.ReTryCounter
  if count > GROUP_MSG1_RETRY_TIMER_CTR + 1 then MlmeDeAuthAction cfg env i l
  else if count > GROUP_MSG1_RETRY_TIMER_CTR then
    if l.entry.GTKState = .REKEY_NEGOTIATING then
      let o := WPAStart2WayGroupHS cfg env i l
      ⟨o.verdict, o.acts, { o.next with entry.RetryTimer := true }⟩
    else drop l
  else if count > PEER_MSG1_RETRY_TIMER_CTR + 3 then MlmeDeAuthAction cfg env i l
  else if count = PEER_MSG1_RETRY_TIMER_CTR + 3 then WPAStart4WayHS cfg env i l
  else if l.entry.WpaState = .AS_PTKSTART ∨ l.entry.WpaState = .AS_INITPSK ∨
      l.entry.WpaState = .AS_INITPMK then WPAStart4WayHS cfg env i l
  else drop l

/-- An AP client is disconnected by another state machine. -/
def WPARetryExec : Out :=
  if l.entry.RetryTimer = true ∧ isClient l.entry ∧ cfg.OpMode = .AP then
    let l :=
      { l with
        entry.RetryTimer := false
        entry.ReTryCounter := (l.entry.ReTryCounter + 1) % 256 }
    if retries l.entry.AuthMode then retryTurn cfg env i l else drop l
  else drop l

end Ralink.Wpa
