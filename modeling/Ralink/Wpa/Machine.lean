import Ralink.Wpa.Handlers

/-! Received EAPOL-Key frames are told apart and handled. An adapter goes through the events: frames
of any station, starts and restarts of handshakes, expiries of the retry timer, turns of the group
key timer, and stations that come and go. -/
namespace Ralink.Wpa
open Function
open Station (Wcid MAX_LEN_OF_MAC_TABLE)

structure RTMP_ADAPTER where
  MBSSID : Nat → MULTISSID_STRUCT
  ApCliTab : Nat → APCLI_STRUCT
  StaCfg : APCLI_STRUCT
  Content : Wcid → MAC_TABLE_ENTRY
  CMTimerRunning : Bool
  BANClass3Data : Bool
  deriving Inhabited

def setEntry (pAd : RTMP_ADAPTER) (i : Wcid) (e : MAC_TABLE_ENTRY) : RTMP_ADAPTER :=
  { pAd with Content := update pAd.Content i e }

def setMbss (pAd : RTMP_ADAPTER) (apidx : Nat) (m : MULTISSID_STRUCT) : RTMP_ADAPTER :=
  { pAd with MBSSID := update pAd.MBSSID apidx m }

/-- What is given out with a frame to a station, or for a BSS. -/
inductive Target where
  | entry (i : Wcid)
  | bss (apidx : Nat)
  deriving DecidableEq

abbrev Acts := List (Target × Act)

variable (C : Crypto) (cfg : Config) (env : Env)

def linkOf (pAd : RTMP_ADAPTER) (e : MAC_TABLE_ENTRY) : APCLI_STRUCT :=
  match cfg.OpMode with
  | .AP => pAd.ApCliTab e.MatchAPCLITabIdx
  | .STA => pAd.StaCfg

def localOf (pAd : RTMP_ADAPTER) (i : Wcid) : Local :=
  ⟨pAd.MBSSID (pAd.Content i).apidx, linkOf cfg pAd (pAd.Content i), pAd.Content i⟩

def putLocal (pAd : RTMP_ADAPTER) (i : Wcid) (l : Local) : RTMP_ADAPTER :=
  let e := pAd.Content i
  { pAd with
    MBSSID := update pAd.MBSSID e.apidx l.mbss
    ApCliTab := if cfg.OpMode = .AP then update pAd.ApCliTab e.MatchAPCLITabIdx l.link
      else pAd.ApCliTab
    StaCfg := if cfg.OpMode = .STA then l.link else pAd.StaCfg
    Content := update pAd.Content i l.entry }

def onEntry (f : Local → Out) (i : Wcid) (pAd : RTMP_ADAPTER) : Verdict × Acts × RTMP_ADAPTER :=
  let o := f (localOf cfg pAd i)
  (o.verdict, o.acts.map fun a => (.entry i, a), putLocal cfg pAd i o.next)

@[irreducible] def forEntries (f : Wcid → RTMP_ADAPTER → Acts × RTMP_ADAPTER) (pAd : RTMP_ADAPTER) :
    Acts × RTMP_ADAPTER :=
  (List.finRange MAX_LEN_OF_MAC_TABLE).foldl
    (fun s i => let r := f i s.2; (s.1 ++ r.1, r.2)) ([], pAd)

/-- A client of the BSS that has finished its handshake. -/
def inStep (apidx : Nat) (e : MAC_TABLE_ENTRY) : Bool :=
  isClient e ∧ e.WpaState = .AS_PTKINITDONE ∧ e.apidx = apidx

def sendGtk (retry : Bool) (apidx : Nat) (i : Wcid) (pAd : RTMP_ADAPTER) : Acts × RTMP_ADAPTER :=
  if inStep apidx (pAd.Content i) then
    (onEntry cfg
      (fun l =>
        let o := WPAStart2WayGroupHS cfg env i { l with entry.GTKState := .REKEY_NEGOTIATING }
        if retry then
          ⟨o.verdict, o.acts,
            { o.next with
              entry.ReTryCounter := GROUP_MSG1_RETRY_TIMER_CTR, entry.RetryTimer := true }⟩
        else o) i pAd).2
  else ([], pAd)

def newGtk (m : MULTISSID_STRUCT) : MULTISSID_STRUCT :=
  { m with
    GNonce := env.random
    DefaultKeyId := if m.DefaultKeyId = 1 then 2 else 1
    GTK := WpaDeriveGTK C m.GMK env.random m.Bssid }

def installGtk (apidx : Nat) (pAd : RTMP_ADAPTER) : Acts × RTMP_ADAPTER :=
  let m := pAd.MBSSID apidx
  let installed :=
    WPAInstallSharedKey cfg m.GroupKeyWepStatus apidx m.DefaultKeyId true m.GTK.toList 32
      m.SharedKey
  (installed.2.map fun a => (.bss apidx, a),
    setMbss pAd apidx { m with SharedKey := installed.1 })

/-- A station asks for a new group key. Neither counter nor MIC are looked at. -/
def updateGroupKey (apidx : Nat) (pAd : RTMP_ADAPTER) : Acts × RTMP_ADAPTER :=
  let sent := forEntries (sendGtk cfg env true apidx)
    (setMbss pAd apidx (newGtk C env (pAd.MBSSID apidx)))
  let installed := installGtk cfg apidx sent.2
  (sent.1 ++ installed.1, installed.2)

def disconnect (i : Wcid) (pAd : RTMP_ADAPTER) : Acts × RTMP_ADAPTER :=
  if isClient (pAd.Content i) then (onEntry cfg (MlmeDeAuthAction cfg env i) i pAd).2
  else ([], pAd)

/-- A second failure within 60 seconds: all clients have to go. The group key stays. -/
def HandleCounterMeasure (i : Wcid) (pAd : RTMP_ADAPTER) : Acts × RTMP_ADAPTER :=
  let e := pAd.Content i
  if e.EntryType = .APCLI ∨ e.WpaState < .AS_PTKINITDONE ∨ e.GTKState ≠ .REKEY_ESTABLISHED then
    ([], pAd)
  else if pAd.CMTimerRunning = false then ([], { pAd with CMTimerRunning := true })
  else
    let gone := forEntries (disconnect cfg env)
      (setMbss pAd e.apidx { pAd.MBSSID e.apidx with GNonce := env.random })
    (gone.1, { gone.2 with BANClass3Data := true })

def MacTableLookup (pAddr : Mac) (pAd : RTMP_ADAPTER) : Option Wcid :=
  Fin.find? fun i => (pAd.Content i).EntryType ≠ .NONE ∧ (pAd.Content i).Addr = pAddr

def accessPoint : Nonce := firstBytes 32 (ascii "IEEE802.11 WIRELESS ACCESS POINT")

/-- The two bytes of the length are put together with a logical and. -/
def EAPOL_PACKET.MICMsgLen (p : EAPOL_PACKET) : Nat :=
  ((p.Body_Len.extractLsb' 0 8).toNat |||
    if p.Body_Len.extractLsb' 8 8 = 0 then 0 else 1) + LENGTH_EAPOL_H

def staKeyMic (WepStatus : NDIS_802_11_WEP_STATUS) (DlsPTK : PTK) (p : EAPOL_PACKET) : Mic :=
  let bytes := p.clearMic.bytes.take p.MICMsgLen
  if WepStatus = .Encryption2Enabled then C.RT_HMAC_MD5 (KCK DlsPTK) bytes
  else firstBytes 16 (C.RT_HMAC_SHA1 (KCK DlsPTK) bytes).toList

def countUp (e : MAC_TABLE_ENTRY) : MAC_TABLE_ENTRY := { e with R_Counter := e.R_Counter + 1 }

/-- The key that stations share by the proprietary handshake is derived for an address. -/
def deriveDls (apidx : Nat) (Addr : Mac) (pAd : RTMP_ADAPTER) : RTMP_ADAPTER :=
  let m := pAd.MBSSID apidx
  setMbss pAd apidx
    { m with DlsPTK := WpaDerivePTK C accessPoint accessPoint m.Bssid accessPoint Addr }

/-- The key of the peer goes to the station with the address in the key data. -/
def sendStaKey (apidx : Nat) (DA : Mac) (pAd : RTMP_ADAPTER) : Acts × RTMP_ADAPTER :=
  match MacTableLookup DA pAd with
  | none => ([], pAd)
  | some j =>
    if (pAd.Content j).WpaState ≠ .AS_PTKINITDONE ∨ env.keydata = false then ([], pAd)
    else
      let pAd := setEntry pAd j (countUp (pAd.Content j))
      if env.mpool j = false then ([], pAd)
      else ([(.entry j, .staKey (pAd.Content j).R_Counter)], deriveDls C apidx DA pAd)

/-- The station begins the handshake with a request. -/
def noteRequest (i : Wcid) (info : KEY_INFO) (pAd : RTMP_ADAPTER) : RTMP_ADAPTER :=
  if info.KeyMic ∧ info.Secure ∧ info.Request then
    setEntry pAd i { pAd.Content i with bDlsInit := true }
  else pAd

/-- A frame of the proprietary handshake with the right counter. -/
def takeStaKey (i : Wcid) (Elem : MLME_QUEUE_ELEM) (pAd : RTMP_ADAPTER) : Acts × RTMP_ADAPTER :=
  let Msg := Elem.Msg
  let e := pAd.Content i
  let KeyData := Msg.KeyDesc.KeyData
  if Msg.KeyDesc.KeyMic ≠ staKeyMic C e.WepStatus (pAd.MBSSID e.apidx).DlsPTK Msg then ([], pAd)
  else if e.bDlsInit ∧ Msg.KeyDesc.KeyInfo.Request = false then
    ([], setEntry pAd i { e with bDlsInit := false })
  else if (KeyData.drop 2).take 3 = [0x00, 0x0F, 0xAC] then ([], pAd)
  else sendStaKey C env e.apidx (firstBytes 6 (KeyData.drop 6)) pAd

/-- A frame of the proprietary handshake is checked with a key that anybody can derive. -/
def RTMPHandleSTAKey (i : Wcid) (Elem : MLME_QUEUE_ELEM) (pAd : RTMP_ADAPTER) :
    Acts × RTMP_ADAPTER :=
  let e := pAd.Content i
  if e.WpaState ≠ .AS_PTKINITDONE ∨ Elem.Msg.KeyDesc.ReplayCounter ≠ e.R_Counter then ([], pAd)
  else
    let pAd := noteRequest i Elem.Msg.KeyDesc.KeyInfo pAd
    if Elem.Msg.MICMsgLen > Elem.bodyLen then ([], pAd)
    else takeStaKey C env i Elem (deriveDls C e.apidx e.Addr pAd)

inductive Handler where
  | PeerPairMsg1Action
  | PeerPairMsg2Action
  | PeerPairMsg3Action
  | PeerPairMsg4Action
  | PeerGroupMsg1Action
  | PeerGroupMsg2Action
  | RTMPHandleSTAKey
  | HandleCounterMeasure
  | updateGroupKey
  | updatePairwiseKey
  deriving DecidableEq

/-- The frame has the form of an EAPOL-Key frame for the entry. -/
def wellFormed (e : MAC_TABLE_ENTRY) (Elem : MLME_QUEUE_ELEM) : Bool :=
  let Msg := Elem.Msg
  let ver := Msg.KeyDesc.KeyInfo.KeyDescVer
  (e.EntryType = .CLIENT ∨ e.EntryType = .APCLI) ∧
    ¬ e.AuthMode < .WPA ∧
    Msg.eapol_len ≤ Elem.bodyLen ∧
    (Msg.ProVer = 1 ∨ Msg.ProVer = 2) ∧
    (Msg.KeyDesc.DescType = 0xfe ∨ Msg.KeyDesc.DescType = 0x02) ∧
    (e.WepStatus = .Encryption2Enabled → ver = KEY_DESC_TKIP) ∧
    (e.WepStatus = .Encryption3Enabled → ver = KEY_DESC_AES)

def toSupplicant (info : KEY_INFO) : Option Handler :=
  if info.Secure = false ∧ info.Request = false ∧ info.Error = false ∧ info.KeyType then
    if info.KeyMic = false then some .PeerPairMsg1Action else some .PeerPairMsg3Action
  else if info.Secure ∧ info.KeyMic ∧ info.Request = false ∧ info.Error = false then
    if info.KeyType then some .PeerPairMsg3Action else some .PeerGroupMsg1Action
  else none

/-- The frame comes from a supplicant and is part of a handshake. -/
def ofHandshake (info : KEY_INFO) (KeyDataLen : BitVec 16) : Option Handler :=
  if info.Secure = false ∧ info.KeyType then
    if KeyDataLen = 0 then some .PeerPairMsg4Action else some .PeerPairMsg2Action
  else if info.Secure ∧ info.KeyType then some .PeerPairMsg4Action
  else if info.Secure then some .PeerGroupMsg2Action
  else none

/-- The frame comes from a supplicant. Reports and requests are for access points only. -/
def toAuthenticator (info : KEY_INFO) (KeyDataLen : BitVec 16) : Option Handler :=
  let AP : Bool := cfg.OpMode = .AP
  if AP ∧ cfg.QOS_DLS_SUPPORT ∧ info.KeyMic ∧ info.Secure ∧ info.Error = false ∧
      info.KeyType = false ∧ KeyDataLen.extractLsb' 0 8 = 12 then some .RTMPHandleSTAKey
  else if AP ∧ info.KeyMic ∧ info.Request ∧ info.Error then some .HandleCounterMeasure
  else if info.Request = false ∧ info.Error = false ∧ info.KeyMic then ofHandshake info KeyDataLen
  else if AP ∧ info.Request ∧ info.Error = false then
    if info.KeyType then some .updatePairwiseKey else some .updateGroupKey
  else none

def handlerOf (e : MAC_TABLE_ENTRY) (Elem : MLME_QUEUE_ELEM) : Option Handler :=
  let k := Elem.Msg.KeyDesc
  if wellFormed e Elem ∧ e.Sst = .SST_ASSOC ∧ e.WpaState ≥ .AS_INITPSK then
    if k.KeyInfo.KeyAck then toSupplicant k.KeyInfo
    else toAuthenticator cfg k.KeyInfo k.KeyDataLen
  else none

def Handler.onLocal (i : Wcid) (Elem : MLME_QUEUE_ELEM) : Handler → Option (Local → Out)
  | .PeerPairMsg1Action => some (Wpa.PeerPairMsg1Action C cfg env i Elem)
  | .PeerPairMsg2Action => some (Wpa.PeerPairMsg2Action C cfg env i Elem)
  | .PeerPairMsg3Action => some (Wpa.PeerPairMsg3Action C cfg env i Elem)
  | .PeerPairMsg4Action => some (Wpa.PeerPairMsg4Action C cfg env i Elem)
  | .PeerGroupMsg1Action => some (Wpa.PeerGroupMsg1Action C cfg env i Elem)
  | .PeerGroupMsg2Action => some (Wpa.PeerGroupMsg2Action C cfg env Elem)
  | .updatePairwiseKey => some (Wpa.updatePairwiseKey cfg env i)
  | .RTMPHandleSTAKey | .HandleCounterMeasure | .updateGroupKey => none

/-- The entry `i` is that of the address the frame comes from. -/
def WpaEAPOLKeyAction (i : Wcid) (Elem : MLME_QUEUE_ELEM) (pAd : RTMP_ADAPTER) :
    Verdict × Acts × RTMP_ADAPTER :=
  match handlerOf cfg (pAd.Content i) Elem with
  | none => (.dropped, [], pAd)
  | some h =>
    match h.onLocal C cfg env i Elem with
    | some f => onEntry cfg f i pAd
    | none =>
      match h with
      | .RTMPHandleSTAKey => (.handled, Wpa.RTMPHandleSTAKey C env i Elem pAd)
      | .HandleCounterMeasure => (.handled, Wpa.HandleCounterMeasure cfg env i pAd)
      | _ => (.handled, Wpa.updateGroupKey C cfg env (pAd.Content i).apidx pAd)

/-- The count that is compared with the interval, and the counter afterwards; `none` when the
timer has nothing to do. -/
def rekeyCount (m : MULTISSID_STRUCT) : Option (Nat × Nat) :=
  if m.ReKeyMethod = .TIME_REKEY ∧ m.REKEYCOUNTER < 2 ^ 32 - 1 then
    some (m.REKEYCOUNTER + 1, m.REKEYCOUNTER + 1)
  else if m.ReKeyMethod = .PKT_REKEY then some (m.REKEYCOUNTER / 1000, m.REKEYCOUNTER)
  else none

/-- The interval is over: with clients there is a new group key, and in any case the key is
installed some turns later. -/
def startRekey (apidx : Nat) (pAd : RTMP_ADAPTER) : Acts × RTMP_ADAPTER :=
  let m := { pAd.MBSSID apidx with REKEYCOUNTER := 0, RekeyCountDown := 3 }
  if m.StaCount > 0 then
    forEntries (sendGtk cfg env false apidx) (setMbss pAd apidx (newGtk C env m))
  else ([], setMbss pAd apidx m)

/-- At the end of the countdown the group key is installed. -/
def countDown (apidx : Nat) (pAd : RTMP_ADAPTER) : Acts × RTMP_ADAPTER :=
  let m := pAd.MBSSID apidx
  if m.RekeyCountDown > 0 then
    let pAd := setMbss pAd apidx { m with RekeyCountDown := m.RekeyCountDown - 1 }
    if m.RekeyCountDown = 1 then installGtk cfg apidx pAd else ([], pAd)
  else ([], pAd)

/-- The timer is that of the BSS with the index. -/
def GREKEYPeriodicExec (apidx : Nat) (pAd : RTMP_ADAPTER) : Acts × RTMP_ADAPTER :=
  let m := pAd.MBSSID apidx
  if apidx ≥ cfg.BssidNum ∨ m.AuthMode < .WPA ∨ m.AuthMode > .WPA1PSKWPA2PSK then ([], pAd)
  else
    match rekeyCount m with
    | none => ([], pAd)
    | some (temp_counter, REKEYCOUNTER) =>
      let pAd := setMbss pAd apidx { m with REKEYCOUNTER }
      let sent :=
        if temp_counter > m.ReKeyInterval then startRekey C cfg env apidx pAd else ([], pAd)
      let installed := countDown cfg apidx sent.2
      (sent.1 ++ installed.1, installed.2)

inductive Event where
  | key (env : Env) (i : Wcid) (Elem : MLME_QUEUE_ELEM)
  | eapolStart (env : Env) (i : Wcid) (internal : Bool)
  | start4Way (env : Env) (i : Wcid)
  | start2Way (env : Env) (i : Wcid)
  | retry (env : Env) (i : Wcid)
  | rekey (env : Env) (apidx : Nat)
  | leave (i : Wcid)
  | join (i : Wcid) (e : MAC_TABLE_ENTRY)

/-- A station that is new in the table is counted. -/
def MacTableInsertEntry (i : Wcid) (e : MAC_TABLE_ENTRY) (pAd : RTMP_ADAPTER) : RTMP_ADAPTER :=
  let m := pAd.MBSSID e.apidx
  setEntry (setMbss pAd e.apidx { m with StaCount := (m.StaCount + 1) % 256 }) i e

def perform (e : Event) (pAd : RTMP_ADAPTER) : Verdict × Acts × RTMP_ADAPTER :=
  match e with
  | .key env i Elem => WpaEAPOLKeyAction C cfg env i Elem pAd
  | .eapolStart env i internal => onEntry cfg (WpaEAPOLStartAction cfg env i · internal) i pAd
  | .start4Way env i => onEntry cfg (WPAStart4WayHS cfg env i) i pAd
  | .start2Way env i => onEntry cfg (WPAStart2WayGroupHS cfg env i) i pAd
  | .retry env i => onEntry cfg (WPARetryExec cfg env i) i pAd
  | .rekey env apidx => (.handled, GREKEYPeriodicExec C cfg env apidx pAd)
  | .leave i => onEntry cfg (fun l => ⟨.handled, [], MacTableDeleteEntry cfg l⟩) i pAd
  | .join i e => (.handled, [], MacTableInsertEntry i e pAd)

def step (pAd : RTMP_ADAPTER) (e : Event) : RTMP_ADAPTER := (perform C cfg e pAd).2.2

end Ralink.Wpa
