import Ralink.Wpa.Effects

/-! For a station of an access point: what has been received when the port is open. Until a message
4 is taken the port stays closed, and a message 4 is taken with the counter of the last message 3.
-/
namespace Ralink.Wpa
open Function
open Station (Wcid)

variable {C : Crypto} {cfg : Config} {env : Env} {i : Wcid} {Elem : MLME_QUEUE_ELEM} {l : Local}
  {pAd : RTMP_ADAPTER} {e e' e'' : MAC_TABLE_ENTRY} {j : Wcid} {apidx : Nat}

structure Waiting (e : MAC_TABLE_ENTRY) : Prop where
  kind : e.EntryType ≠ .APCLI
  psk : e.AuthMode = .WPAPSK ∨ e.AuthMode = .WPA2PSK
  cipher : e.WepStatus = .Encryption2Enabled ∨ e.WepStatus = .Encryption3Enabled
  port : e.PortSecured = .WPA_802_1X_PORT_NOT_SECURED
  state : e.WpaState ≤ .AS_PTKINIT_NEGOTIATING
  timer : e.WpaState = .AS_PTKINIT_NEGOTIATING → e.RetryTimer = true →
    e.ReTryCounter = PEER_MSG3_RETRY_TIMER_CTR

structure Keeps (e e' : MAC_TABLE_ENTRY) : Prop where
  waiting : Waiting e'
  counter : e'.WpaState = .AS_PTKINIT_NEGOTIATING →
    e.WpaState = .AS_PTKINIT_NEGOTIATING ∧ e'.R_Counter = e.R_Counter

theorem Waiting.keeps (h : Waiting e) : Keeps e e :=
  ⟨h, fun hstate => ⟨hstate, rfl⟩⟩

theorem Waiting.restart (h : Keeps e' e'') (hstate : e'.WpaState ≠ .AS_PTKINIT_NEGOTIATING) :
    Keeps e e'' :=
  ⟨h.waiting, fun heq => (hstate (h.counter heq).1).elim⟩

section

variable (h : Waiting l.entry)
include h

theorem start4Way_keeps : Keeps l.entry (WPAStart4WayHS cfg env i l).next.entry := by
  rcases start4Way_cases cfg env i l with heq | ⟨hcan, heq | heq | heq⟩
  · rw [heq]
    exact h.keeps
  · rw [heq]
    exact ⟨⟨h.kind, h.psk, h.cipher, h.port, (by decide : AP_WPA_STATE.AS_NOTUSE ≤ _), nofun⟩,
      nofun⟩
  · have hstate : l.entry.WpaState ≠ .AS_PTKINIT_NEGOTIATING := by
      intro hstate
      have hle := lt_of_canStart hcan
      rw [hstate] at hle
      exact absurd hle (by decide)
    rw [heq]
    exact ⟨⟨h.kind, h.psk, h.cipher, h.port, h.state, h.timer⟩, fun heq => (hstate heq).elim⟩
  · rw [heq, sendMsg1_entry]
    exact ⟨⟨h.kind, h.psk, h.cipher, h.port, (by decide : AP_WPA_STATE.AS_PTKSTART ≤ _), nofun⟩,
      nofun⟩

theorem eapolStart_keeps (internal : Bool) :
    Keeps l.entry (WpaEAPOLStartAction cfg env i l internal).next.entry := by
  unfold WpaEAPOLStartAction
  split
  · exact h.keeps
  · split
    · apply Waiting.restart (start4Way_keeps ?_)
      · exact nofun
      · exact ⟨h.kind, h.psk, h.cipher, rfl, (by decide : AP_WPA_STATE.AS_INITPSK ≤ _), nofun⟩
    · exact h.keeps

theorem updatePairwiseKey_keeps : Keeps l.entry (updatePairwiseKey cfg env i l).next.entry := by
  apply Waiting.restart (start4Way_keeps ?_)
  · rcases h.psk with hm | hm <;> simp [hm]
  · refine ⟨h.kind, h.psk, h.cipher, rfl, ?_, ?_⟩
    · rcases h.psk with hm | hm <;> simp only [hm] <;> decide
    · rcases h.psk with hm | hm <;> simp [hm]

theorem deleteEntry_keeps : Keeps l.entry (MacTableDeleteEntry cfg l).entry := by
  unfold MacTableDeleteEntry
  split
  · exact h.keeps
  · split
    · simp only [forgetEnrollee_entry]
      exact ⟨⟨nofun, h.psk, h.cipher, h.port, h.state, nofun⟩, fun heq => ⟨heq, rfl⟩⟩
    · exact ⟨⟨nofun, h.psk, h.cipher, h.port, h.state, nofun⟩, fun heq => ⟨heq, rfl⟩⟩

theorem deAuth_keeps : Keeps l.entry (MlmeDeAuthAction cfg env i l).next.entry := by
  unfold MlmeDeAuthAction
  split
  · exact h.keeps
  · exact deleteEntry_keeps h

theorem retry_keeps : Keeps l.entry (WPARetryExec cfg env i l).next.entry := by
  unfold WPARetryExec
  split
  · rename_i hrun
    let counted : Local :=
      { l with
        entry.RetryTimer := false
        entry.ReTryCounter := (l.entry.ReTryCounter + 1) % 256 }
    have hc : Waiting counted.entry := ⟨h.kind, h.psk, h.cipher, h.port, h.state, nofun⟩
    have hback : ∀ {e'}, Keeps counted.entry e' → Keeps l.entry e' :=
      fun hk => ⟨hk.waiting, hk.counter⟩
    have hten : l.entry.WpaState = .AS_PTKINIT_NEGOTIATING → counted.entry.ReTryCounter = 11 :=
      fun hstate => by
        show (l.entry.ReTryCounter + 1) % 256 = 11
        rw [h.timer hstate hrun.1]
        rfl
    show Keeps l.entry
      (if retries l.entry.AuthMode then retryTurn cfg env i counted else drop counted).next.entry
    split
    · unfold retryTurn
      dsimp only
      split_ifs with h1 h2 h3 h4 h5
      · exact hback (deAuth_keeps hc)
      · have hne : l.entry.WpaState ≠ .AS_PTKINIT_NEGOTIATING := by
          intro hstate
          rw [hten hstate] at h2
          exact absurd h2 (by decide)
        refine ⟨?_, fun heq => (hne ?_).elim⟩
        · rcases start2Way_entry cfg env i counted with hsend | hsend <;> simp only [hsend] <;>
            exact ⟨h.kind, h.psk, h.cipher, h.port, h.state, fun hs => (hne hs).elim⟩
        · rcases start2Way_entry cfg env i counted with hsend | hsend <;>
            simp only [hsend] at heq <;> exact heq
      · exact hback hc.keeps
      · exact hback (deAuth_keeps hc)
      · exact hback (start4Way_keeps hc)
      · exact hback (start4Way_keeps hc)
      · exact hback hc.keeps
    · exact hback hc.keeps
  · exact h.keeps

theorem groupMsg2_keeps : Keeps l.entry (PeerGroupMsg2Action C cfg env Elem l).next.entry := by
  rcases groupMsg2_cases C cfg env Elem l with ⟨heq, -⟩ | ⟨-, htakes, -⟩
  · rw [heq]
    exact h.keeps
  · simp only [takesGroupMsg2, decide_eq_true_eq] at htakes
    have hstate := h.state
    rw [htakes.2.2.1] at hstate
    exact absurd hstate (by decide)

end

/-- The MIC of a frame is its keyed hash, and not the zeros that stand for no hash. -/
def MicIsMac (C : Crypto) (ptk : PTK) (p : EAPOL_PACKET) : Prop :=
  let bytes := p.clearMic.bytes.take p.eapol_len
  (p.KeyDesc.KeyInfo.KeyDescVer = KEY_DESC_TKIP ∧
      p.KeyDesc.KeyMic = C.RT_HMAC_MD5 (KCK ptk) bytes) ∨
    (p.KeyDesc.KeyInfo.KeyDescVer = KEY_DESC_AES ∧
      p.KeyDesc.KeyMic = firstBytes 16 (C.RT_HMAC_SHA1 (KCK ptk) bytes).toList)

theorem micIsMac_of_genuine (h : Waiting e) (hform : wellFormed e Elem = true)
    (hg : Genuine C e' Elem.Msg) : MicIsMac C e'.PTK Elem.Msg := by
  simp only [wellFormed, decide_eq_true_eq] at hform
  obtain ⟨-, -, -, -, -, htkip, haes⟩ := hform
  have hmic := hg.2
  unfold frameMic at hmic
  rcases h.cipher with hc | hc
  · have hver := htkip hc
    rw [if_pos hver] at hmic
    exact .inl ⟨hver, hmic⟩
  · have hver := haes hc
    rw [if_neg (by rw [hver]; decide), if_pos hver] at hmic
    exact .inr ⟨hver, hmic⟩

theorem msg2_waiting (C : Crypto) (env : Env) (i : Wcid) (Elem : MLME_QUEUE_ELEM)
    (hAP : cfg.OpMode = .AP) (h : Waiting l.entry) :
    Keeps l.entry (PeerPairMsg2Action C cfg env i Elem l).next.entry ∨
    PeerPairMsg2Action C cfg env i Elem l = sendMsg3 (derivePtk C l Elem.Msg) ∧
      Genuine C (derivePtk C l Elem.Msg).entry Elem.Msg ∧
      Waiting (sendMsg3 (derivePtk C l Elem.Msg)).next.entry := by
  rcases msg2_cases C env i Elem l hAP with
    heq | ⟨-, -, ⟨heq, -⟩ | ⟨heq, hg, -⟩⟩
  · rw [heq]
    exact .inl h.keeps
  · rw [heq]
    exact .inl ⟨⟨h.kind, h.psk, h.cipher, h.port, h.state, h.timer⟩, fun hs => ⟨hs, rfl⟩⟩
  · exact .inr ⟨heq, hg, h.kind, h.psk, h.cipher, h.port, le_refl _, fun _ _ => rfl⟩

theorem msg4_waiting (C : Crypto) (env : Env) (i : Wcid) (Elem : MLME_QUEUE_ELEM)
    (hAP : cfg.OpMode = .AP) (h : Waiting l.entry) :
    Keeps l.entry (PeerPairMsg4Action C cfg env i Elem l).next.entry ∨
    (PeerPairMsg4Action C cfg env i Elem l).verdict = .handled ∧
      l.entry.WpaState = .AS_PTKINIT_NEGOTIATING ∧ Genuine C l.entry Elem.Msg := by
  rcases msg4_cases C cfg env i Elem l with
    ⟨heq, -⟩ | ⟨heq, htakes, hg, -⟩
  · rw [heq]
    exact .inl h.keeps
  · simp only [takesMsg4, decide_eq_true_eq, not_lt] at htakes
    have hstate := le_antisymm h.state htakes.2.2.1
    rw [heq]
    refine .inr ⟨?_, hstate, hg⟩
    exact afterMsg4_verdict hAP

theorem Keeps.trans (h : Keeps e e') (h' : Keeps e' e'') : Keeps e e'' := by
  refine ⟨h'.waiting, fun hstate => ?_⟩
  obtain ⟨hstate', hcounter⟩ := h'.counter hstate
  obtain ⟨hstart, hcounter'⟩ := h.counter hstate'
  exact ⟨hstart, hcounter.trans hcounter'⟩

theorem Waiting.not_done (h : Waiting e) : e.WpaState ≠ .AS_PTKINITDONE := by
  intro heq
  have hstate := h.state
  rw [heq] at hstate
  exact absurd hstate (by decide)

theorem sendGtk_content {retry : Bool} (hne : (pAd.Content i).WpaState ≠ .AS_PTKINITDONE) :
    (sendGtk cfg env retry apidx j pAd).2.Content i = pAd.Content i := by
  unfold sendGtk
  split
  · rename_i hin
    have hij : i ≠ j := by
      rintro rfl
      simp only [inStep, decide_eq_true_eq] at hin
      exact hne hin.2.1
    simp only [onEntry_content, update_of_ne hij]
  · rfl

theorem updateGroupKey_content (hne : (pAd.Content i).WpaState ≠ .AS_PTKINITDONE) :
    (updateGroupKey C cfg env apidx pAd).2.Content i = pAd.Content i := by
  have hsent := forEntries_inv (P := fun s => s.Content i = pAd.Content i)
    (f := sendGtk cfg env true apidx) (setMbss pAd apidx (newGtk C env (pAd.MBSSID apidx)))
    (fun j s hs => (sendGtk_content (hs ▸ hne)).trans hs) rfl
  exact hsent

theorem disconnect_keeps (h : Waiting (pAd.Content i)) :
    Keeps (pAd.Content i) ((disconnect cfg env j pAd).2.Content i) := by
  unfold disconnect
  split
  · rw [onEntry_content]
    rcases eq_or_ne i j with rfl | hij
    · rw [update_self]
      exact deAuth_keeps (l := localOf cfg pAd i) h
    · rw [update_of_ne hij]
      exact h.keeps
  · exact h.keeps

theorem counterMeasure_keeps (h : Waiting (pAd.Content i)) :
    Keeps (pAd.Content i) ((HandleCounterMeasure cfg env j pAd).2.Content i) := by
  unfold HandleCounterMeasure
  dsimp only
  split_ifs
  · exact h.keeps
  · exact h.keeps
  · have hgone := forEntries_inv (P := fun s => Keeps (pAd.Content i) (s.Content i))
      (f := disconnect cfg env)
      (setMbss pAd (pAd.Content j).apidx
        { pAd.MBSSID (pAd.Content j).apidx with GNonce := env.random })
      (fun k s hs => hs.trans (disconnect_keeps hs.waiting)) h.keeps
    exact hgone

theorem sendStaKey_content {DA : Mac} (hne : (pAd.Content i).WpaState ≠ .AS_PTKINITDONE) :
    (sendStaKey C env apidx DA pAd).2.Content i = pAd.Content i := by
  unfold sendStaKey
  cases hfind : MacTableLookup DA pAd with
  | none => rfl
  | some k =>
    by_cases hdone : (pAd.Content k).WpaState ≠ .AS_PTKINITDONE ∨ env.keydata = false
    · simp only [if_pos hdone]
    · have hik : i ≠ k := by
        rintro rfl
        exact hdone (.inl hne)
      simp only [if_neg hdone]
      split <;> simp [hik]

theorem handleSTAKey_content (hne : (pAd.Content i).WpaState ≠ .AS_PTKINITDONE) :
    (RTMPHandleSTAKey C env j Elem pAd).2.Content i = pAd.Content i := by
  unfold RTMPHandleSTAKey
  by_cases hdone : (pAd.Content j).WpaState ≠ .AS_PTKINITDONE ∨
      Elem.Msg.KeyDesc.ReplayCounter ≠ (pAd.Content j).R_Counter
  · simp only [if_pos hdone]
  · have hij : i ≠ j := by
      rintro rfl
      exact hdone (.inl hne)
    have hnote : (noteRequest j Elem.Msg.KeyDesc.KeyInfo pAd).Content i = pAd.Content i := by
      unfold noteRequest
      split
      · simp [hij]
      · rfl
    simp only [if_neg hdone]
    split
    · exact hnote
    · unfold takeStaKey
      dsimp only
      split_ifs
      · simpa using hnote
      · simpa [hij] using hnote
      · simpa using hnote
      · rw [sendStaKey_content] <;> simp [hnote, hne]

/-- The events of handshakes: frames, starts, restarts and expiries of the retry timer. -/
def Event.OfHandshake : Event → Prop
  | .key _ _ _ | .eapolStart _ _ _ | .start4Way _ _ | .retry _ _ => True
  | _ => False

/-- The event is a frame of the station that is handed to the handler and taken by it. -/
def Taken (C : Crypto) (cfg : Config) (i : Wcid) (h : Handler) (pAd : RTMP_ADAPTER) (e : Event)
    (Elem : MLME_QUEUE_ELEM) : Prop :=
  ∃ env, e = .key env i Elem ∧ handlerOf cfg (pAd.Content i) Elem = some h ∧
    (perform C cfg e pAd).1 = .handled

/-- A message 2 is taken whose MIC is right under the key of the BSS, the nonce in force and the
nonce of the station, and a message 3 is sent with the counter. -/
def Offered (C : Crypto) (cfg : Config) (i : Wcid) (pAd : RTMP_ADAPTER) (e : Event)
    (counter : BitVec 64) : Prop :=
  let entry := pAd.Content i
  let mbss := pAd.MBSSID entry.apidx
  ∃ Elem, Taken C cfg i .PeerPairMsg2Action pAd e Elem ∧
    MicIsMac C
      (WpaDerivePTK C mbss.PMK entry.ANonce mbss.Bssid Elem.Msg.KeyDesc.KeyNonce entry.Addr)
      Elem.Msg ∧
    (.entry i, .pairMsg3 counter entry.ANonce mbss.DefaultKeyId mbss.GTK) ∈
      (perform C cfg e pAd).2.1

/-- A message 4 is taken with the counter, whose MIC is right under the key of the entry. -/
def Confirmed (C : Crypto) (cfg : Config) (i : Wcid) (pAd : RTMP_ADAPTER) (e : Event)
    (counter : BitVec 64) : Prop :=
  ∃ Elem, Taken C cfg i .PeerPairMsg4Action pAd e Elem ∧
    MicIsMac C (pAd.Content i).PTK Elem.Msg ∧ Elem.Msg.KeyDesc.ReplayCounter = counter

theorem msg2_step (hAP : cfg.OpMode = .AP) (h : Waiting (pAd.Content i))
    (hh : handlerOf cfg (pAd.Content i) Elem = some .PeerPairMsg2Action) :
    Keeps (pAd.Content i) ((step C cfg pAd (.key env i Elem)).Content i) ∨
    Offered C cfg i pAd (.key env i Elem)
        ((step C cfg pAd (.key env i Elem)).Content i).R_Counter ∧
      Waiting ((step C cfg pAd (.key env i Elem)).Content i) := by
  have heq := key_onEntry C env hh rfl
  have hself : (step C cfg pAd (.key env i Elem)).Content i =
      (PeerPairMsg2Action C cfg env i Elem (localOf cfg pAd i)).next.entry := by
    rw [step, heq, onEntry_self]
  rcases msg2_waiting C env i Elem hAP (l := localOf cfg pAd i) h with hk | ⟨hsend, hg, hwait⟩
  · left
    rwa [hself]
  · right
    rw [hself, hsend, sendMsg3_R_Counter, derivePtk_R_Counter, localOf_entry]
    constructor
    · use Elem
      constructor
      · use env
        constructor
        · rfl
        · rw [heq, onEntry_verdict, hsend, sendMsg3_verdict]
          exact ⟨hh, rfl⟩
      · constructor
        · have hmic := micIsMac_of_genuine h (wellFormed_of_handlerOf hh).1 hg
          rwa [derivePtk_PTK] at hmic
        · rw [heq, onEntry_acts, hsend, sendMsg3_acts]
          exact List.mem_singleton.mpr rfl
    · exact hwait

theorem msg4_step (hAP : cfg.OpMode = .AP) (h : Waiting (pAd.Content i))
    (hh : handlerOf cfg (pAd.Content i) Elem = some .PeerPairMsg4Action) :
    Keeps (pAd.Content i) ((step C cfg pAd (.key env i Elem)).Content i) ∨
    Confirmed C cfg i pAd (.key env i Elem) (pAd.Content i).R_Counter ∧
      (pAd.Content i).WpaState = .AS_PTKINIT_NEGOTIATING := by
  have heq := key_onEntry C env hh rfl
  have hself : (step C cfg pAd (.key env i Elem)).Content i =
      (PeerPairMsg4Action C cfg env i Elem (localOf cfg pAd i)).next.entry := by
    rw [step, heq, onEntry_self]
  rw [hself]
  rcases msg4_waiting C env i Elem hAP (l := localOf cfg pAd i) h with hk | ⟨hverdict, hstate, hg⟩
  · exact .inl hk
  · refine .inr ⟨⟨Elem, ⟨env, rfl, hh, ?_⟩, ?_, hg.1⟩, hstate⟩
    · rw [heq, onEntry_verdict, hverdict]
    · exact micIsMac_of_genuine h (wellFormed_of_handlerOf hh).1 hg

theorem table_keeps {handler : Handler} (h : Waiting (pAd.Content i))
    (hh : handlerOf cfg (pAd.Content j) Elem = some handler)
    (hf : handler.onLocal C cfg env j Elem = none) :
    Keeps (pAd.Content i) ((step C cfg pAd (.key env j Elem)).Content i) := by
  have hsame : ∀ {s' : RTMP_ADAPTER}, s'.Content i = pAd.Content i →
      Keeps (pAd.Content i) (s'.Content i) := fun hs => hs ▸ h.keeps
  cases handler with
  | RTMPHandleSTAKey =>
    simp only [step, perform, WpaEAPOLKeyAction, hh, hf]
    exact hsame (handleSTAKey_content h.not_done)
  | HandleCounterMeasure =>
    simp only [step, perform, WpaEAPOLKeyAction, hh, hf]
    exact counterMeasure_keeps h
  | updateGroupKey =>
    simp only [step, perform, WpaEAPOLKeyAction, hh, hf]
    exact hsame (updateGroupKey_content h.not_done)
  | _ => cases hf

theorem key_step (hAP : cfg.OpMode = .AP) (h : Waiting (pAd.Content i)) :
    Keeps (pAd.Content i) ((step C cfg pAd (.key env i Elem)).Content i) ∨
    Offered C cfg i pAd (.key env i Elem)
        ((step C cfg pAd (.key env i Elem)).Content i).R_Counter ∧
      Waiting ((step C cfg pAd (.key env i Elem)).Content i) ∨
    Confirmed C cfg i pAd (.key env i Elem) (pAd.Content i).R_Counter ∧
      (pAd.Content i).WpaState = .AS_PTKINIT_NEGOTIATING := by
  have hsupp : ∀ type, takesSupplicant cfg Elem type (localOf cfg pAd i).entry = false :=
    fun type => takesSupplicant_ap hAP h.kind
  cases hh : handlerOf cfg (pAd.Content i) Elem with
  | none =>
    left
    simp only [step, perform, WpaEAPOLKeyAction, hh]
    exact h.keeps
  | some handler =>
    have hown : ∀ {f}, handler.onLocal C cfg env i Elem = some f →
        (step C cfg pAd (.key env i Elem)).Content i = (f (localOf cfg pAd i)).next.entry := by
      intro f hf
      rw [step, key_onEntry C env hh hf, onEntry_self]
    cases handler with
    | PeerPairMsg1Action =>
      left
      rw [hown rfl, PeerPairMsg1Action, if_pos (hsupp _)]
      exact h.keeps
    | PeerPairMsg3Action =>
      left
      rw [hown rfl, PeerPairMsg3Action, if_pos (hsupp _)]
      exact h.keeps
    | PeerGroupMsg1Action =>
      left
      rw [hown rfl, PeerGroupMsg1Action, if_pos (hsupp _)]
      exact h.keeps
    | PeerPairMsg2Action => exact (msg2_step hAP h hh).imp_right .inl
    | PeerPairMsg4Action => exact (msg4_step hAP h hh).imp_right .inr
    | PeerGroupMsg2Action =>
      left
      rw [hown rfl]
      exact groupMsg2_keeps (l := localOf cfg pAd i) h
    | updatePairwiseKey =>
      left
      rw [hown rfl]
      exact updatePairwiseKey_keeps (l := localOf cfg pAd i) h
    | RTMPHandleSTAKey => exact .inl (table_keeps h hh rfl)
    | HandleCounterMeasure => exact .inl (table_keeps h hh rfl)
    | updateGroupKey => exact .inl (table_keeps h hh rfl)

theorem onEntry_keeps {f : Local → Out} (h : Waiting (pAd.Content i))
    (hf : j = i → Keeps (pAd.Content i) (f (localOf cfg pAd i)).next.entry) :
    Keeps (pAd.Content i) ((onEntry cfg f j pAd).2.2.Content i) := by
  rw [onEntry_content]
  rcases eq_or_ne j i with rfl | hji
  · rw [update_self]
    exact hf rfl
  · rw [update_of_ne hji.symm]
    exact h.keeps

theorem other_key_keeps (hji : j ≠ i) (h : Waiting (pAd.Content i)) :
    Keeps (pAd.Content i) ((step C cfg pAd (.key env j Elem)).Content i) := by
  cases hh : handlerOf cfg (pAd.Content j) Elem with
  | none =>
    simp only [step, perform, WpaEAPOLKeyAction, hh]
    exact h.keeps
  | some handler =>
    cases hf : handler.onLocal C cfg env j Elem with
    | none => exact table_keeps h hh hf
    | some f =>
      rw [step, key_onEntry C env hh hf]
      exact onEntry_keeps h fun heq => (hji heq).elim

theorem handshake_step (hAP : cfg.OpMode = .AP) {e : Event} (he : e.OfHandshake)
    (h : Waiting (pAd.Content i)) :
    Keeps (pAd.Content i) ((step C cfg pAd e).Content i) ∨
    Offered C cfg i pAd e ((step C cfg pAd e).Content i).R_Counter ∧
      Waiting ((step C cfg pAd e).Content i) ∨
    Confirmed C cfg i pAd e (pAd.Content i).R_Counter ∧
      (pAd.Content i).WpaState = .AS_PTKINIT_NEGOTIATING := by
  cases e with
  | key env j Elem =>
    rcases eq_or_ne j i with rfl | hji
    · exact key_step hAP h
    · exact .inl (other_key_keeps hji h)
  | eapolStart env j internal =>
    exact .inl (onEntry_keeps h fun _ => eapolStart_keeps (l := localOf cfg pAd i) h internal)
  | start4Way env j =>
    exact .inl (onEntry_keeps h fun _ => start4Way_keeps (l := localOf cfg pAd i) h)
  | retry env j =>
    exact .inl (onEntry_keeps h fun _ => retry_keeps (l := localOf cfg pAd i) h)
  | _ => exact he.elim

/-- A message 3 has been sent with the counter, in answer to a message 2 that was right. -/
def Asked (C : Crypto) (cfg : Config) (i : Wcid) (start : RTMP_ADAPTER) (past : List Event)
    (counter : BitVec 64) : Prop :=
  ∃ before e₂ later, past = before ++ e₂ :: later ∧
    Offered C cfg i (Run.exec (step C cfg) start before) e₂ counter

/-- A message 4 has been taken that was right, with the counter of a message 3 sent before. -/
def Proved (C : Crypto) (cfg : Config) (i : Wcid) (start : RTMP_ADAPTER) (past : List Event) :
    Prop :=
  ∃ before e₄ later counter, past = before ++ e₄ :: later ∧
    Asked C cfg i start before counter ∧
    Confirmed C cfg i (Run.exec (step C cfg) start before) e₄ counter

variable {start : RTMP_ADAPTER} {past : List Event}

theorem Asked.concat {counter : BitVec 64} (h : Asked C cfg i start past counter) (e : Event) :
    Asked C cfg i start (past ++ [e]) counter := by
  obtain ⟨before, e₂, later, rfl, hoff⟩ := h
  exact ⟨before, e₂, later ++ [e], by simp, hoff⟩

theorem Proved.concat (h : Proved C cfg i start past) (e : Event) :
    Proved C cfg i start (past ++ [e]) := by
  obtain ⟨before, e₄, later, counter, rfl, hask, hconf⟩ := h
  exact ⟨before, e₄, later ++ [e], counter, by simp, hask, hconf⟩

structure Guarded (C : Crypto) (cfg : Config) (i : Wcid) (start : RTMP_ADAPTER)
    (past : List Event) (pAd : RTMP_ADAPTER) : Prop where
  reached : pAd = Run.exec (step C cfg) start past
  waiting : ¬ Proved C cfg i start past → Waiting (pAd.Content i)
  asked : ¬ Proved C cfg i start past → (pAd.Content i).WpaState = .AS_PTKINIT_NEGOTIATING →
    Asked C cfg i start past (pAd.Content i).R_Counter

theorem Guarded.step (hAP : cfg.OpMode = .AP) {e : Event} (he : e.OfHandshake)
    (h : Guarded C cfg i start past pAd) :
    Guarded C cfg i start (past ++ [e]) (step C cfg pAd e) := by
  have hreached : Wpa.step C cfg pAd e = Run.exec (Wpa.step C cfg) start (past ++ [e]) := by
    rw [Run.exec_append, ← h.reached]
    rfl
  by_cases hproved : Proved C cfg i start past
  · have hnext := hproved.concat e
    exact ⟨hreached, fun hno => (hno hnext).elim, fun hno => (hno hnext).elim⟩
  · have hwait := h.waiting hproved
    rcases handshake_step hAP he hwait with hk | ⟨hoff, hnext⟩ | ⟨hconf, hstate⟩
    · refine ⟨hreached, fun _ => hk.waiting, fun _ hstate => ?_⟩
      obtain ⟨hbefore, hcounter⟩ := hk.counter hstate
      rw [hcounter]
      exact (h.asked hproved hbefore).concat e
    · refine ⟨hreached, fun _ => hnext, fun _ _ => ?_⟩
      exact ⟨past, e, [], rfl, h.reached ▸ hoff⟩
    · have hnext : Proved C cfg i start (past ++ [e]) :=
        ⟨past, e, [], _, rfl, h.asked hproved hstate, h.reached ▸ hconf⟩
      exact ⟨hreached, fun hno => (hno hnext).elim, fun hno => (hno hnext).elim⟩

/-- A client that uses a pre-shared key and has not got as far as a message 3. -/
structure Unsecured (e : MAC_TABLE_ENTRY) : Prop where
  kind : e.EntryType = .CLIENT
  psk : e.AuthMode = .WPAPSK ∨ e.AuthMode = .WPA2PSK
  cipher : e.WepStatus = .Encryption2Enabled ∨ e.WepStatus = .Encryption3Enabled
  port : e.PortSecured = .WPA_802_1X_PORT_NOT_SECURED
  state : e.WpaState < .AS_PTKINIT_NEGOTIATING

theorem Unsecured.guarded (C : Crypto) (cfg : Config) (h : Unsecured (start.Content i)) :
    Guarded C cfg i start [] start := by
  have hno : (start.Content i).WpaState ≠ .AS_PTKINIT_NEGOTIATING := h.state.ne
  refine ⟨rfl, fun _ => ⟨?_, h.psk, h.cipher, h.port, h.state.le, fun hs => (hno hs).elim⟩,
    fun _ hs => (hno hs).elim⟩
  rw [h.kind]
  exact nofun

/-- When the port of a station is open, a message 2 has been taken whose MIC is right under the
key of the BSS and the two nonces, and after it a message 4 with the counter of the message 3
that was sent in between, whose MIC is right under the key of the entry. -/
theorem port_opens_after_proof (C : Crypto) (hAP : cfg.OpMode = .AP)
    (hstart : Unsecured (start.Content i)) {es : List Event} (hes : ∀ e ∈ es, e.OfHandshake)
    (hopen : ((Run.exec (step C cfg) start es).Content i).PortSecured =
      .WPA_802_1X_PORT_SECURED) : Proved C cfg i start es := by
  have hrun : Run.AllSteps (step C cfg) (fun _ e => e.OfHandshake) start es :=
    .of_forall fun e he _ => hes e he
  have hall := Run.exec_trace (J := Guarded C cfg i start)
    (fun past s e h he => Guarded.step hAP he h) [] (hstart.guarded C cfg) hrun
  by_contra hno
  have hclosed := (hall.waiting hno).port
  rw [hopen] at hclosed
  cases hclosed

/-- A message of the 4-way handshake to an authenticator, with a MIC of zeros. -/
def pairMsg (counter : BitVec 64) (KeyDataLen : BitVec 16) : MLME_QUEUE_ELEM :=
  { MsgLen := 131
    Msg :=
      { ProVer := 1
        ProType := 3
        Body_Len := 95
        KeyDesc :=
          { (default : KEY_DESCRIPTER) with
            DescType := 2
            KeyInfo := ⟨0x01, 0x0A⟩
            ReplayCounter := counter
            KeyDataLen } } }

/-- An access point with a client that has a pre-shared key. -/
def pskAp : RTMP_ADAPTER :=
  { (default : RTMP_ADAPTER) with
    Content := fun _ =>
      { (default : MAC_TABLE_ENTRY) with
        EntryType := .CLIENT
        AuthMode := .WPA2PSK
        WepStatus := .Encryption3Enabled
        Sst := .SST_ASSOC
        WpaState := .AS_INITPSK
        PortSecured := .WPA_802_1X_PORT_NOT_SECURED } }

def apConfig : Config := ⟨.AP, false, 1, 1⟩
def ready : Env := ⟨false, default, true, fun _ => true, 0⟩

def sumHash : Crypto :=
  { (default : Crypto) with RT_HMAC_SHA1 := fun _ data => Vector.replicate 20 (data.foldl (· + ·) 0) }

def tkipAp : RTMP_ADAPTER :=
  { pskAp with Content := fun i => { pskAp.Content i with WepStatus := .Encryption2Enabled } }

def tkipMsg (info : Byte) (counter : BitVec 64) (KeyDataLen : BitVec 16) : MLME_QUEUE_ELEM :=
  { pairMsg counter KeyDataLen with Msg.KeyDesc.KeyInfo := ⟨info, 0x09⟩ }

def drawing (r : Byte) : Env := { ready with random := Vector.replicate 32 r }

theorem port_opens_after_proof_run :
    Proved default apConfig 0 pskAp
      [.start4Way ready 0, .key ready 0 (pairMsg 1 1), .key ready 0 (pairMsg 2 0)] :=
  port_opens_after_proof default rfl ⟨rfl, .inr rfl, .inr rfl, rfl, by decide⟩
    (by simp [Event.OfHandshake]) (by decide +kernel)

end Ralink.Wpa
