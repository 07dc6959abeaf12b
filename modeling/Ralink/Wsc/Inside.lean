import Ralink.Wsc.Fits
import Ralink.Wsc.Messages

/-! A message is parsed without an access outside of it and of the fields exactly if it is not
longer than `LastRx`, every attribute fits when it is come to, and the data for the authenticator
fits its buffer. -/
namespace Ralink.Wsc

open Tlv (Attr)
open ByteStore Sized

variable {env : Env} {m : Mem} {a : Attr} {s : Rx}

/-- The headers of the sub-elements are there up to the one that is too long for the
attribute, and the data of a version is the one byte of it. -/
def SubItemFits (SubID : UInt8) (limit : Int) : Nat → List UInt8 → Prop
  | Length, Eid :: Len :: Octet =>
    (Length + 2 + Len.toNat : Nat) ≤ limit →
      if Eid = SubID then Len.toNat ≤ Octet.length ∧ Len.toNat ≤ 1
      else SubItemFits SubID limit (Length + 2 + Len.toNat) (Octet.drop Len.toNat)
  | _, _ => False
termination_by _ bs => bs.length
decreasing_by
  simp only [List.length_drop, List.length_cons]
  omega

theorem isSome_subItem {β : Type*} {SubID : UInt8} {limit : Int} (Length : Nat) (bs : List UInt8)
    {k : Option (List UInt8) → Option β} (hnone : (k none).isSome)
    (hsome : ∀ bs, (k (some bs)).isSome ↔ bs.length ≤ 1) :
    ((WscParseV2SubItem SubID limit Length bs).bind k).isSome ↔
      SubItemFits SubID limit Length bs := by
  fun_induction WscParseV2SubItem SubID limit Length bs with
  | case1 Length Len Octet hle =>
    rw [SubItemFits, imp_iff_right hle, if_pos rfl, Option.bind_map]
    refine isSome_bind_iff isSome_slice fun bs hbs => ?_
    rw [Function.comp_apply, hsome, length_of_slice hbs]
  | case2 Length Eid Len Octet hle hne ih =>
    rw [SubItemFits, imp_iff_right hle, if_neg hne]
    exact ih
  | case3 Length Eid Len Octet hle =>
    rw [SubItemFits]
    exact iff_of_true hnone fun h => (hle h).elim
  | case4 Length bs h =>
    rw [SubItemFits]
    · exact iff_of_false Bool.noConfusion id
    · exact h

def VendorExtFits (env : Env) (a : Attr) : Prop :=
  env.bEnableWpsV2 = true → SubItemFits 0 ((a.len : Int) - 3) 0 (a.rest.drop 3)

theorem isSome_vendorExt : (vendorExt env m a).isSome ↔ VendorExtFits env a := by
  unfold vendorExt VendorExtFits
  by_cases h : env.bEnableWpsV2
  · rw [if_pos h, imp_iff_right h]
    refine isSome_subItem 0 (a.rest.drop 3) rfl fun bs => ?_
    exact isSome_put.trans (by rw [Nat.zero_add]; rfl)
  · rw [if_neg h]
    exact iff_of_true rfl fun h' => (h h').elim

theorem isSome_scState : (scState env m a).isSome ↔ 2 ≤ a.rest.length := by
  refine isSome_bind_left isSome_slice fun bs hbs => ?_
  have hput : (put m (.PeerInfo .ScState) 0 (bs.take 1)).isSome := by
    rw [isSome_put, Nat.zero_add, List.length_take]
    exact Nat.min_le_left _ _
  obtain ⟨m₁, hm₁⟩ := Option.isSome_iff_exists.mp hput
  simp only [hm₁, Option.bind_eq_bind, Option.bind_some]
  split
  · exact isSome_put.mpr (by simp [Field.size])
  · rfl

theorem isSome_devPwdId : (devPwdId m a).isSome ↔ 2 ≤ a.rest.length := by
  refine isSome_bind_left isSome_slice fun bs _ => ?_
  split
  · exact isSome_put.mpr (by simp [Field.size, DevInfo.size])
  · split
    · exact isSome_put.mpr (by simp [Field.size, DevInfo.size])
    · rfl

theorem isSome_decryptSettings {room : Room} (hlen : 16 < a.len) (hroom : a.len ≤ room.size) :
    (decryptSettings env room s a).isSome ↔
      a.len ≤ a.rest.length ∧ DecryptFits env s.requests (a.len - 16) := by
  refine isSome_bind_iff isSome_slice fun bs hbs => ?_
  have hbs : bs.length = a.len := length_of_slice hbs
  have hput : (put s.mem (.IV_DecrData room.size) 0 bs).isSome :=
    isSome_put.mpr (by rw [Nat.zero_add, hbs]; exact hroom)
  refine isSome_bind_right hput fun m₁ _ => ?_
  have hdrop : (bs.drop 16).length = a.len - 16 := by rw [List.length_drop, hbs]
  have hle := room.le
  rw [isSome_decrypt (by omega) (by omega), hdrop]

/-- What is done with settings that are neither too short nor too long. -/
def Decrypted (env : Env) (room : Room) (s : Rx) (a : Attr) (P : Cbc → Plain → Prop) : Prop :=
  16 < a.len → a.len ≤ room.size →
    (a.len ≤ a.rest.length ∧ DecryptFits env s.requests (a.len - 16)) ∧
      ∀ c p, decryptSettings env room s a = some (c, p) → P c p

def clearM7 (env : Env) (clear : Bool) (m : Mem) : Mem :=
  if clear ∧ env.CONFIG_STA_SUPPORT ∧ env.OPMODE_STA then m.zero (isProfile .WscM7Profile) else m

theorem isSome_decrypted {room : Room} {P : Cbc → Plain → Prop} {k : Cbc × Plain → Option Rx}
    (hk : ∀ c p, (k (c, p)).isSome ↔ P c p) :
    (if a.len ≤ 16 then some s else if room.size < a.len then some s
      else (decryptSettings env room s a).bind k).isSome ↔ Decrypted env room s a P := by
  unfold Decrypted
  by_cases h16 : a.len ≤ 16
  · rw [if_pos h16]
    exact iff_of_true rfl fun h => by omega
  by_cases hroom : room.size < a.len
  · rw [if_neg h16, if_pos hroom]
    exact iff_of_true rfl fun _ h => by omega
  rw [if_neg h16, if_neg hroom, imp_iff_right (by omega), imp_iff_right (by omega)]
  refine isSome_bind.trans
    (and_congr (isSome_decryptSettings (by omega) (by omega)) (Prod.forall.trans ?_))
  exact forall_congr' fun c => forall_congr' fun p => imp_congr_right fun _ => hk c p

def Item.Fits (env : Env) (s : Rx) (a : Attr) : Item → Prop
  | act action => action.Fits s.mem a
  | scState | devPwdId => 2 ≤ a.rest.length
  | vendorExt => VendorExtFits env a
  | encrSettings room clear =>
    Decrypted env room s a fun c p => SettingsFit env p (clearM7 env clear c.mem)
  | credential room => Decrypted env room s a fun c p => CredentialsFit env p c.mem

theorem isSome_item {counted : Bool} (item : Item) :
    (item.perform env counted s a).isSome ↔ item.Fits env s a := by
  cases item with
  | act action => exact isSome_bind_left (isSome_perform action) fun _ _ => rfl
  | scState => exact isSome_bind_left isSome_scState fun _ _ => rfl
  | devPwdId => exact isSome_bind_left isSome_devPwdId fun _ _ => rfl
  | vendorExt => exact isSome_bind_left isSome_vendorExt fun _ _ => rfl
  | encrSettings room clear =>
    exact isSome_decrypted fun c p => isSome_bind_left (isSome_encrSettings p _) fun _ _ => rfl
  | credential room =>
    exact isSome_decrypted fun c p =>
      isSome_bind_left (isSome_processCredential p _) fun _ _ => rfl

/-- The authenticator is there, and what it is computed over fits the buffer. -/
def HmacFits (env : Env) (Length : Nat) : Prop :=
  env.pHmacData = true → 12 ≤ Length ∧ env.LastTxLength + (Length - 12) ≤ 2048

variable {Length : Nat}

theorem isSome_receivedData :
    (receivedData Length m).isSome ↔ 12 ≤ Length ∧ Length - 12 ≤ 2048 := by
  unfold receivedData
  by_cases h : Length < 12
  · rw [if_pos h]
    exact iff_of_false Bool.noConfusion fun h' => by omega
  · rw [if_neg h, isSome_get, Nat.zero_add]
    exact (and_iff_right (Nat.le_of_not_lt h)).symm

theorem length_receivedData {bs : List UInt8} (h : receivedData Length m = some bs) :
    bs.length = Length - 12 := by
  unfold receivedData at h
  by_cases hlt : Length < 12
  · rw [if_pos hlt] at h
    exact (Option.not_mem_none _ h).elim
  · rw [if_neg hlt] at h
    exact length_of_get h

theorem isSome_moveHmacData : (moveHmacData env Length m).isSome ↔ HmacFits env Length := by
  unfold moveHmacData HmacFits
  by_cases h : env.pHmacData
  · rw [if_pos h, imp_iff_right h]
    have hall : env.LastTxLength ≤ 2048 ∧ env.LastTxLength ≤ 2048 ∧
        (12 ≤ Length ∧ Length - 12 ≤ 2048) ∧ env.LastTxLength + (Length - 12) ≤ 2048 ↔
        12 ≤ Length ∧ env.LastTxLength + (Length - 12) ≤ 2048 := by omega
    refine Iff.trans ?_ hall
    refine isSome_bind_iff ?_ fun tx htx => ?_
    · exact isSome_get.trans (by rw [Nat.zero_add]; rfl)
    refine isSome_bind_iff ?_ fun m₁ _ => ?_
    · exact isSome_put.trans (by rw [Nat.zero_add, length_of_get htx]; rfl)
    refine isSome_bind_iff isSome_receivedData fun rx hrx => ?_
    exact isSome_put.trans (by rw [length_receivedData hrx]; rfl)
  · rw [if_neg h]
    exact iff_of_true rfl fun h' => (h h').elim

theorem isSome_hmacMatches (h : HmacFits env Length) : (hmacMatches env Length m).isSome := by
  unfold hmacMatches
  by_cases hdata : env.pHmacData = true
  · obtain ⟨h12, hle⟩ := h hdata
    have hget : (get m .pHmacData 0 (env.LastTxLength + Length - 12)).isSome :=
      isSome_get.mpr (by show _ ≤ 2048; omega)
    obtain ⟨data, hget⟩ := Option.isSome_iff_exists.mp hget
    rw [if_pos hdata, hget]
    rfl
  · rw [if_neg hdata]
    rfl

theorem isSome_authenticate {β : Type*} {k : Mem → Bool → β} :
    ((moveHmacData env Length m).bind fun m =>
      (hmacMatches env Length m).bind fun ok => some (k m ok)).isSome ↔ HmacFits env Length := by
  refine isSome_bind_left isSome_moveHmacData fun m₁ hm₁ => ?_
  have hfits := isSome_moveHmacData.mp (Option.isSome_iff_exists.mpr ⟨m₁, hm₁⟩)
  obtain ⟨ok, hok⟩ := Option.isSome_iff_exists.mp (isSome_hmacMatches (m := m₁) hfits)
  rw [hok]
  rfl

theorem isSome_putInput (c : HashCheck) (m m' : Mem) :
    (put m (.IV_DecrData 512) 0 (c.input m')).isSome := by
  rw [isSome_put, HashCheck.input]
  simp only [List.length_append, length_bytes, c.size]
  decide

def Tail.Fits (env : Env) (Length : Nat) (s : Rx) : Tail → Prop
  | fields => True
  | hmac | deriveHmac | hmacHash _ => HmacFits env Length
  | hashHmac c => c.matched env s.mem = true → HmacFits env Length

theorem isSome_tail (tail : Tail) :
    (tail.perform env Length s).isSome ↔ tail.Fits env Length s := by
  cases tail with
  | fields => exact iff_of_true rfl trivial
  | hmac => exact isSome_authenticate
  | deriveHmac => exact isSome_authenticate
  | hashHmac c =>
    refine isSome_bind_right (isSome_putInput c s.mem s.mem) fun m₁ _ => ?_
    show _ ↔ (c.matched env s.mem = true → HmacFits env Length)
    by_cases h : c.matched env s.mem = true
    · rw [if_pos h, imp_iff_right h]
      exact isSome_authenticate
    · rw [if_neg h]
      exact iff_of_true rfl fun h' => (h h').elim
  | hmacHash c =>
    refine isSome_bind_left isSome_moveHmacData fun m₁ hm₁ => ?_
    have hfits := isSome_moveHmacData.mp (Option.isSome_iff_exists.mpr ⟨m₁, hm₁⟩)
    obtain ⟨m₂, hm₂⟩ := Option.isSome_iff_exists.mp (isSome_putInput c m₁ m₁)
    simp only [hm₂, Option.bind_eq_bind, Option.bind_some]
    by_cases h : c.matched env m₂ = true
    · rw [if_pos h]
      obtain ⟨ok, hok⟩ := Option.isSome_iff_exists.mp (isSome_hmacMatches (m := m₂) hfits)
      rw [hok]
      rfl
    · rw [if_neg h]
      have herror : (put m₂ (.SelfInfo .ConfigError) 0 (number 2 WSC_ERROR_HASH_FAIL)).isSome :=
        isSome_put.mpr (by simp [Field.size, DevInfo.size])
      obtain ⟨m₃, hm₃⟩ := Option.isSome_iff_exists.mp herror
      rw [hm₃]
      rfl

namespace Message

variable (d : Message)

def TurnFits (env : Env) (s : Rx) (a : Attr) : Prop :=
  s.ret = none → ∀ item, d.rows.lookup a.type = some item → item.Fits env s a

theorem isSome_turn (s : Rx) (a : Attr) : (d.turn env s a).isSome ↔ d.TurnFits env s a := by
  unfold turn TurnFits
  cases hret : s.ret with
  | some ret => exact iff_of_true rfl fun h => (Option.some_ne_none ret h).elim
  | none =>
    rw [if_neg (by rw [Option.isSome_none]; exact Bool.noConfusion), imp_iff_right rfl]
    cases d.rows.lookup a.type with
    | none => exact iff_of_true rfl fun item h => (Option.not_mem_none _ h).elim
    | some item =>
      refine (isSome_bind_left (isSome_item item) fun _ _ => rfl).trans ?_
      constructor
      · rintro h item' heq
        cases heq
        exact h
      · intro h
        exact h item rfl

/-- Of a message in `LastRx`, every attribute fits, and so does what comes behind them. -/
def ParseFits (env : Env) (precv : List UInt8) (m : Mem) : Prop :=
  Run.AllTries (d.turn env) (d.TurnFits env) (d.begin m) (Tlv.attrs Attr.len precv) ∧
    ∀ s, Tlv.walk Attr.len (d.turn env) precv (d.begin m) = some s →
      s.ret = none → d.tail.Fits env precv.length s

theorem isSome_parse (precv : List UInt8) (m : Mem) :
    (d.parse env precv m).isSome ↔ d.ParseFits env precv m := by
  unfold parse ParseFits
  refine isSome_bind.trans (and_congr ?_ (forall_congr' fun s => imp_congr_right fun _ => ?_))
  · rw [Tlv.walk_eq]
    exact Run.isSome_tryExec d.isSome_turn
  · cases hret : s.ret with
    | some ret => exact iff_of_true rfl fun h => (Option.some_ne_none ret h).elim
    | none =>
      rw [imp_iff_right rfl]
      exact isSome_tail d.tail

/-- Nothing is read when there is no memory for the settings. -/
def Fits (env : Env) (precv : List UInt8) (m : Mem) : Prop :=
  d.allocates = true ∧ env.os_alloc_mem 0 = false ∨
    precv.length ≤ 2048 ∧
      ∀ m', put (d.start env m) .LastRx 0 precv = some m' → d.ParseFits env precv m'

theorem isSome_process (precv : List UInt8) (m : Mem) :
    (d.process env precv m).isSome ↔ d.Fits env precv m := by
  unfold process Fits
  by_cases h : d.allocates = true ∧ env.os_alloc_mem 0 = false
  · rw [if_pos h]
    exact iff_of_true rfl (.inl h)
  · rw [if_neg h, or_iff_right h]
    refine isSome_bind.trans (and_congr ?_ (forall_congr' fun m' => imp_congr_right fun _ => ?_))
    · exact isSome_put.trans (by rw [Nat.zero_add]; rfl)
    · exact d.isSome_parse precv m'

end Message

/-- Each message, and each block of decrypted settings, is parsed inside its bytes and the
fields exactly if it fits. -/
theorem inside_iff (env : Env) (m : Mem) :
    (∀ precv, (ProcessMessageM1 env precv m).isSome ↔ M1.Fits env precv m) ∧
    (∀ precv, (ProcessMessageM2 env precv m).isSome ↔ M2.Fits env precv m) ∧
    (∀ precv, (ProcessMessageM2D env precv m).isSome ↔ M2D.Fits env precv m) ∧
    (∀ precv, (ProcessMessageM3 env precv m).isSome ↔ M3.Fits env precv m) ∧
    (∀ precv, (ProcessMessageM4 env precv m).isSome ↔ M4.Fits env precv m) ∧
    (∀ precv, (ProcessMessageM5 env precv m).isSome ↔ M5.Fits env precv m) ∧
    (∀ precv, (ProcessMessageM6 env precv m).isSome ↔ M6.Fits env precv m) ∧
    (∀ precv, (ProcessMessageM7 env precv m).isSome ↔ M7.Fits env precv m) ∧
    (∀ precv, (ProcessMessageM8 env precv m).isSome ↔ M8.Fits env precv m) ∧
    (∀ p, (WscParseEncrSettings env p m).isSome ↔ SettingsFit env p m) ∧
    (∀ p, (WscProcessCredential env p m).isSome ↔ CredentialsFit env p m) :=
  ⟨fun precv => M1.isSome_process precv m, fun precv => M2.isSome_process precv m,
    fun precv => M2D.isSome_process precv m, fun precv => M3.isSome_process precv m,
    fun precv => M4.isSome_process precv m, fun precv => M5.isSome_process precv m,
    fun precv => M6.isSome_process precv m, fun precv => M7.isSome_process precv m,
    fun precv => M8.isSome_process precv m, fun p => isSome_encrSettings p m,
    fun p => isSome_processCredential p m⟩

/-- Ciphers and hashes that give nothing but zeros, and memory as long as it is asked for. -/
def plainEnv : Env where
  RT_HMAC_SHA256 _ _ := .replicate 32 0
  RT_SHA256 _ := .replicate 32 0
  RT_AES_Decrypt _ _ := .replicate 16 0
  RT_DH_PublicKey_Generate _ := .replicate 192 0
  RT_DH_SecretKey_Generate _ _ := .replicate 192 0
  WscDeriveKey _ := (.replicate 32 0, .replicate 16 0, .replicate 32 0)
  RandomByte := .replicate 192 0
  os_alloc_mem _ := true
  pHmacData := true
  LastTxLength := 0
  bCheckMultiByte := true
  bEnableWpsV2 := true
  CONFIG_STA_SUPPORT := false
  OPMODE_STA := false

def authenticator (n : UInt8) : List UInt8 := [0x10, 0x05, 0, n] ++ List.replicate n.toNat 0

example : (ProcessMessageM3 plainEnv (authenticator 8) fun _ _ => 0).isSome := by decide +kernel

/-- An authenticator of nine bytes is copied behind the eight of `Hmac`. -/
theorem long_authenticator :
    ¬ (ProcessMessageM3 plainEnv (authenticator 9) fun _ _ => 0).isSome := by
  decide +kernel

end Ralink.Wsc
