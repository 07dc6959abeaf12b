import Ralink.Wsc.Attributes

/-! For everything that is done with an attribute, the condition on the attribute under which no
access leaves the message or a field. -/
namespace Ralink.Wsc

open Tlv (Attr)
open ByteStore Sized

variable {env : Env} {m : Mem} {a : Attr} {f : Field} (p : Plain) {off n : Nat}

@[simp] theorem length_bytes (m : Mem) (f : Field) : (m.bytes f).length = f.size :=
  length_readBytes _ _ _

@[simp] theorem length_number (n v : Nat) : (number n v).length = n := by simp [number]

theorem isSome_put {bs : List UInt8} :
    (put m f off bs).isSome ↔ off + bs.length ≤ f.size := Sized.isSome_put

theorem isSome_get : (get m f off n).isSome ↔ off + n ≤ f.size := Sized.isSome_get

def Compares (xs : List UInt8) (a : Attr) : Prop :=
  a.len ≤ (xs.zip a.rest).length ∨ ∃ p ∈ (xs.zip a.rest).take a.len, p.1 ≠ p.2

theorem isSome_compare {xs : List UInt8} :
    (RTMPCompareMemory xs a.rest a.len).isSome ↔ Compares xs a := by
  rw [RTMPCompareMemory, Option.isSome_map]
  exact isSome_scan

def Printable (s : List UInt8) (strLen : Nat) : Prop := ∀ b ∈ s.take (strLen % 256), ¬ Unprintable b

theorem isSome_print {s : List UInt8} :
    (RTMPCheckStrPrintAble s n).isSome ↔ n % 256 ≤ s.length ∨ ¬ Printable s n := by
  rw [RTMPCheckStrPrintAble, Option.isSome_map, isSome_scan, Printable]
  simp only [not_forall, not_not, exists_prop]

theorem print_eq_some {s : List UInt8} {printable : Bool}
    (h : RTMPCheckStrPrintAble s n = some printable) : printable = true ↔ Printable s n := by
  obtain ⟨r, hr, rfl⟩ := Option.map_eq_some_iff.mp h
  rw [Option.isNone_iff_eq_none]
  exact scan_snd hr

def Action.Fits (m : Mem) (a : Attr) : Action → Prop
  | skip => True
  | peek => 1 ≤ a.rest.length
  | store n f | storeSwapped n f => n ≤ a.rest.length ∧ n ≤ f.size
  | copy fs => a.len ≤ a.rest.length ∧ ∀ f ∈ fs, a.len ≤ f.size
  | compare f => Compares (m.bytes f) a

theorem isSome_perform (action : Action) : (action.perform m a).isSome ↔ action.Fits m a := by
  cases action with
  | skip => exact iff_of_true rfl trivial
  | peek => exact isSome_bind_left isSome_slice fun _ _ => rfl
  | store n f =>
    refine isSome_bind_iff isSome_slice fun bs hbs => ?_
    rw [isSome_put, length_of_slice hbs, Nat.zero_add]
  | storeSwapped n f =>
    refine isSome_bind_iff isSome_slice fun bs hbs => ?_
    rw [isSome_put, List.length_reverse, length_of_slice hbs, Nat.zero_add]
  | copy fs =>
    refine isSome_bind_iff isSome_slice fun bs hbs => ?_
    rw [isSome_putAll, length_of_slice hbs]
  | compare f =>
    exact isSome_bind_left isSome_compare fun _ _ => rfl

def RowFits (rows : List (Nat × Action)) (m : Mem) (a : Attr) : Prop :=
  ∀ action, rows.lookup a.type = some action → action.Fits m a

theorem isSome_performRow {rows : List (Nat × Action)} :
    (performRow rows m a).isSome ↔ RowFits rows m a := by
  unfold performRow RowFits
  cases rows.lookup a.type with
  | none => simp
  | some action => simp [isSome_perform]

def ssidLength (a : Attr) : Nat := ((a.rest.take a.len).takeWhile fun b => !decide (b = 0)).length

/-- The search for the terminator ends inside the message. -/
def Terminated (a : Attr) : Prop := a.len ≤ a.rest.length ∨ ∃ b ∈ a.rest.take a.len, b = 0

theorem isSome_terminator :
    (scan (· = (0 : UInt8)) a.len a.rest).isSome ↔ Terminated a := isSome_scan

theorem terminator_eq {r : Nat × Option UInt8} (h : scan (· = (0 : UInt8)) a.len a.rest = some r) :
    r.1 = ssidLength a ∧ r.1 ≤ a.rest.length := ⟨scan_fst h, scan_fst_le h⟩

theorem isSome_M7Ssid : (M7Ssid m a).isSome ↔ Terminated a ∧ ssidLength a ≤ 32 := by
  refine isSome_bind_iff isSome_terminator fun r hr => ?_
  obtain ⟨hlen, hle⟩ := terminator_eq hr
  refine isSome_bind_right (isSome_put.mpr (by simp [Field.size, Credential.size])) fun m₁ _ => ?_
  refine isSome_bind_right (isSome_slice.mpr hle) fun bs hbs => ?_
  refine isSome_bind_left ?_ fun m₂ _ => isSome_put.mpr (by simp [Field.size])
  rw [isSome_put, length_of_slice hbs, hlen, Nat.zero_add]
  rfl

theorem isSome_M7Key : (M7Key m a).isSome ↔ a.len ≤ a.rest.length ∧ a.len ≤ 64 := by
  unfold M7Key
  by_cases h0 : a.len = 0
  · simp [h0]
  · rw [if_neg h0]
    refine isSome_bind_right (isSome_put.mpr (by simp [Field.size, Credential.size])) fun m₁ _ => ?_
    refine isSome_bind_iff isSome_slice fun bs hbs => ?_
    rw [isSome_put, length_of_slice hbs, Nat.zero_add]
    rfl

def EncrSettingFits (env : Env) (m : Mem) (a : Attr) : Prop :=
  if env.CONFIG_STA_SUPPORT ∧ a.type = WSC_ID_SSID then Terminated a ∧ ssidLength a ≤ 32
  else if env.CONFIG_STA_SUPPORT ∧ a.type = WSC_ID_NW_KEY then
    a.len ≤ a.rest.length ∧ a.len ≤ 64
  else if env.CONFIG_STA_SUPPORT then
    RowFits (encrSettingsRows ++ credentialRows .WscM7Profile 0) m a
  else RowFits encrSettingsRows m a

theorem isSome_encrSetting (m : Mem) (a : Attr) :
    (encrSetting env m a).isSome ↔ EncrSettingFits env m a := by
  unfold encrSetting EncrSettingFits
  by_cases h₁ : env.CONFIG_STA_SUPPORT ∧ a.type = WSC_ID_SSID
  · rw [if_pos h₁, if_pos h₁]
    exact isSome_M7Ssid
  rw [if_neg h₁, if_neg h₁]
  by_cases h₂ : env.CONFIG_STA_SUPPORT ∧ a.type = WSC_ID_NW_KEY
  · rw [if_pos h₂, if_pos h₂]
    exact isSome_M7Key
  rw [if_neg h₂, if_neg h₂]
  by_cases h₃ : env.CONFIG_STA_SUPPORT
  · rw [if_pos h₃, if_pos h₃]
    exact isSome_performRow
  · rw [if_neg h₃, if_neg h₃]
    exact isSome_performRow

/-- There are twelve bytes for the authenticator, and every attribute fits. -/
def SettingsFit (env : Env) (p : Plain) (m : Mem) : Prop :=
  12 ≤ p.length ∧ Run.AllTries (encrSetting env) (EncrSettingFits env) m (Tlv.attrs Attr.len p.block)

theorem hmacLen_le : ((p.length - 12) % 65536).toNat ≤ p.block.length ↔ 12 ≤ p.length := by
  have hgt := p.length_gt
  rw [p.length_block]
  omega

theorem isSome_encrSettings (m : Mem) :
    (WscParseEncrSettings env p m).isSome ↔ SettingsFit env p m := by
  unfold WscParseEncrSettings SettingsFit
  rw [and_comm (a := 12 ≤ p.length)]
  refine isSome_bind_iff ?_ fun m₁ _ => ?_
  · rw [Tlv.walk_eq]
    exact Run.isSome_tryExec isSome_encrSetting
  · refine (isSome_bind_left isSome_slice fun _ _ => rfl).trans ?_
    exact hmacLen_le p

/-- Of that many requests for memory, only the last one may be refused. -/
def Granted (env : Env) (requests n : Nat) : Prop :=
  ∀ i, i + 1 < n → env.os_alloc_mem (requests + i) = true

theorem granted_succ {k : Nat} :
    Granted env k (n + 1) ↔ (0 < n → env.os_alloc_mem k = true) ∧ Granted env (k + 1) n := by
  have hplus : ∀ i, k + 1 + i = k + (i + 1) := fun i => by omega
  constructor
  · intro h
    refine ⟨fun hn => h 0 (by omega), fun i hi => ?_⟩
    rw [hplus]
    exact h (i + 1) (by omega)
  · rintro ⟨h0, h⟩ i hi
    cases i with
    | zero => exact h0 (by omega)
    | succ i =>
      rw [← hplus]
      exact h i (by omega)

section

variable {Key before CipherText : List UInt8} {c : Cbc}

theorem decryptBlock_eq (env : Env) (Key CipherBlock : List UInt8)
    (hc : c.PlainBlockStart + 16 ≤ 1024) :
    ∃ m', decryptBlock env Key CipherBlock c =
      some ({ c with mem := m', requests := c.requests + 1 },
        if env.os_alloc_mem c.requests then 16 else 1024 - c.PlainBlockStart) := by
  unfold decryptBlock
  rw [if_neg (by omega)]
  cases halloc : env.os_alloc_mem c.requests with
  | false => exact ⟨c.mem, rfl⟩
  | true =>
    have hput : (put c.mem .ApEncrSettings c.PlainBlockStart
        (env.RT_AES_Decrypt Key CipherBlock).toList).isSome :=
      isSome_put.mpr (by simpa [Field.size] using hc)
    obtain ⟨m', hm'⟩ := Option.isSome_iff_exists.mp hput
    refine ⟨m', ?_⟩
    rw [if_neg Bool.noConfusion, hm']
    rfl

theorem decryptBlocks_done (h : CipherText.length < 16) :
    decryptBlocks env Key before CipherText c = some c := by
  unfold decryptBlocks
  rw [if_neg (by omega)]

theorem decryptBlocks_turn (h : 16 ≤ CipherText.length) (hc : c.PlainBlockStart + 16 ≤ 1024) :
    ∃ m', decryptBlocks env Key before CipherText c =
      decryptBlocks env Key (CipherText.take 16) (CipherText.drop 16)
        ⟨m', if env.os_alloc_mem c.requests then c.PlainBlockStart + 16 else 1024,
          c.requests + 1⟩ := by
  obtain ⟨m₁, hblock⟩ := decryptBlock_eq env Key (CipherText.take 16) hc
  have hget : (get m₁ .ApEncrSettings c.PlainBlockStart 16).isSome := isSome_get.mpr hc
  obtain ⟨bs, hbs⟩ := Option.isSome_iff_exists.mp hget
  have hput : (put m₁ .ApEncrSettings c.PlainBlockStart
      (List.zipWith (· ^^^ ·) bs before)).isSome := by
    rw [isSome_put, List.length_zipWith, length_of_get hbs]
    exact (Nat.add_le_add_left (Nat.min_le_left _ _) _).trans hc
  obtain ⟨m', hm'⟩ := Option.isSome_iff_exists.mp hput
  refine ⟨m', ?_⟩
  conv_lhs => unfold decryptBlocks
  rw [if_pos h, hblock]
  simp only [Option.bind_eq_bind, Option.bind_some, hbs, hm']
  cases env.os_alloc_mem c.requests with
  | false => simp only [Bool.false_eq_true, if_false, Nat.add_sub_cancel' (by omega : c.PlainBlockStart ≤ 1024)]
  | true => rfl

theorem decryptBlocks_full (h : 16 ≤ CipherText.length) (hc : c.PlainBlockStart = 1024) :
    decryptBlocks env Key before CipherText c = none := by
  unfold decryptBlocks decryptBlock
  rw [if_pos h, if_pos (by omega)]
  have hget : get c.mem .ApEncrSettings c.PlainBlockStart 16 = none := by
    rw [← Option.not_isSome_iff_eq_none, isSome_get, hc]
    decide
  simp only [Option.bind_eq_bind, Option.bind_some, hget, Option.bind_none]

theorem isSome_decryptBlocks (n : Nat) (hn : CipherText.length / 16 = n)
    (hc : c.PlainBlockStart + CipherText.length ≤ 1024) :
    (decryptBlocks env Key before CipherText c).isSome ↔ Granted env c.requests n := by
  induction n generalizing before CipherText c with
  | zero =>
    rw [decryptBlocks_done (by omega)]
    exact iff_of_true rfl fun i hi => by omega
  | succ n ih =>
    have h16 : 16 ≤ CipherText.length := by omega
    have hdrop : (CipherText.drop 16).length = CipherText.length - 16 := List.length_drop
    have hroom16 : c.PlainBlockStart + 16 ≤ 1024 := by omega
    obtain ⟨m', hturn⟩ := decryptBlocks_turn h16 hroom16
    rw [hturn, granted_succ]
    cases halloc : env.os_alloc_mem c.requests with
    | true =>
      rw [if_pos rfl]
      have hroom : c.PlainBlockStart + 16 + (CipherText.drop 16).length ≤ 1024 := by omega
      refine (ih (c := ⟨m', c.PlainBlockStart + 16, c.requests + 1⟩) (by omega) hroom).trans ?_
      exact (and_iff_right fun _ => rfl).symm
    | false =>
      rw [if_neg Bool.noConfusion]
      rcases Nat.eq_zero_or_pos n with rfl | hpos
      · rw [decryptBlocks_done (by omega)]
        exact iff_of_true rfl ⟨fun h => by omega, fun i hi => by omega⟩
      · rw [decryptBlocks_full (by omega) rfl]
        exact iff_of_false Bool.noConfusion fun h => Bool.noConfusion (h.1 hpos)

theorem decryptBlocks_start {c' : Cbc} (n : Nat) (hn : CipherText.length / 16 = n)
    (h0 : 0 < n ∨ 0 < c.PlainBlockStart) (hc : c.PlainBlockStart + CipherText.length ≤ 1024)
    (h : decryptBlocks env Key before CipherText c = some c') :
    0 < c'.PlainBlockStart ∧ c'.PlainBlockStart ≤ 1024 := by
  induction n generalizing before CipherText c with
  | zero =>
    rw [decryptBlocks_done (by omega)] at h
    cases h
    exact ⟨h0.resolve_left (Nat.lt_irrefl 0), by omega⟩
  | succ n ih =>
    have h16 : 16 ≤ CipherText.length := by omega
    have hdrop : (CipherText.drop 16).length = CipherText.length - 16 := List.length_drop
    have hroom16 : c.PlainBlockStart + 16 ≤ 1024 := by omega
    obtain ⟨m', hturn⟩ := decryptBlocks_turn h16 hroom16
    rw [hturn] at h
    cases halloc : env.os_alloc_mem c.requests with
    | true =>
      rw [if_pos halloc] at h
      have hroom : c.PlainBlockStart + 16 + (CipherText.drop 16).length ≤ 1024 := by omega
      exact ih (c := ⟨m', c.PlainBlockStart + 16, c.requests + 1⟩) (by omega)
        (.inr (Nat.succ_pos _)) hroom h
    | false =>
      rw [if_neg (by rw [halloc]; exact Bool.noConfusion)] at h
      rcases Nat.eq_zero_or_pos n with rfl | hpos
      · rw [decryptBlocks_done (by omega)] at h
        cases h
        exact ⟨(by decide : 0 < 1024), le_rfl⟩
      · rw [decryptBlocks_full (by omega) rfl] at h
        exact (Option.not_mem_none _ h).elim

/-- A text that is no number of blocks does no harm, and one that is needs memory for each
block but the last. -/
def DecryptFits (env : Env) (requests n : Nat) : Prop :=
  n % 16 = 0 → Granted env requests (n / 16)

theorem isSome_decrypt {IV : List UInt8} {requests : Nat} (h0 : 0 < CipherText.length)
    (hroom : CipherText.length ≤ 1024) :
    (AES_CBC_Decrypt env CipherText IV m requests).isSome ↔
      DecryptFits env requests CipherText.length := by
  unfold AES_CBC_Decrypt DecryptFits
  by_cases h16 : CipherText.length % 16 = 0
  · rw [if_neg (not_not.mpr h16), imp_iff_right h16]
    have hstart : 0 + CipherText.length ≤ 1024 := by omega
    refine isSome_bind_left (isSome_decryptBlocks (c := ⟨m, 0, requests⟩) _ rfl hstart)
      fun c' hc' => ?_
    obtain ⟨hpos, hle⟩ := decryptBlocks_start (c := ⟨m, 0, requests⟩) _ rfl
      (.inl (by omega)) hstart hc'
    have hlast : (get c'.mem .ApEncrSettings (c'.PlainBlockStart - 1) 1).isSome :=
      isSome_get.mpr (by show _ ≤ 1024; omega)
    have htext : (get c'.mem .ApEncrSettings 0 c'.PlainBlockStart).isSome :=
      isSome_get.mpr (by show _ ≤ 1024; omega)
    obtain ⟨last, hlast⟩ := Option.isSome_iff_exists.mp hlast
    obtain ⟨text, htext⟩ := Option.isSome_iff_exists.mp htext
    simp only [if_neg hpos.ne', hlast, htext, Option.bind_eq_bind, Option.bind_some]
    rfl
  · rw [if_pos h16]
    exact iff_of_true rfl fun h => (h16 h).elim

end

theorem le_size_credential (p : Profile) (i : Nat) (c : Credential) {n : Nat} (h0 : 0 < n) :
    n ≤ (Field.Credential p i c).size ↔ i < 8 ∧ n ≤ c.size := by
  show (n ≤ if i < 8 then c.size else 0) ↔ _
  by_cases hi : i < 8
  · rw [if_pos hi]
    exact (and_iff_right hi).symm
  · rw [if_neg hi]
    exact iff_of_false (by omega) fun h => hi h.1

theorem isSome_put_number {s : Credentials} {c : Credential} {v : Nat} (h0 : 0 < c.size) :
    (put s.mem (.Credential .WscProfile s.CurrentIdx c) 0 (number c.size v)).isSome ↔
      s.CurrentIdx < 8 := by
  rw [isSome_put, length_number, Nat.zero_add, le_size_credential _ _ _ h0]
  exact and_iff_left le_rfl

theorem isSome_put_credential {s : Credentials} {c : Credential} {bs : List UInt8}
    (hi : s.CurrentIdx < 8) (m : Mem) :
    (put m (.Credential .WscProfile s.CurrentIdx c) 0 bs).isSome ↔ bs.length ≤ c.size := by
  rw [isSome_put, Nat.zero_add]
  show (bs.length ≤ if s.CurrentIdx < 8 then c.size else 0) ↔ _
  rw [if_pos hi]

/-- A name that is kept has to be one of at most 32 bytes. -/
def SsidFits (env : Env) (i : Nat) (a : Attr) : Prop :=
  Terminated a ∧ i < 8 ∧
    (Printable a.rest (ssidLength a) ∨ env.bCheckMultiByte = false → ssidLength a ≤ 32)

theorem isSome_credentialSsid {s : Credentials} :
    (credentialSsid env s a).isSome ↔ SsidFits env s.CurrentIdx a := by
  refine isSome_bind_iff isSome_terminator fun r hr => ?_
  obtain ⟨hlen, hle⟩ := terminator_eq hr
  have hput := isSome_put_number (s := s) (c := .SsidLength) (v := r.1) (by decide)
  refine isSome_bind_iff hput fun m₁ hm₁ => ?_
  have hi : s.CurrentIdx < 8 := hput.mp (Option.isSome_iff_exists.mpr ⟨m₁, hm₁⟩)
  have hprint : (RTMPCheckStrPrintAble a.rest r.1).isSome := isSome_print.mpr (.inl (by omega))
  refine isSome_bind_right hprint fun printable hp => ?_
  rw [← hlen, ← print_eq_some hp]
  by_cases hkept : printable = true ∨ env.bCheckMultiByte = false
  · rw [if_pos hkept, imp_iff_right hkept]
    refine isSome_bind_right (isSome_slice.mpr hle) fun bs hbs => ?_
    refine isSome_bind_left ?_ fun m₂ _ => rfl
    rw [isSome_put_credential hi, length_of_slice hbs]
    rfl
  · rw [if_neg hkept]
    exact iff_of_true rfl fun h => (hkept h).elim

/-- A key that is kept has to be one of at most 64 bytes, all of them there. -/
def KeyFits (env : Env) (i : Nat) (a : Attr) : Prop :=
  a.len ≠ 0 →
    (a.len % 256 ≤ a.rest.length ∨ ¬ Printable a.rest a.len) ∧
      (Printable a.rest a.len ∨ env.bCheckMultiByte = false →
        i < 8 ∧ a.len ≤ a.rest.length ∧ a.len ≤ 64)

theorem isSome_credentialKey {s : Credentials} :
    (credentialKey env s a).isSome ↔ KeyFits env s.CurrentIdx a := by
  unfold credentialKey KeyFits
  by_cases h0 : a.len = 0
  · rw [if_pos h0]
    exact iff_of_true rfl fun h => (h h0).elim
  rw [if_neg h0, imp_iff_right h0]
  refine isSome_bind_iff isSome_print fun printable hp => ?_
  rw [← print_eq_some hp]
  by_cases hkept : printable = true ∨ env.bCheckMultiByte = false
  · rw [if_pos hkept, imp_iff_right hkept]
    have hput := isSome_put_number (s := s) (c := .KeyLength) (v := a.len) (by decide)
    refine isSome_bind_iff hput fun m₁ hm₁ => ?_
    have hi : s.CurrentIdx < 8 := hput.mp (Option.isSome_iff_exists.mpr ⟨m₁, hm₁⟩)
    refine isSome_bind_iff isSome_slice fun bs hbs => ?_
    refine isSome_bind_left ?_ fun m₂ _ => rfl
    rw [isSome_put_credential hi, length_of_slice hbs]
    rfl
  · rw [if_neg hkept]
    exact iff_of_true rfl fun h => (hkept h).elim

def CredentialAttrFits (env : Env) (s : Credentials) (a : Attr) : Prop :=
  if s.refused ∨ a.type = WSC_ID_NW_INDEX then True
  else if a.type = WSC_ID_SSID then SsidFits env s.CurrentIdx a
  else if a.type = WSC_ID_NW_KEY then KeyFits env s.CurrentIdx a
  else RowFits (credentialRows .WscProfile s.CurrentIdx) s.mem a

theorem isSome_credentialAttr (s : Credentials) (a : Attr) :
    (credentialAttr env s a).isSome ↔ CredentialAttrFits env s a := by
  unfold credentialAttr CredentialAttrFits
  by_cases h₀ : s.refused = true
  · rw [if_pos h₀, if_pos (.inl h₀)]
    exact iff_of_true rfl trivial
  rw [if_neg h₀]
  by_cases h₁ : a.type = WSC_ID_NW_INDEX
  · rw [if_pos h₁, if_pos (.inr h₁)]
    exact iff_of_true rfl trivial
  rw [if_neg h₁, if_neg (not_or.mpr ⟨h₀, h₁⟩)]
  by_cases h₂ : a.type = WSC_ID_SSID
  · rw [if_pos h₂, if_pos h₂]
    exact isSome_credentialSsid
  rw [if_neg h₂, if_neg h₂]
  by_cases h₃ : a.type = WSC_ID_NW_KEY
  · rw [if_pos h₃, if_pos h₃]
    exact isSome_credentialKey
  rw [if_neg h₃, if_neg h₃]
  exact isSome_bind_left isSome_performRow fun _ _ => rfl

/-- The search for WEP ends at one of the eight credentials. -/
def WepFits (env : Env) (Cnt : Nat) (m : Mem) : Prop :=
  env.bEnableWpsV2 = true → Cnt ≤ 8 ∨ ∃ t ∈ (encrTypes m).take Cnt, t = WSC_ENCRTYPE_WEP

theorem isSome_rejectWep {Cnt : Nat} : (rejectWep env Cnt m).isSome ↔ WepFits env Cnt m := by
  unfold rejectWep WepFits
  by_cases h : env.bEnableWpsV2
  · rw [if_pos h, imp_iff_right h]
    refine isSome_bind_left ?_ fun r _ => ?_
    · rw [isSome_scan, encrTypes, List.length_map, List.length_range]
    · obtain ⟨_, wep⟩ := r
      cases wep <;> rfl
  · rw [if_neg h]
    exact iff_of_true rfl fun h' => (h h').elim

def startCredentials (m : Mem) : Credentials := ⟨m.zero (isProfile .WscProfile), 0, 0, false⟩

/-- Every attribute fits, and at the end so does the number of credentials. -/
def CredentialsFit (env : Env) (p : Plain) (m : Mem) : Prop :=
  Run.AllTries (credentialAttr env) (CredentialAttrFits env) (startCredentials m)
      (Tlv.attrs credentialSpan p.block) ∧
    ∀ s, Tlv.walk credentialSpan (credentialAttr env) p.block (startCredentials m) = some s →
      s.refused = false → WepFits env s.Cnt s.mem

theorem wepFits_congr {m' : Mem} {Cnt : Nat}
    (h : put m (.ProfileCnt .WscProfile) 0 (number 4 Cnt) = some m') :
    WepFits env Cnt m' ↔ WepFits env Cnt m := by
  have hsame : encrTypes m' = encrTypes m := List.map_congr_left fun i _ => by
    unfold Mem.bytes
    rw [put_other h (by simp)]
  unfold WepFits
  rw [hsame]

theorem isSome_processCredential (p : Plain) (m : Mem) :
    (WscProcessCredential env p m).isSome ↔ CredentialsFit env p m := by
  unfold WscProcessCredential CredentialsFit
  refine isSome_bind.trans (and_congr ?_ (forall_congr' fun s => imp_congr_right fun _ => ?_))
  · rw [Tlv.walk_eq]
    exact Run.isSome_tryExec isSome_credentialAttr
  · by_cases hr : s.refused = true
    · rw [if_pos hr]
      exact iff_of_true rfl fun h => Bool.noConfusion (h.symm.trans hr)
    · rw [if_neg hr, imp_iff_right (Bool.eq_false_iff.mpr hr)]
      have hput : (put s.mem (.ProfileCnt .WscProfile) 0 (number 4 s.Cnt)).isSome :=
        isSome_put.mpr (by simp [Field.size])
      exact isSome_bind_right hput fun m' hm' => isSome_rejectWep.trans (wepFits_congr hm')

end Ralink.Wsc
