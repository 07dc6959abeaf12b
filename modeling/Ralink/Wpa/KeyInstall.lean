import Ralink.Wpa.KeyElements

/-! The bytes that a key is made from, and when the group key that is found in key data is installed
as it is. -/
namespace Ralink.Wpa.KeyData
open Function

def material (key : CIPHER_KEY) : List Byte :=
  match key.CipherAlg with
  | .CIPHER_NONE => []
  | .CIPHER_TKIP => key.Key.toList ++ key.RxMic.toList ++ key.TxMic.toList
  | _ => key.Key.toList.take key.KeyLen

def IsGtkLen : CipherAlg → Nat → Prop
  | .CIPHER_NONE, _ => False
  | .CIPHER_WEP64, len => len = 5 ∨ len = 13
  | .CIPHER_WEP128, len => len = 5 ∨ len = 13
  | .CIPHER_TKIP, len => len = 32
  | .CIPHER_AES, len => len = 16

/-- The group key in use is this one, under its index, and a station has given it to the
hardware. -/
def Installs (cfg : Config) (e : MAC_TABLE_ENTRY) (link : APCLI_STRUCT) (acts : List Act)
    (g : Found) : Prop :=
  link.DefaultKeyId = g.1 ∧ material (link.SharedKey g.1) = g.2 ∧
    match cfg.OpMode with
    | .AP => e.EntryType = .APCLI
    | .STA => .installShared g.1 (link.SharedKey g.1) ∈ acts

/-- Whether a key of the length is installed as it is. An AP client refuses a key that is too
short, but cuts one that is too long. -/
def Fits (cfg : Config) (e : MAC_TABLE_ENTRY) (link : APCLI_STRUCT) (len : Nat) : Prop :=
  match cfg.OpMode with
  | .AP => e.EntryType = .APCLI ∧ (link.GroupCipher = .Encryption3Enabled → len ≤ 16)
  | .STA => 0 < cfg.MAX_MBSSID_NUM ∧ IsGtkLen (groupAlg link.GroupCipher) len

section Install

variable {cfg : Config} {e : MAC_TABLE_ENTRY} {link : APCLI_STRUCT} {gtk pGtk : List Byte}
  {idx n : Nat} {alg : CipherAlg} (bAE : Bool)

theorem toList_firstBytes {bs : List Byte} (h : n ≤ bs.length) : (firstBytes n bs).toList = bs.take n := by
  apply List.ext_getElem
  · simp [h]
  · intro i hi _
    have hi : i < n := by simpa using hi
    simp only [firstBytes, Vector.getElem_toList, Vector.getElem_ofFn, List.getElem_take]
    exact List.getD_eq_getElem _ _ (by omega)

theorem material_groupKey (h : IsGtkLen alg gtk.length) (rest : List Byte) :
    material (groupKey alg false (gtk ++ rest) gtk.length) = gtk := by
  have hwep : gtk.length = 5 ∨ gtk.length = 13 →
      (firstBytes 16 (((gtk ++ rest).take gtk.length))).toList.take gtk.length = gtk := by
    intro hlen
    rw [List.take_left]
    apply List.ext_getElem
    · simp
      omega
    · intro i _ hi
      simp only [firstBytes, List.getElem_take, Vector.getElem_toList, Vector.getElem_ofFn]
      exact List.getD_eq_getElem _ _ hi
  cases alg with
  | CIPHER_NONE => exact h.elim
  | CIPHER_WEP64 => exact hwep h
  | CIPHER_WEP128 => exact hwep h
  | CIPHER_TKIP =>
    have hlen : gtk.length = 32 := h
    have hKey : (firstBytes 16 (gtk ++ rest)).toList = gtk.take 16 := by
      rw [toList_firstBytes (by simp; omega), List.take_append_of_le_length (by omega)]
    have hRx : (firstBytes 8 ((gtk ++ rest).drop 16)).toList = (gtk.drop 16).take 8 := by
      rw [List.drop_append_of_le_length (by omega), toList_firstBytes (by simp; omega),
        List.take_append_of_le_length (by simp; omega)]
    have hTx : (firstBytes 8 ((gtk ++ rest).drop 24)).toList = (gtk.drop 16).drop 8 := by
      rw [List.drop_append_of_le_length (by omega), toList_firstBytes (by simp; omega),
        List.take_append_of_le_length (by simp; omega), List.drop_drop,
        List.take_of_length_le (by simp; omega)]
    show (firstBytes 16 (gtk ++ rest)).toList ++ (firstBytes 8 ((gtk ++ rest).drop 16)).toList ++
      (firstBytes 8 ((gtk ++ rest).drop 24)).toList = gtk
    rw [hKey, hRx, hTx, List.append_assoc, List.take_append_drop, List.take_append_drop]
  | CIPHER_AES =>
    have hlen : gtk.length = 16 := h
    show (firstBytes 16 (gtk ++ rest)).toList.take 16 = gtk
    rw [toList_firstBytes (by simp; omega), List.take_take, Nat.min_self, ← hlen]
    exact List.take_left

theorem length_material_tkip (len : Nat) :
    (material { groupKey .CIPHER_TKIP bAE pGtk n with KeyLen := len }).length = 32 := by
  simp [material, groupKey]

theorem length_material_aes : (material (groupKey .CIPHER_AES bAE pGtk n)).length = 16 := by
  simp [material, groupKey]

theorem isGtkLen_of_material (hne : alg ≠ .CIPHER_NONE) (hlen : badGtkLen alg gtk.length = false)
    (h : material (groupKey alg false pGtk gtk.length) = gtk) : IsGtkLen alg gtk.length := by
  cases alg with
  | CIPHER_NONE => exact hne rfl
  | CIPHER_WEP64 => simpa [badGtkLen, IsGtkLen, or_iff_not_imp_left] using hlen
  | CIPHER_WEP128 => simpa [badGtkLen, IsGtkLen, or_iff_not_imp_left] using hlen
  | CIPHER_TKIP => exact (congrArg List.length h).symm.trans (length_material_tkip (n := gtk.length) false 16)
  | CIPHER_AES => exact (congrArg List.length h).symm.trans (length_material_aes false)

theorem badGtkLen_of_isGtkLen (h : IsGtkLen alg n) : badGtkLen alg n = false := by
  cases alg with
  | CIPHER_NONE => exact h.elim
  | CIPHER_WEP64 => rcases h with rfl | rfl <;> rfl
  | CIPHER_WEP128 => rcases h with rfl | rfl <;> rfl
  | CIPHER_TKIP => cases h; rfl
  | CIPHER_AES => cases h; rfl

theorem installs_sta_iff (hop : cfg.OpMode = .STA) (hidx : idx < 4) :
    Installs cfg e (installGroupKey cfg e link (idx, gtk)).2.1
        (installGroupKey cfg e link (idx, gtk)).2.2 (idx, gtk) ↔
      0 < cfg.MAX_MBSSID_NUM ∧ IsGtkLen (groupAlg link.GroupCipher) gtk.length := by
  have hnot : ¬ idx > 3 := by omega
  simp only [installGroupKey, if_neg hnot, hop, Installs, WPAInstallSharedKey]
  by_cases hmax : 0 ≥ cfg.MAX_MBSSID_NUM
  · simp only [if_pos hmax, List.not_mem_nil, and_false, false_iff]
    omega
  · rw [if_neg hmax]
    by_cases halg : groupAlg link.GroupCipher = .CIPHER_NONE
    · simp [halg, IsGtkLen]
    · rw [if_neg halg]
      by_cases hbad : badGtkLen (groupAlg link.GroupCipher) gtk.length = true
      · rw [if_pos hbad]
        simp only [List.not_mem_nil, and_false, false_iff]
        rintro ⟨-, hlen⟩
        rw [badGtkLen_of_isGtkLen hlen] at hbad
        cases hbad
      · rw [if_neg hbad]
        simp only [update_self, List.mem_singleton, and_true, true_and]
        constructor
        · intro hmaterial
          exact ⟨by omega, isGtkLen_of_material halg (by simpa using hbad) hmaterial⟩
        · rintro ⟨-, hlen⟩
          exact material_groupKey hlen _

theorem installs_apcli_iff (hop : cfg.OpMode = .AP) (hentry : e.EntryType = .APCLI) (hidx : idx < 4)
    (hroom : gtk.length ≤ MAX_LEN_GTK) (hok : (installGroupKey cfg e link (idx, gtk)).1 = true) :
    Installs cfg e (installGroupKey cfg e link (idx, gtk)).2.1
        (installGroupKey cfg e link (idx, gtk)).2.2 (idx, gtk) ↔
      (link.GroupCipher = .Encryption3Enabled → gtk.length ≤ 16) := by
  have hnot : ¬ idx > 3 := by omega
  unfold MAX_LEN_GTK at hroom
  simp only [installGroupKey, if_neg hnot, hop, hentry, if_true, APCliInstallSharedKey, Installs]
    at hok ⊢
  by_cases htkip : link.GroupCipher = .Encryption2Enabled ∧ gtk.length ≥ 32
  · have hlen : IsGtkLen .CIPHER_TKIP gtk.length := Nat.le_antisymm hroom htkip.2
    have hmaterial := material_groupKey hlen []
    rw [List.append_nil] at hmaterial
    rw [if_pos htkip, htkip.1]
    simp only [update_self, and_true, true_and]
    exact iff_of_true hmaterial nofun
  · rw [if_neg htkip] at hok ⊢
    by_cases haes : link.GroupCipher = .Encryption3Enabled ∧ gtk.length ≥ 16
    · rw [if_pos haes]
      simp only [update_self, and_true, true_and]
      constructor
      · intro hmaterial _
        have hlen := congrArg List.length hmaterial
        rw [length_material_aes] at hlen
        exact hlen.ge
      · intro hmost
        have hlen : IsGtkLen .CIPHER_AES gtk.length := Nat.le_antisymm (hmost haes.1) haes.2
        have hmaterial := material_groupKey hlen []
        rwa [List.append_nil] at hmaterial
    · rw [if_neg haes] at hok
      cases hok

theorem fits_of_refused (hop : cfg.OpMode = .AP) (hentry : e.EntryType = .APCLI) (hidx : idx < 4)
    (hno : (installGroupKey cfg e link (idx, gtk)).1 = false) : Fits cfg e link gtk.length := by
  have hnot : ¬ idx > 3 := by omega
  simp only [installGroupKey, if_neg hnot, hop, hentry, if_true, APCliInstallSharedKey] at hno
  rw [Fits, hop]
  refine ⟨hentry, ?_⟩
  intro haes
  by_contra hlen
  rw [if_neg (by rw [haes]; nofun), if_pos ⟨haes, by omega⟩] at hno
  cases hno

theorem acts_of_nil (hop : cfg.OpMode = .STA) : (installGroupKey cfg e link (idx, [])).2.2 = [] := by
  have hbad : badGtkLen (groupAlg link.GroupCipher) 0 = true := by
    cases groupAlg link.GroupCipher <;> rfl
  simp only [installGroupKey, hop, WPAInstallSharedKey, List.length_nil, hbad]
  split
  · rfl
  · split
    · rfl
    · split <;> rfl

theorem not_fits_nil (hop : cfg.OpMode = .STA) : ¬ Fits cfg e link 0 := by
  rw [Fits, hop]
  rintro ⟨-, hlen⟩
  cases halg : groupAlg link.GroupCipher <;> rw [halg] at hlen <;> simp [IsGtkLen] at hlen

theorem installs_iff {found : Found} {carried : Option Found} (hidx : found.1 < 4)
    (hroom : found.2.length ≤ MAX_LEN_GTK) (hcarried : carried = some found ∨ found.2 = []) :
    ((installGroupKey cfg e link found).1 = true → ∃ g, carried = some g ∧
        Installs cfg e (installGroupKey cfg e link found).2.1
          (installGroupKey cfg e link found).2.2 g) ↔
      Fits cfg e link found.2.length := by
  obtain ⟨idx, gtk⟩ := found
  simp only at hidx hroom hcarried ⊢
  have hnot : ¬ idx > 3 := by omega
  cases hop : cfg.OpMode with
  | AP =>
    by_cases hentry : e.EntryType = .APCLI
    · cases hok : (installGroupKey cfg e link (idx, gtk)).1 with
      | false => exact iff_of_true nofun (fits_of_refused hop hentry hidx hok)
      | true =>
        have hinstalls := installs_apcli_iff hop hentry hidx hroom hok
        rcases hcarried with rfl | rfl
        · simp only [forall_const, Option.some.injEq, exists_eq_left', hinstalls, Fits, hop,
            hentry, true_and]
        · simp [installGroupKey, hnot, hop, hentry, APCliInstallSharedKey] at hok
    · have hok : (installGroupKey cfg e link (idx, gtk)).1 = true := by
        simp only [installGroupKey, if_neg hnot, hop, if_neg hentry]
      simp only [hok, Installs, hop, hentry, Fits, and_false, false_and, forall_const,
        exists_false]
  | STA =>
    have hok : (installGroupKey cfg e link (idx, gtk)).1 = true := by
      simp only [installGroupKey, if_neg hnot, hop]
    have hinstalls := @installs_sta_iff cfg e link gtk idx hop hidx
    rcases hcarried with rfl | rfl
    · simp only [hok, forall_const, Option.some.injEq, exists_eq_left', hinstalls, Fits, hop]
    · apply iff_of_false
      · intro h
        obtain ⟨g, -, -, -, hact⟩ := h hok
        rw [hop, acts_of_nil hop] at hact
        cases hact
      · exact not_fits_nil hop

end Install

end Ralink.Wpa.KeyData
