import Ralink.Bss.Cipher

/-! What the stored bytes have to be for `BssCipherParse` to stay inside of them: no length and no
count of an element is compared with what is left. -/
namespace Ralink.Bss.Cipher
open Rsn (IE_WPA IE_RSN le16)
open Sized

def wordAt (b : List UInt8) (i : Nat) : UInt16 := le16 (b.getD i 0) (b.getD (i + 1) 0)

/-- What the loop over `n` AKM suites and the capability need from the first suite on. A turn goes on
by as many suites as are left, and another OUI ends the loop. -/
def AkmsInside : Nat → List UInt8 → Prop
  | 0, b => 2 ≤ b.length
  | n + 1, b =>
    3 ≤ b.length ∧ (b.take 3 = RSN_OUI → 4 ≤ b.length ∧ AkmsInside n (b.drop ((n + 1) * 4)))

/-- A WPA element, from its first byte on: its pairwise suites, and the first AKM suite behind them. -/
def WpaInside (b : List UInt8) : Prop :=
  5 ≤ b.length ∧ (¬ ((b.drop 2).take 3 = SES_OUI ∧ b.getD 1 0 = 7) →
    6 ≤ b.length ∧ ((b.drop 2).take 4 = WPA_OUI → 20 + 4 * (wordAt b 12).toNat ≤ b.length))

/-- An RSN element of version 1: its pairwise suites, and its AKM suites behind them. -/
def RsnInside (b : List UInt8) : Prop :=
  4 ≤ b.length ∧ (wordAt b 2 = 1 → 7 ≤ b.length ∧ ((b.drop 4).take 3 = RSN_OUI →
    12 + 4 * (wordAt b 8).toNat ≤ b.length ∧
      AkmsInside (wordAt b (10 + 4 * (wordAt b 8).toNat)).toNat
        (b.drop (12 + 4 * (wordAt b 8).toNat))))

def ElementInside (b : List UInt8) : Prop :=
  2 ≤ b.length ∧ (b.getD 0 0 = IE_WPA → WpaInside b) ∧ (b.getD 0 0 = IE_RSN → RsnInside b)

/-- Every element that the walk comes to is inside; the last one may be longer than what is left. -/
inductive ElementsInside : List UInt8 → Prop
  | nil : ElementsInside []
  | cons {b : List UInt8} (inside : ElementInside b)
      (rest : ElementsInside (b.drop ((b.getD 1 0).toNat + 2))) : ElementsInside b

section Inside

variable {b : List UInt8} {n : Nat} {c : CIPHER_SUITE} {pBss pBss' : BSS_ENTRY} {i : Nat}
  {w : UInt16}

theorem getElem?_getD (h : i < b.length) : b[i]? = some (b.getD i 0) := by
  rw [List.getElem?_eq_getElem h, List.getD_eq_getElem b 0 h]

theorem getD_drop (b : List UInt8) (i k : Nat) : (b.drop i).getD k 0 = b.getD (i + k) 0 := by
  rw [List.getD_eq_getElem?_getD, List.getD_eq_getElem?_getD, List.getElem?_drop]

theorem wordAt_drop (b : List UInt8) (i k : Nat) : wordAt (b.drop i) k = wordAt b (i + k) := by
  rw [wordAt, wordAt, getD_drop, getD_drop, Nat.add_assoc]

theorem loadWord_eq (h : 2 ≤ b.length) : loadWord b = some (wordAt b 0) := by
  simp only [loadWord, getElem?_getD (show 0 < b.length by omega),
    getElem?_getD (show 1 < b.length by omega), Option.bind_eq_bind, Option.bind_some]
  rfl

theorem loadWord_none (h : b.length < 2) : loadWord b = none := by
  match b with
  | [] => rfl
  | [_] => rfl
  | _ :: _ :: b =>
    simp only [List.length_cons] at h
    omega

theorem isSome_loadWord : (loadWord b).isSome ↔ 2 ≤ b.length := by
  by_cases h : 2 ≤ b.length
  · rw [loadWord_eq h]
    exact iff_of_true rfl h
  · rw [loadWord_none (not_le.mp h)]
    exact iff_of_false Bool.noConfusion h

theorem slice_eq (h : n ≤ b.length) : slice b n = some (b.take n) := if_pos h

theorem pairLoop_some (h : 4 * n ≤ b.length) : ∃ c', pairLoop n b c = some (b.drop (4 * n), c') := by
  induction n generalizing b c with
  | zero => exact ⟨c, rfl⟩
  | succ n ih =>
    have hlen : 4 * n ≤ (b.drop 4).length := by
      rw [List.length_drop]
      omega
    obtain ⟨c', hloop⟩ := @ih (b.drop 4) (c.pair (pairCipher (b.getD 3 0))) hlen
    refine ⟨c', ?_⟩
    simp only [pairLoop, getElem?_getD (show 3 < b.length by omega), Option.bind_eq_bind,
      Option.bind_some, hloop, List.drop_drop]
    rw [show 4 + 4 * n = 4 * (n + 1) by ring]

theorem pairLoop_none (h : b.length < 4 * n) : pairLoop n b c = none := by
  induction n generalizing b c with
  | zero => exact absurd h (Nat.not_lt_zero _)
  | succ n ih =>
    rw [pairLoop]
    by_cases h3 : 3 < b.length
    · rw [getElem?_getD h3, Option.bind_eq_bind, Option.bind_some]
      apply ih
      rw [List.length_drop]
      omega
    · rw [List.getElem?_eq_none (not_lt.mp h3)]
      rfl

theorem isSome_akmLoop : ((akmLoop n b pBss).bind fun next => loadWord next.1).isSome ↔
    AkmsInside n b := by
  induction n generalizing b pBss with
  | zero => exact isSome_loadWord
  | succ n ih =>
    rw [AkmsInside]
    by_cases h3 : 3 ≤ b.length
    · rw [and_iff_right h3]
      simp only [akmLoop, slice_eq h3, Option.bind_eq_bind, Option.bind_some]
      by_cases houi : b.take 3 = RSN_OUI
      · rw [if_neg (not_not_intro houi), imp_iff_right houi]
        by_cases h4 : 4 ≤ b.length
        · rw [getElem?_getD (show 3 < b.length by omega), Option.bind_some, and_iff_right h4]
          exact ih
        · rw [List.getElem?_eq_none (by omega)]
          exact iff_of_false Bool.noConfusion fun h => h4 h.1
      · rw [if_pos houi, Option.bind_some]
        exact iff_of_true (isSome_loadWord.mpr (show 2 ≤ b.length by omega)) fun h => absurd h houi
    · have hnone : slice b 3 = none := if_neg h3
      simp only [akmLoop, hnone, Option.bind_eq_bind, Option.bind_none]
      exact iff_of_false Bool.noConfusion fun h => h3 h.1

theorem isSome_getElem? : (b[i]?).isSome ↔ i < b.length := by
  simp

theorem isSome_pairLoop : (pairLoop n b c).isSome ↔ 4 * n ≤ b.length := by
  by_cases h : 4 * n ≤ b.length
  · obtain ⟨c', hloop⟩ := @pairLoop_some b n c h
    rw [hloop]
    exact iff_of_true rfl h
  · rw [pairLoop_none (not_le.mp h)]
    exact iff_of_false Bool.noConfusion h

theorem pairLoop_fst {next : List UInt8 × CIPHER_SUITE} (h : pairLoop n b c = some next) :
    next.1 = b.drop (4 * n) := by
  obtain ⟨c', hloop⟩ := @pairLoop_some b n c (isSome_pairLoop.mp (by rw [h]; rfl))
  rw [h, Option.some.injEq] at hloop
  rw [hloop]

theorem loadWord_wordAt (h : loadWord (b.drop i) = some w) : w = wordAt b i := by
  have hlen := isSome_loadWord.mp (by rw [h]; rfl)
  rw [loadWord_eq hlen, wordAt_drop, Option.some.injEq] at h
  exact h.symm

theorem le_length_of_loadWord (h : loadWord (b.drop i) = some w) : i + 2 ≤ b.length := by
  have hlen := isSome_loadWord.mp (by rw [h]; rfl)
  rw [List.length_drop] at hlen
  omega

theorem isSome_parseWPA :
    (parseWPA b pBss).isSome ↔ 20 + 4 * (wordAt b 12).toNat ≤ b.length := by
  have hparts : (parseWPA b pBss).isSome ↔ 11 < b.length ∧ 14 ≤ b.length ∧
      14 + 4 * (wordAt b 12).toNat ≤ b.length ∧ 16 + 4 * (wordAt b 12).toNat ≤ b.length ∧
        20 + 4 * (wordAt b 12).toNat ≤ b.length := by
    rw [parseWPA]
    simp only [List.drop_drop, List.getElem?_drop]
    refine isSome_bind_iff isSome_getElem? fun type _ => ?_
    refine isSome_bind_iff ?_ fun Count hCount => ?_
    · rw [isSome_loadWord, List.length_drop]
      omega
    · have hcount : Count = wordAt b 12 := loadWord_wordAt hCount
      have hlen := le_length_of_loadWord hCount
      rw [hcount]
      refine isSome_bind_iff ?_ fun next hnext => ?_
      · rw [isSome_pairLoop, List.length_drop]
        omega
      · rw [pairLoop_fst hnext, List.drop_drop]
        refine isSome_bind_iff ?_ fun w _ => ?_
        · rw [isSome_loadWord, List.length_drop]
          omega
        · refine isSome_bind_left ?_ fun type _ => rfl
          rw [List.getElem?_drop, isSome_getElem?]
          omega
  rw [hparts]
  omega

theorem isSome_parseRSN : (parseRSN b pBss).isSome ↔
    7 ≤ b.length ∧ ((b.drop 4).take 3 = RSN_OUI →
      12 + 4 * (wordAt b 8).toNat ≤ b.length ∧
        AkmsInside (wordAt b (10 + 4 * (wordAt b 8).toNat)).toNat
          (b.drop (12 + 4 * (wordAt b 8).toNat))) := by
  rw [parseRSN]
  refine isSome_bind_iff ?_ fun oui houi => ?_
  · rw [isSome_slice, List.length_drop]
    omega
  · have houi' : oui = (b.drop 4).take 3 := slice_eq_some houi
    rw [← houi']
    by_cases h : oui = RSN_OUI
    · rw [if_neg (not_not_intro h), imp_iff_right h]
      have hparts : 12 + 4 * (wordAt b 8).toNat ≤ b.length ↔ 7 < b.length ∧ 10 ≤ b.length ∧
          10 + 4 * (wordAt b 8).toNat ≤ b.length ∧ 12 + 4 * (wordAt b 8).toNat ≤ b.length := by
        omega
      rw [hparts, and_assoc, and_assoc, and_assoc]
      simp only [List.drop_drop, List.getElem?_drop]
      refine isSome_bind_iff isSome_getElem? fun type _ => ?_
      refine isSome_bind_iff ?_ fun Count hCount => ?_
      · rw [isSome_loadWord, List.length_drop]
        omega
      · have hcount : Count = wordAt b 8 := loadWord_wordAt hCount
        have hlen := le_length_of_loadWord hCount
        rw [hcount]
        refine isSome_bind_iff ?_ fun next hnext => ?_
        · rw [isSome_pairLoop, List.length_drop]
          omega
        · have hnext' : next.1 = b.drop (10 + 4 * (wordAt b 8).toNat) := by
            rw [pairLoop_fst hnext, List.drop_drop]
          rw [hnext', List.drop_drop]
          refine isSome_bind_iff ?_ fun Akms hAkms => ?_
          · rw [isSome_loadWord, List.length_drop]
            omega
          · have hakms := loadWord_wordAt hAkms
            have hstart : 10 + 4 * (wordAt b 8).toNat + 2 = 12 + 4 * (wordAt b 8).toNat := by omega
            rw [hakms, hstart]
            refine Iff.trans ?_ (@isSome_akmLoop _ _ { pBss with WPA2 := next.2 })
            refine isSome_bind.trans (Iff.trans ?_ isSome_bind.symm)
            refine and_congr_right fun _ => forall_congr' fun a => imp_congr_right fun _ => ?_
            exact isSome_bind_left Iff.rfl fun _ _ => rfl
    · rw [if_pos h]
      exact iff_of_true rfl fun h' => absurd h' h

theorem isSome_parseElement : (parseElement b pBss).isSome ↔ ElementInside b := by
  have hparts : ElementInside b ↔ 0 < b.length ∧ 1 < b.length ∧
      ((b.getD 0 0 = IE_WPA → WpaInside b) ∧ (b.getD 0 0 = IE_RSN → RsnInside b)) := by
    constructor
    · rintro ⟨hlen, hkinds⟩
      exact ⟨by omega, hlen, hkinds⟩
    · rintro ⟨-, hlen, hkinds⟩
      exact ⟨hlen, hkinds⟩
  rw [hparts, parseElement]
  refine isSome_bind_iff isSome_getElem? fun Eid hEid => ?_
  refine isSome_bind_iff isSome_getElem? fun Len hLen => ?_
  have hEid' : b.getD 0 0 = Eid := by rw [List.getD_eq_getElem?_getD, hEid]; rfl
  have hLen' : b.getD 1 0 = Len := by rw [List.getD_eq_getElem?_getD, hLen]; rfl
  rw [hEid']
  by_cases hwpa : Eid = IE_WPA
  · have hrsn : Eid ≠ IE_RSN := by
      rw [hwpa]
      decide
    rw [if_pos hwpa, imp_iff_right hwpa, and_iff_left (fun h => absurd h hrsn), WpaInside, hLen']
    refine isSome_bind_iff ?_ fun oui houi => ?_
    · rw [isSome_slice, List.length_drop]
      omega
    · rw [← slice_eq_some houi]
      by_cases hses : oui = SES_OUI ∧ Len = 7
      · rw [if_pos hses]
        exact iff_of_true rfl fun h => absurd hses h
      · rw [if_neg hses, imp_iff_right hses]
        refine isSome_bind_iff ?_ fun oui' houi' => ?_
        · rw [isSome_slice, List.length_drop]
          omega
        · rw [← slice_eq_some houi']
          by_cases hw : oui' = WPA_OUI
          · rw [if_neg (not_not_intro hw), imp_iff_right hw, Option.isSome_map]
            exact isSome_parseWPA
          · rw [if_pos hw]
            exact iff_of_true rfl fun h => absurd h hw
  · rw [if_neg hwpa, and_iff_right (fun h => absurd h hwpa)]
    by_cases hrsn : Eid = IE_RSN
    · rw [if_pos hrsn, imp_iff_right hrsn, RsnInside]
      refine isSome_bind_iff ?_ fun Version hVersion => ?_
      · rw [isSome_loadWord, List.length_drop]
        omega
      · rw [← loadWord_wordAt hVersion]
        by_cases hone : Version = 1
        · rw [if_neg (not_not_intro hone), imp_iff_right hone, Option.isSome_map]
          exact isSome_parseRSN
        · rw [if_pos hone]
          exact iff_of_true rfl fun h => absurd h hone
    · rw [if_neg hrsn]
      exact iff_of_true rfl fun h => absurd h hrsn

def BSS_ENTRY.stored (pBss : BSS_ENTRY) : List UInt8 × Nat := (pBss.VarIEs, pBss.VarIELen)

theorem stored_setAuth (mode : NDIS_802_11_AUTHENTICATION_MODE) :
    (pBss.setAuth mode).stored = pBss.stored := by
  unfold BSS_ENTRY.setAuth
  split <;> rfl

theorem stored_akmLoop {next : List UInt8 × BSS_ENTRY} (h : akmLoop n b pBss = some next) :
    next.2.stored = pBss.stored := by
  induction n generalizing b pBss with
  | zero =>
    cases h
    rfl
  | succ n ih =>
    obtain ⟨oui, -, h⟩ := Option.bind_eq_some_iff.mp h
    split at h
    · cases h
      rfl
    · obtain ⟨type, -, h⟩ := Option.bind_eq_some_iff.mp h
      rw [ih h, stored_setAuth]

theorem stored_parseWPA (h : parseWPA b pBss = some pBss') : pBss'.stored = pBss.stored := by
  obtain ⟨type, -, h⟩ := Option.bind_eq_some_iff.mp h
  obtain ⟨Count, -, h⟩ := Option.bind_eq_some_iff.mp h
  obtain ⟨next, -, h⟩ := Option.bind_eq_some_iff.mp h
  obtain ⟨w, -, h⟩ := Option.bind_eq_some_iff.mp h
  obtain ⟨akm, -, h⟩ := Option.bind_eq_some_iff.mp h
  have hmode (p : BSS_ENTRY) : (wpaMode akm p).stored = p.stored := by
    unfold wpaMode
    split
    · exact stored_setAuth _
    · split
      · exact stored_setAuth _
      · rfl
  have hfinish (p : BSS_ENTRY) : (finishWPA p).stored = p.stored := by
    unfold finishWPA
    dsimp only
    repeat' split
    all_goals rfl
  rw [← Option.some.inj h, hfinish, hmode]
  rfl

theorem stored_parseRSN (h : parseRSN b pBss = some pBss') : pBss'.stored = pBss.stored := by
  obtain ⟨oui, -, h⟩ := Option.bind_eq_some_iff.mp h
  split at h
  · cases h
    rfl
  · obtain ⟨type, -, h⟩ := Option.bind_eq_some_iff.mp h
    obtain ⟨Count, -, h⟩ := Option.bind_eq_some_iff.mp h
    obtain ⟨next, -, h⟩ := Option.bind_eq_some_iff.mp h
    obtain ⟨Akms, -, h⟩ := Option.bind_eq_some_iff.mp h
    obtain ⟨next', hloop, h⟩ := Option.bind_eq_some_iff.mp h
    obtain ⟨cap, -, h⟩ := Option.bind_eq_some_iff.mp h
    have hfinish (p : BSS_ENTRY) : (finishRSN cap p).stored = p.stored := by
      unfold finishRSN
      dsimp only
      repeat' split
      all_goals rfl
    rw [← Option.some.inj h, hfinish, stored_akmLoop hloop]
    rfl

theorem parseElement_keeps {next : Nat × BSS_ENTRY} (h : parseElement b pBss = some next) :
    next.1 = (b.getD 1 0).toNat ∧ next.2.stored = pBss.stored := by
  obtain ⟨Eid, -, h⟩ := Option.bind_eq_some_iff.mp h
  obtain ⟨Len, hLen, h⟩ := Option.bind_eq_some_iff.mp h
  have hLen' : b.getD 1 0 = Len := by rw [List.getD_eq_getElem?_getD, hLen]; rfl
  rw [hLen']
  split at h
  · obtain ⟨oui, -, h⟩ := Option.bind_eq_some_iff.mp h
    split at h
    · cases h
      exact ⟨rfl, rfl⟩
    · obtain ⟨oui', -, h⟩ := Option.bind_eq_some_iff.mp h
      split at h
      · cases h
        exact ⟨rfl, rfl⟩
      · obtain ⟨p, hp, rfl⟩ := Option.map_eq_some_iff.mp h
        exact ⟨rfl, stored_parseWPA hp⟩
  · split at h
    · obtain ⟨Version, -, h⟩ := Option.bind_eq_some_iff.mp h
      split at h
      · cases h
        exact ⟨rfl, rfl⟩
      · obtain ⟨p, hp, rfl⟩ := Option.map_eq_some_iff.mp h
        exact ⟨rfl, stored_parseRSN hp⟩
    · cases h
      exact ⟨rfl, rfl⟩

theorem elementsInside_iff (hne : b ≠ []) : ElementsInside b ↔
    ElementInside b ∧ ElementsInside (b.drop ((b.getD 1 0).toNat + 2)) := by
  constructor
  · rintro (_ | ⟨inside, rest⟩)
    · exact absurd rfl hne
    · exact ⟨inside, rest⟩
  · rintro ⟨inside, rest⟩
    exact .cons inside rest

theorem isSome_parseElements {Length : Nat} (hle : Length ≤ pBss.VarIELen)
    (hlen : pBss.VarIEs.length = pBss.VarIELen) :
    (parseElements Length pBss).isSome ↔
      ElementsInside (pBss.VarIEs.drop (pBss.VarIELen - Length)) := by
  induction Length using Nat.strong_induction_on generalizing pBss with
  | h Length ih =>
    rw [parseElements]
    by_cases hpos : 0 < Length
    · have hne : pBss.VarIEs.drop (pBss.VarIELen - Length) ≠ [] := by
        apply List.ne_nil_of_length_pos
        rw [List.length_drop]
        omega
      rw [if_pos hpos, elementsInside_iff hne]
      refine isSome_bind_iff isSome_parseElement fun next hnext => ?_
      obtain ⟨hLen, hstored⟩ := parseElement_keeps hnext
      have hIEs : next.2.VarIEs = pBss.VarIEs := congrArg Prod.fst hstored
      have hIELen : next.2.VarIELen = pBss.VarIELen := congrArg Prod.snd hstored
      have hrest := @ih (Length - (next.1 + 2)) (by omega) next.2 (by rw [hIELen]; omega)
        (by rw [hIEs, hIELen, hlen])
      refine Iff.trans hrest ?_
      rw [hIEs, hIELen, ← hLen, List.drop_drop]
      by_cases hend : next.1 + 2 ≤ Length
      · rw [show pBss.VarIELen - (Length - (next.1 + 2)) =
          pBss.VarIELen - Length + (next.1 + 2) by omega]
      · rw [List.drop_eq_nil_of_le (by omega), List.drop_eq_nil_of_le (by omega)]
    · rw [if_neg hpos, List.drop_eq_nil_of_le (by omega)]
      exact iff_of_true rfl .nil

/-- The entry with the stored elements and no byte behind them. -/
def BSS_ENTRY.exact (pBss : BSS_ENTRY) : BSS_ENTRY :=
  { pBss with VarIEs := pBss.VarIEs.take pBss.VarIELen }

/-- `BssCipherParse` does with the first `VarIELen` bytes of `VarIEs` exactly when every element that
it comes to is inside of them. -/
theorem bssCipherParse_inside (pBss : BSS_ENTRY) (h : pBss.VarIELen ≤ pBss.VarIEs.length) :
    (BssCipherParse pBss.exact).isSome ↔ ElementsInside (pBss.VarIEs.take pBss.VarIELen) := by
  rw [BssCipherParse]
  refine Iff.trans (isSome_parseElements (le_refl _) ?_) ?_
  · exact List.length_take_of_le h
  · rw [Nat.sub_self]
    rfl

end Inside

/-- An entry of a BSS with the elements `VarIEs` and nothing behind them. -/
def BSS_ENTRY.keeping (VarIEs : List UInt8) : BSS_ENTRY :=
  ⟨1, true, .EncryptionDisabled, .Open, .Open, noCipher, noCipher, false, VarIEs.length, VarIEs⟩

/-- One pairwise suite, one AKM suite and the capability end the element. -/
def wholeRsn : List UInt8 :=
  [IE_RSN, 20, 1, 0, 0x00, 0x0f, 0xac, 4, 1, 0, 0x00, 0x0f, 0xac, 4, 1, 0, 0x00, 0x0f, 0xac, 2, 0, 0]

theorem bssCipherParse_inside_whole :
    (BSS_ENTRY.keeping wholeRsn).VarIELen ≤ (BSS_ENTRY.keeping wholeRsn).VarIEs.length ∧
      (BssCipherParse (BSS_ENTRY.keeping wholeRsn).exact).isSome := by
  have hlen : (BSS_ENTRY.keeping wholeRsn).VarIELen ≤
      (BSS_ENTRY.keeping wholeRsn).VarIEs.length := le_refl _
  refine ⟨hlen, (bssCipherParse_inside _ hlen).mpr ?_⟩
  refine .cons ⟨by decide, fun h => absurd h (by decide), fun _ => ?_⟩ .nil
  refine ⟨by decide, fun _ => ⟨by decide, fun _ => ⟨by decide, ?_⟩⟩⟩
  exact ⟨by decide, fun _ => ⟨by decide, show 2 ≤ 2 from le_refl 2⟩⟩

/-- The element ends behind a count of 65535 pairwise suites. -/
def countedRsn : List UInt8 := [IE_RSN, 8, 1, 0, 0x00, 0x0f, 0xac, 4, 0xff, 0xff]

/-- The loop over the pairwise suites of `countedRsn` reads behind the stored elements. -/
theorem bssCipherParse_counted :
    (BSS_ENTRY.keeping countedRsn).VarIELen ≤ (BSS_ENTRY.keeping countedRsn).VarIEs.length ∧
      BssCipherParse (BSS_ENTRY.keeping countedRsn).exact = none := by
  refine ⟨le_refl _, ?_⟩
  rw [BssCipherParse, parseElements, if_pos (by decide)]
  rfl

end Ralink.Bss.Cipher
