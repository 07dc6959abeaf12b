import Ralink.Wpa.KeyData

/-! The elements that key data consists of, the group keys in them, and what it takes for the parser
to stay inside. -/
namespace Ralink.Wpa.KeyData
open Sized

/-- The elements in front that are there in full, each with its type. -/
def elements : List Byte → List (Byte × List Byte)
  | Eid :: Len :: rest =>
    if Len.toNat ≤ rest.length then
      (Eid, rest.take Len.toNat) :: elements (rest.drop Len.toNat)
    else []
  | _ => []
termination_by d => d.length
decreasing_by
  rw [List.length_drop, List.length_cons, List.length_cons]
  omega

/-- The group key with its index, when the element is a KDE that has one. -/
def gtkIn (element : Byte × List Byte) : Option Found :=
  if element.1 = WPA_KDE_TYPE ∧ element.2.take 4 = OUI_WPA2 ++ [KDE_GTK] ∧ 6 ≤ element.2.length then
    some ((element.2.getD 4 0).toNat % 4, element.2.drop 6)
  else none

def gtks (d : List Byte) : List Found := (elements d).filterMap gtkIn

/-- What follows the length of an element starts like a group key KDE. -/
def IsGtk (Eid : Byte) (rest : List Byte) : Prop :=
  Eid = WPA_KDE_TYPE ∧ rest.take 4 = OUI_WPA2 ++ [KDE_GTK]

/-- The bytes that are there tell the element from a group key KDE. -/
def Told (Eid : Byte) (rest : List Byte) : Prop :=
  Eid = WPA_KDE_TYPE →
    3 ≤ rest.length ∧ (rest.take 3 = OUI_WPA2 → 4 ≤ rest.length ∧ rest[3]? ≠ some KDE_GTK)

/-- Key data that is parsed without a step outside: the elements are told apart by bytes that are
there, the group keys have room in `GTK`, and the length of every element that is looked for is
there, so that the data ends in an element that is cut off, unless a key is too short. -/
inductive Inside : List Byte → Prop
  | cut {Eid Len : Byte} {rest : List Byte} (h : rest.length < Len.toNat) :
      Inside (Eid :: Len :: rest)
  | other {Eid Len : Byte} {rest : List Byte} (h : Len.toNat ≤ rest.length) (told : Told Eid rest)
      (next : Inside (rest.drop Len.toNat)) : Inside (Eid :: Len :: rest)
  | short {Eid Len : Byte} {rest : List Byte} (h : Len.toNat ≤ rest.length) (gtk : IsGtk Eid rest)
      (least : 6 ≤ Len.toNat) (most : Len.toNat < 11) : Inside (Eid :: Len :: rest)
  | gtk {Eid Len : Byte} {rest : List Byte} (h : Len.toNat ≤ rest.length) (gtk : IsGtk Eid rest)
      (least : 11 ≤ Len.toNat) (most : Len.toNat ≤ 38) (next : Inside (rest.drop Len.toNat)) :
      Inside (Eid :: Len :: rest)

def outcome (d : List Byte) (found : Found) : Option Found :=
  if ∃ g ∈ gtks d, g.2.length < LEN_WEP64 then none else some ((gtks d).getLast?.getD found)

variable {Eid Len : Byte} {rest d : List Byte} {found : Found}

theorem gtks_cons (h : Len.toNat ≤ rest.length) :
    gtks (Eid :: Len :: rest) =
      (gtkIn (Eid, rest.take Len.toNat)).toList ++ gtks (rest.drop Len.toNat) := by
  rw [gtks, elements, if_pos h, List.filterMap_cons]
  cases gtkIn (Eid, rest.take Len.toNat) with
  | none => rfl
  | some g => rfl

theorem gtks_cut (h : rest.length < Len.toNat) : gtks (Eid :: Len :: rest) = [] := by
  rw [gtks, elements, if_neg (by omega)]
  rfl

theorem Told.not_isGtk (h : Told Eid rest) : ¬ IsGtk Eid rest := by
  rintro ⟨rfl, hrest⟩
  obtain ⟨-, hthree⟩ := h rfl
  have htake : rest.take 3 = OUI_WPA2 := by
    have htake := congrArg (List.take 3) hrest
    rwa [List.take_take] at htake
  obtain ⟨hlen, hne⟩ := hthree htake
  apply hne
  have hget := congrArg (fun bs : List Byte => bs[3]?) hrest
  simpa [List.getElem?_take, OUI_WPA2] using hget

theorem gtkIn_of_not (h : ¬ IsGtk Eid rest) : gtkIn (Eid, rest.take Len.toNat) = none := by
  apply if_neg
  rintro ⟨hEid, htake, hlen⟩
  apply h
  refine ⟨hEid, ?_⟩
  have hlen : 6 ≤ min Len.toNat rest.length := by rwa [List.length_take] at hlen
  rw [List.take_take, Nat.min_eq_left (by omega)] at htake
  exact htake

theorem gtkIn_of_isGtk (hgtk : IsGtk Eid rest) (h : Len.toNat ≤ rest.length)
    (hlen : 6 ≤ Len.toNat) :
    gtkIn (Eid, rest.take Len.toNat) =
      some ((rest.getD 4 0).toNat % 4, (rest.drop 6).take (Len.toNat - 6)) := by
  have hget : (rest.take Len.toNat).getD 4 0 = rest.getD 4 0 := by
    rw [List.getD_eq_getElem?_getD, List.getD_eq_getElem?_getD, List.getElem?_take, if_pos (by omega)]
  rw [gtkIn, if_pos, hget, List.drop_take]
  refine ⟨hgtk.1, ?_, ?_⟩
  · rw [List.take_take, Nat.min_eq_left (by omega)]
    exact hgtk.2
  · rw [List.length_take]
    omega

theorem outcome_of_nil (h : gtks d = []) : outcome d found = some found := by
  simp [outcome, h]

theorem outcome_pass (h : Len.toNat ≤ rest.length) (hnot : ¬ IsGtk Eid rest) :
    outcome (Eid :: Len :: rest) found = outcome (rest.drop Len.toNat) found := by
  rw [outcome, outcome, gtks_cons h, gtkIn_of_not hnot]
  rfl

theorem outcome_gtk {g : Found} (h : Len.toNat ≤ rest.length)
    (hg : gtkIn (Eid, rest.take Len.toNat) = some g) :
    outcome (Eid :: Len :: rest) found =
      if g.2.length < LEN_WEP64 then none else outcome (rest.drop Len.toNat) g := by
  have hcons : gtks (Eid :: Len :: rest) = g :: gtks (rest.drop Len.toNat) := by
    rw [gtks_cons h, hg]
    rfl
  rw [outcome, outcome, hcons]
  simp only [List.exists_mem_cons_iff, List.getLast?_cons, Option.getD_some]
  by_cases hshort : g.2.length < LEN_WEP64
  · rw [if_pos (.inl hshort), if_pos hshort]
  · rw [if_neg hshort]
    simp only [hshort, false_or]

def turn (Eid Len : Byte) (rest : List Byte) (found : Found) : Option (Option Found) :=
  if Eid = WPA_KDE_TYPE then kdeCase (Eid :: Len :: rest) Len found else some (some found)

theorem turn_told (h : Told Eid rest) : turn Eid Len rest found = some (some found) := by
  unfold turn
  split
  · next hEid =>
    obtain ⟨hthree, hfour⟩ := h hEid
    have hOUI : slice ((Eid :: Len :: rest).drop 2) 3 = some (rest.take 3) := if_pos hthree
    unfold kdeCase
    rw [hOUI, Option.bind_eq_bind, Option.bind_some]
    split
    · next htake =>
      obtain ⟨hlen, hne⟩ := hfour htake
      rw [List.getElem?_cons_succ, List.getElem?_cons_succ, List.getElem?_eq_getElem (by omega)]
      rw [List.getElem?_eq_getElem (by omega)] at hne
      simp only [Option.bind_eq_bind, Option.bind_some]
      rw [if_neg fun heq => hne (congrArg some heq)]
      rfl
    · rfl
  · rfl

theorem kdeCase_isGtk (hgtk : IsGtk Eid rest) :
    kdeCase (Eid :: Len :: rest) Len found =
      (rest[4]?).bind fun Kid =>
        if (Len.toNat + 250) % 256 < LEN_WEP64 then some none
        else (copyGtk (rest.drop 6) ((Len.toNat + 250) % 256)).map fun GTK =>
          some (Kid.toNat % 4, GTK) := by
  have hfour : 4 ≤ rest.length := by
    have hlen := congrArg List.length hgtk.2
    have hsum : (OUI_WPA2 ++ [KDE_GTK]).length = 4 := rfl
    rw [List.length_take, hsum] at hlen
    omega
  have hOUI : slice ((Eid :: Len :: rest).drop 2) 3 = some OUI_WPA2 := by
    have htake := congrArg (List.take 3) hgtk.2
    rw [List.take_take] at htake
    rw [slice, if_pos (by simp; omega)]
    exact congrArg some htake
  have hType : (Eid :: Len :: rest)[5]? = some KDE_GTK := by
    have hget := congrArg (fun bs : List Byte => bs[3]?) hgtk.2
    simpa [List.getElem?_take, OUI_WPA2] using hget
  have hKid : (Eid :: Len :: rest)[6]? = rest[4]? := rfl
  have hGTK : (Eid :: Len :: rest).drop 8 = rest.drop 6 := rfl
  unfold kdeCase
  rw [hOUI, hType, hKid, hGTK]
  simp only [Option.bind_eq_bind, Option.bind_some, if_true]
  congr 1
  funext Kid
  split
  · rfl
  · rw [Option.map_eq_bind]
    rfl

theorem turn_isGtk (hgtk : IsGtk Eid rest) (h : Len.toNat ≤ rest.length) :
    turn Eid Len rest found =
      if 6 ≤ Len.toNat ∧ Len.toNat ≤ 38 then
        if Len.toNat < 11 then some none else some (gtkIn (Eid, rest.take Len.toNat))
      else none := by
  have hLen := Len.isLt
  rw [turn, if_pos hgtk.1, kdeCase_isGtk hgtk]
  by_cases hleast : 6 ≤ Len.toNat
  · have hsub : (Len.toNat + 250) % 256 = Len.toNat - 6 := by omega
    have hget : rest[4]? = some (rest.getD 4 0) := by
      rw [List.getD_eq_getElem?_getD, List.getElem?_eq_getElem (by omega)]
      rfl
    have hslice : slice (rest.drop 6) (Len.toNat - 6) =
        some ((rest.drop 6).take (Len.toNat - 6)) := by
      apply if_pos
      rw [List.length_drop]
      omega
    rw [hsub, hget, Option.bind_some, copyGtk, hslice, Option.bind_eq_bind, Option.bind_some,
      gtkIn_of_isGtk hgtk h hleast]
    by_cases hshort : Len.toNat < 11
    · rw [if_pos (by unfold LEN_WEP64; omega), if_pos ⟨hleast, by omega⟩, if_pos hshort]
    · rw [if_neg (by unfold LEN_WEP64; omega)]
      by_cases hmost : Len.toNat ≤ 38
      · rw [if_pos (by unfold MAX_LEN_GTK; omega), if_pos ⟨hleast, hmost⟩, if_neg hshort]
        rfl
      · rw [if_neg (by unfold MAX_LEN_GTK; omega), if_neg (by omega)]
        rfl
  · have hwrap : (Len.toNat + 250) % 256 = Len.toNat + 250 := by omega
    rw [hwrap, if_neg (by omega)]
    cases rest[4]? with
    | none => rfl
    | some Kid =>
      rw [Option.bind_some, if_neg (by unfold LEN_WEP64; omega), copyGtk]
      cases slice (rest.drop 6) (Len.toNat + 250) with
      | none => rfl
      | some GTK =>
        rw [Option.bind_eq_bind, Option.bind_some, if_neg (by unfold MAX_LEN_GTK; omega)]
        rfl

theorem turn_none (htold : ¬ Told Eid rest) (hgtk : ¬ IsGtk Eid rest) :
    turn Eid Len rest found = none := by
  have hEid : Eid = WPA_KDE_TYPE := by
    by_contra hne
    exact htold fun heq => absurd heq hne
  rw [turn, if_pos hEid, kdeCase]
  by_cases hthree : 3 ≤ rest.length
  · have hOUI : slice ((Eid :: Len :: rest).drop 2) 3 = some (rest.take 3) := if_pos hthree
    rw [hOUI, Option.bind_eq_bind, Option.bind_some]
    have htake : rest.take 3 = OUI_WPA2 := by
      by_contra hne
      exact htold fun _ => ⟨hthree, fun heq => absurd heq hne⟩
    have hnone : rest[3]? = none := by
      cases hget : rest[3]? with
      | none => rfl
      | some t =>
        obtain ⟨hlt, hget⟩ := List.getElem?_eq_some_iff.mp hget
        have hsplit : rest.take 4 = rest.take 3 ++ [t] := by
          rw [List.take_succ_eq_append_getElem hlt, hget]
        exfalso
        apply htold
        refine fun _ => ⟨hthree, fun _ => ⟨hlt, ?_⟩⟩
        rw [List.getElem?_eq_getElem hlt, hget]
        rintro heq
        cases heq
        exact hgtk ⟨hEid, by rw [hsplit, htake]⟩
    have hType : (Eid :: Len :: rest)[5]? = none := hnone
    rw [if_pos htake, hType]
    rfl
  · have hOUI : slice ((Eid :: Len :: rest).drop 2) 3 = none := if_neg hthree
    rw [hOUI]
    rfl

section Loop

variable {KeyDataLength : Byte} {skip_offset : Nat}

theorem kdeLoop_cons :
    kdeLoop KeyDataLength skip_offset (Eid :: Len :: rest) found =
      if skip_offset + 2 + Len.toNat ≤ KeyDataLength.toNat then
        (turn Eid Len rest found).bind fun found =>
          match found with
          | none => some none
          | some found =>
            kdeLoop KeyDataLength (skip_offset + 2 + Len.toNat) (rest.drop Len.toNat) found
      else some (some found) := by
  have hlast := KeyDataLength.isLt
  rw [kdeLoop]
  simp only [List.getElem?_cons_succ, List.getElem?_cons_zero, Option.bind_eq_bind, Option.bind_some]
  by_cases h : skip_offset + 2 + Len.toNat ≤ KeyDataLength.toNat
  · have hdrop : (Eid :: Len :: rest).drop (2 + Len.toNat) = rest.drop Len.toNat := by
      rw [Nat.add_comm]
      rfl
    rw [dif_pos h, if_pos h, hdrop, Nat.mod_eq_of_lt (by omega)]
    unfold turn
    split
    · rfl
    · rfl
  · rw [dif_neg h, if_neg h]
    rfl

theorem kdeLoop_inside (h : Inside d) (hend : skip_offset + d.length = KeyDataLength.toNat) :
    kdeLoop KeyDataLength skip_offset d found = some (outcome d found) := by
  induction h generalizing skip_offset found with
  | cut h =>
    rw [List.length_cons, List.length_cons] at hend
    rw [kdeLoop_cons, if_neg (by omega), outcome_of_nil (gtks_cut h)]
  | @other Eid Len rest h told next ih =>
    rw [List.length_cons, List.length_cons] at hend
    have hrest := @ih found (skip_offset + 2 + Len.toNat) (by rw [List.length_drop]; omega)
    rw [kdeLoop_cons, if_pos (by omega), turn_told told,
      outcome_pass h told.not_isGtk]
    exact hrest
  | @short Eid Len rest h gtk least most =>
    have hg := gtkIn_of_isGtk gtk h least
    have hlen : ((rest.drop 6).take (Len.toNat - 6)).length < LEN_WEP64 := by
      rw [List.length_take]
      unfold LEN_WEP64
      omega
    rw [List.length_cons, List.length_cons] at hend
    rw [kdeLoop_cons, if_pos (by omega), turn_isGtk gtk h, if_pos ⟨least, by omega⟩, if_pos most,
      outcome_gtk h hg, if_pos hlen]
    rfl
  | @gtk Eid Len rest h gtk least most next ih =>
    have hg := gtkIn_of_isGtk gtk h (by omega)
    have hlen : ¬ ((rest.drop 6).take (Len.toNat - 6)).length < LEN_WEP64 := by
      rw [List.length_take, List.length_drop]
      unfold LEN_WEP64
      omega
    rw [List.length_cons, List.length_cons] at hend
    have hrest := @ih ((rest.getD 4 0).toNat % 4, (rest.drop 6).take (Len.toNat - 6))
      (skip_offset + 2 + Len.toNat) (by rw [List.length_drop]; omega)
    rw [kdeLoop_cons, if_pos (by omega), turn_isGtk gtk h, if_pos ⟨by omega, most⟩,
      if_neg (by omega), outcome_gtk h hg, if_neg hlen, hg]
    exact hrest

theorem gtks_bounds (h : Inside d) (hlong : ¬ ∃ g ∈ gtks d, g.2.length < LEN_WEP64) :
    ∀ g ∈ gtks d, g.1 < 4 ∧ g.2.length ≤ MAX_LEN_GTK := by
  induction h with
  | cut h =>
    rw [gtks_cut h]
    simp
  | other h told next ih =>
    rw [gtks_cons h, gtkIn_of_not told.not_isGtk] at hlong ⊢
    exact ih hlong
  | @short Eid Len rest h gtk least most =>
    exfalso
    apply hlong
    rw [gtks_cons h, gtkIn_of_isGtk gtk h least]
    refine ⟨_, List.mem_cons_self, ?_⟩
    rw [List.length_take]
    unfold LEN_WEP64
    omega
  | @gtk Eid Len rest h gtk least most next ih =>
    have hcons : gtks (Eid :: Len :: rest) =
        ((rest.getD 4 0).toNat % 4, (rest.drop 6).take (Len.toNat - 6)) ::
          gtks (rest.drop Len.toNat) := by
      rw [gtks_cons h, gtkIn_of_isGtk gtk h (by omega)]
      rfl
    rw [hcons] at hlong ⊢
    have hrest := ih fun ⟨g, hg, hlen⟩ => hlong ⟨g, List.mem_cons_of_mem _ hg, hlen⟩
    intro g hg
    rcases List.mem_cons.mp hg with rfl | hg
    · refine ⟨Nat.mod_lt _ (by decide), ?_⟩
      rw [List.length_take]
      unfold MAX_LEN_GTK
      omega
    · exact hrest g hg

theorem inside_of_kdeLoop (hend : skip_offset + d.length = KeyDataLength.toNat)
    (h : (kdeLoop KeyDataLength skip_offset d found).isSome) : Inside d := by
  induction d using elements.induct generalizing skip_offset found with
  | case1 Eid Len rest hle ih =>
    rw [List.length_cons, List.length_cons] at hend
    have hnext : skip_offset + 2 + Len.toNat + (rest.drop Len.toNat).length =
        KeyDataLength.toNat := by
      rw [List.length_drop]
      omega
    rw [kdeLoop_cons, if_pos (by omega)] at h
    by_cases htold : Told Eid rest
    · rw [turn_told htold] at h
      exact .other hle htold (ih hnext h)
    · by_cases hgtk : IsGtk Eid rest
      · rw [turn_isGtk hgtk hle] at h
        by_cases hlen : 6 ≤ Len.toNat ∧ Len.toNat ≤ 38
        · rw [if_pos hlen] at h
          by_cases hshort : Len.toNat < 11
          · exact .short hle hgtk hlen.1 hshort
          · rw [if_neg hshort, gtkIn_of_isGtk hgtk hle hlen.1] at h
            exact .gtk hle hgtk (by omega) hlen.2 (ih hnext h)
        · rw [if_neg hlen] at h
          cases h
      · rw [turn_none htold hgtk] at h
        cases h
  | case2 Eid Len rest hle => exact .cut (by omega)
  | case3 d hd =>
    have hnone : d[1]? = none := by
      match d with
      | [] => rfl
      | [_] => rfl
      | Eid :: Len :: rest => exact (hd Eid Len rest rfl).elim
    rw [kdeLoop, hnone] at h
    cases h

end Loop

section Parser

variable {cfg : Config} {type : MsgType} {e : MAC_TABLE_ENTRY} {link : APCLI_STRUCT} {p : List Byte}
  {len index : Nat}

def concluded (cfg : Config) (e : MAC_TABLE_ENTRY) (link : APCLI_STRUCT) :
    Option Found → Bool × APCLI_STRUCT × List Act
  | none => (false, link, [])
  | some found => installGroupKey cfg e link found

theorem parse_wpa2 (hwpa2 : e.bWPA2 = true) (hkey : hasGroupKey e type = true) :
    RTMPParseEapolKeyData cfg p len index type e link =
      (kdeLoop (BitVec.ofNat 8 len) 0 p (0, [])).map (concluded cfg e link) := by
  have htype : type = .EAPOL_PAIR_MSG_3 ∨ type = .EAPOL_GROUP_MSG_1 := by
    simpa [hasGroupKey, hwpa2] using hkey
  have hskip : ¬ ((type = .EAPOL_PAIR_MSG_2 ∨ type = .EAPOL_PAIR_MSG_3) ∧
      ¬ (e.bWPA2 = true ∧ type = .EAPOL_PAIR_MSG_3)) := by
    rcases htype with rfl | rfl <;> simp [hwpa2]
  rw [RTMPParseEapolKeyData, if_neg hskip, if_pos ⟨hwpa2, htype⟩, Option.map_eq_bind]
  apply congrArg
  funext found
  cases found with
  | none => rfl
  | some found => rfl

theorem parse_wpa1 (hwpa2 : e.bWPA2 = false) (hkey : hasGroupKey e type = true) :
    RTMPParseEapolKeyData cfg p len index type e link =
      (copyGtk p (BitVec.ofNat 8 len).toNat).map fun GTK =>
        installGroupKey cfg e link (index, GTK) := by
  have htype : type = .EAPOL_GROUP_MSG_1 := by
    simpa [hasGroupKey, hwpa2] using hkey
  subst htype
  rw [RTMPParseEapolKeyData, if_neg (by simp), if_neg (by simp [hwpa2]), if_pos ⟨hwpa2, rfl⟩]
  cases copyGtk p (BitVec.ofNat 8 len).toNat with
  | none => rfl
  | some GTK => rfl

end Parser

end Ralink.Wpa.KeyData
