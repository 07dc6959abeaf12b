import Ralink.Rsn.Offers

/-! The walks over the lists of an element stop at a suite of the BSS, or at the end of what they
count, inside the element or not. -/
namespace Ralink.Rsn.Validate
open Walk MULTISSID_STRUCT

section Code

variable {pMbss : MULTISSID_STRUCT} {p : Protocol} {pEntry : MAC_TABLE_ENTRY} {Len : UInt8}
  {Octet ptr q : List UInt8}

theorem RTMPEqualMemory_of_le (h : 4 ≤ ptr.length) (h' : 4 ≤ q.length) :
    RTMPEqualMemory ptr q 4 = some (decide (ptr.take 4 = q.take 4)) := if_pos ⟨h, h'⟩

theorem RTMPEqualMemory_past (h : ptr.length < 4) : RTMPEqualMemory ptr q 4 = none :=
  if_neg fun hle => Nat.not_le_of_lt h hle.1

theorem ucastTurn_reads (pMbss : MULTISSID_STRUCT) (p : Protocol) :
    Reads 4 (ucastTurn pMbss p.TKIP_ON p.AES_ON ((pMbss.ownIe p.Eid).drop (p.ucount + 2)))
      (pMbss.standsFor p) where
  inside := by
    intro ptr hptr
    have hown := le_length_ownIe pMbss p
    have hroom : p.ucount + 2 ≤ 12 := by cases p <;> decide
    have hfirst := RTMPEqualMemory_of_le hptr
      (by rw [List.length_drop]; omega : 4 ≤ ((pMbss.ownIe p.Eid).drop (p.ucount + 2)).length)
    have hsecond := RTMPEqualMemory_of_le hptr
      (by rw [List.length_drop, List.length_drop]; omega :
        4 ≤ (((pMbss.ownIe p.Eid).drop (p.ucount + 2)).drop 4).length)
    unfold ucastTurn standsFor compared
    rw [hfirst, hsecond]
    dsimp only
    generalize ptr.take 4 = suite
    generalize ((pMbss.ownIe p.Eid).drop (p.ucount + 2)).take 4 = first
    generalize (((pMbss.ownIe p.Eid).drop (p.ucount + 2)).drop 4).take 4 = second
    by_cases hmix : pMbss.WepStatus = .Encryption4Enabled
    · simp only [if_pos hmix]
      cases p.TKIP_ON pMbss.WpaMixPairCipher <;> cases p.AES_ON pMbss.WpaMixPairCipher <;>
        rcases eq_or_ne suite first with rfl | hfirst <;>
        rcases eq_or_ne suite second with rfl | hsecond <;>
        simp [*]
    · simp only [if_neg hmix]
      rcases eq_or_ne suite first with rfl | hfirst <;> simp [*]
  past := by
    intro ptr hptr
    unfold ucastTurn
    rw [RTMPEqualMemory_past hptr]
    split_ifs <;> rfl

theorem RTMPCheckMcast_eq (hlen : Len.toNat = Octet.length) :
    RTMPCheckMcast pMbss ⟨p.Eid, Len, Octet⟩ pEntry =
      if Octet.length < 6 then some (false, { pEntry with AuthMode := pMbss.AuthMode })
      else if p.group + 4 ≤ Octet.length then
        some (decide (pMbss.SameGroup p Octet), { pEntry with AuthMode := pMbss.authMode p })
      else none := by
  have hle : 6 ≤ Len ↔ 6 ≤ Octet.length := by
    rw [UInt8.le_iff_toNat_le, hlen]
    rfl
  have hown := le_length_ownIe pMbss p
  by_cases hshort : Octet.length < 6
  · rw [if_pos hshort, RTMPCheckMcast]
    dsimp only
    rw [if_neg (fun h => Nat.not_le_of_lt hshort (hle.mp h))]
    rfl
  rw [if_neg hshort]
  have hlong := hle.mpr (Nat.le_of_not_lt hshort)
  have hequal : RTMPEqualMemory (Octet.drop p.group) ((pMbss.ownIe p.Eid).drop p.group) 4 =
      if p.group + 4 ≤ Octet.length then some (decide (pMbss.SameGroup p Octet)) else none := by
    have hgroup : p.group ≤ 6 := by cases p <;> decide
    unfold RTMPEqualMemory SameGroup
    rw [List.length_drop, List.length_drop]
    exact if_congr ⟨fun h => by omega, fun h => by omega⟩ rfl rfl
  unfold RTMPCheckMcast
  dsimp only
  rw [if_pos hlong]
  cases p with
  | WPA =>
    have hentry : (if pMbss.AuthMode = .WPA1WPA2 then { pEntry with AuthMode := .WPA }
        else if pMbss.AuthMode = .WPA1PSKWPA2PSK then { pEntry with AuthMode := .WPAPSK }
        else { pEntry with AuthMode := pMbss.AuthMode }) =
        { pEntry with AuthMode := pMbss.authMode .WPA } := by
      unfold authMode
      cases pMbss.AuthMode <;> rfl
    rw [if_pos (by decide : Protocol.WPA.Eid = IE_WPA), hentry]
    change RTMPEqualMemory (Octet.drop 6) ((pMbss.ownIe Protocol.WPA.Eid).drop 6) 4 = _ at hequal
    rw [hequal]
    split
    · rfl
    · rfl
  | RSN =>
    have hentry : (if pMbss.AuthMode = .WPA1WPA2 then { pEntry with AuthMode := .WPA2 }
        else if pMbss.AuthMode = .WPA1PSKWPA2PSK then { pEntry with AuthMode := .WPA2PSK }
        else { pEntry with AuthMode := pMbss.AuthMode }) =
        { pEntry with AuthMode := pMbss.authMode .RSN } := by
      unfold authMode
      cases pMbss.AuthMode <;> rfl
    rw [if_neg (by decide : ¬ Protocol.RSN.Eid = IE_WPA), if_pos (by decide : Protocol.RSN.Eid = IE_RSN),
      hentry]
    change RTMPEqualMemory (Octet.drop 2) ((pMbss.ownIe Protocol.RSN.Eid).drop 2) 4 = _ at hequal
    rw [hequal]
    split
    · rfl
    · rfl

theorem drop_encode (l : Counted 4) (rest : List UInt8) :
    ((l.encode ++ rest).drop 2).drop (4 * l.count) = rest := List.drop_left' l.length_entries

theorem walk_encode {ρ : Type} {f : List UInt8 → Option (Option ρ)} {g : List UInt8 → Option ρ}
    (hf : Reads 4 f g) (l : Counted 4) (rest : List UInt8) :
    walk 4 f l.count ((l.encode ++ rest).drop 2) = some (l.suites.findSome? g) := by
  have hroom : 4 * l.count ≤ l.entries.length := l.length_entries.ge
  show walk 4 f l.count (l.entries ++ rest) = _
  rw [walk_of_le hf (by rw [List.length_append]; omega), entries_append hroom]
  rfl

theorem encode_or_past {n : Nat} (h : loadCount ptr = some n) :
    (∃ (l : Counted 4) (rest : List UInt8), ptr = l.encode ++ rest) ∨ (ptr.drop 2).length < 4 * n := by
  match ptr, h with
  | b0 :: b1 :: ptr, h =>
    obtain rfl := Option.some.inj h
    by_cases hroom : 4 * (le16 b0 b1).toNat ≤ ptr.length
    · refine .inl ⟨⟨b0, b1, ptr.take _, List.length_take_of_le hroom⟩,
        ptr.drop (4 * (le16 b0 b1).toNat), ?_⟩
      rw [Counted.encode, List.cons_append, List.cons_append, List.take_append_drop _ ptr]
    · exact .inr (Nat.lt_of_not_le hroom)

theorem ucount_Eid (p : Protocol) : ucount p.Eid = some p.ucount := by cases p <;> rfl

theorem not_short (hlen : Len.toNat = Octet.length) (h : 16 ≤ Octet.length) : ¬ Len < 16 := by
  rw [UInt8.lt_iff_toNat_lt, hlen]
  exact Nat.not_lt_of_le h

theorem RTMPCheckUcast_eq (hlen : Len.toNat = Octet.length) (h : 16 ≤ Octet.length) :
    RTMPCheckUcast pMbss ⟨p.Eid, Len, Octet⟩ pEntry =
      (loadCount (Octet.drop p.ucount)).bind fun Count =>
        (walk 4 (ucastTurn pMbss p.TKIP_ON p.AES_ON ((pMbss.ownIe p.Eid).drop (p.ucount + 2))) Count
          ((Octet.drop p.ucount).drop 2)).map fun
        | some WepStatus => (true, { pEntry with WepStatus })
        | none => (false, { pEntry with WepStatus := pMbss.WepStatus }) := by
  unfold RTMPCheckUcast
  dsimp only
  rw [if_neg (not_short hlen h), ucount_Eid]
  dsimp only
  cases loadCount (Octet.drop p.ucount) with
  | none => rfl
  | some Count =>
    have htkip : (if p.Eid = IE_WPA then MIX_CIPHER_WPA_TKIP_ON else MIX_CIPHER_WPA2_TKIP_ON) =
        p.TKIP_ON := by cases p <;> rfl
    have haes : (if p.Eid = IE_WPA then MIX_CIPHER_WPA_AES_ON else MIX_CIPHER_WPA2_AES_ON) =
        p.AES_ON := by cases p <;> rfl
    simp only [Option.bind_eq_bind, Option.bind_some, htkip, haes]
    cases walk 4 (ucastTurn pMbss p.TKIP_ON p.AES_ON ((pMbss.ownIe p.Eid).drop (p.ucount + 2))) Count
        ((Octet.drop p.ucount).drop 2) with
    | none => rfl
    | some found => cases found <;> rfl

theorem RTMPCheckAUTH_eq (hlen : Len.toNat = Octet.length) (h : 16 ≤ Octet.length) :
    RTMPCheckAUTH pMbss ⟨p.Eid, Len, Octet⟩ =
      (loadCount (Octet.drop p.ucount)).bind fun Count =>
        let ptr := ((Octet.drop p.ucount).drop 2).drop (4 * Count)
        (loadCount ptr).bind fun Count =>
          (walk 4 (fun ptr => hit (RTMPCheckAKM ptr (pMbss.ownIe p.Eid) (p.Eid = IE_RSN))) Count
            (ptr.drop 2)).map Option.isSome := by
  unfold RTMPCheckAUTH
  dsimp only
  rw [if_neg (not_short hlen h), ucount_Eid]
  dsimp only
  cases loadCount (Octet.drop p.ucount) with
  | none => rfl
  | some Count =>
    simp only [Option.bind_eq_bind, Option.bind_some]
    cases loadCount (((Octet.drop p.ucount).drop 2).drop (4 * Count)) with
    | none => rfl
    | some Count =>
      simp only [Option.bind_some]
      rw [Option.map_eq_bind]
      rfl

theorem loadCount_past (hlen : 2 ≤ ptr.length)
    (hpast : ¬ ∃ (l : Counted 4) (rest : List UInt8), ptr = l.encode ++ rest) :
    ∃ n, loadCount ptr = some n ∧ (ptr.drop 2).length < 4 * n := by
  match ptr, hlen with
  | b0 :: b1 :: ptr, _ => exact ⟨_, rfl, (encode_or_past rfl).resolve_left hpast⟩

theorem ucount_room (p : Protocol) (h : 16 ≤ Octet.length) : 2 ≤ (Octet.drop p.ucount).length := by
  have hroom : p.ucount ≤ 10 := by cases p <;> decide
  rw [List.length_drop]
  omega

section Pairwise

variable {l : Counted 4} {rest : List UInt8}

section

variable (hlen : Len.toNat = Octet.length) (h : 16 ≤ Octet.length)
include hlen h

theorem RTMPCheckUcast_encode (hptr : Octet.drop p.ucount = l.encode ++ rest) :
    RTMPCheckUcast pMbss ⟨p.Eid, Len, Octet⟩ pEntry =
      some (match l.suites.findSome? (pMbss.standsFor p) with
        | some WepStatus => (true, { pEntry with WepStatus })
        | none => (false, { pEntry with WepStatus := pMbss.WepStatus })) := by
  rw [RTMPCheckUcast_eq hlen h, hptr]
  show (walk 4 _ l.count ((l.encode ++ rest).drop 2)).map _ = _
  rw [walk_encode (ucastTurn_reads pMbss p)]
  rfl

theorem RTMPCheckUcast_past
    (hpast : ¬ ∃ (l : Counted 4) (rest : List UInt8), Octet.drop p.ucount = l.encode ++ rest) :
    RTMPCheckUcast pMbss ⟨p.Eid, Len, Octet⟩ pEntry = none ∨
      ∃ pEntry', RTMPCheckUcast pMbss ⟨p.Eid, Len, Octet⟩ pEntry = some (true, pEntry') := by
  obtain ⟨n, hcount, hroom⟩ := loadCount_past (ucount_room p h) hpast
  rw [RTMPCheckUcast_eq hlen h, hcount, Option.bind_some]
  have hwalk := walk_of_lt (ucastTurn_reads pMbss p) hroom
  generalize walk 4 (ucastTurn pMbss p.TKIP_ON p.AES_ON ((pMbss.ownIe p.Eid).drop (p.ucount + 2))) n
    ((Octet.drop p.ucount).drop 2) = found at hwalk ⊢
  match found, hwalk with
  | none, _ => exact .inl rfl
  | some none, hwalk => exact absurd rfl hwalk
  | some (some WepStatus), _ => exact .inr ⟨_, rfl⟩

theorem RTMPCheckAUTH_past
    (hpast : ¬ ∃ (l : Counted 4) (rest : List UInt8), Octet.drop p.ucount = l.encode ++ rest) :
    RTMPCheckAUTH pMbss ⟨p.Eid, Len, Octet⟩ = none := by
  obtain ⟨n, hcount, hroom⟩ := loadCount_past (ucount_room p h) hpast
  rw [RTMPCheckAUTH_eq hlen h, hcount, Option.bind_some, List.drop_of_length_le hroom.le]
  rfl

theorem RTMPCheckAUTH_encode (hptr : Octet.drop p.ucount = l.encode ++ rest) :
    RTMPCheckAUTH pMbss ⟨p.Eid, Len, Octet⟩ =
      (loadCount rest).bind fun Count =>
        (walk 4 (fun ptr => hit (RTMPCheckAKM ptr (pMbss.ownIe p.Eid) (p.Eid = IE_RSN))) Count
          (rest.drop 2)).map Option.isSome := by
  have hcount : loadCount (l.encode ++ rest) = some l.count := rfl
  rw [RTMPCheckAUTH_eq hlen h, hptr, hcount, Option.bind_some]
  dsimp only
  rw [drop_encode]

end

end Pairwise

section Akm

variable {rest : List UInt8}

theorem hit_reads (h : pMbss.offers p = true) :
    Reads 4 (fun ptr => hit (RTMPCheckAKM ptr (pMbss.ownIe p.Eid) (p.Eid = IE_RSN)))
      (fun s => if s = pMbss.akmSuite p then some () else none) where
  inside := by
    intro ptr hptr
    rw [RTMPCheckAKM_offered h, if_pos hptr, hit, Option.map_some]
    by_cases heq : ptr.take 4 = pMbss.akmSuite p
    · rw [if_pos heq, if_pos (decide_eq_true heq)]
    · rw [if_neg heq, if_neg (fun hd => heq (of_decide_eq_true hd))]
  past := by
    intro ptr hptr
    rw [RTMPCheckAKM_offered h, if_neg (Nat.not_le_of_lt hptr)]
    rfl

def checkAkms (pMbss : MULTISSID_STRUCT) (p : Protocol) (rest : List UInt8) : Option Bool :=
  (loadCount rest).bind fun Count =>
    (walk 4 (fun ptr => hit (RTMPCheckAKM ptr (pMbss.ownIe p.Eid) (p.Eid = IE_RSN))) Count
      (rest.drop 2)).map Option.isSome

theorem checkAkms_encode (h : pMbss.offers p = true) (l : Counted 4) (rest : List UInt8) :
    checkAkms pMbss p (l.encode ++ rest) = some (decide (pMbss.akmSuite p ∈ l.suites)) := by
  have hcount : loadCount (l.encode ++ rest) = some l.count := rfl
  rw [checkAkms, hcount, Option.bind_some, walk_encode (hit_reads h), Option.map_some]
  congr 1
  rw [Bool.eq_iff_iff, List.findSome?_isSome_iff, decide_eq_true_iff]
  constructor
  · rintro ⟨s, hs, hsome⟩
    by_cases heq : s = pMbss.akmSuite p
    · rwa [← heq]
    · rw [if_neg heq] at hsome
      cases hsome
  · exact fun hmem => ⟨_, hmem, by rw [if_pos rfl]; rfl⟩

theorem checkAkms_past (h : pMbss.offers p = true)
    (hpast : ¬ ∃ (l : Counted 4) (rest' : List UInt8), rest = l.encode ++ rest') :
    checkAkms pMbss p rest ≠ some false := by
  unfold checkAkms
  cases hcount : loadCount rest with
  | none => nofun
  | some n =>
    have hwalk := walk_of_lt (hit_reads h) ((encode_or_past hcount).resolve_left hpast)
    rw [Option.bind_some]
    generalize walk 4 (fun ptr => hit (RTMPCheckAKM ptr (pMbss.ownIe p.Eid) (p.Eid = IE_RSN))) n
      (rest.drop 2) = found at hwalk ⊢
    match found, hwalk with
    | none, _ => nofun
    | some none, hwalk => exact absurd rfl hwalk
    | some (some ()), _ => nofun

theorem checkAkms_other (h : pMbss.offers p = false) :
    checkAkms pMbss p rest = if loadCount rest = some 0 then some false else none := by
  unfold checkAkms
  match hcount : loadCount rest with
  | none => rfl
  | some 0 => rfl
  | some (n + 1) =>
    rw [Option.bind_some, walk, RTMPCheckAKM_other h, if_neg (by simp)]
    rfl

end Akm

variable {p' : Protocol} {pRsnIe rest : List UInt8} {Eid rsnie_len : UInt8} {l : Counted 4}
  {c : Cipher} {pEntry' : MAC_TABLE_ENTRY}

/-- The AKM list lies inside, and an element that goes through is one of the protocol. For a
protocol that is not offered the list is empty. -/
def AkmsInside (pMbss : MULTISSID_STRUCT) (p : Protocol) (Octet rest : List UInt8) : Prop :=
  match pMbss.offers p with
  | true => ∃ l rest', rest = Counted.encode l ++ rest' ∧
    (pMbss.akmSuite p ∈ l.suites → p = .WPA → Octet.take 4 = OUI_WPA_VERSION)
  | false => loadCount rest = some 0

/-- The pairwise list lies inside, and behind one that goes through the AKM list does. -/
def ListsInside (pMbss : MULTISSID_STRUCT) (p : Protocol) (Octet : List UInt8) : Prop :=
  ∃ l rest, Octet.drop p.ucount = Counted.encode l ++ rest ∧
    ((∃ s ∈ l.suites, (pMbss.standsFor p s).isSome) → AkmsInside pMbss p Octet rest)

/-- Where the code does what it should about an element of a protocol. -/
structure Harmless (pMbss : MULTISSID_STRUCT) (p : Protocol) (Octet : List UInt8) : Prop where
  group : p = .WPA → ¬ (6 ≤ Octet.length ∧ Octet.length < 10)
  lists : 16 ≤ Octet.length → pMbss.SameGroup p Octet → ListsInside pMbss p Octet

theorem compared_offered (h : pMbss.offers p = true) :
    pMbss.compared p = (pMbss.ciphers p).map fun c => (c.suite p, c.WepStatus) := by
  obtain ⟨rest, hown⟩ := ownIe_ucount h
  have hdrop : (pMbss.ownIe p.Eid).drop (p.ucount + 2) =
      ((pMbss.ciphers p).map (Cipher.suite p)).flatten ++ (counted [pMbss.akmSuite p] ++ rest) := by
    rw [← List.drop_drop, hown]
    rfl
  unfold compared
  rw [hdrop]
  unfold ciphers
  cases pMbss.WepStatus with
  | Encryption2Enabled => cases p <;> rfl
  | Encryption3Enabled => cases p <;> rfl
  | Encryption4Enabled =>
    cases p.TKIP_ON pMbss.WpaMixPairCipher <;> cases p.AES_ON pMbss.WpaMixPairCipher <;> cases p <;> rfl

theorem standsFor_offered (h : pMbss.offers p = true) (s : List UInt8) :
    pMbss.standsFor p s = (pMbss.cipherOf p s).map Cipher.WepStatus := by
  rw [standsFor, compared_offered h, List.find?_map, Option.map_map]
  rfl

theorem sameGroup_offered (h : pMbss.offers p = true) :
    pMbss.SameGroup p Octet ↔ (Octet.drop p.group).take 4 = pMbss.groupCipher.suite p := by
  obtain ⟨rest, hown⟩ := ownIe_group h
  rw [SameGroup, hown, List.take_left' (length_suite p _)]

theorem count_pos {suite : List UInt8} (h : suite ∈ l.suites) : 0 < l.count := by
  unfold Counted.suites at h
  cases hcount : l.count with
  | zero =>
    rw [hcount] at h
    cases h
  | succ n => exact Nat.succ_pos n

theorem Protocol.Eid_inj (h : p.Eid = p'.Eid) : p = p' := by
  cases p <;> cases p' <;> first | rfl | exact absurd h (by decide)

theorem matches_iff (hlen : Len.toNat = Octet.length) :
    Matches pMbss (p.Eid :: Len :: Octet) p' c ↔ p' = p ∧ pMbss.offers p = true ∧
      16 ≤ Octet.length ∧ pMbss.SameGroup p Octet ∧ (p = .WPA → Octet.take 4 = OUI_WPA_VERSION) ∧
      ∃ l l' rest, Octet.drop p.ucount = Counted.encode l ++ (Counted.encode l' ++ rest) ∧
        l.suites.findSome? (pMbss.cipherOf p) = some c ∧ pMbss.akmSuite p ∈ l'.suites := by
  constructor
  · rintro ⟨hoffered, version, l, l', rest, hheader, hversion, hOUI, hcipher, hakm⟩
    cases hheader with
    | header hbytes _ =>
      obtain ⟨hEid, hLen⟩ := List.cons.inj hbytes
      obtain rfl := Protocol.Eid_inj hEid.symm
      obtain rfl := (List.cons.inj hLen).2
      have hgroup := length_suite p' pMbss.groupCipher
      have hdrop : (version ++ (pMbss.groupCipher.suite p' ++
          (Counted.encode l ++ (Counted.encode l' ++ rest)))).drop p'.ucount =
            Counted.encode l ++ (Counted.encode l' ++ rest) := by
        rw [Protocol.ucount, ← List.drop_drop, List.drop_left' hversion, List.drop_left' hgroup]
      refine ⟨rfl, hoffered, ?_, ?_, ?_, l, l', rest, hdrop, hcipher, hakm⟩
      · obtain ⟨s, hs, -⟩ := List.exists_of_findSome?_eq_some hcipher
        have hcount := count_pos hs
        have hcount' := count_pos hakm
        have hroom : 2 ≤ p'.group := by cases p' <;> decide
        simp only [List.length_append, Counted.length_encode]
        omega
      · rw [sameGroup_offered hoffered, List.drop_left' hversion, List.take_left' hgroup]
      · intro hp
        rw [List.take_append_of_le_length (by rw [hversion, hp]; decide)]
        exact hOUI hp
  · rintro ⟨rfl, hoffered, h16, hsame, hOUI, l, l', rest, hdrop, hcipher, hakm⟩
    have hroom : p'.group + 4 ≤ 10 := by cases p' <;> decide
    have heq : Octet.take p'.group ++ (pMbss.groupCipher.suite p' ++
        (Counted.encode l ++ (Counted.encode l' ++ rest))) = Octet := by
      rw [sameGroup_offered hoffered] at hsame
      rw [← hsame, ← hdrop, Protocol.ucount, ← List.drop_drop, List.take_append_drop,
        List.take_append_drop]
    refine ⟨hoffered, Octet.take p'.group, l, l', rest, ?_, ?_, ?_, hcipher, hakm⟩
    · rw [heq]
      exact .header rfl hlen
    · rw [List.length_take]
      omega
    · intro hp
      rw [List.take_take, Nat.min_eq_left (by rw [hp]; decide)]
      exact hOUI hp

theorem Matches.header {Eid : UInt8} {c : Cipher} (h : Matches pMbss (Eid :: Len :: Octet) p c) :
    Eid = p.Eid ∧ Len.toNat = Octet.length := by
  obtain ⟨-, version, l, l', rest, hheader, -⟩ := h
  cases hheader with
  | header hbytes hrest =>
    obtain ⟨rfl, htail⟩ := List.cons.inj hbytes
    obtain ⟨rfl, rfl⟩ := List.cons.inj htail
    exact ⟨rfl, hrest⟩

theorem meets_of_rejected {status : StatusCode}
    (hrun : APValidateRSNIE pMbss pEntry pRsnIe rsnie_len = some (status, pEntry'))
    (hstatus : status ≠ .MLME_SUCCESS) (hno : ∀ p c, ¬ Matches pMbss pRsnIe p c) :
    Meets pMbss pEntry pRsnIe rsnie_len := by
  refine ⟨status, pEntry', hrun, ?_, fun h => absurd h hstatus⟩
  exact iff_of_false hstatus fun ⟨p, c, h⟩ => hno p c h

theorem meets_iff_matches
    (hrun : APValidateRSNIE pMbss pEntry pRsnIe rsnie_len = some (.MLME_SUCCESS, pEntry'))
    (hentry : ∀ p c, Matches pMbss pRsnIe p c → pEntry' = ⟨pMbss.authMode p, c.WepStatus⟩) :
    Meets pMbss pEntry pRsnIe rsnie_len ↔ ∃ p c, Matches pMbss pRsnIe p c := by
  constructor
  · rintro ⟨status, pEntry'', hsome, hiff, -⟩
    rw [hrun] at hsome
    obtain ⟨rfl, rfl⟩ := Prod.mk.inj (Option.some.inj hsome)
    exact hiff.mp rfl
  · rintro ⟨p, c, hm⟩
    obtain rfl := hentry p c hm
    exact ⟨_, _, hrun, iff_of_true rfl ⟨p, c, hm⟩, fun _ => ⟨p, c, hm, rfl, rfl⟩⟩

theorem not_meets_of_past (hrun : APValidateRSNIE pMbss pEntry pRsnIe rsnie_len = none) :
    ¬ Meets pMbss pEntry pRsnIe rsnie_len := by
  rintro ⟨status, pEntry', hsome, -⟩
  rw [hrun] at hsome
  cases hsome

def checkLists (pMbss : MULTISSID_STRUCT) (eid_ptr : EID_STRUCT) (pEntry : MAC_TABLE_ENTRY) :
    Option (StatusCode × MAC_TABLE_ENTRY) :=
  (RTMPCheckUcast pMbss eid_ptr pEntry).bind fun ucast =>
    if !ucast.1 then some (.MLME_INVALID_PAIRWISE_CIPHER, ucast.2)
    else (RTMPCheckAUTH pMbss eid_ptr).bind fun auth =>
      if !auth then some (.MLME_INVALID_AKMP, ucast.2) else some (.MLME_SUCCESS, ucast.2)

theorem APValidateRSNIE_eq (hlen : Len.toNat = Octet.length)
    (hie : rsnie_len.toNat = Octet.length + 2) :
    APValidateRSNIE pMbss pEntry (p.Eid :: Len :: Octet) rsnie_len =
      if Octet.length < 6 then
        some (.MLME_INVALID_GROUP_CIPHER, { pEntry with AuthMode := pMbss.AuthMode })
      else if p.group + 4 ≤ Octet.length then
        if pMbss.SameGroup p Octet then
          checkLists pMbss ⟨p.Eid, Len, Octet⟩ { pEntry with AuthMode := pMbss.authMode p }
        else some (.MLME_INVALID_GROUP_CIPHER, { pEntry with AuthMode := pMbss.authMode p })
      else none := by
  have hzero : rsnie_len ≠ 0 := by
    rintro rfl
    cases hie
  unfold APValidateRSNIE
  rw [if_neg hzero]
  dsimp only
  rw [if_neg (by rw [hie, hlen]; exact fun h => h rfl), RTMPCheckMcast_eq hlen]
  split_ifs with hshort hgroup hsame
  · rfl
  · rw [decide_eq_true hsame]
    rfl
  · rw [decide_eq_false hsame]
    rfl
  · rfl

theorem APValidateRSNIE_unknown (hEid : ¬ ∃ p : Protocol, p.Eid = Eid)
    (hlen : Len.toNat = Octet.length) (hie : rsnie_len.toNat = Octet.length + 2) :
    APValidateRSNIE pMbss pEntry (Eid :: Len :: Octet) rsnie_len =
      some (.MLME_INVALID_GROUP_CIPHER, { pEntry with AuthMode := pMbss.AuthMode }) := by
  have hzero : rsnie_len ≠ 0 := by
    rintro rfl
    cases hie
  have hmcast : RTMPCheckMcast pMbss ⟨Eid, Len, Octet⟩ pEntry =
      some (false, { pEntry with AuthMode := pMbss.AuthMode }) := by
    have hWPA : ¬ Eid = IE_WPA := fun h => hEid ⟨.WPA, h.symm⟩
    have hRSN : ¬ Eid = IE_RSN := fun h => hEid ⟨.RSN, h.symm⟩
    unfold RTMPCheckMcast
    dsimp only
    rw [if_neg hWPA, if_neg hRSN]
    split <;> rfl
  unfold APValidateRSNIE
  rw [if_neg hzero]
  dsimp only
  rw [if_neg (by rw [hie, hlen]; exact fun h => h rfl), hmcast]
  rfl

section

variable (hlen : Len.toNat = Octet.length)
include hlen

theorem checkLists_encode (h : 16 ≤ Octet.length) (hptr : Octet.drop p.ucount = l.encode ++ rest) :
    checkLists pMbss ⟨p.Eid, Len, Octet⟩ pEntry =
      match l.suites.findSome? (pMbss.standsFor p) with
      | none => some (.MLME_INVALID_PAIRWISE_CIPHER, { pEntry with WepStatus := pMbss.WepStatus })
      | some WepStatus => (checkAkms pMbss p rest).bind fun auth =>
        if !auth then some (.MLME_INVALID_AKMP, { pEntry with WepStatus })
        else some (.MLME_SUCCESS, { pEntry with WepStatus }) := by
  rw [checkLists, RTMPCheckUcast_encode hlen h hptr, Option.bind_some, RTMPCheckAUTH_encode hlen h hptr]
  cases l.suites.findSome? (pMbss.standsFor p) <;> rfl

theorem checkLists_past (h : 16 ≤ Octet.length)
    (hpast : ¬ ∃ (l : Counted 4) (rest : List UInt8), Octet.drop p.ucount = l.encode ++ rest) :
    checkLists pMbss ⟨p.Eid, Len, Octet⟩ pEntry = none := by
  rw [checkLists, RTMPCheckAUTH_past hlen h hpast]
  rcases RTMPCheckUcast_past hlen h hpast with hnone | ⟨pEntry', hsome⟩
  · rw [hnone]
    rfl
  · rw [hsome]
    rfl

theorem checkLists_short (h : Octet.length < 16) :
    checkLists pMbss ⟨p.Eid, Len, Octet⟩ pEntry =
      some (.MLME_INVALID_PAIRWISE_CIPHER, { pEntry with WepStatus := pMbss.WepStatus }) := by
  have hshort : Len < 16 := by
    rw [UInt8.lt_iff_toNat_lt, hlen]
    exact h
  rw [checkLists, RTMPCheckUcast]
  dsimp only
  rw [if_pos hshort]
  rfl

theorem suites_of_matches (hptr : Octet.drop p.ucount = l.encode ++ rest)
    (hm : Matches pMbss (p.Eid :: Len :: Octet) p' c) :
    pMbss.offers p = true ∧ l.suites.findSome? (pMbss.standsFor p) = some c.WepStatus ∧
      ∃ l' rest', rest = Counted.encode l' ++ rest' ∧ pMbss.akmSuite p ∈ l'.suites ∧
        (p = .WPA → Octet.take 4 = OUI_WPA_VERSION) := by
  obtain ⟨-, hoffered, -, -, hOUI, l₁, l', rest', hdrop, hcipher, hakm⟩ := (matches_iff hlen).mp hm
  obtain ⟨rfl, rfl⟩ := Counted.encode_inj (hptr.symm.trans hdrop)
  have hfun : pMbss.standsFor p = Option.map Cipher.WepStatus ∘ pMbss.cipherOf p :=
    funext (standsFor_offered hoffered)
  refine ⟨hoffered, ?_, l', rest', rfl, hakm, hOUI⟩
  rw [hfun, ← List.map_findSome?, hcipher]
  rfl

theorem meets_iff_akms (h : 16 ≤ Octet.length) (hsame : pMbss.SameGroup p Octet) {rsnie_len : UInt8}
    {l : Counted 4} {rest : List UInt8} (hptr : Octet.drop p.ucount = l.encode ++ rest)
    {WepStatus : Validate.WepStatus}
    (hfound : l.suites.findSome? (pMbss.standsFor p) = some WepStatus)
    (hrun : APValidateRSNIE pMbss pEntry (p.Eid :: Len :: Octet) rsnie_len =
      (checkAkms pMbss p rest).bind fun auth =>
        if !auth then some (.MLME_INVALID_AKMP, ⟨pMbss.authMode p, WepStatus⟩)
        else some (.MLME_SUCCESS, ⟨pMbss.authMode p, WepStatus⟩)) :
    Meets pMbss pEntry (p.Eid :: Len :: Octet) rsnie_len ↔ AkmsInside pMbss p Octet rest := by
  unfold AkmsInside
  cases hoffered : pMbss.offers p with
  | false =>
    rw [checkAkms_other hoffered] at hrun
    by_cases hcount : loadCount rest = some 0
    · rw [if_pos hcount] at hrun
      refine iff_of_true (meets_of_rejected hrun (by decide) fun p' c hm => ?_) hcount
      rw [(suites_of_matches hlen hptr hm).1] at hoffered
      cases hoffered
    · rw [if_neg hcount] at hrun
      exact iff_of_false (not_meets_of_past hrun) hcount
  | true =>
    have hentry : ∀ p' c, Matches pMbss (p.Eid :: Len :: Octet) p' c →
        (⟨pMbss.authMode p, WepStatus⟩ : MAC_TABLE_ENTRY) = ⟨pMbss.authMode p', c.WepStatus⟩ := by
      intro p' c hm
      obtain ⟨-, hsome, -⟩ := suites_of_matches hlen hptr hm
      obtain rfl := Option.some.inj (hfound.symm.trans hsome)
      rw [((matches_iff hlen).mp hm).1]
    by_cases hlist : ∃ (l' : Counted 4) (rest' : List UInt8), rest = l'.encode ++ rest'
    · obtain ⟨l', rest', rfl⟩ := hlist
      rw [checkAkms_encode hoffered] at hrun
      by_cases hmem : pMbss.akmSuite p ∈ l'.suites
      · rw [decide_eq_true hmem] at hrun
        refine (meets_iff_matches hrun hentry).trans ⟨?_, ?_⟩
        · rintro ⟨p', c, hm⟩
          exact ⟨l', rest', rfl, fun _ => ((matches_iff hlen).mp hm).2.2.2.2.1⟩
        · rintro ⟨l'', rest'', heq, hOUI⟩
          obtain ⟨rfl, rfl⟩ := Counted.encode_inj heq
          have hfun : pMbss.standsFor p = Option.map Cipher.WepStatus ∘ pMbss.cipherOf p :=
            funext (standsFor_offered hoffered)
          rw [hfun, ← List.map_findSome?] at hfound
          obtain ⟨c, hcipher, -⟩ := Option.map_eq_some_iff.mp hfound
          exact ⟨p, c, (matches_iff hlen).mpr
            ⟨rfl, hoffered, h, hsame, hOUI hmem, l, l', rest', hptr, hcipher, hmem⟩⟩
      · rw [decide_eq_false hmem] at hrun
        refine iff_of_true (meets_of_rejected hrun (by decide) fun p' c hm => ?_)
          ⟨l', rest', rfl, fun h => absurd h hmem⟩
        obtain ⟨-, -, l'', rest'', heq, hakm, -⟩ := suites_of_matches hlen hptr hm
        obtain ⟨rfl, -⟩ := Counted.encode_inj heq
        exact hmem hakm
    · refine iff_of_false ?_ fun ⟨l', rest', heq, _⟩ => hlist ⟨l', rest', heq⟩
      have hpast := checkAkms_past hoffered hlist
      match hakms : checkAkms pMbss p rest with
      | none => exact not_meets_of_past (by rw [hrun, hakms]; rfl)
      | some false => exact absurd hakms hpast
      | some true =>
        rw [hakms] at hrun
        rw [meets_iff_matches hrun hentry]
        rintro ⟨p', c, hm⟩
        obtain ⟨-, -, l', rest', heq, -⟩ := suites_of_matches hlen hptr hm
        exact hlist ⟨l', rest', heq⟩

theorem meets_iff_harmless (hie : rsnie_len.toNat = Octet.length + 2) :
    Meets pMbss pEntry (p.Eid :: Len :: Octet) rsnie_len ↔ Harmless pMbss p Octet := by
  have hrun : APValidateRSNIE pMbss pEntry (p.Eid :: Len :: Octet) rsnie_len = _ :=
    APValidateRSNIE_eq hlen hie
  by_cases hshort : Octet.length < 6
  · rw [if_pos hshort] at hrun
    refine iff_of_true (meets_of_rejected hrun (by decide) fun p' c hm => ?_)
      ⟨fun _ h => by omega, fun h16 => by omega⟩
    have h16 := ((matches_iff hlen).mp hm).2.2.1
    omega
  rw [if_neg hshort] at hrun
  by_cases hgroup : p.group + 4 ≤ Octet.length
  swap
  · rw [if_neg hgroup] at hrun
    refine iff_of_false (not_meets_of_past hrun) fun hharm => ?_
    cases p with
    | WPA => exact hharm.group rfl ⟨Nat.le_of_not_lt hshort, Nat.lt_of_not_le hgroup⟩
    | RSN => exact hgroup (Nat.le_of_not_lt hshort)
  rw [if_pos hgroup] at hrun
  have hpast : p = .WPA → ¬ (6 ≤ Octet.length ∧ Octet.length < 10) := by
    rintro rfl ⟨-, hlt⟩
    exact Nat.not_le_of_lt hlt hgroup
  by_cases hsame : pMbss.SameGroup p Octet
  swap
  · rw [if_neg hsame] at hrun
    refine iff_of_true (meets_of_rejected hrun (by decide) fun p' c hm => ?_)
      ⟨hpast, fun _ h => absurd h hsame⟩
    exact hsame ((matches_iff hlen).mp hm).2.2.2.1
  rw [if_pos hsame] at hrun
  by_cases h16 : 16 ≤ Octet.length
  swap
  · rw [checkLists_short hlen (Nat.lt_of_not_le h16)] at hrun
    refine iff_of_true (meets_of_rejected hrun (by decide) fun p' c hm => ?_)
      ⟨hpast, fun h _ => absurd h h16⟩
    exact h16 ((matches_iff hlen).mp hm).2.2.1
  have hlists : Harmless pMbss p Octet ↔ ListsInside pMbss p Octet :=
    ⟨fun h => h.lists h16 hsame, fun h => ⟨hpast, fun _ _ => h⟩⟩
  rw [hlists]
  by_cases hptr : ∃ (l : Counted 4) (rest : List UInt8), Octet.drop p.ucount = l.encode ++ rest
  swap
  · rw [checkLists_past hlen h16 hptr] at hrun
    exact iff_of_false (not_meets_of_past hrun) fun ⟨l, rest, heq, _⟩ => hptr ⟨l, rest, heq⟩
  obtain ⟨l, rest, hptr⟩ := hptr
  rw [checkLists_encode hlen h16 hptr] at hrun
  cases hfound : l.suites.findSome? (pMbss.standsFor p) with
  | none =>
    rw [hfound] at hrun
    refine iff_of_true (meets_of_rejected hrun (by decide) fun p' c hm => ?_)
      ⟨l, rest, hptr, fun ⟨s, hs, hsome⟩ => ?_⟩
    · rw [(suites_of_matches hlen hptr hm).2.1] at hfound
      cases hfound
    · rw [List.findSome?_eq_none_iff.mp hfound s hs] at hsome
      cases hsome
  | some WepStatus =>
    rw [hfound] at hrun
    rw [meets_iff_akms hlen h16 hsame hptr hfound hrun]
    obtain ⟨s, hs, hsome⟩ := List.exists_of_findSome?_eq_some hfound
    constructor
    · exact fun hakms => ⟨l, rest, hptr, fun _ => hakms⟩
    · rintro ⟨l', rest', hptr', hakms⟩
      obtain ⟨rfl, rfl⟩ := Counted.encode_inj (hptr.symm.trans hptr')
      exact hakms ⟨s, hs, by rw [hsome]; rfl⟩

end

end Code

/-- Where the code does what it should about any bytes. -/
def NoHarm (pMbss : MULTISSID_STRUCT) (pRsnIe : List UInt8) : Prop :=
  ∀ p Len Octet, pRsnIe = Protocol.Eid p :: Len :: Octet → Len.toNat = Octet.length →
    Harmless pMbss p Octet

/-- An element is accepted as it should be, and is not read past its end, exactly if it does no
harm. -/
theorem validate_exact (pMbss : MULTISSID_STRUCT) (pEntry : MAC_TABLE_ENTRY) (pRsnIe : List UInt8)
    (rsnie_len : UInt8) (hlen : pRsnIe.length = rsnie_len.toNat) (htwo : 2 ≤ rsnie_len.toNat) :
    Meets pMbss pEntry pRsnIe rsnie_len ↔ NoHarm pMbss pRsnIe := by
  match pRsnIe, hlen with
  | [], hlen =>
    rw [← hlen] at htwo
    exact absurd htwo (by decide : ¬ 2 ≤ 0)
  | [_], hlen =>
    rw [← hlen] at htwo
    exact absurd htwo (by decide : ¬ 2 ≤ 1)
  | Eid :: Len :: Octet, hlen =>
    have hzero : rsnie_len ≠ 0 := by
      rintro rfl
      cases htwo
    have hie : rsnie_len.toNat = Octet.length + 2 := hlen.symm
    by_cases hLen : Len.toNat = Octet.length
    swap
    · have hrun : APValidateRSNIE pMbss pEntry (Eid :: Len :: Octet) rsnie_len =
          some (.MLME_UNSPECIFY_FAIL, pEntry) := by
        rw [APValidateRSNIE, if_neg hzero]
        dsimp only
        rw [if_pos (by omega)]
        rfl
      refine iff_of_true (meets_of_rejected hrun (by decide) fun p c hm => ?_) fun p _ _ heq hLen' => ?_
      · exact hLen hm.header.2
      · obtain ⟨-, htail⟩ := List.cons.inj heq
        obtain ⟨rfl, rfl⟩ := List.cons.inj htail
        exact absurd hLen' hLen
    by_cases hEid : ∃ p : Protocol, p.Eid = Eid
    · obtain ⟨p, rfl⟩ := hEid
      rw [meets_iff_harmless hLen hie]
      refine ⟨fun hharm p' _ _ heq _ => ?_, fun hno => hno p Len Octet rfl hLen⟩
      obtain ⟨hEid, htail⟩ := List.cons.inj heq
      obtain ⟨rfl, rfl⟩ := List.cons.inj htail
      obtain rfl := Protocol.Eid_inj hEid
      exact hharm
    · have hrun : APValidateRSNIE pMbss pEntry (Eid :: Len :: Octet) rsnie_len = _ :=
        APValidateRSNIE_unknown hEid hLen hie
      refine iff_of_true (meets_of_rejected hrun (by decide) fun p c hm => ?_) fun p _ _ heq _ => ?_
      · exact hEid ⟨p, hm.header.1.symm⟩
      · exact absurd ⟨p, (List.cons.inj heq).1.symm⟩ hEid

def wpa2psk : MULTISSID_STRUCT := ⟨.WPA2PSK, .Encryption3Enabled, 0, false⟩

/-- The element of a station for it, with as many AKM suites as are said. -/
def stationIe (acount : UInt8) : List UInt8 :=
  [48, 20, 1, 0, 0x00, 0x0F, 0xAC, 4, 1, 0, 0x00, 0x0F, 0xAC, 4, acount, 0, 0x00, 0x0F, 0xAC, 2, 0, 0]

theorem validate_exact_station : (stationIe 1).length = (22 : UInt8).toNat ∧ 2 ≤ (22 : UInt8).toNat ∧
    (Meets wpa2psk ⟨.WPA2PSK, .Encryption3Enabled⟩ (stationIe 1) 22 ↔ NoHarm wpa2psk (stationIe 1)) :=
  ⟨rfl, by decide, validate_exact _ _ _ _ rfl (by decide)⟩

/-- An element is accepted whose AKM list is not inside, and one of a few bytes is read past its
end. -/
theorem unsound_accepted :
    (APValidateRSNIE wpa2psk ⟨.WPA2PSK, .Encryption3Enabled⟩ (stationIe 2) 22 =
      some (.MLME_SUCCESS, ⟨.WPA2PSK, .Encryption3Enabled⟩) ∧
      ∀ p c, ¬ Matches wpa2psk (stationIe 2) p c) ∧
    APValidateRSNIE wpa2psk ⟨.WPA2PSK, .Encryption3Enabled⟩ [221, 6, 0x00, 0x50, 0xF2, 1, 1, 0] 8 =
      none := by
  refine ⟨⟨by decide +kernel, fun p c hm => ?_⟩, by decide +kernel⟩
  obtain rfl : p = .RSN := Protocol.Eid_inj hm.header.1.symm
  let l : Counted 4 := ⟨1, 0, [0x00, 0x0F, 0xAC, 4], rfl⟩
  have hptr : ((stationIe 2).drop 2).drop Protocol.RSN.ucount =
      l.encode ++ [2, 0, 0x00, 0x0F, 0xAC, 2, 0, 0] := rfl
  change Matches wpa2psk (Protocol.RSN.Eid :: 20 :: (stationIe 2).drop 2) .RSN c at hm
  obtain ⟨-, -, ⟨b0, b1, entries, hentries⟩, rest, heq, -⟩ := suites_of_matches rfl hptr hm
  obtain ⟨rfl, htail⟩ := List.cons.inj heq
  obtain ⟨rfl, htail⟩ := List.cons.inj htail
  have hlen : 6 = (entries ++ rest).length := congrArg List.length htail
  change entries.length = 8 at hentries
  rw [List.length_append] at hlen
  omega

end Ralink.Rsn.Validate
