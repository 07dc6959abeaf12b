import Ralink.Rsn.Element

/-! `WPA_ExtractSuiteFromRSNIE` of `cmm_wpa.c`, with every read checked against the element. -/
namespace Ralink.Rsn

/-- The pointer into the element, and `*count`. -/
structure Extracted where
  ptr : Option Nat
  count : UInt8
  deriving DecidableEq

/-- `out:` -/
def out : Option Extracted := some ⟨none, 0⟩

/-- An `int` compared with a size, which is unsigned. -/
abbrev ltSize (len : Int) (size : Nat) : Prop := len % 2 ^ 32 < size

section Code

variable (rsnie : List UInt8) (Eid type : UInt8)

def load16 (i : Nat) : Option UInt16 := do
  let b0 ← rsnie[i]?
  let b1 ← rsnie[i + 1]?
  some (le16 b0 b1)

def extractPmkids (pBuf : Nat) (len : Int) : Option Extracted :=
  if ltSize len 2 then out
  else do
    let p_count ← load16 rsnie pBuf
    if 0 < p_count then
      let offset : Int := 18 + 16 * (p_count.toNat - 1 : Int)
      if len < offset then out
      else if type = Field.PMKID_LIST.code then some ⟨some (pBuf + 2), p_count.toUInt8⟩ else out
    else if type = Field.PMKID_LIST.code then some ⟨none, p_count.toUInt8⟩ else out

def extractCaps (pBuf : Nat) (len : Int) : Option Extracted :=
  if ltSize len 2 then out
  else if type = Field.RSN_CAP_INFO.code then some ⟨some pBuf, 1⟩
  else extractPmkids rsnie type (pBuf + 2) (len - 2)

def extractAkm (pBuf : Nat) (len : Int) : Option Extracted :=
  if ltSize len 6 then out
  else do
    let a_cnt ← load16 rsnie pBuf
    let offset : Int := 6 + 4 * (a_cnt.toNat - 1 : Int)
    if len < offset then out
    else if type = Field.AKM_SUITE.code then some ⟨some (pBuf + 2), a_cnt.toUInt8⟩
    else if Eid = IE_WPA then out
    else extractCaps rsnie type (pBuf + offset.toNat) (len - offset)

/-- `RSNIE` and `RSNIE2` differ in what stands in front of `mcast`. -/
def extractPairwise (mcast : Nat) (pBuf : Nat) (len : Int) : Option Extracted :=
  if ltSize len (mcast + 10) then out
  else do
    let u_cnt ← load16 rsnie (pBuf + mcast + 4)
    let offset : Int := (mcast + 10 : Nat) + 4 * (u_cnt.toNat - 1 : Int)
    if len < offset then out
    else if type = Field.GROUP_SUITE.code then some ⟨some (pBuf + mcast), 1⟩
    else if type = Field.PAIRWISE_SUITE.code then some ⟨some (pBuf + mcast + 6), u_cnt.toUInt8⟩
    else extractAkm rsnie Eid type (pBuf + offset.toNat) (len - offset)

def WPA_ExtractSuiteFromRSNIE (rsnie_len : UInt32) : Option Extracted :=
  let len : Int := (rsnie_len - 2).toBitVec.toInt
  if len ≤ 0 then out
  else do
    let Len ← rsnie[1]?
    if (Len.toNat : Int) ≠ len then out
    else
      let Eid ← rsnie[0]?
      if Eid = IE_WPA then extractPairwise rsnie Eid type 6 2 len
      else if Eid = IE_RSN then extractPairwise rsnie Eid type 2 2 len
      else out

end Code

def Exact (rsnie : List UInt8) (type : UInt8) (run : Option Extracted) : Prop :=
  ∃ r, run = some r ∧ ((r.ptr = none ∧ r.count = 0) ∨
    ∃ Eid field off suites, field.code = type ∧ r.ptr = some off ∧
      Places Eid rsnie field off r.count.toNat suites)

section Exact

variable {rsnie : List UInt8} {Eid type : UInt8} {pBuf : Nat} {len : Int}

theorem exact_out : Exact rsnie type out := ⟨_, rfl, .inl ⟨rfl, rfl⟩⟩

theorem exact_field {field : Field} {off count : Nat} {suites : List UInt8} {c : UInt8}
    (hplaces : Places Eid rsnie field off count suites) (htype : type = field.code)
    (hc : c.toNat = count) : Exact rsnie type (some ⟨some off, c⟩) := by
  refine ⟨_, rfl, .inr ⟨Eid, field, off, suites, htype.symm, rfl, ?_⟩⟩
  rw [hc]
  exact hplaces

theorem counted_at (w : Nat) (rsnie : List UInt8) (pBuf : Nat) (h : pBuf + 2 ≤ rsnie.length) :
    ∃ n, load16 rsnie pBuf = some n ∧ (pBuf + (2 + w * n.toNat) ≤ rsnie.length →
      ∃ l : Counted w, l.count = n.toNat ∧
        rsnie.drop pBuf = l.encode ++ rsnie.drop (pBuf + (2 + w * n.toNat)) ∧
        rsnie.length = pBuf + 2 + (l.entries ++ rsnie.drop (pBuf + (2 + w * n.toNat))).length) := by
  have hlen : (rsnie.drop pBuf).length = rsnie.length - pBuf := List.length_drop
  rcases hdrop : rsnie.drop pBuf with _ | ⟨b0, _ | ⟨b1, tl⟩⟩
  · rw [hdrop, List.length_nil] at hlen
    omega
  · rw [hdrop, List.length_singleton] at hlen
    omega
  have h0 : rsnie[pBuf]? = some b0 := by
    have hget := @List.getElem?_drop _ rsnie pBuf 0
    rw [hdrop] at hget
    exact hget.symm
  have h1 : rsnie[pBuf + 1]? = some b1 := by
    have hget := @List.getElem?_drop _ rsnie pBuf 1
    rw [hdrop] at hget
    exact hget.symm
  refine ⟨le16 b0 b1, ?_, ?_⟩
  · unfold load16
    rw [h0, h1]
    rfl
  · intro hfits
    rw [hdrop, List.length_cons, List.length_cons] at hlen
    have hentries : (tl.take (w * (le16 b0 b1).toNat)).length = w * (le16 b0 b1).toNat := by
      rw [List.length_take]
      omega
    have hrest : rsnie.drop (pBuf + (2 + w * (le16 b0 b1).toNat)) = tl.drop (w * (le16 b0 b1).toNat) := by
      rw [← List.drop_drop, hdrop, Nat.add_comm 2, List.drop_succ_cons, List.drop_succ_cons]
    have hsplit := List.take_append_drop (w * (le16 b0 b1).toNat) tl
    refine ⟨⟨b0, b1, tl.take (w * (le16 b0 b1).toNat), hentries⟩, rfl, ?_, ?_⟩
    · rw [hrest]
      exact congrArg (fun l => b0 :: b1 :: l) hsplit.symm
    · rw [hrest, hsplit]
      omega

structure At (Eid : UInt8) (rsnie : List UInt8) (part : Part) (pBuf : Nat) (len : Int) : Prop where
  behind : Behind Eid rsnie part (rsnie.drop pBuf)
  len_eq : len = rsnie.length - pBuf
  inside : pBuf ≤ rsnie.length
  short : rsnie.length ≤ 257

theorem At.ltSize_iff {part : Part} {size : Nat} (h : At Eid rsnie part pBuf len) :
    ltSize len size ↔ len < size := by
  have := h.len_eq
  have := h.inside
  have := h.short
  unfold ltSize
  omega

theorem exact_extractPmkids (h : At Eid rsnie .caps pBuf len) :
    Exact rsnie type (extractPmkids rsnie type pBuf len) := by
  have hlen := h.len_eq
  have hshort := h.short
  have hinside := h.inside
  unfold extractPmkids
  split
  · exact exact_out
  next hsize =>
    rw [h.ltSize_iff] at hsize
    obtain ⟨n, hn, hlist⟩ := counted_at 16 rsnie pBuf (by omega)
    rw [hn]
    simp only [Option.bind_eq_bind, Option.bind_some]
    split
    · next hpos =>
      have hpos' : 0 < n.toNat := UInt16.lt_iff_toNat_lt.mp hpos
      split
      · exact exact_out
      · next hfits =>
        split
        · next htype =>
          obtain ⟨l, hl, hdrop, hoff⟩ := hlist (by omega)
          refine exact_field (.pmkids (hdrop ▸ h.behind) (by omega) hoff) htype ?_
          rw [UInt16.toNat_toUInt8, hl]
          omega
        · exact exact_out
    · next hzero =>
      have hn0 : n = 0 := by
        apply UInt16.toNat_inj.mp
        rw [UInt16.lt_iff_toNat_lt] at hzero
        exact Nat.eq_zero_of_not_pos hzero
      split
      · exact ⟨_, rfl, .inl ⟨rfl, by rw [hn0]; rfl⟩⟩
      · exact exact_out

theorem exact_extractCaps (hrsn : Eid = IE_RSN) (h : At Eid rsnie .akm pBuf len) :
    Exact rsnie type (extractCaps rsnie type pBuf len) := by
  have hlen := h.len_eq
  have hshort := h.short
  have hinside := h.inside
  unfold extractCaps
  split
  · exact exact_out
  next hsize =>
    rw [h.ltSize_iff] at hsize
    have hsplit : rsnie.drop pBuf = (rsnie.drop pBuf).take 2 ++ rsnie.drop (pBuf + 2) := by
      rw [← List.drop_drop, List.take_append_drop]
    have hcaps : ((rsnie.drop pBuf).take 2).length = 2 := by
      rw [List.length_take, List.length_drop]
      omega
    have hbehind := h.behind
    rw [hsplit] at hbehind
    split
    · next htype =>
      refine exact_field (.caps hbehind hcaps hrsn ?_) htype rfl
      rw [← hsplit, List.length_drop]
      omega
    · exact exact_extractPmkids ⟨.caps hbehind hcaps hrsn, by omega, by omega, hshort⟩

theorem exact_extractAkm (hkind : Eid ≠ IE_WPA → Eid = IE_RSN) (h : At Eid rsnie .pairwise pBuf len) :
    Exact rsnie type (extractAkm rsnie Eid type pBuf len) := by
  have hlen := h.len_eq
  have hshort := h.short
  have hinside := h.inside
  unfold extractAkm
  split
  · exact exact_out
  next hsize =>
    rw [h.ltSize_iff] at hsize
    obtain ⟨n, hn, hlist⟩ := counted_at 4 rsnie pBuf (by omega)
    rw [hn]
    simp only [Option.bind_eq_bind, Option.bind_some]
    split
    · exact exact_out
    · next hfits =>
      obtain ⟨l, hl, hdrop, hoff⟩ := hlist (by omega)
      have hbehind := h.behind
      rw [hdrop] at hbehind
      split
      · next htype =>
        refine exact_field (.akm hbehind hoff) htype ?_
        rw [UInt16.toNat_toUInt8, hl]
        omega
      · split
        · exact exact_out
        · next hwpa =>
          have hskip : (6 + 4 * ((n.toNat : Int) - 1)).toNat = 2 + 4 * n.toNat := by omega
          rw [hskip]
          exact exact_extractCaps (hkind hwpa) ⟨.akm hbehind, by omega, by omega, hshort⟩

theorem exact_extractPairwise {mcast : Nat} (hversion : versionLength Eid = some mcast)
    (hkind : Eid ≠ IE_WPA → Eid = IE_RSN) (h : At Eid rsnie .header pBuf len) :
    Exact rsnie type (extractPairwise rsnie Eid type mcast pBuf len) := by
  have hlen := h.len_eq
  have hshort := h.short
  have hinside := h.inside
  unfold extractPairwise
  split
  · exact exact_out
  next hsize =>
    rw [h.ltSize_iff] at hsize
    have hsplit : ∀ i k, rsnie.drop i = (rsnie.drop i).take k ++ rsnie.drop (i + k) := by
      intro i k
      rw [← List.drop_drop, List.take_append_drop]
    have hpart : ∀ i k, i + k ≤ rsnie.length → ((rsnie.drop i).take k).length = k := by
      intro i k hi
      rw [List.length_take, List.length_drop]
      omega
    have hbehind : Behind Eid rsnie .version (rsnie.drop (pBuf + mcast)) :=
      .version (hsplit pBuf mcast ▸ h.behind) (by rw [hversion, hpart _ _ (by omega)])
    have hgroup : Behind Eid rsnie .group (rsnie.drop (pBuf + mcast + 4)) :=
      .group (hsplit (pBuf + mcast) 4 ▸ hbehind) (hpart _ _ (by omega))
    obtain ⟨n, hn, hlist⟩ := counted_at 4 rsnie (pBuf + mcast + 4) (by omega)
    rw [hn]
    simp only [Option.bind_eq_bind, Option.bind_some]
    split
    · exact exact_out
    · next hfits =>
      split
      · next htype =>
        refine exact_field (.group (hsplit (pBuf + mcast) 4 ▸ hbehind) (hpart _ _ (by omega)) ?_) htype rfl
        rw [← hsplit, List.length_drop]
        omega
      · obtain ⟨l, hl, hdrop, hoff⟩ := hlist (by omega)
        rw [hdrop] at hgroup
        split
        · next htype =>
          refine exact_field (.pairwise hgroup (by omega)) htype ?_
          rw [UInt16.toNat_toUInt8, hl]
          omega
        · have hskip : pBuf + (((mcast + 10 : Nat) : Int) + 4 * ((n.toNat : Int) - 1)).toNat =
              pBuf + mcast + 4 + (2 + 4 * n.toNat) := by omega
          rw [hskip]
          exact exact_extractAkm hkind ⟨.pairwise hgroup, by omega, by omega, hshort⟩

theorem exact_extract (type : UInt8) (h : rsnie.length < 2 ^ 32) :
    Exact rsnie type (WPA_ExtractSuiteFromRSNIE rsnie type (UInt32.ofNat rsnie.length)) := by
  have hn : (UInt32.ofNat rsnie.length).toNat = rsnie.length := by
    rw [UInt32.toNat_ofNat', Nat.mod_eq_of_lt h]
  have hsub : (UInt32.ofNat rsnie.length - 2).toNat = (2 ^ 32 - 2 + rsnie.length) % 2 ^ 32 := by
    rw [UInt32.toNat_sub, hn]
    rfl
  have hint := BitVec.toInt_eq_toNat_cond (UInt32.ofNat rsnie.length - 2).toBitVec
  rw [UInt32.toNat_toBitVec, hsub] at hint
  unfold WPA_ExtractSuiteFromRSNIE
  generalize (UInt32.ofNat rsnie.length - 2).toBitVec.toInt = len at hint
  simp only
  split
  · exact exact_out
  next hpos =>
    have hlen : len = (rsnie.length : Int) - 2 := by
      split at hint <;> omega
    rcases hbytes : rsnie with _ | ⟨Eid, _ | ⟨Len, rest⟩⟩
    · rw [hbytes, List.length_nil] at hlen
      omega
    · rw [hbytes, List.length_singleton] at hlen
      omega
    rw [hbytes, List.length_cons, List.length_cons] at hlen
    simp only [List.getElem?_cons_succ, List.getElem?_cons_zero, Option.bind_eq_bind, Option.bind_some]
    split
    · exact exact_out
    next hLen =>
      have hLt := Len.toNat_lt
      have hat : At Eid (Eid :: Len :: rest) .header 2 len := by
        have hrest : Len.toNat = rest.length := by omega
        refine ⟨.header rfl hrest, ?_, ?_, ?_⟩
        · rw [List.length_cons, List.length_cons]
          omega
        · rw [List.length_cons, List.length_cons]
          omega
        · rw [List.length_cons, List.length_cons]
          omega
      split
      · next hwpa =>
        have hversion : versionLength Eid = some 6 := by rw [hwpa]; rfl
        exact exact_extractPairwise hversion (fun hne => absurd hwpa hne) hat
      · next hwpa =>
        split
        · next hrsn =>
          have hversion : versionLength Eid = some 2 := by rw [hrsn]; rfl
          exact exact_extractPairwise hversion (fun _ => hrsn) hat
        · exact exact_out

end Exact

/-- The lists that the code reads on its way to a field are there, and four bytes with each: it
compares the lengths with structures that have room for one suite. -/
def Reached (Eid : UInt8) (rsnie : List UInt8) (field : Field) : Prop :=
  (∃ (l : Counted 4) (rest : List UInt8), Behind Eid rsnie .group (l.encode ++ rest) ∧
    4 ≤ (l.entries ++ rest).length) ∧
  (field ≠ .GROUP_SUITE → field ≠ .PAIRWISE_SUITE →
    ∃ (l : Counted 4) (rest : List UInt8), Behind Eid rsnie .pairwise (l.encode ++ rest) ∧
      4 ≤ (l.entries ++ rest).length)

section Found

variable {rsnie rest : List UInt8} {Eid type : UInt8} {pBuf mcast w : Nat} {len : Int}

theorem load16_encode {l : Counted w} (h : rsnie.drop pBuf = l.encode ++ rest) :
    load16 rsnie pBuf = some (le16 l.b0 l.b1) := by
  have h0 := @List.getElem?_drop _ rsnie pBuf 0
  have h1 := @List.getElem?_drop _ rsnie pBuf 1
  rw [h] at h0 h1
  unfold load16
  rw [← Nat.add_zero pBuf, ← h0, Nat.add_zero, ← h1]
  rfl

theorem length_encode_append (l : Counted w) (rest : List UInt8) :
    (l.encode ++ rest).length = 2 + w * l.count + rest.length ∧
      (l.entries ++ rest).length = w * l.count + rest.length := by
  rw [List.length_append, List.length_append, l.length_encode, l.length_entries]
  exact ⟨rfl, rfl⟩

theorem extractPairwise_eq (type : UInt8) {l : Counted 4} (h : At Eid rsnie .header pBuf len)
    (hversion : versionLength Eid = some mcast) (hgroup : Behind Eid rsnie .group (l.encode ++ rest))
    (hroom : 4 ≤ (l.entries ++ rest).length) :
    pBuf + mcast + 4 + (2 + 4 * l.count) + rest.length = rsnie.length ∧
    extractPairwise rsnie Eid type mcast pBuf len =
      if type = Field.GROUP_SUITE.code then some ⟨some (pBuf + mcast), 1⟩
      else if type = Field.PAIRWISE_SUITE.code then
        some ⟨some (pBuf + mcast + 6), UInt8.ofNat l.count⟩
      else extractAkm rsnie Eid type (pBuf + mcast + 4 + (2 + 4 * l.count)) rest.length := by
  have hlen := h.len_eq
  have hinside := h.inside
  obtain ⟨hencode, hentries⟩ := length_encode_append l rest
  have hpos : rsnie.length = pBuf + mcast + 4 + (l.encode ++ rest).length := by
    cases hgroup with
    | group hgroup hfour =>
      cases hgroup with
      | version hheader hmcast =>
        have hbody := congrArg List.length (h.behind.unique hheader)
        rw [hversion] at hmcast
        have hmcast := Option.some.inj hmcast
        rw [List.length_drop, List.length_append, List.length_append, ← hmcast, hfour] at hbody
        omega
  have hdrop := drop_of_suffix hgroup.suffix hpos
  have hcount : (le16 l.b0 l.b1).toNat = l.count := rfl
  have hskip : pBuf + (((mcast + 10 : Nat) : Int) + 4 * ((l.count : Int) - 1)).toNat =
      pBuf + mcast + 4 + (2 + 4 * l.count) := by omega
  have hleft : len - (((mcast + 10 : Nat) : Int) + 4 * ((l.count : Int) - 1)) = rest.length := by omega
  have hcode : (le16 l.b0 l.b1).toUInt8 = UInt8.ofNat l.count := rfl
  refine ⟨by omega, ?_⟩
  unfold extractPairwise
  rw [if_neg (by rw [h.ltSize_iff]; omega), load16_encode hdrop]
  simp only [Option.bind_eq_bind, Option.bind_some, hcount, hcode]
  rw [if_neg (by omega), hskip, hleft]

theorem extractAkm_eq (type : UInt8) {l : Counted 4} (h : At Eid rsnie .pairwise pBuf len)
    (hpairwise : Behind Eid rsnie .pairwise (l.encode ++ rest)) (hroom : 4 ≤ (l.entries ++ rest).length) :
    pBuf + (2 + 4 * l.count) + rest.length = rsnie.length ∧
    extractAkm rsnie Eid type pBuf len =
      if type = Field.AKM_SUITE.code then some ⟨some (pBuf + 2), UInt8.ofNat l.count⟩
      else if Eid = IE_WPA then out
      else extractCaps rsnie type (pBuf + (2 + 4 * l.count)) rest.length := by
  have hlen := h.len_eq
  have hinside := h.inside
  obtain ⟨hencode, hentries⟩ := length_encode_append l rest
  have hdrop := h.behind.unique hpairwise
  have hpos : rsnie.length = pBuf + (l.encode ++ rest).length := by
    rw [← hdrop, List.length_drop]
    omega
  have hcount : (le16 l.b0 l.b1).toNat = l.count := rfl
  have hskip : pBuf + (6 + 4 * ((l.count : Int) - 1)).toNat = pBuf + (2 + 4 * l.count) := by omega
  have hleft : len - (6 + 4 * ((l.count : Int) - 1)) = rest.length := by omega
  have hcode : (le16 l.b0 l.b1).toUInt8 = UInt8.ofNat l.count := rfl
  refine ⟨by omega, ?_⟩
  unfold extractAkm
  rw [if_neg (by rw [h.ltSize_iff]; omega), load16_encode hdrop]
  simp only [Option.bind_eq_bind, Option.bind_some, hcount, hcode]
  rw [if_neg (by omega), hskip, hleft]

theorem extractCaps_eq (type : UInt8) (h : At Eid rsnie .akm pBuf len) (hlen : 2 ≤ len) :
    extractCaps rsnie type pBuf len =
      if type = Field.RSN_CAP_INFO.code then some ⟨some pBuf, 1⟩
      else extractPmkids rsnie type (pBuf + 2) (len - 2) := by
  unfold extractCaps
  rw [if_neg (by rw [h.ltSize_iff]; omega)]

theorem extractPmkids_eq {l : Counted 16} (h : At Eid rsnie .caps pBuf len)
    (hcaps : Behind Eid rsnie .caps (l.encode ++ rest)) (hpos : 0 < l.count) :
    rsnie.length = pBuf + 2 + (l.entries ++ rest).length ∧
    extractPmkids rsnie Field.PMKID_LIST.code pBuf len = some ⟨some (pBuf + 2), UInt8.ofNat l.count⟩ := by
  have hlen := h.len_eq
  have hinside := h.inside
  obtain ⟨hencode, hentries⟩ := length_encode_append l rest
  have hdrop := h.behind.unique hcaps
  have hall : rsnie.length = pBuf + (l.encode ++ rest).length := by
    rw [← hdrop, List.length_drop]
    omega
  have hcount : (le16 l.b0 l.b1).toNat = l.count := rfl
  have hcode : (le16 l.b0 l.b1).toUInt8 = UInt8.ofNat l.count := rfl
  have hpositive : 0 < le16 l.b0 l.b1 := UInt16.lt_iff_toNat_lt.mpr hpos
  refine ⟨by omega, ?_⟩
  unfold extractPmkids
  rw [if_neg (by rw [h.ltSize_iff]; omega), load16_encode hdrop]
  simp only [Option.bind_eq_bind, Option.bind_some, hcount, hcode]
  rw [if_pos hpositive, if_neg (by omega), if_pos trivial]

theorem extract_head (type : UInt8) {version : List UInt8} (h : Behind Eid rsnie .header (version ++ rest))
    (hversion : versionLength Eid = some version.length) :
    At Eid rsnie .header 2 (rsnie.length - 2 : Int) ∧
    WPA_ExtractSuiteFromRSNIE rsnie type (UInt32.ofNat rsnie.length) =
      extractPairwise rsnie Eid type version.length 2 (rsnie.length - 2 : Int) := by
  cases h with
  | @header Len _ hbytes hLen =>
    have hLt := Len.toNat_lt
    have hlength : rsnie.length = 2 + Len.toNat := by
      rw [hbytes, List.length_cons, List.length_cons, hLen]
      omega
    have hdrop : rsnie.drop 2 = version ++ rest := by rw [hbytes]; rfl
    have hat : At Eid rsnie .header 2 (rsnie.length - 2 : Int) :=
      ⟨hdrop ▸ .header hbytes hLen, rfl, by omega, by omega⟩
    refine ⟨hat, ?_⟩
    have hn : (UInt32.ofNat rsnie.length).toNat = rsnie.length := by
      rw [UInt32.toNat_ofNat', Nat.mod_eq_of_lt (by omega)]
    have hsub : (UInt32.ofNat rsnie.length - 2).toNat = (2 ^ 32 - 2 + rsnie.length) % 2 ^ 32 := by
      rw [UInt32.toNat_sub, hn]
      rfl
    have hint : (UInt32.ofNat rsnie.length - 2).toBitVec.toInt = (rsnie.length : Int) - 2 := by
      rw [BitVec.toInt_eq_toNat_cond, UInt32.toNat_toBitVec, hsub]
      split <;> omega
    have hpos : 0 < version.length := by
      unfold versionLength at hversion
      split at hversion
      · have := Option.some.inj hversion
        omega
      · split at hversion
        · have := Option.some.inj hversion
          omega
        · cases hversion
    have hEid : rsnie[0]? = some Eid := by rw [hbytes]; rfl
    have hLen1 : rsnie[1]? = some Len := by rw [hbytes]; rfl
    have hLen' : Len.toNat = version.length + rest.length := by rw [hLen, List.length_append]
    unfold WPA_ExtractSuiteFromRSNIE
    simp only [hint, hEid, hLen1, Option.bind_eq_bind, Option.bind_some]
    rw [if_neg (by omega), if_neg (by omega)]
    unfold versionLength at hversion
    split
    · next hwpa =>
      rw [if_pos hwpa] at hversion
      rw [← Option.some.inj hversion]
    · next hwpa =>
      rw [if_neg hwpa] at hversion
      split
      · next hrsn =>
        rw [if_pos hrsn] at hversion
        rw [← Option.some.inj hversion]
      · next hrsn =>
        rw [if_neg hrsn] at hversion
        cases hversion

theorem At.behind_of {part part' : Part} {pos : Nat} (h : At Eid rsnie part pBuf len)
    (hrest : Behind Eid rsnie part' rest) (hpos : pos + rest.length = rsnie.length) :
    At Eid rsnie part' pos rest.length := by
  have hdrop := drop_of_suffix hrest.suffix hpos.symm
  exact ⟨hdrop ▸ hrest, by omega, by omega, h.short⟩

theorem found {field : Field} {off count : Nat} {suites : List UInt8}
    (h : Places Eid rsnie field off count suites) (hreached : Reached Eid rsnie field) :
    WPA_ExtractSuiteFromRSNIE rsnie field.code (UInt32.ofNat rsnie.length) =
      some ⟨some off, UInt8.ofNat count⟩ := by
  obtain ⟨⟨l, rest, hgroup, hroom⟩, hnext⟩ := hreached
  have hlist := length_encode_append l rest
  obtain ⟨group, hversion4, hfour⟩ : ∃ group, Behind Eid rsnie .version (group ++ (l.encode ++ rest)) ∧
      group.length = 4 := by
    cases hgroup with
    | group h h4 => exact ⟨_, h, h4⟩
  obtain ⟨version, hheader, hversion⟩ : ∃ version,
      Behind Eid rsnie .header (version ++ (group ++ (l.encode ++ rest))) ∧
      versionLength Eid = some version.length := by
    cases hversion4 with
    | version h h' => exact ⟨_, h, h'⟩
  obtain ⟨hat, hrun⟩ := extract_head field.code hheader hversion
  obtain ⟨hpos, hpairwise⟩ := extractPairwise_eq field.code hat hversion hgroup hroom
  have hatAkm := hat.behind_of (.pairwise hgroup) hpos
  rw [hrun, hpairwise]
  cases h with
  | group h hlen hoff =>
    rw [h.unique hversion4, List.length_append, hfour, hlist.1] at hoff
    have hoff' : 2 + version.length = off := by omega
    rw [hoff']
    rfl
  | pairwise h hoff =>
    obtain ⟨rfl, rfl⟩ := Counted.encode_inj (h.unique hgroup)
    rw [hlist.2] at hoff
    have hoff' : 2 + version.length + 6 = off := by omega
    rw [hoff']
    rfl
  | akm h hoff =>
    obtain ⟨l', rest', hakm, hroom'⟩ := hnext (by decide) (by decide)
    obtain ⟨hpos', hrun'⟩ := extractAkm_eq Field.AKM_SUITE.code hatAkm hakm hroom'
    obtain ⟨rfl, rfl⟩ := Counted.encode_inj (h.unique hakm)
    rw [(length_encode_append ..).2] at hoff
    have hoff' : 2 + version.length + 4 + (2 + 4 * l.count) + 2 = off := by omega
    show extractAkm _ _ _ _ _ = _
    rw [hrun', hoff']
    rfl
  | @caps _ tail _ h hlen hrsn hoff =>
    obtain ⟨l', rest', hakm, hroom'⟩ := hnext (by decide) (by decide)
    obtain ⟨hpos', hrun'⟩ := extractAkm_eq Field.RSN_CAP_INFO.code hatAkm hakm hroom'
    have hatCaps := hat.behind_of (.akm hakm) hpos'
    have hrest := h.unique (.akm hakm)
    rw [List.length_append, hlen] at hoff
    have hlen' : rest'.length = 2 + tail.length := by rw [← hrest, List.length_append, hlen]
    have hcaps := extractCaps_eq Field.RSN_CAP_INFO.code hatCaps (by omega)
    have hoff' : 2 + version.length + 4 + (2 + 4 * l.count) + (2 + 4 * l'.count) = off := by omega
    show extractAkm _ _ _ _ _ = _
    rw [hrun', if_neg (by decide), if_neg (by rw [hrsn]; decide), hcaps, hoff']
    rfl
  | @pmkids pmkids tail _ h hcount hoff =>
    obtain ⟨l', rest', hakm, hroom'⟩ := hnext (by decide) (by decide)
    obtain ⟨hpos', hrun'⟩ := extractAkm_eq Field.PMKID_LIST.code hatAkm hakm hroom'
    have hatCaps := hat.behind_of (.akm hakm) hpos'
    obtain ⟨caps, hbehind, htwo, hrsn⟩ : ∃ caps,
        Behind Eid rsnie .akm (caps ++ (pmkids.encode ++ tail)) ∧ caps.length = 2 ∧ Eid = IE_RSN := by
      cases h with
      | caps h h2 hrsn => exact ⟨_, h, h2, hrsn⟩
    have hrest := congrArg List.length ((Behind.akm hakm).unique hbehind)
    rw [List.length_append, htwo] at hrest
    have hcaps := extractCaps_eq Field.PMKID_LIST.code hatCaps (by omega)
    have hleft : (rest'.length : Int) - 2 = (pmkids.encode ++ tail).length := by
      rw [hrest]
      omega
    have hend : 2 + version.length + 4 + (2 + 4 * l.count) + (2 + 4 * l'.count) + 2 +
        (pmkids.encode ++ tail).length = rsnie.length := by omega
    have hatPmkids := hatCaps.behind_of h hend
    obtain ⟨hall, hrun''⟩ := extractPmkids_eq hatPmkids h hcount
    have hoff' : 2 + version.length + 4 + (2 + 4 * l.count) + (2 + 4 * l'.count) + 2 + 2 = off := by omega
    show extractAkm _ _ _ _ _ = _
    rw [hrun', if_neg (by decide), if_neg (by rw [hrsn]; decide), hcaps, if_neg (by decide), hleft,
      hrun'', hoff']

end Found

/-- A run that stays inside the element and decodes the field: a pointer is to the suites that the
grammar places, without them there is no pointer, and a field that is reached is found. -/
def Decodes (rsnie : List UInt8) (type : UInt8) (run : Option Extracted) : Prop :=
  ∃ r, run = some r ∧
    (∀ off, r.ptr = some off → ∃ Eid field suites, field.code = type ∧
      Places Eid rsnie field off r.count.toNat suites ∧
      suites.length = field.length * r.count.toNat ∧ off + suites.length ≤ rsnie.length ∧
      (rsnie.drop off).take suites.length = suites) ∧
    ((∀ Eid field off count suites, field.code = type →
      ¬ Places Eid rsnie field off count suites) → r.ptr = none) ∧
    (r.ptr = none → r.count = 0) ∧
    (∀ Eid field off count suites, field.code = type → Places Eid rsnie field off count suites →
      Reached Eid rsnie field → r.ptr = some off ∧ r.count.toNat = count)

/-- Whatever the bytes, nothing outside of them is read, and a field is found where the grammar
places it. -/
theorem extract_exact (rsnie : List UInt8) (type : UInt8) (h : rsnie.length < 2 ^ 32) :
    Decodes rsnie type (WPA_ExtractSuiteFromRSNIE rsnie type (UInt32.ofNat rsnie.length)) := by
  obtain ⟨r, hrun, hres⟩ := exact_extract type h
  refine ⟨r, hrun, ?_, ?_, ?_, ?_⟩
  · intro off hptr
    rcases hres with ⟨hnone, -⟩ | ⟨Eid, field, off', suites, hcode, hptr', hplaces⟩
    · rw [hptr] at hnone
      cases hnone
    · rw [hptr] at hptr'
      cases hptr'
      exact ⟨Eid, field, suites, hcode, hplaces, hplaces.stands⟩
  · intro hno
    rcases hres with ⟨hnone, -⟩ | ⟨Eid, field, off, suites, hcode, -, hplaces⟩
    · exact hnone
    · exact absurd hplaces (hno Eid field off _ suites hcode)
  · intro hnone
    rcases hres with ⟨-, hcount⟩ | ⟨Eid, field, off, suites, hcode, hptr, hplaces⟩
    · exact hcount
    · rw [hnone] at hptr
      cases hptr
  · intro Eid field off count suites hcode hplaces hreached
    have hfound := found hplaces hreached
    rw [hcode, hrun] at hfound
    rw [Option.some.inj hfound]
    refine ⟨rfl, ?_⟩
    rw [UInt8.toNat_ofNat', Nat.mod_eq_of_lt hplaces.count_lt]

/-- A WMM element: another OUI type, and 16 bytes behind it. -/
def wmmElement : List UInt8 :=
  [221, 22, 0x00, 0x50, 0xf2, 0x02, 1, 0, 0x00, 0x50, 0xf2, 0x02, 1, 0, 0x00, 0x50, 0xf2, 0x02,
    1, 0, 0x00, 0x50, 0xf2, 0x02]

/-- An element is a WPA element by its OUI and type. -/
def IsWpaOrRsn (rsnie : List UInt8) : Prop :=
  rsnie.head? = some IE_RSN ∨ rsnie.head? = some IE_WPA ∧ (rsnie.drop 2).take 4 = [0x00, 0x50, 0xf2, 0x01]

theorem wmm_taken_for_wpa : ¬ ∀ (rsnie : List UInt8) (type : UInt8), rsnie.length < 2 ^ 32 →
    ¬ IsWpaOrRsn rsnie →
    WPA_ExtractSuiteFromRSNIE rsnie type (UInt32.ofNat rsnie.length) = some ⟨none, 0⟩ := by
  intro h
  have hwmm := h wmmElement 0 (by decide) (by unfold IsWpaOrRsn; decide)
  exact absurd hwmm (by decide)

theorem extract_exact_wmm : wmmElement.length < 2 ^ 32 ∧
    Decodes wmmElement 1 (WPA_ExtractSuiteFromRSNIE wmmElement 1 (UInt32.ofNat wmmElement.length)) :=
  ⟨by decide, extract_exact wmmElement 1 (by decide)⟩

end Ralink.Rsn
