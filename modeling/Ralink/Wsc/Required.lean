import Ralink.Wsc.Inside

/-! A bit of `FieldCheck` is turned over by every attribute of its type, so that it is clear in the
end exactly if there is an odd number of them. -/
namespace Ralink.Wsc

open Tlv (Attr Written)

/-- Encrypted settings that are too short or too long count for nothing. -/
def Counts (type len : Nat) : Prop := type = WSC_ID_ENCR_SETTINGS → 16 < len ∧ len ≤ 512

instance (type len : Nat) : Decidable (Counts type len) :=
  inferInstanceAs (Decidable (type = WSC_ID_ENCR_SETTINGS → 16 < len ∧ len ≤ 512))

namespace Item

def limit : Item → Option (Option Nat)
  | act _ | scState | devPwdId => some none
  | encrSettings room _ => some (some room.size)
  | vendorExt | credential _ => none

def ends : Item → Bool
  | credential _ => true
  | _ => false

def Turns (a : Attr) (item : Item) : Prop :=
  match item.limit with
  | none => False
  | some none => True
  | some (some size) => 16 < a.len ∧ a.len ≤ size

variable {env : Env} {s s' : Rx} {a : Attr}

theorem perform_check {item : Item} (hends : item.ends = false)
    (h : item.perform env true s a = some s') :
    s'.ret = s.ret ∧
      (item.Turns a → s'.FieldCheck = s.FieldCheck ^^^ .bit a.type) ∧
      (¬ item.Turns a → s'.FieldCheck = s.FieldCheck) := by
  cases item with
  | act | scState | devPwdId =>
    obtain ⟨m, -, hm⟩ := Option.bind_eq_some_iff.mp h
    obtain rfl := Option.some.inj hm
    exact ⟨rfl, fun _ => rfl, fun hturns => (hturns trivial).elim⟩
  | vendorExt =>
    obtain ⟨m, -, hm⟩ := Option.bind_eq_some_iff.mp h
    obtain rfl := Option.some.inj hm
    exact ⟨rfl, fun hturns => hturns.elim, fun _ => rfl⟩
  | encrSettings room clear =>
    replace h : Wsc.encrSettings env room clear true s a = some s' := h
    unfold Wsc.encrSettings at h
    by_cases hshort : a.len ≤ 16
    · rw [if_pos hshort] at h
      obtain rfl := Option.some.inj h
      exact ⟨rfl, fun hturns => by have := hturns.1; omega, fun _ => rfl⟩
    by_cases hlong : room.size < a.len
    · rw [if_neg hshort, if_pos hlong] at h
      obtain rfl := Option.some.inj h
      exact ⟨rfl, fun hturns => by have := hturns.2; omega, fun _ => rfl⟩
    rw [if_neg hshort, if_neg hlong] at h
    obtain ⟨c, -, h⟩ := Option.bind_eq_some_iff.mp h
    obtain ⟨m, -, hm⟩ := Option.bind_eq_some_iff.mp h
    obtain rfl := Option.some.inj hm
    exact ⟨rfl, fun _ => rfl,
      fun hturns => (hturns ⟨Nat.lt_of_not_le hshort, Nat.le_of_not_lt hlong⟩).elim⟩
  | credential room => exact Bool.noConfusion hends

end Item

namespace FieldCheck

theorem getLsbD_bit {t i : Nat} (hi : i < 112) :
    (FieldCheck.bit t).getLsbD i = decide (t % 256 = i) := by
  rw [FieldCheck.bit, Nat.one_shiftLeft, BitVec.natCast_eq_ofNat, BitVec.getLsbD_ofNat,
    Nat.testBit_two_pow, decide_eq_true hi, Bool.true_and]

theorem getLsbD_of {types : List Nat} {i : Nat} (hi : i < 112) :
    (FieldCheck.of types).getLsbD i = decide (∃ t ∈ types, t % 256 = i) := by
  induction types with
  | nil => simp [FieldCheck.of]
  | cons t types ih =>
    rw [FieldCheck.of, List.foldr_cons, ← FieldCheck.of, BitVec.getLsbD_or, ih, getLsbD_bit hi]
    simp [Bool.or_comm]

end FieldCheck

def turnsAt (types : List Nat) (i : Nat) (as : List Attr) : Nat :=
  as.countP fun a => a.type ∈ types ∧ a.type % 256 = i ∧ Counts a.type a.len

def times (t : Nat) (as : List Attr) : Nat := as.countP fun a => a.type = t ∧ Counts t a.len

structure Message.Counting (d : Message) (types : List Nat) : Prop where
  wanted : d.wanted = some types
  small : ∀ t ∈ types, t % 256 < 112
  apart : (types.map (· % 256)).Nodup
  counted : ∀ t ∈ types, (d.rows.lookup t).bind Item.limit =
    some (if t = WSC_ID_ENCR_SETTINGS then some 512 else none)
  others : ∀ row ∈ d.rows, row.1 ∉ types → row.2.limit = none
  goes : ∀ row ∈ d.rows, row.2.ends = false

namespace Message.Counting

variable {d : Message} {types : List Nat} {env : Env} {s s' : Rx} {a : Attr} {as : List Attr}

theorem turns_iff (hd : d.Counting types) {item : Item} (h : d.rows.lookup a.type = some item) :
    item.Turns a ↔ a.type ∈ types ∧ Counts a.type a.len := by
  obtain ⟨before, behind, hrows, -⟩ := List.lookup_eq_some_iff.mp h
  have hrow : (a.type, item) ∈ d.rows := by
    rw [hrows]
    exact List.mem_append_right _ List.mem_cons_self
  unfold Item.Turns
  by_cases ht : a.type ∈ types
  · rw [and_iff_right ht]
    have hlimit := hd.counted a.type ht
    rw [h, Option.bind_some] at hlimit
    rw [hlimit, Counts]
    by_cases hsettings : a.type = WSC_ID_ENCR_SETTINGS
    · rw [if_pos hsettings, imp_iff_right hsettings]
    · rw [if_neg hsettings]
      exact iff_of_true trivial fun h' => (hsettings h').elim
  · rw [hd.others _ hrow ht]
    exact iff_of_false id fun h' => ht h'.1

theorem turn (hd : d.Counting types) (hret : s.ret = none) (h : d.turn env s a = some s') :
    s'.ret = none ∧ s'.FieldCheck =
      if a.type ∈ types ∧ Counts a.type a.len then s.FieldCheck ^^^ .bit a.type
      else s.FieldCheck := by
  unfold Message.turn at h
  rw [hret, if_neg (by rw [Option.isSome_none]; exact Bool.noConfusion)] at h
  cases hlookup : d.rows.lookup a.type with
  | none =>
    rw [hlookup] at h
    obtain rfl := Option.some.inj h
    refine ⟨hret, (if_neg fun h' => ?_).symm⟩
    have hlimit := hd.counted a.type h'.1
    rw [hlookup] at hlimit
    exact (Option.some_ne_none _ hlimit.symm).elim
  | some item =>
    rw [hlookup, hd.wanted] at h
    obtain ⟨s₁, hs₁, h⟩ := Option.bind_eq_some_iff.mp h
    obtain rfl := Option.some.inj h
    obtain ⟨before, behind, hrows, -⟩ := List.lookup_eq_some_iff.mp hlookup
    have hends : item.ends = false :=
      hd.goes (a.type, item) (by rw [hrows]; exact List.mem_append_right _ List.mem_cons_self)
    obtain ⟨hsame, hpos, hneg⟩ := Item.perform_check hends hs₁
    refine ⟨hsame.trans hret, ?_⟩
    by_cases hcounts : a.type ∈ types ∧ Counts a.type a.len
    · rw [if_pos hcounts]
      exact hpos ((hd.turns_iff hlookup).mpr hcounts)
    · rw [if_neg hcounts]
      exact hneg (mt (hd.turns_iff hlookup).mp hcounts)

theorem run (hd : d.Counting types) (hret : s.ret = none)
    (h : Run.tryExec (d.turn env) s as = some s') :
    s'.ret = none ∧ ∀ i, i < 112 →
      s'.FieldCheck.getLsbD i = (s.FieldCheck.getLsbD i ^^ decide (Odd (turnsAt types i as))) := by
  induction as generalizing s with
  | nil =>
    obtain rfl := Option.some.inj h
    refine ⟨hret, fun i _ => ?_⟩
    simp [turnsAt]
  | cons a as ih =>
    rw [Run.tryExec_cons] at h
    obtain ⟨s₁, hs₁, h⟩ := Option.bind_eq_some_iff.mp h
    obtain ⟨hret₁, hcheck⟩ := hd.turn hret hs₁
    obtain ⟨hret', hbits⟩ := ih hret₁ h
    refine ⟨hret', fun i hi => ?_⟩
    rw [hbits i hi, hcheck, turnsAt, turnsAt, List.countP_cons]
    by_cases hcounts : a.type ∈ types ∧ Counts a.type a.len
    · rw [if_pos hcounts, BitVec.getLsbD_xor, FieldCheck.getLsbD_bit hi]
      by_cases hbit : a.type % 256 = i
      · have hturn : a.type ∈ types ∧ a.type % 256 = i ∧ Counts a.type a.len :=
          ⟨hcounts.1, hbit, hcounts.2⟩
        rw [if_pos (decide_eq_true hturn)]
        simp only [hbit, Nat.odd_add_one, decide_true, decide_not, Bool.xor_assoc,
          Bool.true_xor]
      · have hturn : ¬ (a.type ∈ types ∧ a.type % 256 = i ∧ Counts a.type a.len) :=
          fun h' => hbit h'.2.1
        rw [if_neg (mt of_decide_eq_true hturn)]
        simp [hbit]
    · have hturn : ¬ (a.type ∈ types ∧ a.type % 256 = i ∧ Counts a.type a.len) :=
        fun h' => hcounts ⟨h'.1, h'.2.2⟩
      rw [if_neg hcounts, if_neg (mt of_decide_eq_true hturn), Nat.add_zero]

theorem turnsAt_eq (hd : d.Counting types) {t : Nat} (ht : t ∈ types) (as : List Attr) :
    turnsAt types (t % 256) as = times t as := by
  refine List.countP_congr fun a _ => ?_
  rw [decide_eq_true_iff, decide_eq_true_iff]
  constructor
  · rintro ⟨hmem, hbit, hcounts⟩
    obtain rfl := List.inj_on_of_nodup_map hd.apart hmem ht hbit
    exact ⟨rfl, hcounts⟩
  · rintro ⟨rfl, hcounts⟩
    exact ⟨ht, rfl, hcounts⟩

theorem turnsAt_eq_zero {i : Nat} (hi : ¬ ∃ t ∈ types, t % 256 = i) (as : List Attr) :
    turnsAt types i as = 0 := by
  refine List.countP_eq_zero.mpr fun a _ h => hi ?_
  obtain ⟨hmem, hbit, -⟩ := of_decide_eq_true h
  exact ⟨a.type, hmem, hbit⟩

theorem fieldCheck_eq_zero_iff (hd : d.Counting types) {m : Mem}
    (h : Run.tryExec (d.turn env) (d.begin m) as = some s) :
    s.FieldCheck = 0 ↔ ∀ t ∈ types, Odd (times t as) := by
  obtain ⟨-, hbits⟩ := hd.run rfl h
  have hstart : (d.begin m).FieldCheck = .of types := by
    rw [Message.begin, hd.wanted]
    rfl
  rw [hstart] at hbits
  constructor
  · intro hzero t ht
    have hbit := hbits (t % 256) (hd.small t ht)
    rw [hzero, FieldCheck.getLsbD_of (hd.small t ht), hd.turnsAt_eq ht, decide_eq_true ⟨t, ht, rfl⟩] at hbit
    simpa using hbit
  · intro hodd
    refine BitVec.eq_of_getLsbD_eq fun i hi => ?_
    rw [hbits i hi, FieldCheck.getLsbD_of hi]
    by_cases hfield : ∃ t ∈ types, t % 256 = i
    · obtain ⟨t, ht, rfl⟩ := hfield
      rw [hd.turnsAt_eq ht, decide_eq_true ⟨t, ht, rfl⟩, decide_eq_true (hodd t ht)]
      simp
    · rw [turnsAt_eq_zero hfield, decide_eq_false hfield]
      simp

end Message.Counting

variable {env : Env} {m m' : Mem} {s : Rx} {Length r : Nat}

theorem wanting_cases (s : Rx) {ret : Nat} (h : ret ≠ WSC_ERROR_WANTING_FIELD) :
    (wanting s ret = WSC_ERROR_WANTING_FIELD → s.FieldCheck ≠ 0) ∧
      (wanting s ret = WSC_ERROR_NO_ERROR → s.FieldCheck = 0) := by
  unfold wanting
  by_cases hzero : s.FieldCheck = 0
  · rw [if_pos hzero]
    exact ⟨fun hret => (h hret).elim, fun _ => hzero⟩
  · rw [if_neg hzero]
    exact ⟨fun _ => hzero, fun hret => absurd hret (by decide)⟩

theorem verdict_cases (s : Rx) (ok : Bool) :
    (verdict s ok = WSC_ERROR_WANTING_FIELD → s.FieldCheck ≠ 0) ∧
      (verdict s ok = WSC_ERROR_NO_ERROR → s.FieldCheck = 0) :=
  wanting_cases s (by cases ok <;> decide)

theorem authenticate_ret (h : ((moveHmacData env Length m).bind fun m =>
    (hmacMatches env Length m).bind fun ok => some (verdict s ok, m)) = some (r, m')) :
    ∃ ok, r = verdict s ok := by
  obtain ⟨m₁, -, h⟩ := Option.bind_eq_some_iff.mp h
  obtain ⟨ok, -, h⟩ := Option.bind_eq_some_iff.mp h
  obtain ⟨rfl, -⟩ := Prod.mk.inj (Option.some.inj h)
  exact ⟨ok, rfl⟩

theorem Tail.perform_cases {tail : Tail} (h : tail.perform env Length s = some (r, m')) :
    (r = WSC_ERROR_WANTING_FIELD → s.FieldCheck ≠ 0) ∧
      (r = WSC_ERROR_NO_ERROR → s.FieldCheck = 0) := by
  cases tail with
  | fields =>
    obtain ⟨rfl, -⟩ := Prod.mk.inj (Option.some.inj h)
    exact wanting_cases s (by decide)
  | hmac | deriveHmac =>
    obtain ⟨ok, rfl⟩ := authenticate_ret h
    exact verdict_cases s ok
  | hashHmac c =>
    obtain ⟨m₁, -, h⟩ := Option.bind_eq_some_iff.mp h
    by_cases hmatched : c.matched env s.mem = true
    · rw [if_pos hmatched] at h
      obtain ⟨ok, rfl⟩ := authenticate_ret h
      exact verdict_cases s ok
    · rw [if_neg hmatched] at h
      obtain ⟨rfl, -⟩ := Prod.mk.inj (Option.some.inj h)
      exact ⟨fun h => absurd h (by decide), fun h => absurd h (by decide)⟩
  | hmacHash c =>
    obtain ⟨m₁, -, h⟩ := Option.bind_eq_some_iff.mp h
    obtain ⟨m₂, -, h⟩ := Option.bind_eq_some_iff.mp h
    by_cases hmatched : c.matched env m₂ = true
    · rw [if_pos hmatched] at h
      obtain ⟨ok, -, h⟩ := Option.bind_eq_some_iff.mp h
      obtain ⟨rfl, -⟩ := Prod.mk.inj (Option.some.inj h)
      exact verdict_cases s ok
    · rw [if_neg hmatched] at h
      obtain ⟨m₃, -, h⟩ := Option.bind_eq_some_iff.mp h
      obtain ⟨rfl, -⟩ := Prod.mk.inj (Option.some.inj h)
      exact ⟨fun h => absurd h (by decide), fun h => absurd h (by decide)⟩

def Env.withHash (env : Env) (hash : List UInt8 → List UInt8 → Vector UInt8 32) : Env :=
  { env with RT_HMAC_SHA256 := hash }

variable (hash : List UInt8 → List UInt8 → Vector UInt8 32)

theorem decryptBlocks_withHash (Key before CipherText : List UInt8) (c : Cbc) :
    decryptBlocks (env.withHash hash) Key before CipherText c =
      decryptBlocks env Key before CipherText c := by
  fun_induction decryptBlocks env Key before CipherText c with
  | case1 before CipherText c h ih =>
    conv_lhs => unfold decryptBlocks
    rw [if_pos h]
    refine congrArg _ (funext fun r => ?_)
    obtain ⟨c, PlainBlockSize⟩ := r
    refine congrArg (Option.bind _) (funext fun bs => congrArg (Option.bind _) (funext fun m => ?_))
    exact ih c PlainBlockSize m
  | case2 before CipherText c h =>
    exact decryptBlocks_done (Nat.lt_of_not_le h)

theorem AES_CBC_Decrypt_withHash (CipherText IV : List UInt8) (m : Mem) (requests : Nat) :
    AES_CBC_Decrypt (env.withHash hash) CipherText IV m requests =
      AES_CBC_Decrypt env CipherText IV m requests := by
  unfold AES_CBC_Decrypt
  rw [decryptBlocks_withHash]

theorem decryptSettings_withHash (room : Room) (s : Rx) (a : Attr) :
    decryptSettings (env.withHash hash) room s a = decryptSettings env room s a := by
  refine congrArg _ (funext fun bs => congrArg _ (funext fun m => ?_))
  exact AES_CBC_Decrypt_withHash hash _ _ _ _

theorem Item.perform_withHash (counted : Bool) (s : Rx) (a : Attr) (item : Item) :
    item.perform (env.withHash hash) counted s a = item.perform env counted s a := by
  cases item with
  | encrSettings room clear =>
    show Wsc.encrSettings _ room clear counted s a = Wsc.encrSettings env room clear counted s a
    unfold Wsc.encrSettings
    rw [decryptSettings_withHash]
    rfl
  | credential room =>
    show Wsc.credential _ room s a = Wsc.credential env room s a
    unfold Wsc.credential
    rw [decryptSettings_withHash]
    rfl
  | act action => rfl
  | scState => rfl
  | devPwdId => rfl
  | vendorExt => rfl

theorem Message.turn_withHash (d : Message) : d.turn (env.withHash hash) = d.turn env := by
  funext s a
  unfold Message.turn
  simp only [Item.perform_withHash]

namespace Tail

def Sized : Tail → Prop
  | hashHmac c | hmacHash c => c.hash.size = 32
  | fields | hmac | deriveHmac => True

theorem wanting_of_ne (hcheck : s.FieldCheck ≠ 0) (ret : Nat) :
    wanting s ret = WSC_ERROR_WANTING_FIELD := if_neg hcheck

def constant (bs : List UInt8) (h : bs.length = 32) : List UInt8 → List UInt8 → Vector UInt8 32 :=
  fun _ _ => ⟨bs.toArray, by simpa using h⟩

theorem matched_constant {c : HashCheck} (hsize : c.hash.size = 32) (m : Mem) :
    c.matched (env.withHash (constant (m.bytes c.hash) (by rw [length_bytes, hsize]))) m = true :=
  decide_eq_true rfl

theorem exists_wanting {tail : Tail} (hsized : tail.Sized) (hcheck : s.FieldCheck ≠ 0)
    (hinside : ∀ hash, (tail.perform (env.withHash hash) Length s).isSome) :
    ∃ hash m', tail.perform (env.withHash hash) Length s = some (WSC_ERROR_WANTING_FIELD, m') := by
  cases tail with
  | fields => exact ⟨env.RT_HMAC_SHA256, s.mem, by rw [perform, wanting_of_ne hcheck]⟩
  | hmac | deriveHmac =>
    obtain ⟨⟨r, m'⟩, h⟩ := Option.isSome_iff_exists.mp (hinside env.RT_HMAC_SHA256)
    refine ⟨env.RT_HMAC_SHA256, m', ?_⟩
    obtain ⟨ok, rfl⟩ := authenticate_ret h
    rw [h, verdict, wanting_of_ne hcheck]
  | hashHmac c =>
    have hmatched := @matched_constant env c hsized s.mem
    obtain ⟨⟨r, m'⟩, h⟩ := Option.isSome_iff_exists.mp
      (hinside (constant (s.mem.bytes c.hash) (by rw [length_bytes, hsized])))
    refine ⟨_, m', h.trans ?_⟩
    obtain ⟨m₁, -, h⟩ := Option.bind_eq_some_iff.mp h
    rw [if_pos hmatched] at h
    obtain ⟨ok, rfl⟩ := authenticate_ret h
    rw [verdict, wanting_of_ne hcheck]
  | hmacHash c =>
    obtain ⟨⟨r, m'⟩, h⟩ := Option.isSome_iff_exists.mp (hinside env.RT_HMAC_SHA256)
    obtain ⟨m₁, hmove, h⟩ := Option.bind_eq_some_iff.mp h
    obtain ⟨m₂, hput, h⟩ := Option.bind_eq_some_iff.mp h
    have hmatched := @matched_constant env c hsized m₂
    obtain ⟨⟨r', m''⟩, h⟩ := Option.isSome_iff_exists.mp
      (hinside (constant (m₂.bytes c.hash) (by rw [length_bytes, hsized])))
    refine ⟨_, m'', h.trans ?_⟩
    obtain ⟨m₃, hmove', h'⟩ := Option.bind_eq_some_iff.mp h
    obtain rfl := Option.some.inj (hmove.symm.trans hmove')
    obtain ⟨m₄, hput', h'⟩ := Option.bind_eq_some_iff.mp h'
    obtain rfl := Option.some.inj (hput.symm.trans hput')
    rw [if_pos hmatched] at h'
    obtain ⟨ok, -, h'⟩ := Option.bind_eq_some_iff.mp h'
    obtain ⟨rfl, -⟩ := Prod.mk.inj (Option.some.inj h')
    rw [verdict, wanting_of_ne hcheck]

end Tail

def counting (t : Nat) (x : Written) : Bool := x.type.toNat = t ∧ Counts t x.value.length

theorem times_encode (t : Nat) (xs : List Written) :
    times t (Tlv.attrs Attr.len (Tlv.encode xs)) = (Tlv.seen xs).countP (counting t) := by
  have hcount := congrArg (List.countP fun p : Nat × Nat => p.1 = t ∧ Counts t p.2)
    (Tlv.attrs_encode xs)
  rw [List.countP_map, List.countP_map] at hcount
  exact hcount

namespace Message

variable {xs ys : List Written} {types : List Nat}

section

variable (d : Message) (env : Env) (m : Mem) (xs ys : List Written)

/-- A field that the message must have and does not. -/
def Missing : Prop := ∃ t ∈ d.wanted.getD [], ¬ ∃ x ∈ xs, counting t x = true

/-- What the function returns tells whether a field is missing, whatever the hash is. -/
def Tells : Prop :=
  ∀ hash r m', d.process (env.withHash hash) (Tlv.encode xs) m = some (r, m') →
    (r = WSC_ERROR_WANTING_FIELD → d.Missing xs) ∧ (r = WSC_ERROR_NO_ERROR → ¬ d.Missing xs)

/-- Of two messages with the same attributes, none is refused for a field that is missing when the
other is accepted. -/
def Agree : Prop :=
  (∀ x, x ∈ xs ↔ x ∈ ys) → ∀ hash r r' m₁ m₂,
    d.process (env.withHash hash) (Tlv.encode xs) m = some (r, m₁) →
    d.process (env.withHash hash) (Tlv.encode ys) m = some (r', m₂) →
      ¬ (r = WSC_ERROR_WANTING_FIELD ∧ r' = WSC_ERROR_NO_ERROR) ∧
      ¬ (r = WSC_ERROR_NO_ERROR ∧ r' = WSC_ERROR_WANTING_FIELD)

/-- In a message that is processed to its end, a field is missing, or each one is there an odd
number of times, a last attribute without a value not counted. -/
def OddOrMissing : Prop :=
  (d.allocates = true → env.os_alloc_mem 0 = true) →
    (∀ hash, d.Fits (env.withHash hash) (Tlv.encode xs) m) →
      d.Missing xs ∨ ∀ t ∈ d.wanted.getD [], Odd ((Tlv.seen xs).countP (counting t))

end

variable {d : Message}

theorem mem_of_seen {x : Written} (h : x ∈ Tlv.seen xs) : x ∈ xs := by
  induction xs using Tlv.seen.induct with
  | case1 => exact h
  | case2 x' hnil =>
    rw [Tlv.seen, if_pos hnil] at h
    exact (List.not_mem_nil h).elim
  | case3 x' hne =>
    rwa [Tlv.seen, if_neg hne] at h
  | case4 x' y ys ih =>
    rw [Tlv.seen] at h
    rcases List.mem_cons.mp h with rfl | h
    · exact List.mem_cons_self
    · exact List.mem_cons_of_mem _ (ih h)

theorem not_missing_of_odd
    (h : ∀ t ∈ d.wanted.getD [], Odd ((Tlv.seen xs).countP (counting t))) : ¬ d.Missing xs := by
  rintro ⟨t, ht, habsent⟩
  obtain ⟨x, hx, hcounting⟩ := List.countP_pos_iff.mp (h t ht).pos
  exact habsent ⟨x, mem_of_seen hx, hcounting⟩

structure Taken (d : Message) (env : Env) (m : Mem) (precv : List UInt8) (s : Rx) : Prop where
  counts : s.FieldCheck = 0 ↔ ∀ t ∈ d.wanted.getD [], Odd (times t (Tlv.attrs Attr.len precv))
  ends : ∀ hash, d.process (env.withHash hash) precv m =
    d.tail.perform (env.withHash hash) precv.length s

theorem Counting.taken (hd : d.Counting types)
    (hstart : ∀ hash, d.start (env.withHash hash) m = d.start env m)
    {precv : List UInt8} (hgranted : d.allocates = true → env.os_alloc_mem 0 = true)
    (h : (d.process (env.withHash hash) precv m).isSome) : ∃ s, Taken d env m precv s := by
  have hmem : ∀ hash, ¬ (d.allocates = true ∧ (env.withHash hash).os_alloc_mem 0 = false) :=
    fun _ h' => Bool.false_ne_true (h'.2.symm.trans (hgranted h'.1))
  obtain ⟨⟨r, m'⟩, h⟩ := Option.isSome_iff_exists.mp h
  rw [process, if_neg (hmem hash), hstart] at h
  obtain ⟨m₁, hput, h⟩ := Option.bind_eq_some_iff.mp h
  obtain ⟨s, hwalk, -⟩ := Option.bind_eq_some_iff.mp h
  rw [turn_withHash] at hwalk
  have hrun := hwalk
  rw [Tlv.walk_eq] at hrun
  obtain ⟨hret, -⟩ := hd.run rfl hrun
  refine ⟨s, ?_, fun hash' => ?_⟩
  · rw [hd.wanted]
    exact hd.fieldCheck_eq_zero_iff hrun
  · rw [process, if_neg (hmem hash'), hstart, hput]
    show parse d _ precv m₁ = _
    unfold parse
    rw [turn_withHash, hwalk]
    simp only [Option.bind_eq_bind, Option.bind_some, hret]

theorem Tail.isSome_of_wanting {tail : Tail}
    (h : tail.perform (env.withHash hash) Length s = some (WSC_ERROR_WANTING_FIELD, m'))
    (hash' : List UInt8 → List UInt8 → Vector UInt8 32) :
    (tail.perform (env.withHash hash') Length s).isSome := by
  have hfits := (isSome_tail tail).mp (Option.isSome_iff_exists.mpr ⟨_, h⟩)
  refine (isSome_tail tail).mpr ?_
  cases tail with
  | fields => trivial
  | hmac => exact hfits
  | deriveHmac => exact hfits
  | hmacHash c => exact hfits
  | hashHmac c =>
    intro _
    by_cases hmatched : c.matched (env.withHash hash) s.mem = true
    · exact hfits hmatched
    · obtain ⟨m₁, -, h⟩ := Option.bind_eq_some_iff.mp h
      rw [if_neg hmatched] at h
      exact absurd (Prod.mk.inj (Option.some.inj h)).1 (by decide)

theorem Counting.tells_iff (hd : d.Counting types) (hsized : d.tail.Sized)
    (hstart : ∀ hash, d.start (env.withHash hash) m = d.start env m) :
    d.Tells env m xs ↔ d.OddOrMissing env m xs := by
  constructor
  · intro htells hgranted hfits
    have hinside hash := (d.isSome_process _ _).mpr (hfits hash)
    obtain ⟨s, hs⟩ := hd.taken env.RT_HMAC_SHA256 hstart hgranted (hinside _)
    by_contra hnot
    obtain ⟨hpresent, heven⟩ := not_or.mp hnot
    have hcheck : s.FieldCheck ≠ 0 := by
      rw [Ne, hs.counts]
      simpa only [times_encode] using heven
    obtain ⟨hash, m', h⟩ := Tail.exists_wanting hsized hcheck fun hash => by
      rw [← hs.ends]
      exact hinside hash
    exact hpresent ((htells hash _ m' ((hs.ends hash).trans h)).1 rfl)
  · intro hodd hash r m' h
    by_cases hgranted : d.allocates = true → env.os_alloc_mem 0 = true
    · obtain ⟨s, hs⟩ := hd.taken hash hstart hgranted (Option.isSome_iff_exists.mpr ⟨_, h⟩)
      rw [hs.ends] at h
      obtain ⟨hwanting, hgood⟩ := Tail.perform_cases h
      constructor
      · rintro rfl
        refine (hodd hgranted fun hash' => ?_).resolve_right fun hall => hwanting rfl ?_
        · refine (d.isSome_process _ _).mp ?_
          rw [hs.ends]
          exact Tail.isSome_of_wanting hash h hash'
        · rw [hs.counts]
          simpa only [times_encode] using hall
      · intro hret
        refine not_missing_of_odd ?_
        have hall := hs.counts.mp (hgood hret)
        simpa only [times_encode] using hall
    · obtain ⟨hallocates, hrefused⟩ := Classical.not_imp.mp hgranted
      rw [process, if_pos ⟨hallocates, Bool.eq_false_iff.mpr hrefused⟩] at h
      obtain ⟨rfl, -⟩ := Prod.mk.inj (Option.some.inj h)
      exact ⟨fun h => absurd h (by decide), fun h => absurd h (by decide)⟩

theorem Tells.agree (hxs : d.Tells env m xs) (hys : d.Tells env m ys) : d.Agree env m xs ys := by
  intro hsame hash r r' m₁ m₂ h₁ h₂
  have hmissing : d.Missing xs ↔ d.Missing ys := by
    simp only [Missing, hsame]
  constructor
  · rintro ⟨hr, hr'⟩
    exact (hys hash r' m₂ h₂).2 hr' (hmissing.mp ((hxs hash r m₁ h₁).1 hr))
  · rintro ⟨hr, hr'⟩
    exact (hxs hash r m₁ h₁).2 hr (hmissing.mpr ((hys hash r' m₂ h₂).1 hr'))

/-- For two messages, which may have the same attributes in another order. -/
def Required (d : Message) (env : Env) (m : Mem) (xs ys : List Written) : Prop :=
  d.Tells env m xs ∧ d.Tells env m ys ∧ d.Agree env m xs ys

theorem Counting.complete_iff (hd : d.Counting types) (hsized : d.tail.Sized)
    (hstart : ∀ hash, d.start (env.withHash hash) m = d.start env m) :
    d.Required env m xs ys ↔ d.OddOrMissing env m xs ∧ d.OddOrMissing env m ys := by
  rw [← hd.tells_iff hsized hstart, ← hd.tells_iff hsized hstart]
  exact ⟨fun h => ⟨h.1, h.2.1⟩, fun h => ⟨h.1, h.2, h.1.agree h.2⟩⟩

end Message

theorem counting_M1 : M1.Counting (M1.wanted.getD []) := by
  refine ⟨rfl, ?_, ?_, ?_, ?_, ?_⟩ <;> decide

theorem counting_M2 : M2.Counting (M2.wanted.getD []) := by
  refine ⟨rfl, ?_, ?_, ?_, ?_, ?_⟩ <;> decide

theorem counting_M3 : M3.Counting (M3.wanted.getD []) := by
  refine ⟨rfl, ?_, ?_, ?_, ?_, ?_⟩ <;> decide

theorem counting_M4 : M4.Counting (M4.wanted.getD []) := by
  refine ⟨rfl, ?_, ?_, ?_, ?_, ?_⟩ <;> decide

/-- A message tells that a field is missing only if one is, and is accepted only if none is, exactly
if a field is missing or each one is there an odd number of times. -/
theorem required_iff (env : Env) (m : Mem) (xs ys : List Written) :
    (M1.Required env m xs ys ↔ M1.OddOrMissing env m xs ∧ M1.OddOrMissing env m ys) ∧
    (M2.Required env m xs ys ↔ M2.OddOrMissing env m xs ∧ M2.OddOrMissing env m ys) ∧
    (M3.Required env m xs ys ↔ M3.OddOrMissing env m xs ∧ M3.OddOrMissing env m ys) ∧
    (M4.Required env m xs ys ↔ M4.OddOrMissing env m xs ∧ M4.OddOrMissing env m ys) :=
  ⟨counting_M1.complete_iff trivial fun _ => rfl, counting_M2.complete_iff trivial fun _ => rfl,
    counting_M3.complete_iff trivial fun _ => rfl, counting_M4.complete_iff rfl fun _ => rfl⟩

/-- A third message whose version is there twice. -/
def twiceVersion : List Written :=
  [⟨0x104A, [0x10], by decide⟩, ⟨0x104A, [0x10], by decide⟩, ⟨0x1022, [0x07], by decide⟩,
    ⟨0x1039, List.replicate 16 0, by decide⟩, ⟨0x1014, List.replicate 32 0, by decide⟩,
    ⟨0x1015, List.replicate 32 0, by decide⟩, ⟨0x1005, List.replicate 8 0, by decide⟩]

theorem twiceVersion_wanting :
    (M3.process plainEnv (Tlv.encode twiceVersion) fun _ _ => 0).map Prod.fst =
      some WSC_ERROR_WANTING_FIELD := by
  decide +kernel

theorem not_required : ¬ M3.Required plainEnv (fun _ _ => 0) twiceVersion twiceVersion := by
  rintro ⟨htells, -, -⟩
  obtain ⟨⟨r, m'⟩, h, hr⟩ := Option.map_eq_some_iff.mp twiceVersion_wanting
  obtain ⟨t, ht, habsent⟩ := (htells plainEnv.RT_HMAC_SHA256 r m' h).1 hr
  revert t
  decide

end Ralink.Wsc
