import Ralink.Crypt.Hash

/-! The context stands for the blocks worked off and for the begun one, and the digest is the one of
the padded message. Only a part whose length and what is in the block together leave 32 bits goes
past the block. -/
namespace Ralink.Crypt.HashFunction

open ByteStore BlockStream
open Buffer (save save_eq)

variable {w : Nat} (H : HashFunction w) {Block : Store} {c : CTX_STRUC w} {bs m part : List UInt8}
  {s : BlockStream (Vector UInt32 w) UInt8 64} {parts : List (List UInt8)}

/-- One bit, zeros and the number of bits of a message of `n` bytes, up to the end of a block. -/
def padding (n : Nat) : List UInt8 :=
  0x80 :: List.replicate ((119 - n % 64) % 64) 0 ++ H.lengthBytes (UInt64.ofNat n * 8)

def padded (Message : List UInt8) : List UInt8 := Message ++ H.padding Message.length

def digest (Message : List UInt8) : List UInt8 :=
  ((blocks 64 (H.padded Message)).foldl H.compress H.DefaultHashValue).toList.flatMap H.wordBytes

def Front (Block : Store) (bs : List UInt8) : Prop := ∀ i < 64, Block i = bs.getD i 0

theorem front_zeros (h : Front Block bs) (n : Nat) : Front Block (bs ++ List.replicate n 0) := by
  intro i hi
  rw [h i hi]
  rcases Nat.lt_or_ge i bs.length with hlt | hge
  · rw [List.getD_append _ _ _ _ hlt]
  · rw [List.getD_append_right _ _ _ _ hge, List.getD_eq_default _ _ hge]
    rw [List.getD_eq_getElem?_getD, List.getElem?_replicate]
    split <;> rfl

theorem front_write (h : Front Block bs) (cs : List UInt8) :
    Front (writeBytes Block bs.length cs) (bs ++ cs) := by
  intro i hi
  rw [writeBytes_apply]
  by_cases hin : bs.length ≤ i ∧ i < bs.length + cs.length
  · rw [if_pos hin, List.getD_append_right _ _ _ _ hin.1]
  · rw [if_neg hin, h i hi]
    rcases Nat.lt_or_ge i bs.length with hlt | hge
    · rw [List.getD_append _ _ _ _ hlt]
    · rw [List.getD_eq_default _ _ hge, List.getD_eq_default]
      rw [List.length_append]
      omega

theorem front_read (h : Front Block bs) (hlen : bs.length = 64) : readBytes Block 0 64 = bs := by
  refine List.ext_getElem (by rw [length_readBytes, hlen]) fun i hi hi' => ?_
  rw [length_readBytes] at hi
  have hbyte := h i hi
  rw [List.getD_eq_getElem _ _ hi'] at hbyte
  simp [readBytes, hbyte]

structure Collects (c : CTX_STRUC w) (s : BlockStream (Vector UInt32 w) UInt8 64) : Prop where
  value : c.HashValue = s.state
  len : c.BlockLen = s.pending.length
  block : Front c.Block s.pending

def Empty (x : Vector UInt32 w) : BlockStream (Vector UInt32 w) UInt8 64 := start x (by decide)

theorem collects_init : Collects H.Init (Empty H.DefaultHashValue) := ⟨rfl, rfl, fun _ _ => rfl⟩

/-- A full block is worked off. -/
theorem hash_full (h : Front c.Block bs) (hlen : bs.length = 64) :
    Collects (H.Hash c) (Empty (H.compress c.HashValue bs)) := by
  refine ⟨?_, rfl, fun _ _ => rfl⟩
  show H.compress c.HashValue (readBytes c.Block 0 64) = _
  rw [front_read h hlen]
  rfl

theorem appendLoop_collects {c : CTX_STRUC w} {s : BlockStream (Vector UInt32 w) UInt8 64}
    (h : Collects c s) {m : List UInt8} (hm : s.pending.length + m.length < 2 ^ 32) :
    ∃ c', H.appendLoop c m = some c' ∧ Collects c' (s.absorb H.compress m) ∧
      c'.MessageLen = c.MessageLen := by
  induction hn : m.length using Nat.strong_induction_on generalizing c s m with
  | _ n ih =>
    have hshort := s.short
    unfold appendLoop
    by_cases hnil : m = []
    · subst hnil
      exact ⟨c, if_pos rfl, h, rfl⟩
    · have hpos : 0 < m.length := List.length_pos_iff.mpr hnil
      rw [if_neg hnil, h.len, Nat.mod_eq_of_lt hm]
      by_cases hlt : s.pending.length + m.length < 64
      · rw [if_pos hlt, save_eq hlt.le]
        refine ⟨_, rfl, ?_, rfl⟩
        have habsorb := absorb_short H.compress s hlt
        refine ⟨h.value.trans habsorb.1.symm, ?_, ?_⟩
        · rw [habsorb.2, List.length_append]
        · rw [habsorb.2]
          exact front_write h.block m
      · -- the block is filled up, and the rest is taken with an empty one
        have htake : (m.take (64 - s.pending.length)).length = 64 - s.pending.length := by
          rw [List.length_take]
          omega
        have hfull := @absorb_full _ _ _ H.compress s (m.take (64 - s.pending.length)) (by omega)
        rw [if_neg hlt, save_eq (by omega)]
        have hhash := H.hash_full
          (c := { c with
            Block := writeBytes c.Block s.pending.length (m.take (64 - s.pending.length))
            BlockLen := 64 })
          (front_write h.block _) (by rw [List.length_append]; omega)
        obtain ⟨c', hloop, hc', hlen'⟩ := ih (m.drop (64 - s.pending.length)).length
          (by rw [List.length_drop]; omega) hhash
          (by
            show 0 + (m.drop (64 - s.pending.length)).length < 2 ^ 32
            rw [List.length_drop]
            omega) rfl
        refine ⟨c', hloop, ?_, hlen'⟩
        have hsplit : s.absorb H.compress m =
            (Empty (H.compress s.state (s.pending ++ m.take (64 - s.pending.length)))).absorb
              H.compress (m.drop (64 - s.pending.length)) := by
          have happ := @absorb_append _ _ _ H.compress s (m.take (64 - s.pending.length))
            (m.drop (64 - s.pending.length))
          rw [List.take_append_drop, hfull] at happ
          exact happ
        rw [hsplit, ← h.value]
        exact hc'

/-- A part that leaves 32 bits is taken for one that the block has room for. -/
theorem appendLoop_none (h : Collects c s) (hm : 2 ^ 32 ≤ s.pending.length + m.length)
    (hlen : m.length < 2 ^ 32) : H.appendLoop c m = none := by
  have hshort := s.short
  have hnil : m ≠ [] := by
    rintro rfl
    rw [List.length_nil] at hm
    omega
  unfold appendLoop
  rw [if_neg hnil, h.len, if_pos (by omega), save, if_neg (by omega)]
  rfl

/-- Each part fits with what the parts before it have left in the block. -/
def Fits : Nat → List (List UInt8) → Prop
  | _, [] => True
  | n, part :: parts => n % 64 + part.length < 2 ^ 32 ∧ Fits (n + part.length) parts

/-- What the parts have come to, from the context `H.Init` on. -/
def Taken (c : CTX_STRUC w) (m : List UInt8) : Prop :=
  Collects c ((Empty H.DefaultHashValue).absorb H.compress m) ∧
    c.MessageLen = UInt64.ofNat m.length

theorem length_taken (m : List UInt8) :
    ((Empty H.DefaultHashValue).absorb H.compress m).pending.length = m.length % 64 :=
  length_pending _ _ _ _

theorem append_taken (h : H.Taken c m) (hfits : m.length % 64 + part.length < 2 ^ 32) :
    ∃ c', H.Append c part = some c' ∧ H.Taken c' (m ++ part) := by
  obtain ⟨c', hloop, hc', hlen⟩ := H.appendLoop_collects h.1 (m := part)
    (by rw [length_taken]; exact hfits)
  refine ⟨{ c' with MessageLen := c'.MessageLen + UInt64.ofNat part.length }, ?_, ?_, ?_⟩
  · unfold Append
    rw [hloop, Option.bind_eq_bind, Option.bind_some, hlen]
    rfl
  · rw [absorb_append]
    exact ⟨hc'.value, hc'.len, hc'.block⟩
  · show c'.MessageLen + _ = _
    rw [hlen, h.2, List.length_append, UInt64.ofNat_add]

theorem parts_taken (h : H.Taken c m) (hfits : Fits m.length parts) :
    ∃ c', parts.foldlM H.Append c = some c' ∧ H.Taken c' (m ++ parts.flatten) := by
  induction parts generalizing c m with
  | nil => exact ⟨c, rfl, by simpa using h⟩
  | cons part parts ih =>
    obtain ⟨c₁, hpart, h₁⟩ := H.append_taken h hfits.1
    obtain ⟨c₂, hparts, h₂⟩ := ih h₁ (by rw [List.length_append]; exact hfits.2)
    refine ⟨c₂, ?_, ?_⟩
    · rw [List.foldlM_cons, hpart]
      exact hparts
    · rw [List.flatten_cons, ← List.append_assoc]
      exact h₂

theorem parts_none (h : H.Taken c m) (hlen : ∀ part ∈ parts, part.length < 2 ^ 32)
    (hfits : ¬ Fits m.length parts) : parts.foldlM H.Append c = none := by
  induction parts generalizing c m with
  | nil => exact absurd trivial hfits
  | cons part parts ih =>
    rw [List.foldlM_cons]
    by_cases hpart : m.length % 64 + part.length < 2 ^ 32
    · obtain ⟨c₁, hsome, h₁⟩ := H.append_taken h hpart
      rw [hsome]
      refine ih h₁ (fun p hp => hlen p (List.mem_cons_of_mem part hp)) fun hrest => hfits ⟨hpart, ?_⟩
      rwa [List.length_append] at hrest
    · have hnone := H.appendLoop_none h.1 (m := part)
        (by rw [length_taken]; exact Nat.not_lt.mp hpart) (hlen part List.mem_cons_self)
      rw [Append, hnone]
      rfl

theorem digest_eq (m : List UInt8) :
    H.digest m = (((Empty H.DefaultHashValue).absorb H.compress m).absorb H.compress
      (H.padding m.length)).state.toList.flatMap H.wordBytes := by
  have hstate := (absorb_eq H.compress H.DefaultHashValue (by decide : 0 < 64) (H.padded m)).1
  rw [digest, ← hstate, padded, absorb_append]
  rfl

/-- Zeros and the number of bits fill up the last block. -/
theorem end_block (h : Front c.Block bs) (hlen : bs.length ≤ 56) :
    ∃ Block, save 64 c.Block 56 (H.lengthBytes (c.MessageLen * 8)) =
      some Block ∧ (H.Hash { c with Block := Block }).HashValue = H.compress c.HashValue
        (bs ++ List.replicate (56 - bs.length) 0 ++ H.lengthBytes (c.MessageLen * 8)) := by
  have h8 := H.length_lengthBytes (c.MessageLen * 8)
  have hzeros : (bs ++ List.replicate (56 - bs.length) (0 : UInt8)).length = 56 := by
    rw [List.length_append, List.length_replicate]
    omega
  have hwrite := front_write (front_zeros h (56 - bs.length)) (H.lengthBytes (c.MessageLen * 8))
  rw [hzeros] at hwrite
  refine ⟨_, save_eq (by omega), ?_⟩
  exact (H.hash_full (c := { c with Block := writeBytes c.Block 56 _ }) hwrite
    (by rw [List.length_append, hzeros, h8])).value

theorem end_taken {c : CTX_STRUC w} {m : List UInt8} (h : H.Taken c m) :
    H.End c = some (H.digest m) := by
  have hlen := H.length_taken m
  rw [digest_eq]
  obtain ⟨hc, hmsg⟩ := h
  generalize (Empty H.DefaultHashValue).absorb H.compress m = s at hc hlen
  have hshort := s.short
  have h8 := H.length_lengthBytes (UInt64.ofNat m.length * 8)
  have hsave : save 64 c.Block c.BlockLen [0x80] = some (writeBytes c.Block c.BlockLen [0x80]) :=
    save_eq (by rw [hc.len, List.length_singleton]; omega)
  have hmark : Front (writeBytes c.Block c.BlockLen [0x80]) (s.pending ++ [0x80]) := by
    rw [hc.len]
    exact front_write hc.block [0x80]
  unfold End
  rw [hsave, Option.bind_eq_bind, Option.bind_some]
  by_cases hroom : 55 < c.BlockLen
  · -- the bit stands in the block that the message has begun, the number in one of its own
    rw [hc.len] at hroom
    have hhash := H.hash_full (c := { c with Block := writeBytes c.Block c.BlockLen [0x80] })
      (front_zeros hmark (63 - s.pending.length))
      (by simp only [List.length_append, List.length_singleton, List.length_replicate]; omega)
    obtain ⟨Block, hend, hvalue⟩ := H.end_block hhash.block (Nat.zero_le 56)
    have hpad : H.padding m.length = ([0x80] ++ List.replicate (63 - s.pending.length) 0) ++
        (List.replicate 56 0 ++ H.lengthBytes (UInt64.ofNat m.length * 8)) := by
      have hz : (119 - m.length % 64) % 64 = 63 - s.pending.length + 56 := by omega
      rw [padding, hz, List.replicate_add]
      simp
    have hfirst := @absorb_full _ _ _ H.compress s
      ([0x80] ++ List.replicate (63 - s.pending.length) 0)
      (by simp only [List.length_append, List.length_singleton, List.length_replicate]; omega)
    rw [hpad, absorb_append, hfirst, absorb_full _ _ (by
      simp only [start, List.length_append, List.length_nil, List.length_replicate, h8])]
    dsimp only
    rw [if_pos (by rw [hc.len]; exact hroom), hend, Option.bind_some, hvalue, hhash.value,
      hc.value]
    simp only [Hash, hmsg, start, Empty, List.nil_append, List.append_assoc, List.length_nil]
    rfl
  · obtain ⟨Block, hend, hvalue⟩ := H.end_block
      (c := { c with Block := writeBytes c.Block c.BlockLen [0x80] }) hmark
      (by rw [List.length_append, List.length_singleton, ← hc.len]; omega)
    have hpad : H.padding m.length = [0x80] ++ List.replicate (55 - s.pending.length) 0 ++
        H.lengthBytes (UInt64.ofNat m.length * 8) := by
      have hz : (119 - m.length % 64) % 64 = 55 - s.pending.length := by
        rw [hc.len] at hroom
        omega
      rw [padding, hz]
      rfl
    rw [hpad, absorb_full _ _ (by
      rw [hc.len] at hroom
      simp only [List.length_append, List.length_singleton, List.length_replicate, h8]
      omega)]
    have hz : 56 - (s.pending.length + 1) = 55 - s.pending.length := by omega
    dsimp only
    rw [if_neg hroom, hend, Option.bind_some, hvalue]
    simp only [hmsg, hc.value, start, List.append_assoc, List.length_append, List.length_singleton, hz]
    rfl

theorem taken_init : H.Taken H.Init [] := ⟨H.collects_init, rfl⟩

theorem parts_digest {parts : List (List UInt8)} (h : Fits 0 parts) :
    (parts.foldlM H.Append H.Init).bind H.End = some (H.digest parts.flatten) := by
  obtain ⟨c, hparts, hc⟩ := H.parts_taken H.taken_init h
  rw [hparts, Option.bind_some, H.end_taken hc]
  rfl

theorem parts_overrun (hlen : ∀ part ∈ parts, part.length < 2 ^ 32) (h : ¬ Fits 0 parts) :
    (parts.foldlM H.Append H.Init).bind H.End = none := by
  rw [H.parts_none H.taken_init hlen h]
  rfl

theorem digestOf_eq {m : List UInt8} (h : m.length < 2 ^ 32) : H.digestOf m = some (H.digest m) := by
  have hparts := @parts_digest _ H [m] ⟨by rw [Nat.zero_mod, Nat.zero_add]; exact h, trivial⟩
  rw [List.flatten_singleton] at hparts
  rw [← hparts]
  unfold digestOf
  rw [List.foldlM_cons]
  cases H.Append H.Init m <;> rfl

theorem length_digest (m : List UInt8) : (H.digest m).length = 4 * w := by
  simp [digest, List.length_flatMap, H.length_wordBytes, List.map_const', Nat.mul_comm]

def blockKey (Key : List UInt8) : List UInt8 :=
  let K0 := if Key.length ≤ 64 then Key else H.digest Key
  K0 ++ List.replicate (64 - K0.length) 0

def hmac (Key Message : List UInt8) : List UInt8 :=
  let inner := H.digest ((H.blockKey Key).map (· ^^^ 0x36) ++ Message)
  H.digest ((H.blockKey Key).map (· ^^^ 0x5c) ++ inner)

theorem length_blockKey (hw : w ≤ 16) (Key : List UInt8) : (H.blockKey Key).length = 64 := by
  have hdigest := H.length_digest Key
  unfold blockKey
  dsimp only
  split <;> rw [List.length_append, List.length_replicate] <;> omega

theorem keyedDigest_eq {K part : List UInt8} (hK : K.length = 64) (hpart : part.length < 2 ^ 32) :
    H.keyedDigest K part = some (H.digest (K ++ part)) := by
  have hparts := @parts_digest _ H [K, part]
    ⟨by omega, by rw [hK]; exact ⟨by omega, trivial⟩⟩
  have hflat : [K, part].flatten = K ++ part := by simp
  rw [hflat] at hparts
  rw [← hparts, List.foldlM_cons]
  unfold keyedDigest
  cases H.Append H.Init K with
  | none => rfl
  | some c =>
    show _ = (([part].foldlM H.Append c).bind H.End)
    rw [List.foldlM_cons]
    show ((H.Append c part).bind H.End) = _
    cases H.Append c part <;> rfl

theorem HMAC_eq (hw : w ≤ 16) {Key Message : List UInt8} (hkey : Key.length < 2 ^ 32)
    (hmsg : Message.length < 2 ^ 32) (MACLen : Nat) :
    H.HMAC Key Message MACLen = some ((H.hmac Key Message).take MACLen) := by
  have hK0 : (if Key.length ≤ 64 then some Key else H.digestOf Key) =
      some (if Key.length ≤ 64 then Key else H.digest Key) := by
    split
    · rfl
    · exact H.digestOf_eq hkey
  have hlen := H.length_blockKey hw Key
  have hpads : ((H.blockKey Key).map (· ^^^ 0x36)).map (· ^^^ (0x36 ^^^ 0x5c)) =
      (H.blockKey Key).map (· ^^^ 0x5c) := by
    rw [List.map_map]
    refine List.map_congr_left fun b _ => ?_
    show b ^^^ 0x36 ^^^ (0x36 ^^^ 0x5c) = b ^^^ 0x5c
    rw [UInt8.xor_assoc, ← UInt8.xor_assoc 0x36, UInt8.xor_self, UInt8.zero_xor]
  have hinner := H.keyedDigest_eq (K := (H.blockKey Key).map (· ^^^ 0x36))
    (by rw [List.length_map]; exact hlen) hmsg
  have houter := @keyedDigest_eq _ H ((H.blockKey Key).map (· ^^^ 0x5c))
    (H.digest ((H.blockKey Key).map (· ^^^ 0x36) ++ Message))
    (by rw [List.length_map]; exact hlen) (by rw [length_digest]; omega)
  have hout : (H.hmac Key Message).length = 4 * w := H.length_digest _
  unfold HMAC
  rw [hK0, Option.bind_eq_bind, Option.bind_some]
  change (H.keyedDigest ((H.blockKey Key).map (· ^^^ 0x36)) Message).bind _ = _
  rw [hinner, Option.bind_some]
  change (H.keyedDigest (((H.blockKey Key).map (· ^^^ 0x36)).map (· ^^^ (0x36 ^^^ 0x5c))) _).bind _ = _
  rw [hpads, houter, Option.bind_some]
  show some (if 4 * w < MACLen then H.hmac Key Message else _) = _
  split
  · rw [List.take_of_length_le (by omega)]
  · rfl

end Ralink.Crypt.HashFunction

namespace Ralink.Crypt

open HashFunction (Fits)

/-- The digest of a message does not depend on the parts it comes in, while each part fits. A part
that does not is written behind the block. -/
theorem digest_of_parts (parts : List (List UInt8)) (hlen : ∀ part ∈ parts, part.length < 2 ^ 32) :
    (Fits 0 parts →
      (parts.foldlM RT_SHA1_Append RT_SHA1_Init).bind RT_SHA1_End =
          some (SHA1.digest parts.flatten) ∧
        (parts.foldlM RT_SHA256_Append RT_SHA256_Init).bind RT_SHA256_End =
          some (SHA256.digest parts.flatten) ∧
        (parts.foldlM RT_MD5_Append RT_MD5_Init).bind RT_MD5_End =
          some (MD5.digest parts.flatten)) ∧
      (¬ Fits 0 parts →
        (parts.foldlM RT_SHA1_Append RT_SHA1_Init).bind RT_SHA1_End = none ∧
          (parts.foldlM RT_SHA256_Append RT_SHA256_Init).bind RT_SHA256_End = none ∧
          (parts.foldlM RT_MD5_Append RT_MD5_Init).bind RT_MD5_End = none) :=
  ⟨fun h => ⟨SHA1.parts_digest h, SHA256.parts_digest h, MD5.parts_digest h⟩,
    fun h => ⟨SHA1.parts_overrun hlen h, SHA256.parts_overrun hlen h, MD5.parts_overrun hlen h⟩⟩

theorem digest_of_three_parts :
    ([[0x61], [], [0x62, 0x63]].foldlM RT_SHA1_Append RT_SHA1_Init).bind RT_SHA1_End =
      some (SHA1.digest [0x61, 0x62, 0x63]) :=
  ((digest_of_parts [[0x61], [], [0x62, 0x63]] (by decide)).1
    ⟨by decide, by decide, by decide, trivial⟩).1

/-- The functions for a message that is there as a whole. -/
theorem whole_digest (Message : List UInt8) (h : Message.length < 2 ^ 32) :
    RT_SHA1 Message = some (SHA1.digest Message) ∧
      RT_SHA256 Message = some (SHA256.digest Message) ∧ RT_MD5 Message = some (MD5.digest Message) :=
  ⟨SHA1.digestOf_eq h, SHA256.digestOf_eq h, MD5.digestOf_eq h⟩

/-- The keyed digests are the ones of two digests, one within the other. -/
theorem keyed_digest (Key Message : List UInt8) (hkey : Key.length < 2 ^ 32)
    (hmsg : Message.length < 2 ^ 32) (MACLen : Nat) :
    RT_HMAC_SHA1 Key Message MACLen = some ((SHA1.hmac Key Message).take MACLen) ∧
      RT_HMAC_SHA256 Key Message MACLen = some ((SHA256.hmac Key Message).take MACLen) ∧
      RT_HMAC_MD5 Key Message MACLen = some ((MD5.hmac Key Message).take MACLen) :=
  ⟨SHA1.HMAC_eq (by decide) hkey hmsg MACLen, SHA256.HMAC_eq (by decide) hkey hmsg MACLen,
    MD5.HMAC_eq (by decide) hkey hmsg MACLen⟩

def longKey : List UInt8 := List.replicate 80 0x5a

theorem keyed_digest_of_longKey :
    RT_HMAC_SHA1 longKey [0x61, 0x62, 0x63] 12 =
        some ((SHA1.hmac longKey [0x61, 0x62, 0x63]).take 12) ∧
      RT_HMAC_SHA256 longKey [0x61, 0x62, 0x63] 12 =
        some ((SHA256.hmac longKey [0x61, 0x62, 0x63]).take 12) ∧
      RT_HMAC_MD5 longKey [0x61, 0x62, 0x63] 12 =
        some ((MD5.hmac longKey [0x61, 0x62, 0x63]).take 12) :=
  keyed_digest longKey [0x61, 0x62, 0x63] (by decide) (by decide) 12

end Ralink.Crypt
