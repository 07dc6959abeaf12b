import Ralink.Mat.Frames
import Ralink.Mat.Tables

/-! Requests of the hosts behind the engine and the answers of the servers in front of it. When the
identifiers of different hosts stay apart in what the table keeps of them, an answer goes to the
host that asked. -/
namespace Ralink.Mat
open Function

def Mac.isGroup (mac : Mac) : Bool :=
  match mac.toList with
  | b :: _ => b &&& 1 = 1
  | [] => false

/-- A request of a host, `PADI` or `PADR`. -/
structure Request extends Frame where
  isRequest : code = PPPOE_CODE_PADI ∨ code = PPPOE_CODE_PADR

/-- An answer of a server, `PADO` or `PADS`, to one address. -/
structure Answer extends Frame where
  isAnswer : code = PPPOE_CODE_PADO ∨ code = PPPOE_CODE_PADS
  untagged : vlan = none
  unicast : dst.isGroup = false

namespace Request

variable (r : Request)

/-- The tag of the host, or the one that the engine adds for it. -/
def tag : List UInt8 := (r.find PPPOE_TAG_ID_HOST_UNIQ).getD r.src.toList

def uid : Uid := .ofTag r.tag

def change (HZ : BitVec 32) : Change :=
  uidChange HZ r.uid (r.find PPPOE_TAG_ID_HOST_UNIQ).isNone false r.src

def slot : Slot := (.uid, hashIndex (xorBytes r.uid.1))

/-- The tag of the request is found in what is stored for the other one. -/
def confused (r' : Request) : Bool :=
  r'.slot = r.slot && (padUid r'.uid).take r.uid.1.length = r.uid.1

end Request

namespace Answer

def uid? (a : Answer) : Option Uid := (a.find PPPOE_TAG_ID_HOST_UNIQ).map .ofTag

def echoes (a : Answer) (r : Request) : Prop := a.find PPPOE_TAG_ID_HOST_UNIQ = some r.tag

/-- The entry that the tag of the answer finds. -/
def entry (a : Answer) (lists : Lists) : Option Data :=
  a.uid?.bind fun uid =>
    ((lists (Query.uid uid).slot).find? (Data.isUid uid ∘ Entry.data)).map Entry.data

/-- The engine takes the tag out, and fewer than four bytes are behind it. -/
def Cramped (a : Answer) (lists : Lists) : Prop :=
  (∃ e, a.entry lists = some (.uid e) ∧ e.uIDAddByUs = true) ∧
    a.behind PPPOE_TAG_ID_HOST_UNIQ < 4

end Answer

inductive Traffic where
  | request (r : Request) (w : Surroundings)
  | answer (a : Answer) (w : Surroundings)

def pass (HZ : BitVec 32) (m : MatStruct) : Traffic → Option MatStruct
  | .request r w => (MATEngineTxHandle m HZ r.bytes w).map Prod.fst
  | .answer a w => (MATEngineRxHandle m a.bytes w).map Prod.fst

/-- No entry of the chain has aged out and there is memory for a new one, when a request
passes; an answer has room behind a tag that is taken out. -/
def Traffic.Fair (HZ : BitVec 32) (m : MatStruct) : Traffic → Prop
  | .request r w =>
    (∀ x ∈ m.entries r.slot, ∀ n, (r.change HZ).old w.now n x = false) ∧
      ∃ m' p, tableUpdate m (r.change HZ) w.now w.addr = some (m', some p)
  | .answer a _ => ¬ a.Cramped m.entries

theorem isUid_key {uid : Uid} {d d' : Data} (h : d.key = d'.key) :
    Data.isUid uid d = Data.isUid uid d' := (Query.uid uid).hit_key h

theorem mac_key {uid : Uid} {d d' : Data} (hd' : Data.isUid uid d' = true)
    (h : d.key = d'.key) : d.mac = d'.mac := by
  cases d' with
  | ip e => cases hd'
  | uid e =>
    cases d with
    | ip e' => cases h
    | uid e' => exact (Key.uid.inj h).2
    | ses e' => cases h
  | ses e => cases hd'

section Request

variable {HZ : BitVec 32} {m m' : MatStruct} {lists lists' : Lists} {r : Request}
  {w : Surroundings} {p : Ptr} {c : Change} {now : Nat → BitVec 32}

theorem ofTag_take (v : List UInt8) {n : Nat} (hn : n = PPPOE_DIS_UID_LEN ∨ n = v.length) :
    Uid.ofTag (v.take n) = Uid.ofTag v := by
  refine Subtype.ext ?_
  change (v.take n).take PPPOE_DIS_UID_LEN = v.take PPPOE_DIS_UID_LEN
  rcases hn with rfl | rfl
  · rw [List.take_take, Nat.min_self]
  · rw [List.take_length]

theorem uidOf_request (r : Request) :
    uidOf r.src r.dst ((r.find PPPOE_TAG_ID_HOST_UNIQ).map fun v => v.take PPPOE_DIS_UID_LEN)
      false = (r.uid, (r.find PPPOE_TAG_ID_HOST_UNIQ).isNone) := by
  unfold Request.uid Request.tag
  cases hf : r.find PPPOE_TAG_ID_HOST_UNIQ with
  | none =>
    refine Prod.ext (Subtype.ext ?_) rfl
    exact (List.take_of_length_le (Nat.le_of_eq r.src.length_toList)).symm
  | some v =>
    cases v with
    | nil => exact absurd rfl (r.find_ne_nil hf)
    | cons b v =>
      exact Prod.ext (ofTag_take (b :: v) (.inl rfl)) rfl

theorem Request.txCode_eq (r : Request) :
    txCode r.code = some (false, PPPOE_TAG_ID_HOST_UNIQ, false) := if_pos r.isRequest

theorem tx_eq (h : tableUpdate m (r.change HZ) w.now w.addr = some (m', some p))
    (hp : ∃ e t q, m'.mem p = some ⟨.uid e, t, q⟩) :
    ∃ pkt, MATProto_PPPoEDis_Tx m HZ r.bytes r.head.length w = some (m', pkt) := by
  have hupdate : UidMacTableUpdate m HZ r.src r.dst
      ((r.find PPPOE_TAG_ID_HOST_UNIQ).map fun v => v.take PPPOE_DIS_UID_LEN) false w.now w.addr =
      some (m', some p) := by
    rw [UidMacTableUpdate, uidOf_request]
    exact h
  simp only [MATProto_PPPoEDis_Tx, Frame.macAt_dst, Frame.macAt_src, r.version_eq, r.code_eq,
    r.txCode_eq, r.sesID_eq, r.payloadLen_eq, r.findTag_eq, r.uidAt_eq, hupdate, ne_eq,
    not_true, if_false, Option.bind_eq_bind, Option.bind_some, Bool.false_eq_true]
  obtain ⟨e, t, q, hp⟩ := hp
  cases r.find PPPOE_TAG_ID_HOST_UNIQ with
  | some v => exact ⟨r.bytes, rfl⟩
  | none =>
    simp only [Option.map_none, hp, Option.bind_some]
    cases w.copied with
    | true => exact ⟨_, rfl⟩
    | false => exact ⟨_, rfl⟩

theorem txHandle_eq (h : tableUpdate m (r.change HZ) w.now w.addr = some (m', some p))
    (hp : ∃ e t q, m'.mem p = some ⟨.uid e, t, q⟩) :
    ∃ pkt, MATEngineTxHandle m HZ r.bytes w = some (m', pkt) := by
  obtain ⟨pkt, hpkt⟩ := tx_eq h hp
  refine ⟨pkt, ?_⟩
  rw [r.length_head] at hpkt
  cases hv : r.vlan with
  | none =>
    rw [hv] at hpkt
    simp only [MATEngineTxHandle, r.type_eq hv, Option.bind_eq_bind, Option.bind_some]
    exact hpkt
  | some b =>
    rw [hv] at hpkt
    obtain ⟨h12, h16⟩ := r.vlan_eq hv
    simp only [MATEngineTxHandle, h12, h16, Option.bind_eq_bind, Option.bind_some, if_true]
    exact hpkt

theorem Updated.mem_of_some {addr : Ptr} (hc : c.Keyed)
    (h : Updated c now addr lists (some p) lists') : ∃ x ∈ lists' c.slot, x.ptr = p := by
  cases h with
  | found hp =>
    rw [update_self]
    rcases walk_cases c now (lists c.slot) with heq | ⟨y, x, rest, -, -, -, heq⟩
    · rw [heq] at hp ⊢
      obtain ⟨e, -, n, -, rfl, hf⟩ := sweep_found hc.same_touch hp
      exact ⟨_, List.mem_of_find?_eq_some hf, rfl⟩
    · rw [heq] at hp ⊢
      obtain ⟨e, -, n, -, rfl, hf⟩ := sweep_found hc.same_touch hp
      exact ⟨_, List.mem_cons_of_mem x (List.mem_of_find?_eq_some hf), rfl⟩
  | stored t _ =>
    rw [update_self]
    exact ⟨_, List.mem_cons_self, rfl⟩

theorem Holds.uid_node (h : Holds m lists) {x : Entry} {k : Fin MAT_MAX_HASH_ENTRY_SUPPORT}
    (hx : x ∈ lists (.uid, k)) :
    ∃ e t q, x.data = .uid e ∧ m.mem x.ptr = some ⟨.uid e, t, q⟩ := by
  obtain ⟨q, hq⟩ := h.entry _ x hx
  have hhome := h.home _ x hx
  cases hd : x.data with
  | ip e => rw [hd] at hhome; cases hhome
  | uid e => exact ⟨e, x.lastTime, q, rfl, by rw [hq, hd]⟩
  | ses e => rw [hd] at hhome; cases hhome

end Request

section Answer

variable {HZ : BitVec 32} {m m' : MatStruct} {lists lists' : Lists} {a : Answer}
  {w : Surroundings}

theorem Answer.rxCode_eq (a : Answer) :
    ∃ needUpdateSesTb, rxCode a.code = some (PPPOE_TAG_ID_HOST_UNIQ, needUpdateSesTb) ∧
      a.code ≠ PPPOE_CODE_PADT := by
  rcases a.isAnswer with h | h
  · exact ⟨false, by rw [h]; exact ⟨rfl, by decide⟩⟩
  · exact ⟨true, by rw [h]; exact ⟨rfl, by decide⟩⟩

theorem removeTag_some {pkt : Packet} {pTagContent tagLen : Nat} (pPayloadLen payloadLen : Nat)
    (hroom : pTagContent + tagLen + 4 ≤ pkt.length) :
    ∃ pkt', removeTag pkt pPayloadLen payloadLen pTagContent tagLen = some pkt' := by
  have htail : (pkt.length + 2 ^ 32 - pTagContent - (4 + tagLen)) % 2 ^ 32 ≤
      pkt.length - pTagContent - (4 + tagLen) := by
    rw [show pkt.length + 2 ^ 32 - pTagContent - (4 + tagLen) =
      pkt.length - pTagContent - (4 + tagLen) + 2 ^ 32 by omega, Nat.add_mod_right]
    exact Nat.mod_le _ _
  refine ⟨_, if_pos ?_⟩
  omega

def SameHosts (lists lists' : Lists) : Prop :=
  ∀ k, (lists' (.uid, k)).map (Data.key ∘ Entry.data) =
    (lists (.uid, k)).map (Data.key ∘ Entry.data)

theorem SameHosts.refl (lists : Lists) : SameHosts lists lists := fun _ => rfl

theorem SameHosts.trans {l₁ l₂ l₃ : Lists} (h : SameHosts l₁ l₂) (h' : SameHosts l₂ l₃) :
    SameHosts l₁ l₃ := fun k => (h' k).trans (h k)

theorem sameHosts_refresh (lists : Lists) (i : Slot) (same : Data → Bool) (t : BitVec 32) :
    SameHosts lists (update lists i (refresh same t (lists i))) := by
  intro k
  rcases eq_or_ne (Table.uid, k) i with rfl | hi
  · rw [update_self, refresh_map]
  · rw [update_of_ne hi]

theorem sesUpdate_spec (h : Holds m lists) (inMac outMac : Mac) (sesID : BitVec 16) :
    ∃ m' r lists', SesMacTableUpdate m inMac sesID outMac w.sesNow w.sesAddr = some (m', r) ∧
      Holds m' lists' ∧ SameHosts lists lists' := by
  obtain ⟨m', r, lists', hrun, h', hupdated⟩ := tableUpdate_spec
    (sesChange_keyed inMac sesID outMac).homed h w.sesNow w.sesAddr
  refine ⟨m', r.isSome, lists', by rw [SesMacTableUpdate, hrun]; rfl, h', fun k => ?_⟩
  rw [hupdated.other fun heq => Table.noConfusion (congrArg Prod.fst heq)]

theorem rx_spec (h : Holds m lists) (hroom : ¬ a.Cramped lists) :
    ∃ m' pkt mac lists', MATProto_PPPoEDis_Rx m a.bytes a.head.length w = some (m', pkt, mac) ∧
      Holds m' lists' ∧ SameHosts lists lists' ∧ mac = (a.entry lists).map Data.mac := by
  obtain ⟨ses, hcode, hpadt⟩ := a.rxCode_eq
  simp only [MATProto_PPPoEDis_Rx, Frame.macAt_src, a.version_eq, a.code_eq, hcode, hpadt,
    a.sesID_eq, a.payloadLen_eq, a.findTag_eq, ne_eq, not_true, if_false, Option.bind_eq_bind,
    Option.bind_some]
  cases hloc : locate PPPOE_TAG_ID_HOST_UNIQ (a.head.length + 6) a.tags with
  | none =>
    refine ⟨m, a.bytes, none, lists, rfl, h, SameHosts.refl lists, ?_⟩
    rw [Answer.entry, Answer.uid?, Frame.find, hloc]
    rfl
  | some loc =>
    obtain ⟨c, v⟩ := loc
    have hloc' := hloc
    rw [← a.length_front] at hloc'
    obtain ⟨hbytes, -, -, hto⟩ := locate_bytes a.front a.pad hloc'
      (n := min v.length PPPOE_DIS_UID_LEN) (Nat.min_le_left _ _)
    rw [← a.bytes_front] at hbytes
    have huid : Uid.ofTag (v.take (min v.length PPPOE_DIS_UID_LEN)) = Uid.ofTag v := by
      rcases Nat.le_total v.length PPPOE_DIS_UID_LEN with hle | hle
      · exact ofTag_take v (.inr (Nat.min_eq_left hle))
      · exact ofTag_take v (.inl (Nat.min_eq_right hle))
    have huid? : a.uid? = some (Uid.ofTag v) := by rw [Answer.uid?, Frame.find, hloc]; rfl
    obtain ⟨m₁, hlook, h₁, -⟩ := tableLookUp_spec h (Query.uid (.ofTag v)).slot
      (Data.isUid (.ofTag v)) (w.now 0)
    have hlook' : UidMacTableLookUp m (.ofTag v) (w.now 0) = some (m₁, a.entry lists) := by
      rw [UidMacTableLookUp, h.valid, if_pos rfl, Answer.entry, huid?]
      exact hlook
    have hsame := sameHosts_refresh lists (Query.uid (.ofTag v)).slot (Data.isUid (.ofTag v))
      (w.now 0)
    simp only [Option.map_some, hbytes, Option.bind_some, huid, hlook']
    cases hentry : a.entry lists with
    | none => exact ⟨m₁, a.bytes, none, _, rfl, h₁, hsame, rfl⟩
    | some d =>
      obtain ⟨x, hx, rfl⟩ : ∃ x, x ∈ lists (Query.uid (.ofTag v)).slot ∧ x.data = d := by
        rw [Answer.entry, huid?] at hentry
        obtain ⟨x, hx, hd⟩ := Option.map_eq_some_iff.mp hentry
        exact ⟨x, List.mem_of_find?_eq_some hx, hd⟩
      obtain ⟨e, -, -, hd, -⟩ := h.uid_node hx
      simp only [hd]
      have hses : ∀ pkt' : Packet, ∃ m' lists', (if ses = true then
          (Option.map Prod.fst (SesMacTableUpdate m₁ e.macAddr (BitVec.ofNat 16 a.sesID.toNat)
            a.src w.sesNow w.sesAddr)).bind fun m => some (m, pkt', some e.macAddr)
          else some (m₁, pkt', some e.macAddr)) = some (m', pkt', some e.macAddr) ∧
            Holds m' lists' ∧ SameHosts lists lists' := by
        intro pkt'
        cases ses with
        | false => exact ⟨m₁, _, rfl, h₁, hsame⟩
        | true =>
          obtain ⟨m₂, b, lists₂, hupdate, h₂, hsame₂⟩ := sesUpdate_spec (w := w) h₁
            e.macAddr a.src (BitVec.ofNat 16 a.sesID.toNat)
          rw [hupdate]
          exact ⟨m₂, lists₂, rfl, h₂, hsame.trans hsame₂⟩
      by_cases hadd : e.uIDAddByUs = true
      · have hbehind : ¬ a.behind PPPOE_TAG_ID_HOST_UNIQ < 4 := fun hlt =>
          hroom ⟨⟨e, by rw [hentry, hd], hadd⟩, hlt⟩
        rw [Frame.behind, hloc] at hbehind
        dsimp only at hbehind
        obtain ⟨pkt', hpkt⟩ := removeTag_some (a.head.length + 4) (payload a.tags).length
          (show c + min v.length PPPOE_DIS_UID_LEN + 4 ≤ a.bytes.length by omega)
        obtain ⟨m', lists', hrun, h', hsame'⟩ := hses pkt'
        rw [if_pos hadd, hpkt, Option.bind_some]
        exact ⟨m', pkt', _, lists', hrun, h', hsame', rfl⟩
      · obtain ⟨m', lists', hrun, h', hsame'⟩ := hses a.bytes
        rw [if_neg hadd]
        exact ⟨m', a.bytes, _, lists', hrun, h', hsame', rfl⟩

theorem rxHandle_spec (h : Holds m lists) (hroom : ¬ a.Cramped lists) :
    ∃ m' pkt lists', MATEngineRxHandle m a.bytes w = some (m', pkt) ∧ Holds m' lists' ∧
      SameHosts lists lists' ∧ ∀ d, a.entry lists = some d → pkt.take 6 = d.mac.toList := by
  obtain ⟨m', pkt, mac, lists', hrx, h', hsame, hmac⟩ := rx_spec (w := w) h hroom
  rw [a.length_head, a.untagged] at hrx
  have hfirst : ∃ b, a.bytes[0]? = some b ∧ ¬ b &&& 1 = 1 := by
    have hunicast := a.unicast
    obtain ⟨b₀, b₁, b₂, b₃, b₄, b₅, hdst⟩ := mac_cases a.dst
    rw [hdst] at hunicast
    refine ⟨b₀, ?_, of_decide_eq_false hunicast⟩
    rw [Frame.bytes, Frame.head, hdst]
    rfl
  obtain ⟨b, hb, hb1⟩ := hfirst
  simp only [MATEngineRxHandle, hb, hb1, if_false, a.type_eq a.untagged, if_true,
    Option.bind_eq_bind, Option.bind_some]
  rw [show MATProto_PPPoEDis_Rx m a.bytes 14 w = _ from hrx]
  simp only [Option.bind_some]
  cases hentry : a.entry lists with
  | none =>
    rw [hentry] at hmac
    subst hmac
    exact ⟨m', pkt, lists', rfl, h', hsame, fun d hd => absurd hd.symm (Option.some_ne_none _)⟩
  | some d =>
    rw [hentry] at hmac
    subst hmac
    refine ⟨m', writeAt pkt 0 d.mac.toList, lists', rfl, h', hsame, fun d' hd => ?_⟩
    obtain rfl := Option.some.inj hd
    rw [writeAt, List.take_zero, List.nil_append]
    exact List.take_left' d.mac.length_toList

end Answer

section Runs

variable {HZ : BitVec 32} {m m' m₀ : MatStruct} {lists lists' : Lists} {past es : List Traffic}

structure Known (past : List Traffic) (lists : Lists) : Prop where
  asked : ∀ k, ∀ x ∈ lists (.uid, k), ∃ r w, Traffic.request r w ∈ past ∧
    x.data.key = .uid (padUid r.uid) r.src
  stored : ∀ r w, Traffic.request r w ∈ past →
    ∃ x ∈ lists r.slot, Data.isUid r.uid x.data = true ∧ x.data.mac = r.src

theorem Known.sameHosts (h : Known past lists) (hsame : SameHosts lists lists')
    {e : Traffic} (he : ∀ r w, e ≠ .request r w) : Known (past ++ [e]) lists' := by
  have hkeys : ∀ l l' k, SameHosts l l' → ∀ x ∈ l (Table.uid, k),
      ∃ y ∈ l' (Table.uid, k), y.data.key = x.data.key := by
    intro l l' k hs x hx
    have hin := List.mem_map_of_mem (f := Data.key ∘ Entry.data) hx
    rw [← hs k] at hin
    exact List.mem_map.mp hin
  refine ⟨fun k x hx => ?_, fun r w hr => ?_⟩
  · obtain ⟨y, hy, hkey⟩ := hkeys lists' lists k (fun k => (hsame k).symm) x hx
    obtain ⟨r, w, hr, hyk⟩ := h.asked k y hy
    exact ⟨r, w, List.mem_append_left _ hr, by rw [← hkey, hyk]⟩
  · rcases List.mem_append.mp hr with hr | hr
    · obtain ⟨x, hx, huid, hmac⟩ := h.stored r w hr
      obtain ⟨y, hy, hkey⟩ := hkeys lists lists' _ hsame x hx
      exact ⟨y, hy, by rw [isUid_key hkey, huid], by rw [mac_key huid hkey, hmac]⟩
    · exact absurd (List.mem_singleton.mp hr).symm (he r w)

theorem Request.keyed (r : Request) (HZ : BitVec 32) : (r.change HZ).Keyed :=
  uidChange_keyed HZ r.uid _ false r.src

theorem Request.same_iff {r : Request} {d : Data} (h : (r.change HZ).same d = true) :
    Data.isUid r.uid d = true ∧ d.mac = r.src := by
  cases d with
  | ip e => cases h
  | uid e =>
    have hboth := of_decide_eq_true h
    exact ⟨decide_eq_true hboth.1, hboth.2⟩
  | ses e => cases h

theorem skips_of_young {c : Change} {now : Nat → BitVec 32} {l : List Entry}
    (hold : ∀ x ∈ l, ∀ n, c.old now n x = false) : c.skips now l = false := by
  match l with
  | [] => rfl
  | [_] => rfl
  | h :: x :: l => rw [Change.skips, hold h (by simp) 0, Bool.and_false, Bool.false_and]

theorem Known.request {r : Request} {w : Surroundings} {p : Ptr} (h : Known past lists)
    (hold : ∀ x ∈ lists r.slot, ∀ n, (r.change HZ).old w.now n x = false)
    (hupdated : Updated (r.change HZ) w.now w.addr lists (some p) lists') :
    Known (past ++ [.request r w]) lists' := by
  have hc := r.keyed HZ
  have hin : Traffic.request r w ∈ past ++ [.request r w] :=
    List.mem_append_right _ (List.mem_singleton.mpr rfl)
  have hfresh : (r.change HZ).fresh.key = .uid (padUid r.uid) r.src := rfl
  refine ⟨fun k x hx => ?_, fun r' w' hr => ?_⟩
  · rcases hupdated.origin hc hx with ⟨y, hy, hkey⟩ | ⟨-, -, heq⟩
    · obtain ⟨r', w', hr', hyk⟩ := h.asked k y hy
      exact ⟨r', w', List.mem_append_left _ hr', by rw [← hkey, hyk]⟩
    · exact ⟨r, w, hin, by rw [heq, hfresh]⟩
  · rcases List.mem_append.mp hr with hr | hr
    · obtain ⟨x, hx, huid, hmac⟩ := h.stored r' w' hr
      rcases eq_or_ne r'.slot r.slot with hslot | hslot
      · rcases hupdated.survives hc hx with ⟨y, hy, -, hkey, -⟩ | ⟨-, n, hn⟩
        · exact ⟨y, hy, by rw [isUid_key hkey, huid], by rw [mac_key huid hkey, hmac]⟩
        · have hno := hold x (hslot ▸ hx) n
          rw [Change.old, hn] at hno
          cases hno
      · exact ⟨x, by rwa [hupdated.other hslot], huid, hmac⟩
    · obtain ⟨rfl, rfl⟩ := Traffic.request.inj (List.mem_singleton.mp hr)
      have hslot : r'.slot = (r'.change HZ).slot := rfl
      rw [hslot]
      cases hupdated with
      | found hp =>
        obtain ⟨e, -, n, hsame, -, hfind⟩ := walk_found hc.same_touch (skips_of_young hold) hp
        obtain ⟨huid, hmac⟩ := Request.same_iff (hc.same_touch e.data hsame)
        rw [update_self]
        exact ⟨_, List.mem_of_find?_eq_some hfind, huid, hmac⟩
      | stored t _ =>
        obtain ⟨huid, hmac⟩ := Request.same_iff (hc.same (r'.change HZ).fresh rfl)
        rw [update_self]
        exact ⟨_, List.mem_cons_self, huid, hmac⟩

theorem pass_known (h : Holds m lists) (hk : Known past lists) {e : Traffic}
    (hfair : e.Fair HZ m) :
    ∃ m' lists', pass HZ m e = some m' ∧ Holds m' lists' ∧ Known (past ++ [e]) lists' := by
  cases e with
  | request r w =>
    obtain ⟨hold, m', p, hup⟩ := hfair
    rw [h.entries_eq] at hold
    obtain ⟨m'', r', lists', hup', h', hupdated⟩ :=
      tableUpdate_spec (r.keyed HZ).homed h w.now w.addr
    obtain ⟨rfl, rfl⟩ := Prod.mk.inj (Option.some.inj (hup.symm.trans hup'))
    obtain ⟨x, hx, rfl⟩ := hupdated.mem_of_some (r.keyed HZ)
    obtain ⟨e, t, q, -, hnode⟩ := h'.uid_node hx
    obtain ⟨pkt, hpkt⟩ := txHandle_eq hup ⟨e, t, q, hnode⟩
    exact ⟨m', lists', by rw [pass, hpkt]; rfl, h', hk.request hold hupdated⟩
  | answer a w =>
    rw [Traffic.Fair, h.entries_eq] at hfair
    obtain ⟨m', pkt, lists', hrx, h', hsame, -⟩ := rxHandle_spec (w := w) h hfair
    exact ⟨m', lists', by rw [pass, hrx]; rfl, h', hk.sameHosts hsame fun r w => nofun⟩

/-- An answer goes to the host whose request it echoes: when no tag of a request is found in
what is stored for the request of another host, no entry has aged out, there is memory, and
four bytes are behind a tag that the engine takes out. -/
theorem run_answers (HZ : BitVec 32) {b : Ptr} (hinit : MATEngineInit b = some m₀) (es : List Traffic)
    (hfair : Run.AllTries (pass HZ) (fun m e => e.Fair HZ m) m₀ es)
    (hapart : ∀ r w r' w', Traffic.request r w ∈ es → Traffic.request r' w' ∈ es →
      r.src ≠ r'.src → r.confused r' = false) :
    ∃ m, Run.tryExec (pass HZ) m₀ es = some m ∧
      ∀ r w, Traffic.request r w ∈ es → ∀ a : Answer, a.echoes r → ¬ a.Cramped m.entries →
        ∀ w', ∃ m' pkt, MATEngineRxHandle m a.bytes w' = some (m', pkt) ∧
          pkt.take 6 = r.src.toList := by
  obtain ⟨m, hrun, lists, h, hk⟩ := Run.tryExec_trace
    (J := fun past m => ∃ lists, Holds m lists ∧ Known past lists)
    (fun past m e hJ he => by
      obtain ⟨lists, h, hk⟩ := hJ
      obtain ⟨m', lists', hpass, h', hk'⟩ := pass_known h hk he
      exact ⟨m', hpass, lists', h', hk'⟩) []
    ⟨_, holds_init hinit, ⟨fun _ _ hx => absurd hx List.not_mem_nil,
      fun _ _ hr => absurd hr List.not_mem_nil⟩⟩ hfair
  rw [List.nil_append] at hk
  refine ⟨m, hrun, fun r w hr a hecho hcramped w' => ?_⟩
  rw [h.entries_eq] at hcramped
  obtain ⟨m', pkt, lists', hrx, -, -, hdst⟩ := rxHandle_spec (w := w') h hcramped
  refine ⟨m', pkt, hrx, ?_⟩
  obtain ⟨x, hx, huid, -⟩ := hk.stored r w hr
  have huid? : a.uid? = some r.uid := by rw [Answer.uid?, show a.find _ = _ from hecho]; rfl
  obtain ⟨y, hfind⟩ := Option.isSome_iff_exists.mp
    (List.find?_isSome (p := Data.isUid r.uid ∘ Entry.data).mpr ⟨x, hx, huid⟩)
  have hentry : a.entry lists = some y.data := by
    rw [Answer.entry, huid?]
    exact congrArg (Option.map Entry.data) hfind
  rw [hdst y.data hentry]
  have hy := List.mem_of_find?_eq_some hfind
  have hyuid : Data.isUid r.uid y.data = true :=
    List.find?_some (p := Data.isUid r.uid ∘ Entry.data) hfind
  obtain ⟨r', w'', hr', hkey⟩ := hk.asked _ y hy
  obtain ⟨e, -, -, hd, -⟩ := h.uid_node hy
  rw [hd] at hkey hyuid
  obtain ⟨hstr, hmac⟩ := Key.uid.inj hkey
  have hsrc : r.src = r'.src := by
    by_contra hne
    have hno := hapart r w r' w'' hr hr' hne
    have hslot : r'.slot = r.slot := by
      rw [← h.home _ y hy, hd, Request.slot, ← xorBytes_padUid, ← hstr]
      rfl
    have htake := of_decide_eq_true hyuid
    rw [hstr] at htake
    rw [Request.confused, decide_eq_true hslot, decide_eq_true htake] at hno
    cases hno
  rw [hd, hsrc, ← hmac]
  rfl

end Runs

def hostUniq (value : List UInt8) (h : value.length < 2 ^ 16) : Tag :=
  ⟨PPPOE_TAG_ID_HOST_UNIQ, value, by decide, h⟩

def padi (src : Mac) (t : Tag) (h : (payload [t]).length < 2 ^ 16) : Request :=
  { dst := BROADCAST_ADDR, src, vlan := none, code := PPPOE_CODE_PADI, sesID := 0, tags := [t]
    pad := [], fits := h, isRequest := .inl rfl }

def pado (src dst : Mac) (hdst : dst.isGroup = false) (t : Tag)
    (h : (payload [t]).length < 2 ^ 16) : Answer :=
  { dst, src, vlan := none, code := PPPOE_CODE_PADO, sesID := 0, tags := [t]
    pad := List.replicate 20 0
    fits := h, isAnswer := .inl rfl, untagged := rfl, unicast := hdst }

def quiet (addr : Ptr) : Surroundings := ⟨fun _ => 5, addr, fun _ => 5, 0, true, []⟩

theorem stored_of_isSome {m : MatStruct} {c : Change} {now : Nat → BitVec 32} {addr : Ptr}
    (h : (tableUpdate m c now addr).map (fun r => r.2.isSome) = some true) :
    ∃ m' p, tableUpdate m c now addr = some (m', some p) := by
  obtain ⟨⟨m', r⟩, hrun, hr⟩ := Option.map_eq_some_iff.mp h
  obtain ⟨p, rfl⟩ := Option.isSome_iff_exists.mp hr
  exact ⟨m', p, hrun⟩

/-- Two hosts whose different tags are kept in one chain. -/
def firstHost : Request := padi (.replicate 6 2) (hostUniq [7, 8] (by decide)) (by decide)

def secondHost : Request := padi (.replicate 6 4) (hostUniq [8, 7] (by decide)) (by decide)

def firstAnswer : Answer :=
  pado (.replicate 6 9) (.replicate 6 6) rfl (hostUniq [7, 8] (by decide)) (by decide)

def secondAnswer : Answer :=
  pado (.replicate 6 9) (.replicate 6 6) rfl (hostUniq [8, 7] (by decide)) (by decide)

theorem run_answers_twoHosts : ∃ m, ((MATEngineInit 1).bind fun m₀ => Run.tryExec (pass 250) m₀
      [.request firstHost (quiet 2), .request secondHost (quiet 3), .answer firstAnswer (quiet 4)]) =
        some m ∧
    (∃ m' pkt, MATEngineRxHandle m firstAnswer.bytes (quiet 5) = some (m', pkt) ∧
      pkt.take 6 = [2, 2, 2, 2, 2, 2]) ∧
    ∃ m' pkt, MATEngineRxHandle m secondAnswer.bytes (quiet 5) = some (m', pkt) ∧
      pkt.take 6 = [4, 4, 4, 4, 4, 4] := by
  obtain ⟨m, hrun, hall⟩ := run_answers 250 (b := 1) rfl
    [.request firstHost (quiet 2), .request secondHost (quiet 3), .answer firstAnswer (quiet 4)]
    (by
      refine ⟨⟨fun _ hx => absurd hx List.not_mem_nil, stored_of_isSome (by decide +kernel)⟩,
        fun m₁ h₁ => ?_⟩
      obtain ⟨h, rfl⟩ := Option.eq_some_iff_get_eq.mp h₁
      clear h₁
      refine ⟨⟨fun x hx n => ?_, stored_of_isSome (by decide +kernel +revert)⟩,
        fun m₂ _ => ⟨fun hcramped => absurd hcramped.2 (by decide), fun _ _ => trivial⟩⟩
      revert x
      show ∀ x ∈ _, (secondHost.change 250).old (fun _ => 5) 0 x = false
      decide +kernel +revert)
    (by
      intro r w r' w' hr hr' hne
      simp only [List.mem_cons, List.not_mem_nil, or_false, Traffic.request.injEq,
        reduceCtorEq] at hr hr'
      obtain ⟨rfl, -⟩ | ⟨rfl, -⟩ := hr
      · obtain ⟨rfl, -⟩ | ⟨rfl, -⟩ := hr'
        · exact absurd rfl hne
        · decide
      · obtain ⟨rfl, -⟩ | ⟨rfl, -⟩ := hr'
        · decide
        · exact absurd rfl hne)
  exact ⟨m, hrun,
    hall firstHost (quiet 2) (by simp) firstAnswer rfl (fun h => absurd h.2 (by decide)) (quiet 5),
    hall secondHost (quiet 3) (by simp) secondAnswer rfl (fun h => absurd h.2 (by decide)) (quiet 5)⟩

/-- The answer to the first of two hosts goes to the second one, whose tag begins as that of
the first does. -/
theorem answer_to_other :
    ((MATEngineInit 1).bind fun m₀ =>
      (Run.tryExec (pass 250) m₀
        [.request (padi (.replicate 6 2) (hostUniq [1, 2, 3, 4, 5, 6, 7] (by decide)) (by decide))
          (quiet 2),
        .request (padi (.replicate 6 4) (hostUniq [1, 2, 3, 4, 5, 6, 8] (by decide)) (by decide))
          (quiet 3)]).bind fun m =>
        (MATEngineRxHandle m (pado (.replicate 6 8) (.replicate 6 6) rfl
          (hostUniq [1, 2, 3, 4, 5, 6, 7] (by decide)) (by decide)).bytes (quiet 4)).map
            fun r => r.2.take 6) = some (Vector.replicate 6 4).toList := by
  decide +kernel

end Ralink.Mat
