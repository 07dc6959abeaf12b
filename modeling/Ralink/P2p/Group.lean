import Ralink.Lib.Run
import Ralink.Lib.Slots

/-! The part of `p2p_table.c` that keeps the peers that have been seen. A peer is searched by its
device address, its interface address or its BSSID; an all-zero field has not been set. -/
namespace Ralink.P2p
open Function

def MAX_P2P_GROUP_SIZE : Nat := 30

instance : NeZero MAX_P2P_GROUP_SIZE := ⟨nofun⟩

def P2P_NOT_FOUND : Nat := 0xFF
def DEV_PASS_ID_NOSPEC : BitVec 16 := 0xFFFF

abbrev Byte := BitVec 8
abbrev Mac := Vector Byte 6

/-- What the peer does when an operation with it is performed. -/
inductive P2P_CLIENT_STATE where
  | P2PSTATE_NONE
  | P2PSTATE_DISCOVERY
  | P2PSTATE_DISCOVERY_GO
  | P2PSTATE_DISCOVERY_CLIENT
  | P2PSTATE_DISCOVERY_UNKNOWN
  | P2PSTATE_CLIENT_DISCO_COMMAND
  | P2PSTATE_WAIT_GO_DISCO_ACK
  | P2PSTATE_WAIT_GO_DISCO_ACK_SUCCESS
  | P2PSTATE_GO_DISCO_COMMAND
  | P2PSTATE_INVITE_COMMAND
  | P2PSTATE_CONNECT_COMMAND
  | P2PSTATE_PROVISION_COMMAND
  | P2PSTATE_SERVICE_DISCO_COMMAND
  | P2PSTATE_SERVICE_COMEBACK_COMMAND
  | P2PSTATE_SENT_INVITE_REQ
  | P2PSTATE_SENT_PROVISION_REQ
  | P2PSTATE_WAIT_REVOKEINVITE_RSP_ACK
  | P2PSTATE_REVOKEINVITE_RSP_ACK_SUCCESS
  | P2PSTATE_SENT_GO_NEG_REQ
  | P2PSTATE_GOT_GO_RSP_INFO_UNAVAI
  | P2PSTATE_WAIT_GO_COMFIRM
  | P2PSTATE_WAIT_GO_COMFIRM_ACK
  | P2PSTATE_GOT_GO_COMFIRM
  | P2PSTATE_GO_COMFIRM_ACK_SUCCESS
  | P2PSTATE_REINVOKEINVITE_TILLCONFIGTIME
  | P2PSTATE_GO_DONE
  | P2PSTATE_GO_WPS
  | P2PSTATE_GO_AUTH
  | P2PSTATE_GO_ASSOC
  | P2PSTATE_CLIENT_WPS
  | P2PSTATE_CLIENT_WPS_DONE
  | P2PSTATE_CLIENT_AUTH
  | P2PSTATE_CLIENT_ASSOC
  | P2PSTATE_CLIENT_OPERATING
  | P2PSTATE_CLIENT_ABSENCE
  | P2PSTATE_CLIENT_SCAN
  | P2PSTATE_CLIENT_FIND
  | P2PSTATE_GO_OPERATING
  | P2PSTATE_GO_ABSENCE
  | P2PSTATE_GO_SCAN
  | P2PSTATE_GO_FIND
  | P2PSTATE_NONP2P_PSK
  | P2PSTATE_NONP2P_WPS
  | P2PSTATE_MAX_STATE
  deriving DecidableEq

inductive Rule where
  | P2P_IS_GO
  | P2P_IS_CLIENT
  deriving DecidableEq

/-- The fields of an entry that the functions of the table write. -/
structure RT_P2P_CLIENT_ENTRY where
  P2pClientState : P2P_CLIENT_STATE
  MyGOIndex : Byte
  Peerip : BitVec 32
  Dbm : Byte
  P2pFlag : Byte
  GeneralToken : Byte
  StateCount : Byte
  Rule : Rule
  DevCapability : Byte
  GroupCapability : Byte
  ConfigMethod : BitVec 16
  Dpid : BitVec 16
  Ssid : Vector Byte 32
  SsidLen : Byte
  GoIntent : Byte
  addr : Mac
  InterfaceAddr : Mac
  bssid : Mac
  PrimaryDevType : Vector Byte 8
  NumSecondaryType : Byte
  SecondaryDevType : Vector Byte 8
  OpChannel : Byte
  DeviceName : Vector Byte 32
  DeviceNameLen : BitVec 32
  ConfigTimeOut : Byte
  ListenChannel : Byte
  bValid : Bool

abbrev Client := Fin MAX_P2P_GROUP_SIZE → RT_P2P_CLIENT_ENTRY

structure RT_P2P_TABLE where
  ClientNumber : Nat
  Client : Client

def zeroMac : Mac := Vector.replicate 6 0

def strangeMac : Mac := #v[0, 0, 0, 0x55, 0, 0]

def multicast (Addr : Mac) : Bool := Addr.get 0 &&& 1 = 1

def P2pGroupTabInit (Tab : RT_P2P_TABLE) : RT_P2P_TABLE where
  ClientNumber := 0
  Client i :=
    { Tab.Client i with
      P2pClientState := .P2PSTATE_NONE
      Rule := .P2P_IS_CLIENT
      DevCapability := 0
      GroupCapability := 0
      addr := zeroMac
      bssid := zeroMac
      InterfaceAddr := zeroMac
      Ssid := Vector.replicate 32 0
      PrimaryDevType := Vector.replicate 8 0
      SecondaryDevType := Vector.replicate 8 0
      DeviceName := Vector.replicate 32 0
      DeviceNameLen := 0
      SsidLen := 0
      GoIntent := 0
      OpChannel := 0
      ListenChannel := 0
      ConfigMethod := 0
      StateCount := 0
      bValid := false }

/-- What is inserted beside the address; `rand` is what `RandomByte` gives. -/
structure Peer where
  State : P2P_CLIENT_STATE
  Ssid : Option (Vector Byte 32)
  SsidLen : Byte
  DevCap : Byte
  GrpCap : Byte
  rand : Byte

def Peer.ssid (p : Peer) (old : Vector Byte 32) : Vector Byte 32 :=
  if p.SsidLen > 0 then p.Ssid.getD old else old

def Peer.token (p : Peer) : Byte := if p.rand = 0 ∨ p.rand > 245 then 6 else p.rand

/-- The peer is there, so only its state is updated. -/
def RT_P2P_CLIENT_ENTRY.refresh (e : RT_P2P_CLIENT_ENTRY) (p : Peer) : RT_P2P_CLIENT_ENTRY :=
  { e with
    P2pClientState := if p.State ≠ .P2PSTATE_NONE then p.State else e.P2pClientState
    Ssid := p.ssid e.Ssid
    SsidLen := p.SsidLen }

def RT_P2P_CLIENT_ENTRY.take (e : RT_P2P_CLIENT_ENTRY) (Addr : Mac) (p : Peer) :
    RT_P2P_CLIENT_ENTRY :=
  { e with
    addr := Addr
    P2pClientState := p.State
    Ssid := p.ssid e.Ssid
    SsidLen := p.SsidLen
    Dbm := 0
    GoIntent := 0
    MyGOIndex := 0xFF
    Peerip := 0
    ConfigTimeOut := 0
    OpChannel := 0
    ListenChannel := 0
    GeneralToken := p.token
    DevCapability := p.DevCap
    GroupCapability := p.GrpCap
    Dpid := DEV_PASS_ID_NOSPEC
    P2pFlag := 0
    Rule := if p.State = .P2PSTATE_DISCOVERY_GO then .P2P_IS_GO else .P2P_IS_CLIENT }

def RT_P2P_CLIENT_ENTRY.release (e : RT_P2P_CLIENT_ENTRY) : RT_P2P_CLIENT_ENTRY :=
  { e with
    addr := strangeMac
    bssid := strangeMac
    InterfaceAddr := strangeMac
    PrimaryDevType := Vector.replicate 8 0
    SecondaryDevType := Vector.replicate 8 0
    DeviceName := Vector.replicate 32 0
    NumSecondaryType := 0
    DeviceNameLen := 0
    ConfigMethod := 0
    OpChannel := 0
    ListenChannel := 0
    Dpid := DEV_PASS_ID_NOSPEC
    MyGOIndex := 0xFF
    Peerip := 0
    ConfigTimeOut := 0
    Rule := .P2P_IS_CLIENT
    Ssid := Vector.replicate 32 0
    SsidLen := 0
    GoIntent := 0
    P2pClientState := .P2PSTATE_NONE }

def RT_P2P_CLIENT_ENTRY.holds (e : RT_P2P_CLIENT_ENTRY) (Addr : Mac) : Bool :=
  e.P2pClientState ≠ .P2PSTATE_NONE ∧ e.addr = Addr

/-- One loop looks for the peer and for a free entry and stops at the first of either. -/
def P2pGroupTabInsert (Tab : RT_P2P_TABLE) (Addr : Mac) (p : Peer) :
    Option (Fin MAX_P2P_GROUP_SIZE) × RT_P2P_TABLE :=
  if Addr = zeroMac ∨ multicast Addr then (none, Tab)
  else match Fin.find? fun i =>
      (Tab.Client i).holds Addr ∨ (Tab.Client i).P2pClientState = .P2PSTATE_NONE with
    | some i =>
      if (Tab.Client i).holds Addr then
        (some i, { Tab with Client := update Tab.Client i ((Tab.Client i).refresh p) })
      else
        (some i, ⟨Tab.ClientNumber + 1, update Tab.Client i ((Tab.Client i).take Addr p)⟩)
    | none => (none, Tab)

/-- The last entry that matches is the one found. -/
def P2pGroupTabSearch (Tab : RT_P2P_TABLE) (Addr : Mac) : Option (Fin MAX_P2P_GROUP_SIZE) :=
  if multicast Addr ∨ Addr = Vector.replicate 6 0xFF ∨ Addr = zeroMac then none
  else Slots.findLast fun i =>
    ((Tab.Client i).bssid = Addr ∨ (Tab.Client i).InterfaceAddr = Addr ∨
      (Tab.Client i).addr = Addr) ∧ (Tab.Client i).P2pClientState ≠ .P2PSTATE_NONE

def RT_P2P_TABLE.release (Tab : RT_P2P_TABLE) (index : Fin MAX_P2P_GROUP_SIZE) : RT_P2P_TABLE where
  ClientNumber :=
    if Tab.ClientNumber > 0 ∧ (Tab.Client index).P2pClientState ≠ .P2PSTATE_NONE then Tab.ClientNumber - 1
    else Tab.ClientNumber
  Client := update Tab.Client index (Tab.Client index).release

/-- The index of the entry to delete, or what is returned if there is none. -/
def deleteIndex (Tab : RT_P2P_TABLE) (p2pindex : Byte) (Addr : Option Mac) : Nat :=
  if p2pindex.toNat ≥ MAX_P2P_GROUP_SIZE then
    match Addr with
    | some Addr => ((P2pGroupTabSearch Tab Addr).map Fin.val).getD P2P_NOT_FOUND
    | none => p2pindex.toNat
  else p2pindex.toNat

def P2pGroupTabDelete (Tab : RT_P2P_TABLE) (p2pindex : Byte) (Addr : Option Mac) :
    Nat × RT_P2P_TABLE :=
  let index := deleteIndex Tab p2pindex Addr
  if h : index < MAX_P2P_GROUP_SIZE then (index, Tab.release ⟨index, h⟩) else (index, Tab)

def key (e : RT_P2P_CLIENT_ENTRY) : Option Mac :=
  if e.P2pClientState = .P2PSTATE_NONE then none else some e.addr

/-- An entry carries an address in one of three fields, if it is one at all. -/
def Carries (e : RT_P2P_CLIENT_ENTRY) (Addr : Mac) : Prop :=
  Addr ≠ zeroMac ∧ (e.addr = Addr ∨ e.InterfaceAddr = Addr ∨ e.bssid = Addr)

variable {Tab : RT_P2P_TABLE} {Addr : Mac} {p : Peer} {e : RT_P2P_CLIENT_ENTRY}
  {i : Fin MAX_P2P_GROUP_SIZE}

theorem key_eq_none : key e = none ↔ e.P2pClientState = .P2PSTATE_NONE := by
  simp [key]

theorem key_eq_some : key e = some Addr ↔ e.holds Addr = true := by
  simp [key, RT_P2P_CLIENT_ENTRY.holds]

@[simp] theorem key_release : key e.release = none := rfl

theorem key_refresh (h : key e ≠ none) : key (e.refresh p) = key e := by
  have hlive : e.P2pClientState ≠ .P2PSTATE_NONE := fun hnone => h (key_eq_none.mpr hnone)
  by_cases hp : p.State = .P2PSTATE_NONE
  · simp [key, RT_P2P_CLIENT_ENTRY.refresh, hp]
  · simp [key, RT_P2P_CLIENT_ENTRY.refresh, hp, hlive]

theorem key_take (h : p.State ≠ .P2PSTATE_NONE) : key (e.take Addr p) = some Addr := if_neg h

theorem insert_cases (Tab : RT_P2P_TABLE) (Addr : Mac) (p : Peer) :
    ((Addr = zeroMac ∨ multicast Addr = true) ∧ P2pGroupTabInsert Tab Addr p = (none, Tab)) ∨
    (∃ i, key (Tab.Client i) = some Addr ∧ (∀ j < i, key (Tab.Client j) ≠ none) ∧
      P2pGroupTabInsert Tab Addr p =
        (some i, { Tab with Client := update Tab.Client i ((Tab.Client i).refresh p) })) ∨
    (∃ i, key (Tab.Client i) = none ∧ (∀ j < i, key (Tab.Client j) ≠ some Addr) ∧
      Addr ≠ zeroMac ∧ multicast Addr = false ∧
      P2pGroupTabInsert Tab Addr p =
        (some i, ⟨Tab.ClientNumber + 1, update Tab.Client i ((Tab.Client i).take Addr p)⟩)) ∨
    ((∀ i, key (Tab.Client i) ≠ none ∧ key (Tab.Client i) ≠ some Addr) ∧
      P2pGroupTabInsert Tab Addr p = (none, Tab)) := by
  unfold P2pGroupTabInsert
  by_cases hrefuse : Addr = zeroMac ∨ multicast Addr = true
  · exact .inl ⟨hrefuse, if_pos hrefuse⟩
  · obtain ⟨hzero, hmulti⟩ := not_or.mp hrefuse
    rw [if_neg hrefuse]
    right
    cases hfind : Fin.find? fun i => decide ((Tab.Client i).holds Addr = true ∨
        (Tab.Client i).P2pClientState = .P2PSTATE_NONE) with
    | none =>
      refine .inr (.inr ⟨fun i => ?_, rfl⟩)
      have hno := Fin.find?_eq_none_iff.mp hfind i
      rw [decide_eq_false_iff_not, not_or] at hno
      exact ⟨fun h => hno.2 (key_eq_none.mp h), fun h => hno.1 (key_eq_some.mp h)⟩
    | some i =>
      have hi := Fin.eq_true_of_find?_eq_some hfind
      have hbefore : ∀ j < i, key (Tab.Client j) ≠ none ∧ key (Tab.Client j) ≠ some Addr := by
        intro j hj
        have hno := Fin.eq_false_of_find?_eq_some_of_lt hfind j hj
        rw [decide_eq_false_iff_not, not_or] at hno
        exact ⟨fun h => hno.2 (key_eq_none.mp h), fun h => hno.1 (key_eq_some.mp h)⟩
      by_cases hholds : (Tab.Client i).holds Addr = true
      · exact .inl ⟨i, key_eq_some.mpr hholds, fun j hj => (hbefore j hj).1, if_pos hholds⟩
      · have hnone := (of_decide_eq_true hi).resolve_left hholds
        exact .inr (.inl ⟨i, key_eq_none.mpr hnone, fun j hj => (hbefore j hj).2, hzero,
          Bool.eq_false_iff.mpr hmulti, if_neg hholds⟩)

theorem delete_cases (Tab : RT_P2P_TABLE) (p2pindex : Byte) (Addr : Option Mac) :
    (P2pGroupTabDelete Tab p2pindex Addr).2 = Tab ∨
      ∃ i, (P2pGroupTabDelete Tab p2pindex Addr).2 = Tab.release i := by
  unfold P2pGroupTabDelete
  by_cases h : deleteIndex Tab p2pindex Addr < MAX_P2P_GROUP_SIZE
  · exact .inr ⟨_, congrArg Prod.snd (dif_pos h)⟩
  · exact .inl (congrArg Prod.snd (dif_neg h))

theorem of_search (h : P2pGroupTabSearch Tab Addr = some i) :
    key (Tab.Client i) ≠ none ∧ Carries (Tab.Client i) Addr := by
  unfold P2pGroupTabSearch at h
  by_cases hrefuse : multicast Addr = true ∨ Addr = Vector.replicate 6 0xFF ∨ Addr = zeroMac
  · rw [if_pos hrefuse] at h
    exact (Option.some_ne_none i h.symm).elim
  · rw [if_neg hrefuse] at h
    obtain ⟨hfield, hlive⟩ := of_decide_eq_true (Slots.of_findLast h)
    refine ⟨fun hnone => hlive (key_eq_none.mp hnone), ?_, ?_⟩
    · exact fun hzero => hrefuse (.inr (.inr hzero))
    · rcases hfield with h | h | h
      · exact .inr (.inr h)
      · exact .inr (.inl h)
      · exact .inl h

theorem search_of_carries (hkey : key (Tab.Client i) ≠ none) (hcarries : Carries (Tab.Client i) Addr)
    (hmulti : multicast Addr = false) : (P2pGroupTabSearch Tab Addr).isSome := by
  unfold P2pGroupTabSearch
  have hff : Addr ≠ Vector.replicate 6 0xFF := by
    rintro rfl
    exact absurd hmulti (by decide)
  have hpass : ¬ (multicast Addr = true ∨ Addr = Vector.replicate 6 0xFF ∨ Addr = zeroMac) := by
    rintro (h | h | h)
    · exact Bool.false_ne_true (hmulti.symm.trans h)
    · exact hff h
    · exact hcarries.1 h
  rw [if_neg hpass, Slots.isSome_findLast]
  refine ⟨i, decide_eq_true ⟨?_, fun hnone => hkey (key_eq_none.mpr hnone)⟩⟩
  rcases hcarries.2 with h | h | h
  · exact .inr (.inr h)
  · exact .inr (.inl h)
  · exact .inl h

end Ralink.P2p
