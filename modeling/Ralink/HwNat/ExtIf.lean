import Ralink.Lib.Assoc
import Ralink.Lib.ByteStore

/-! The handlers of `ra_nat.c` that send a frame of a wireless or PCI interface through the engine,
with a tag that stands for the interface, and that take the tag off again when the frame comes back.
-/
namespace Ralink.HwNat
open ByteStore

inductive NetDev where
  | ra (i : Fin 16)
  | wds (i : Fin 4)
  | apcli0
  | mesh0
  | rai (i : Fin 16)
  | apclii0
  | meshi0
  | eth (n : Nat)
  | other (n : Nat)
  deriving DecidableEq

/-- The options that the interfaces depend on. `mbss` is `CONFIG_RT2860V2_AP_MBSS` or
`CONFIG_RTPCI_AP_MBSS`, `ra16` one of the chips with sixteen of them, `rtdev` one of the
`CONFIG_RTDEV` options and `raiMbss` that one of its drivers has `MBSS`. -/
structure ExtBuild where
  hwNatWifi : Bool := true
  hwNatPci : Bool := false
  mbss : Bool := false
  ra16 : Bool := false
  wds : Bool := false
  apcli : Bool := false
  mesh : Bool := false
  rtdev : Bool := false
  raiMbss : Bool := false
  rtdevApcli : Bool := false
  rtdevMesh : Bool := false
  gmac2 : Bool := false
  deriving DecidableEq

/-! `enum DstPort`, as far as its values are used. -/

def DP_RA (i : Fin 16) : Nat := 11 + i

def DP_WDS : Fin 4 → Nat
  | 0 => 27
  | 1 => 18
  | 2 => 29
  | 3 => 30

def DP_APCLI0 : Nat := 31
def DP_MESH0 : Nat := 32
def DP_RAI (i : Fin 16) : Nat := 33 + i
def DP_APCLII0 : Nat := 53
def DP_MESHI0 : Nat := 54
def DP_GMAC : Nat := 60
def DP_GMAC2 : Nat := 61
def DP_PCI : Nat := 62
def MAX_IF_NUM : Nat := 63

structure Net where
  registered : NetDev → Bool
  devAddr : NetDev → List UInt8
  broadcast : NetDev → List UInt8

def Net.raDevGetByName (net : Net) (dev : NetDev) : Option NetDev :=
  if net.registered dev then some dev else none

section Ports

variable (cfg : ExtBuild)

/-! The assignments of `PpeSetDstPort` in their order: a port and the device that is looked up for
it. -/

def onePort (isBuilt : Bool) (port : Nat) (dev : NetDev) : List (Nat × NetDev) :=
  if isBuilt then [(port, dev)] else []

def raPorts : List (Nat × NetDev) :=
  [(DP_RA 0, .ra 0)] ++
  if cfg.mbss then
    [1, 2, 3, 4, 5, 6, 7].map (fun i => (DP_RA i, .ra i)) ++
    if cfg.ra16 then [8, 9, 10, 11, 12, 13, 14, 15].map fun i => (DP_RA i, .ra i) else []
  else []

def wdsPorts : List (Nat × NetDev) :=
  if cfg.wds then [0, 1, 2, 3].map fun i => (DP_WDS i, .wds i) else []

def raiPorts : List (Nat × NetDev) :=
  if cfg.rtdev then
    [(DP_RAI 0, .rai 0)] ++
    if cfg.raiMbss then
      [1, 2, 3, 4, 5, 6, 7, 8, 9, 10, 11, 12, 13, 14, 15].map fun i => (DP_RAI i, .rai i)
    else []
  else []

/-- The ports behind those of the wireless devices of the first kind. -/
def laterPorts : List (Nat × NetDev) :=
  wdsPorts cfg ++ (onePort cfg.apcli DP_APCLI0 .apcli0 ++ (onePort cfg.mesh DP_MESH0 .mesh0 ++
    (raiPorts cfg ++ (onePort cfg.rtdevApcli DP_APCLII0 .apclii0 ++
      (onePort cfg.rtdevMesh DP_MESHI0 .meshi0 ++ ([(DP_GMAC, .eth 2)] ++
        (onePort cfg.gmac2 DP_GMAC2 (.eth 3) ++ [(DP_PCI, .eth 0)])))))))

def dstPorts : List (Nat × NetDev) := raPorts cfg ++ laterPorts cfg

/-- The array `DstPort` as `PpeSetDstPort(1)` leaves it. -/
def ppeSetDstPort (net : Net) : Nat → Option NetDev :=
  Assoc.fill (fun _ => none) ((dstPorts cfg).map fun e => (e.1, net.raDevGetByName e.2))

/-- The ports whose devices `PpeExtIfRxHandler` compares the packet's with, in order. -/
def rxPorts : List Nat :=
  [DP_RA 0] ++
  (if cfg.mbss then
    [1, 2, 3, 4, 5, 6, 7, 8, 9, 10, 11, 12, 13, 14, 15].map DP_RA
  else []) ++
  (if cfg.wds then [0, 1, 2, 3].map DP_WDS else []) ++
  (if cfg.apcli then [DP_APCLI0] else []) ++
  (if cfg.mesh then [DP_MESH0] else []) ++
  (if cfg.rtdev then
    [DP_RAI 0] ++
    if cfg.raiMbss then
      [1, 2, 3, 4, 5, 6, 7, 8, 9, 10, 11, 12, 13, 14, 15].map DP_RAI
    else []
  else []) ++
  (if cfg.rtdevApcli then [DP_APCLII0] else []) ++
  (if cfg.rtdevMesh then [DP_MESHI0] else []) ++
  (if cfg.hwNatPci then [DP_PCI] else [])

/-- The chain of comparisons; 0 stays when the interface is unknown. -/
def virIfIdx (dstPort : Nat → Option NetDev) (dev : NetDev) : Nat :=
  ((rxPorts cfg).find? fun port => dstPort port = some dev).getD 0

end Ports

inductive PktType where
  | host
  | broadcast
  | multicast
  | otherhost
  deriving DecidableEq

/-- A socket buffer: `mac` is `LAYER2_HEADER`, an address as `data` is. -/
structure SkBuff where
  mem : Store
  data : Nat
  len : Nat
  mac : Nat
  protocol : Nat
  dev : NetDev
  pktType : PktType
  cloned : Bool
  shared : Bool

def ETH_HLEN : Nat := 14
def ETH_ALEN : Nat := 6
def VLAN_HLEN : Nat := 4
def ETH_P_IP : Nat := 0x0800
def ETH_P_8021Q : Nat := 0x8100
def ETH_P_IPV6 : Nat := 0x86DD
def ETH_P_PPP_SES : Nat := 0x8864
def ETH_P_PPP_DISC : Nat := 0x8863

def be16 (f : Store) (a : Nat) : Nat := (f a).toNat * 256 + (f (a + 1)).toNat

namespace SkBuff

variable (skb : SkBuff)

def skbPull (n : Nat) : SkBuff :=
  if n > skb.len then skb else { skb with data := skb.data + n, len := skb.len - n }

/-- The packet as it is when a driver hands it over: its data are those behind the header. -/
def AtLayer3 : Prop := skb.data = skb.mac + ETH_HLEN

def frame : List UInt8 := readBytes skb.mem skb.mac (skb.len + ETH_HLEN)

end SkBuff

def vlanPutTag (frame : List UInt8) (tag : Nat) : List UInt8 :=
  frame.take (2 * ETH_ALEN) ++
    [0x81, 0x00, UInt8.ofNat (tag / 256), UInt8.ofNat tag] ++ frame.drop (2 * ETH_ALEN)

/-- What the handler does with a packet: it leaves it to the caller, or it sends a frame on a
device. -/
inductive RxResult where
  | pass (skb : SkBuff)
  | xmit (dev : Option NetDev) (frame : List UInt8)

def isPpeProtocol (protocol : Nat) : Bool :=
  protocol ∈ [ETH_P_IP, ETH_P_8021Q, ETH_P_IPV6, ETH_P_PPP_SES, ETH_P_PPP_DISC]

section Handlers

variable (cfg : ExtBuild) (net : Net) (dstPort : Nat → Option NetDev)

def ppeExtIfRxHandler (skb : SkBuff) : RxResult :=
  if ¬ (cfg.hwNatWifi ∨ cfg.hwNatPci) then .pass skb
  else if ¬ isPpeProtocol skb.protocol then .pass skb
  else
    -- the header is pushed back before the tag goes behind its addresses
    let frame := readBytes skb.mem (skb.data - ETH_HLEN) (skb.len + ETH_HLEN)
    .xmit (dstPort DP_GMAC) (vlanPutTag frame (virIfIdx cfg dstPort skb.dev))

/-- The tag, and the packet that the caller has then. `copy` tells whether `skb_copy`
succeeds; it is the copy that loses its tag, and the caller keeps the packet it has. -/
def removeVlanTag (skb : SkBuff) (copy : Bool) : Nat × SkBuff :=
  if be16 skb.mem (skb.mac + 2 * ETH_ALEN) ≠ ETH_P_8021Q then (65535, skb)
  else
    let virIfIdx := be16 skb.mem (skb.mac + ETH_HLEN)
    if skb.cloned ∨ skb.shared then (if copy then virIfIdx else 65535, skb)
    else
      let skb := { skb with data := skb.mac, mac := skb.mac + VLAN_HLEN }
      let skb := { skb with
        mem := writeBytes skb.mem skb.mac (readBytes skb.mem skb.data (2 * ETH_ALEN)) }
      let skb := skb.skbPull VLAN_HLEN
      let skb := { skb with data := skb.data + ETH_HLEN }
      (virIfIdx, { skb with protocol := be16 skb.mem (skb.mac + 2 * ETH_ALEN) })

/-- Whom the frame is for: its destination against the addresses of the ports' devices. -/
def pktTypeOf (dest : List UInt8) (dev : NetDev) : PktType :=
  if dest.headD 0 &&& 1 ≠ 0 then
    if dest = net.broadcast dev then .broadcast else .multicast
  else if (List.range MAX_IF_NUM).any fun i => (dstPort i).any fun dev => dest = net.devAddr dev then
    .host
  else .otherhost

/-- The packet that the handler leaves; it returns 1 in every case. -/
def ppeExtIfPingPongHandler (skb : SkBuff) (copy : Bool) : SkBuff :=
  if ¬ (cfg.hwNatWifi ∨ cfg.hwNatPci) then skb
  else
    let (virIfIdx, skb) := removeVlanTag skb copy
    match if virIfIdx < MAX_IF_NUM then dstPort virIfIdx else none with
    | none => skb
    | some dev =>
      { skb with
        dev := dev
        pktType := pktTypeOf net dstPort (readBytes skb.mem skb.mac ETH_ALEN) dev }

end Handlers

/-- The device is looked up for a port that the receive handler knows, and no other device
is written over it. -/
def ExtBuild.Knows (cfg : ExtBuild) (d : NetDev) : Prop :=
  (∃ p ∈ rxPorts cfg, (p, d) ∈ dstPorts cfg) ∧ ¬ (cfg.mbss ∧ cfg.wds ∧ d = .ra 7)

def ownerOf (cfg : ExtBuild) (p : Nat) : NetDev :=
  if p = 18 ∧ cfg.wds then .wds 1
  else if p < 27 then .ra (Fin.ofNat 16 (p - 11))
  else if p < 31 then .wds (Fin.ofNat 4 (p - 27))
  else if p = DP_APCLI0 then .apcli0
  else if p = DP_MESH0 then .mesh0
  else if p < 49 then .rai (Fin.ofNat 16 (p - 33))
  else if p = DP_APCLII0 then .apclii0
  else if p = DP_MESHI0 then .meshi0
  else if p = DP_GMAC then .eth 2
  else if p = DP_GMAC2 then .eth 3
  else .eth 0

end Ralink.HwNat
