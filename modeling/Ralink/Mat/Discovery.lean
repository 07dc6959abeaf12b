import Ralink.Mat.Store

/-! The handlers of `cmm_mat_pppoe.c` for the frames of the discovery stage. A frame is the bytes of
its packet; where one is read or moved beyond them, the functions give `none`. -/
namespace Ralink.Mat
open Function

abbrev Packet := List UInt8

def PPPOE_CODE_PADI : UInt8 := 0x09
def PPPOE_CODE_PADO : UInt8 := 0x07
def PPPOE_CODE_PADR : UInt8 := 0x19
def PPPOE_CODE_PADS : UInt8 := 0x65
def PPPOE_CODE_PADT : UInt8 := 0xa7
def PPPOE_TAG_ID_HOST_UNIQ : Nat := 0x0103
def PPPOE_TAG_ID_AC_COOKIE : Nat := 0x0104
def ETH_P_PPP_DISC : Nat := 0x8863

section Bytes

def ntohs (pkt : Packet) (i : Nat) : Option Nat := do
  let high ← pkt[i]?
  let low ← pkt[i + 1]?
  some (high.toNat * 256 + low.toNat)

def htons (n : Nat) : List UInt8 := [UInt8.ofNat (n / 256), UInt8.ofNat n]

def macAt (pkt : Packet) (i : Nat) : Option Mac :=
  match pkt.drop i with
  | a :: b :: c :: d :: e :: f :: _ => some ⟨#[a, b, c, d, e, f], by simp⟩
  | _ => none

def bytesAt (pkt : Packet) (i n : Nat) : Option (List UInt8) :=
  if i + n ≤ pkt.length then some ((pkt.drop i).take n) else none

def writeAt (pkt : Packet) (i : Nat) (bytes : List UInt8) : Packet :=
  pkt.take i ++ bytes ++ pkt.drop (i + bytes.length)

/-- The loop that looks for a tag: the offset and the length of the contents of the first one
that is not empty. `leftLen` has 16 bits. -/
def findTagLoop (pkt : Packet) (findTag : Nat) :
    Nat → Nat → Nat → Option (Option (Nat × Nat))
  | 0, _, _ => none
  | turns + 1, leftLen, pData =>
    if leftLen = 0 then some none
    else do
      let tagID ← ntohs pkt pData
      let tagLen ← ntohs pkt (pData + 2)
      if tagID = findTag ∧ 0 < tagLen then some (some (pData + 4, tagLen))
      else
        let leftLen := (leftLen + 2 ^ 32 - (tagLen + 4)) % 2 ^ 16
        findTagLoop pkt findTag turns leftLen (pData + (tagLen + 4))

def findTag (pkt : Packet) (tagID leftLen pData : Nat) : Option (Option (Nat × Nat)) :=
  findTagLoop pkt tagID (pkt.length + 1) leftLen pData

/-- What the handlers read of the contents of a tag. -/
def uidAt (pkt : Packet) : Option (Nat × Nat) → Option (Option (List UInt8))
  | none => some none
  | some (pTagContent, tagLen) =>
    (bytesAt pkt pTagContent (min tagLen PPPOE_DIS_UID_LEN)).map some

end Bytes

section Handlers

variable (m : MatStruct) (HZ : BitVec 32)

/-- What goes beside a frame into a handler: the clock and the memory for an entry of each of
the two tables, whether a packet that is shared could be copied, and what is in the memory
behind the packet. -/
structure Surroundings where
  now : Nat → BitVec 32
  addr : Ptr
  sesNow : Nat → BitVec 32
  sesAddr : Ptr
  copied : Bool
  room : List UInt8

/-- The tag of the engine is put over the end of the payload, which is reckoned from the
length field on. -/
def appendTag (pkt : Packet) (room : List UInt8) (pPayloadLen payloadLen tagID : Nat)
    (uIDStr : List UInt8) : Packet :=
  let pPPPPoETail := pPayloadLen + payloadLen
  let tailHead := if pPPPPoETail < pkt.length then pPPPPoETail else pkt.length
  let pkt := pkt ++ (room ++ List.replicate 10 0).take (PPPOE_DIS_UID_LEN + 4)
  let pkt := writeAt pkt tailHead (htons tagID ++ htons PPPOE_DIS_UID_LEN ++ uIDStr)
  writeAt pkt pPayloadLen (htons (payloadLen + 4 + PPPOE_DIS_UID_LEN))

/-- By the code of a frame that is sent: whether it is a server's, the tag to look for, and
whether it gives a session. -/
def txCode (code : UInt8) : Option (Bool × Nat × Bool) :=
  if code = PPPOE_CODE_PADI ∨ code = PPPOE_CODE_PADR then
    some (false, PPPOE_TAG_ID_HOST_UNIQ, false)
  else if code = PPPOE_CODE_PADO then some (true, PPPOE_TAG_ID_AC_COOKIE, false)
  else if code = PPPOE_CODE_PADS then some (true, PPPOE_TAG_ID_AC_COOKIE, true)
  else none

def MATProto_PPPoEDis_Tx (pkt : Packet) (pLayerHdr : Nat) (w : Surroundings) :
    Option (MatStruct × Packet) := do
  let pDstMac ← macAt pkt 0
  let pSrcMac ← macAt pkt 6
  let version ← pkt[pLayerHdr]?
  if version ≠ 0x11 then some (m, pkt)
  else
    let code ← pkt[pLayerHdr + 1]?
    match txCode code with
    | none => some (m, pkt)
    | some (isServer, tagID, needUpdateSesTb) =>
      let sesID ← ntohs pkt (pLayerHdr + 2)
      let payloadLen ← ntohs pkt (pLayerHdr + 4)
      let tag ← uidAt pkt (← findTag pkt tagID payloadLen (pLayerHdr + 6))
      let (m, pEntry) ← UidMacTableUpdate m HZ pSrcMac pDstMac tag isServer w.now w.addr
      let updateSes (pkt : Packet) : Option (MatStruct × Packet) :=
        if needUpdateSesTb then
          (SesMacTableUpdate m pSrcMac (BitVec.ofNat 16 sesID) pDstMac w.sesNow w.sesAddr).map
            fun r => (r.1, pkt)
        else some (m, pkt)
      match pEntry, tag with
      | some p, none =>
        if w.copied then
          match (← m.mem p).data with
          | .uid e =>
            updateSes (appendTag pkt w.room (pLayerHdr + 4) payloadLen
              (if e.isServer then PPPOE_TAG_ID_AC_COOKIE else PPPOE_TAG_ID_HOST_UNIQ) e.uIDStr)
          | _ => none
        else some (m, pkt)
      | _, _ => updateSes pkt

/-- By the code of a frame that is received: the tag to look for, and whether it gives a
session. -/
def rxCode (code : UInt8) : Option (Nat × Bool) :=
  if code = PPPOE_CODE_PADO then some (PPPOE_TAG_ID_HOST_UNIQ, false)
  else if code = PPPOE_CODE_PADS then some (PPPOE_TAG_ID_HOST_UNIQ, true)
  else if code = PPPOE_CODE_PADR then some (PPPOE_TAG_ID_AC_COOKIE, false)
  else none

/-- The tag of the engine is taken out. The length of what is moved up has 32 bits and leaves
out the last four bytes. -/
def removeTag (pkt : Packet) (pPayloadLen payloadLen pTagContent tagLen : Nat) : Option Packet :=
  let removedTagLen := 4 + tagLen
  let tailLen := (pkt.length + 2 ^ 32 - pTagContent - removedTagLen) % 2 ^ 32
  if pTagContent + tagLen + tailLen ≤ pkt.length then
    let pkt := writeAt pkt (pTagContent - 4) ((pkt.drop (pTagContent + tagLen)).take tailLen)
    let pkt := pkt.take (pkt.length - removedTagLen)
    some (writeAt pkt pPayloadLen (htons (payloadLen + 2 ^ 16 - removedTagLen)))
  else none

/-- The tables, the packet and the MAC address of the host that the frame is for. -/
def MATProto_PPPoEDis_Rx (pkt : Packet) (pLayerHdr : Nat) (w : Surroundings) :
    Option (MatStruct × Packet × Option Mac) := do
  let version ← pkt[pLayerHdr]?
  if version ≠ 0x11 then some (m, pkt, none)
  else
    let code ← pkt[pLayerHdr + 1]?
    let pOutMac ← macAt pkt 6
    if code = PPPOE_CODE_PADT then
      let sesID ← ntohs pkt (pLayerHdr + 2)
      let (m, pInMac) ← getInMacByOutMacFromSesMacTb m pOutMac (BitVec.ofNat 16 sesID) (w.now 0)
      some (m, pkt, pInMac)
    else
      match rxCode code with
      | none => some (m, pkt, none)
      | some (tagID, needUpdateSesTb) =>
        let sesID ← ntohs pkt (pLayerHdr + 2)
        let payloadLen ← ntohs pkt (pLayerHdr + 4)
        match ← findTag pkt tagID payloadLen (pLayerHdr + 6) with
        | none => some (m, pkt, none)
        | some (pTagContent, tagLen) =>
          let tagLen := min tagLen PPPOE_DIS_UID_LEN
          let tag ← bytesAt pkt pTagContent tagLen
          let (m, found) ← UidMacTableLookUp m (.ofTag tag) (w.now 0)
          match found with
          | some (.uid e) =>
            let pkt ← if e.uIDAddByUs then
                removeTag pkt (pLayerHdr + 4) payloadLen pTagContent tagLen
              else some pkt
            let m ← if needUpdateSesTb then
                (SesMacTableUpdate m e.macAddr (BitVec.ofNat 16 sesID) pOutMac w.sesNow
                  w.sesAddr).map Prod.fst
              else some m
            some (m, pkt, some e.macAddr)
          | _ => some (m, pkt, none)

/-- A frame that is sent, when it is of the discovery stage, perhaps with a VLAN tag. -/
def MATEngineTxHandle (pkt : Packet) (w : Surroundings) : Option (MatStruct × Packet) := do
  let protoType ← ntohs pkt 12
  if protoType = 0x8100 then
    if (← ntohs pkt 16) = ETH_P_PPP_DISC then MATProto_PPPoEDis_Tx m HZ pkt 18 w
    else some (m, pkt)
  else if protoType = ETH_P_PPP_DISC then MATProto_PPPoEDis_Tx m HZ pkt 14 w
  else some (m, pkt)

/-- A frame that is received, when it is of the discovery stage; it is redirected to the host
that it is for. -/
def MATEngineRxHandle (pkt : Packet) (w : Surroundings) : Option (MatStruct × Packet) := do
  let first ← pkt[0]?
  if first &&& 1 = 1 then some (m, pkt)
  else if (← ntohs pkt 12) = ETH_P_PPP_DISC then
    let (m, pkt, pMacAddr) ← MATProto_PPPoEDis_Rx m pkt 14 w
    match pMacAddr with
    | some mac => some (m, writeAt pkt 0 mac.toList)
    | none => some (m, pkt)
  else some (m, pkt)

end Handlers

end Ralink.Mat
