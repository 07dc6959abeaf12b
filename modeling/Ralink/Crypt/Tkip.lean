import Ralink.Lib.Buffer

/-! ARC4 of `crypt_arc4.c`, the ICV of `cmm_wep.c`, and the key mixing and the Michael MIC of
`cmm_tkip.c`. The constant tables of these files are parameters. -/
namespace Ralink.Crypt
open ByteStore Cipher Buffer

structure Tables where
  FCSTAB_32 : UInt8 → UInt32
  Tkip_Sbox_Lower : UInt8 → UInt32
  Tkip_Sbox_Upper : UInt8 → UInt32

/-- Both indices are kept below 256. -/
structure ARC4_CTX where
  BlockIndex1 : UInt8
  BlockIndex2 : UInt8
  KeyBlock : UInt8 → UInt8

/-- A turn of the key schedule, with `SWAPIndex` beside the block. -/
def scheduleTurn (pKey : List UInt8) (s : UInt8 × (UInt8 → UInt8)) (BlockIndex : Nat) :
    UInt8 × (UInt8 → UInt8) :=
  let TempValue := s.2 (UInt8.ofNat BlockIndex)
  let KeyIndex := BlockIndex % pKey.length
  let SWAPIndex := s.1 + TempValue + pKey.getD KeyIndex 0
  let KeyBlock := Function.update s.2 (UInt8.ofNat BlockIndex) (s.2 SWAPIndex)
  (SWAPIndex, Function.update KeyBlock SWAPIndex TempValue)

def ARC4_INIT (pKey : List UInt8) : ARC4_CTX :=
  ⟨0, 0, ((List.range 256).foldl (scheduleTurn pKey) (0, id)).2⟩

def arc4Next (c : ARC4_CTX) : UInt8 × ARC4_CTX :=
  let BlockIndex1 := c.BlockIndex1 + 1
  let TempValue := c.KeyBlock BlockIndex1
  let BlockIndex2 := c.BlockIndex2 + TempValue
  let KeyBlock := Function.update c.KeyBlock BlockIndex1 (c.KeyBlock BlockIndex2)
  let KeyBlock := Function.update KeyBlock BlockIndex2 TempValue
  let TempValue := TempValue + KeyBlock BlockIndex1
  (KeyBlock TempValue, ⟨BlockIndex1, BlockIndex2, KeyBlock⟩)

/-- The text at `InputBlock` goes to `OutputBlock`, byte by byte. -/
def ARC4_Compute (size InputBlock OutputBlock : Nat) : Nat → ARC4_CTX → Store → Option Store
  | 0, _, f => some f
  | InputBlockSize + 1, c, f => do
      let b ← loadByte size f InputBlock
      let f ← saveByte size f OutputBlock (b ^^^ (arc4Next c).1)
      ARC4_Compute size (InputBlock + 1) (OutputBlock + 1) InputBlockSize (arc4Next c).2 f

def arc4Stream : Nat → ARC4_CTX → List UInt8
  | 0, _ => []
  | n + 1, c => (arc4Next c).1 :: arc4Stream n (arc4Next c).2

@[simp] theorem length_arc4Stream (n : Nat) (c : ARC4_CTX) : (arc4Stream n c).length = n := by
  induction n generalizing c with
  | zero => rfl
  | succ n ih => exact congrArg (· + 1) (ih _)

theorem ARC4_Compute_eq (size src dst n : Nat) (c : ARC4_CTX) (f : Store) :
    ARC4_Compute size src dst n c f = xorInto size src dst (arc4Stream n c) f := by
  induction n generalizing src dst c f with
  | zero => rfl
  | succ n ih =>
    unfold ARC4_Compute arc4Stream xorInto
    simp only [ih]

theorem ARC4_Compute_some {size src dst n : Nat} {c : ARC4_CTX} {f : Store} (hdst : dst ≤ src)
    (hin : src + n ≤ size) : ARC4_Compute size src dst n c f =
      some (writeBytes f dst (xorBytes (readBytes f src n) (arc4Stream n c))) := by
  have hlen := length_arc4Stream n c
  rw [ARC4_Compute_eq, xorInto_eq hdst (.inr (by omega)), hlen]

theorem ARC4_Compute_none {size src dst n : Nat} {c : ARC4_CTX} {f : Store} (hdst : dst ≤ src)
    (hn : 0 < n) (hout : size < src + n) : ARC4_Compute size src dst n c f = none := by
  have hlen := length_arc4Stream n c
  rw [ARC4_Compute_eq]
  apply xorInto_none hdst
  · intro hnil
    rw [hnil, List.length_nil] at hlen
    omega
  · omega

/-- The key stream moves on without being used. -/
def ARC4_Discard_KeyLength : Nat → ARC4_CTX → ARC4_CTX
  | 0, c => c
  | Length + 1, c => ARC4_Discard_KeyLength Length (arc4Next c).2

/-- The text of the key data of a frame, under the key and the IV of the frame. -/
def TKIP_GTK_KEY_WRAP (key iv input_text : List UInt8) : List UInt8 :=
  let c := ARC4_Discard_KeyLength 256 (ARC4_INIT (iv ++ key))
  xorBytes input_text (arc4Stream input_text.length c)

@[simp] theorem length_TKIP_GTK_KEY_WRAP {key iv input_text : List UInt8} :
    (TKIP_GTK_KEY_WRAP key iv input_text).length = input_text.length := by
  simp [TKIP_GTK_KEY_WRAP]

theorem TKIP_GTK_KEY_WRAP_twice (key iv input_text : List UInt8) :
    TKIP_GTK_KEY_WRAP key iv (TKIP_GTK_KEY_WRAP key iv input_text) = input_text := by
  have hlen := @length_TKIP_GTK_KEY_WRAP key iv input_text
  rw [TKIP_GTK_KEY_WRAP, hlen]
  apply xorBytes_cancel
  rw [length_arc4Stream]

def PPPINITFCS32 : UInt32 := 0xffffffff

def RTMP_CALC_FCS32 (T : Tables) (Fcs : UInt32) (bytes : List UInt8) : UInt32 :=
  bytes.foldl (fun Fcs b => (Fcs >>> 8) ^^^ T.FCSTAB_32 (Fcs.toUInt8 ^^^ b)) Fcs

def RTMPTkipGetUInt32 (bytes : List UInt8) : UInt32 :=
  bytes.foldr (fun b res => (res <<< 8) ||| b.toUInt32) 0

def RTMPTkipPutUInt32 (val : UInt32) : List UInt8 :=
  [val.toUInt8, (val >>> 8).toUInt8, (val >>> 16).toUInt8, (val >>> 24).toUInt8]

def icv (T : Tables) (bytes : List UInt8) : UInt32 :=
  RTMP_CALC_FCS32 T PPPINITFCS32 bytes ^^^ 0xffffffff

structure TKIP_KEY_INFO where
  L : UInt32
  R : UInt32
  M : UInt32
  nBytesInM : Nat

def ROL32 (a : UInt32) (n : UInt32) : UInt32 := (a <<< n) ||| (a >>> (32 - n))

def ROR32 (a : UInt32) (n : UInt32) : UInt32 := ROL32 a (32 - n)

def appendWord (L R M : UInt32) : UInt32 × UInt32 :=
  let L := L ^^^ M
  let R := R ^^^ ROL32 L 17
  let L := L + R
  let R := R ^^^ (((L &&& 0xff00ff00) >>> 8) ||| ((L &&& 0x00ff00ff) <<< 8))
  let L := L + R
  let R := R ^^^ ROL32 L 3
  let L := L + R
  let R := R ^^^ ROR32 L 2
  (L + R, R)

def RTMPTkipAppendByte (pTkip : TKIP_KEY_INFO) (uChar : UInt8) : TKIP_KEY_INFO :=
  let M := pTkip.M ||| (uChar.toUInt32 <<< UInt32.ofNat (8 * pTkip.nBytesInM))
  if 4 ≤ pTkip.nBytesInM + 1 then
    ⟨(appendWord pTkip.L pTkip.R M).1, (appendWord pTkip.L pTkip.R M).2, 0, 0⟩
  else ⟨pTkip.L, pTkip.R, M, pTkip.nBytesInM + 1⟩

def RTMPTkipAppend (pTkip : TKIP_KEY_INFO) (bytes : List UInt8) : TKIP_KEY_INFO :=
  bytes.foldl RTMPTkipAppendByte pTkip

def RTMPInitMICEngine (pDA pSA : List UInt8) (UserPriority : UInt8) (pMICKey : List UInt8) :
    TKIP_KEY_INFO :=
  let pTkip : TKIP_KEY_INFO :=
    ⟨RTMPTkipGetUInt32 (pMICKey.take 4), RTMPTkipGetUInt32 (pMICKey.drop 4), 0, 0⟩
  let pTkip := RTMPTkipAppend pTkip pDA
  let pTkip := RTMPTkipAppend pTkip pSA
  RTMPTkipAppend pTkip [UserPriority, 0, 0, 0]

/-- The padding fills at least the word that was begun, so at most three zeros follow it. -/
def RTMPTkipGetMIC (pTkip : TKIP_KEY_INFO) : List UInt8 :=
  let pTkip := RTMPTkipAppend pTkip [0x5a, 0, 0, 0, 0]
  let pTkip := RTMPTkipAppend pTkip (List.replicate ((4 - pTkip.nBytesInM) % 4) 0)
  RTMPTkipPutUInt32 pTkip.L ++ RTMPTkipPutUInt32 pTkip.R

section Mixing

variable (T : Tables)

def tkip_sbox (index : UInt32) : UInt32 :=
  let index_low := index.toUInt8
  let index_high := (index >>> 8).toUInt8
  let left := T.Tkip_Sbox_Lower index_low + T.Tkip_Sbox_Upper index_low * 256
  let right := T.Tkip_Sbox_Upper index_high + T.Tkip_Sbox_Lower index_high * 256
  left ^^^ right

def rotr1 (a : UInt32) : UInt32 :=
  let b := if a &&& 0x01 = 0x01 then (a >>> 1) ||| 0x8000 else (a >>> 1) &&& 0x7fff
  b % 65536

def keyWord (key : List UInt8) (j : Nat) : UInt32 :=
  256 * (key.getD (j + 1) 0).toUInt32 + (key.getD j 0).toUInt32

structure P1K where
  p0 : UInt32
  p1 : UInt32
  p2 : UInt32
  p3 : UInt32
  p4 : UInt32

def phase1Turn (key : List UInt8) (p : P1K) (i : Nat) : P1K :=
  let j := 2 * (i % 2)
  let p0 := (p.p0 + tkip_sbox T ((p.p4 ^^^ keyWord key j) % 65536)) % 65536
  let p1 := (p.p1 + tkip_sbox T ((p0 ^^^ keyWord key (4 + j)) % 65536)) % 65536
  let p2 := (p.p2 + tkip_sbox T ((p1 ^^^ keyWord key (8 + j)) % 65536)) % 65536
  let p3 := (p.p3 + tkip_sbox T ((p2 ^^^ keyWord key (12 + j)) % 65536)) % 65536
  let p4 := (p.p4 + tkip_sbox T ((p3 ^^^ keyWord key j) % 65536)) % 65536
  ⟨p0, p1, p2, p3, (p4 + UInt32.ofNat i) % 65536⟩

/-- `rc4key` -/
def RTMPTkipMixKey (key ta : List UInt8) (pnl pnh : UInt32) : List UInt8 :=
  let tsc0 := (pnh >>> 16) % 65536
  let tsc1 := pnh % 65536
  let tsc2 := pnl % 65536
  let p := (List.range 8).foldl (phase1Turn T key) ⟨tsc1, tsc0, keyWord ta 0, keyWord ta 2, keyWord ta 4⟩
  let ppk5 := (p.p4 + tsc2) % 65536
  let ppk0 := p.p0 + tkip_sbox T ((ppk5 ^^^ keyWord key 0) % 65536)
  let ppk1 := p.p1 + tkip_sbox T ((ppk0 ^^^ keyWord key 2) % 65536)
  let ppk2 := p.p2 + tkip_sbox T ((ppk1 ^^^ keyWord key 4) % 65536)
  let ppk3 := p.p3 + tkip_sbox T ((ppk2 ^^^ keyWord key 6) % 65536)
  let ppk4 := p.p4 + tkip_sbox T ((ppk3 ^^^ keyWord key 8) % 65536)
  let ppk5 := ppk5 + tkip_sbox T ((ppk4 ^^^ keyWord key 10) % 65536)
  let ppk0 := ppk0 + rotr1 (ppk5 ^^^ keyWord key 12)
  let ppk1 := ppk1 + rotr1 (ppk0 ^^^ keyWord key 14)
  let ppk2 := ppk2 + rotr1 ppk1
  let ppk3 := ppk3 + rotr1 ppk2
  let ppk4 := ppk4 + rotr1 ppk3
  let ppk5 := ppk5 + rotr1 ppk4
  [(tsc2 >>> 8).toUInt8, ((tsc2 >>> 8).toUInt8 ||| 0x20) &&& 0x7f, tsc2.toUInt8,
    ((ppk5 ^^^ keyWord key 0) >>> 1).toUInt8,
    ppk0.toUInt8, (ppk0 >>> 8).toUInt8, ppk1.toUInt8, (ppk1 >>> 8).toUInt8,
    ppk2.toUInt8, (ppk2 >>> 8).toUInt8, ppk3.toUInt8, (ppk3 >>> 8).toUInt8,
    ppk4.toUInt8, (ppk4 >>> 8).toUInt8, ppk5.toUInt8, (ppk5 >>> 8).toUInt8]

end Mixing

end Ralink.Crypt
