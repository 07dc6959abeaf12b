import Ralink.Lib.BlockStream
import Ralink.Lib.Buffer

/-! SHA-1, SHA-256 and MD5 collect a message in a block of 64 bytes and work the block off when it
is full. They differ in what a block does to the hash value and in the order of the bytes of a word.
-/
namespace Ralink.Crypt

open ByteStore
open Buffer (save)

/-- What distinguishes a hash function whose value is of `w` words. -/
structure HashFunction (w : Nat) where
  DefaultHashValue : Vector UInt32 w
  compress : Vector UInt32 w → List UInt8 → Vector UInt32 w
  wordBytes : UInt32 → List UInt8
  lengthBytes : UInt64 → List UInt8
  length_wordBytes : ∀ x, (wordBytes x).length = 4
  length_lengthBytes : ∀ x, (lengthBytes x).length = 8

def ROTR32 (x n : UInt32) : UInt32 := (x >>> n) ||| (x <<< (32 - n))

def ROTL32 (x n : UInt32) : UInt32 := (x <<< n) ||| (x >>> (32 - n))

def Ch (x y z : UInt32) : UInt32 := (x &&& y) ^^^ (~~~x &&& z)

def Maj (x y z : UInt32) : UInt32 := (x &&& y) ^^^ (x &&& z) ^^^ (y &&& z)

def Parity (x y z : UInt32) : UInt32 := x ^^^ y ^^^ z

def littleWord (bs : List UInt8) : UInt32 := bs.foldr (fun b x => x <<< 8 ||| b.toUInt32) 0

def littleBytes (n : Nat) (x : UInt64) : List UInt8 :=
  (List.range n).map fun i => (x >>> UInt64.ofNat (8 * i)).toUInt8

/-- `cpu2be32`: the words of a block that is read with the high byte of each one first. -/
def bigWords (Block : List UInt8) : List UInt32 :=
  (List.range 16).map fun i => littleWord ((Block.drop (4 * i)).take 4).reverse

def littleWords (Block : List UInt8) : List UInt32 :=
  (List.range 16).map fun i => littleWord ((Block.drop (4 * i)).take 4)

def bigBytes (n : Nat) (x : UInt64) : List UInt8 := (littleBytes n x).reverse

abbrev Sha1State := UInt32 × UInt32 × UInt32 × UInt32 × UInt32

def Sha1State.words : Sha1State → Vector UInt32 5
  | (a, b, c, d, e) => #v[a, b, c, d, e]

/-- From the 16 words of a block on, each word follows from those before it. -/
def sha1Schedule (W : List UInt32) : List UInt32 :=
  (List.range' 16 64).foldl (fun W i => W ++ [ROTL32 (W.getD (i - 3) 0 ^^^ W.getD (i - 8) 0 ^^^
    W.getD (i - 14) 0 ^^^ W.getD (i - 16) 0) 1]) W

def sha1Round (f : UInt32 → UInt32 → UInt32 → UInt32) (K : UInt32) :
    Sha1State → UInt32 → Sha1State
  | (a, b, c, d, e), W => (ROTL32 a 5 + f b c d + e + K + W, a, ROTL32 b 30, c, d)

def sha1Rounds (W : List UInt32) (s : Sha1State) : Sha1State :=
  let s := (W.take 20).foldl (sha1Round Ch 0x5a827999) s
  let s := ((W.drop 20).take 20).foldl (sha1Round Parity 0x6ed9eba1) s
  let s := ((W.drop 40).take 20).foldl (sha1Round Maj 0x8f1bbcdc) s
  ((W.drop 60).take 20).foldl (sha1Round Parity 0xca62c1d6) s

def sha1Compress (H : Vector UInt32 5) (Block : List UInt8) : Vector UInt32 5 :=
  let h := fun i => H.toList.getD i 0
  H.zipWith (· + ·) (sha1Rounds (sha1Schedule (bigWords Block)) (h 0, h 1, h 2, h 3, h 4)).words

structure Sha256State where
  (a b c d e f g h : UInt32)

def Sha256State.words (s : Sha256State) : Vector UInt32 8 :=
  #v[s.a, s.b, s.c, s.d, s.e, s.f, s.g, s.h]

def SHA256_K : List UInt32 := [
  0x428a2f98, 0x71374491, 0xb5c0fbcf, 0xe9b5dba5, 0x3956c25b, 0x59f111f1, 0x923f82a4, 0xab1c5ed5,
  0xd807aa98, 0x12835b01, 0x243185be, 0x550c7dc3, 0x72be5d74, 0x80deb1fe, 0x9bdc06a7, 0xc19bf174,
  0xe49b69c1, 0xefbe4786, 0x0fc19dc6, 0x240ca1cc, 0x2de92c6f, 0x4a7484aa, 0x5cb0a9dc, 0x76f988da,
  0x983e5152, 0xa831c66d, 0xb00327c8, 0xbf597fc7, 0xc6e00bf3, 0xd5a79147, 0x06ca6351, 0x14292967,
  0x27b70a85, 0x2e1b2138, 0x4d2c6dfc, 0x53380d13, 0x650a7354, 0x766a0abb, 0x81c2c92e, 0x92722c85,
  0xa2bfe8a1, 0xa81a664b, 0xc24b8b70, 0xc76c51a3, 0xd192e819, 0xd6990624, 0xf40e3585, 0x106aa070,
  0x19a4c116, 0x1e376c08, 0x2748774c, 0x34b0bcb5, 0x391c0cb3, 0x4ed8aa4a, 0x5b9cca4f, 0x682e6ff3,
  0x748f82ee, 0x78a5636f, 0x84c87814, 0x8cc70208, 0x90befffa, 0xa4506ceb, 0xbef9a3f7, 0xc67178f2]

def Zsigma_256_0 (x : UInt32) : UInt32 := ROTR32 x 2 ^^^ ROTR32 x 13 ^^^ ROTR32 x 22

def Zsigma_256_1 (x : UInt32) : UInt32 := ROTR32 x 6 ^^^ ROTR32 x 11 ^^^ ROTR32 x 25

def Sigma_256_0 (x : UInt32) : UInt32 := ROTR32 x 7 ^^^ ROTR32 x 18 ^^^ x >>> 3

def Sigma_256_1 (x : UInt32) : UInt32 := ROTR32 x 17 ^^^ ROTR32 x 19 ^^^ x >>> 10

/-- One turn: the schedule is made as it is needed. -/
def sha256Round : List UInt32 × Sha256State → Nat → List UInt32 × Sha256State
  | (W, s), t =>
    let W := if 15 < t then
        W ++ [Sigma_256_1 (W.getD (t - 2) 0) + W.getD (t - 7) 0 + Sigma_256_0 (W.getD (t - 15) 0) +
          W.getD (t - 16) 0]
      else W
    let T1 := s.h + Zsigma_256_1 s.e + Ch s.e s.f s.g + SHA256_K.getD t 0 + W.getD t 0
    let T2 := Zsigma_256_0 s.a + Maj s.a s.b s.c
    (W, ⟨T1 + T2, s.a, s.b, s.c, s.d + T1, s.e, s.f, s.g⟩)

def sha256Compress (H : Vector UInt32 8) (Block : List UInt8) : Vector UInt32 8 :=
  let h := fun i => H.toList.getD i 0
  let s := ((List.range 64).foldl sha256Round
    (bigWords Block, ⟨h 0, h 1, h 2, h 3, h 4, h 5, h 6, h 7⟩)).2
  H.zipWith (· + ·) s.words

abbrev Md5State := UInt32 × UInt32 × UInt32 × UInt32

def Md5State.words : Md5State → Vector UInt32 4
  | (a, b, c, d) => #v[a, b, c, d]

def MD5_F (x y z : UInt32) : UInt32 := (x &&& y) ||| (~~~x &&& z)

def MD5_G (x y z : UInt32) : UInt32 := (x &&& z) ||| (y &&& ~~~z)

def MD5_I (x y z : UInt32) : UInt32 := y ^^^ (x ||| ~~~z)

/-- `ROUND1` to `ROUND4`, which give the four words new names from one to the next. -/
def md5Round (f : UInt32 → UInt32 → UInt32 → UInt32) (X : List UInt32) :
    Md5State → Nat × UInt32 × UInt32 → Md5State
  | (a, b, c, d), (k, s, ac) => (d, ROTL32 (a + (f b c d + X.getD k 0 + ac)) s + b, b, c)

/-- What `ROUND1` is called with: the word, the rotation and the constant. -/
def ROUND1 : List (Nat × UInt32 × UInt32) := [
  (0, 7, 0xd76aa478), (1, 12, 0xe8c7b756), (2, 17, 0x242070db), (3, 22, 0xc1bdceee),
  (4, 7, 0xf57c0faf), (5, 12, 0x4787c62a), (6, 17, 0xa8304613), (7, 22, 0xfd469501),
  (8, 7, 0x698098d8), (9, 12, 0x8b44f7af), (10, 17, 0xffff5bb1), (11, 22, 0x895cd7be),
  (12, 7, 0x6b901122), (13, 12, 0xfd987193), (14, 17, 0xa679438e), (15, 22, 0x49b40821)]

def ROUND2 : List (Nat × UInt32 × UInt32) := [
  (1, 5, 0xf61e2562), (6, 9, 0xc040b340), (11, 14, 0x265e5a51), (0, 20, 0xe9b6c7aa),
  (5, 5, 0xd62f105d), (10, 9, 0x2441453), (15, 14, 0xd8a1e681), (4, 20, 0xe7d3fbc8),
  (9, 5, 0x21e1cde6), (14, 9, 0xc33707d6), (3, 14, 0xf4d50d87), (8, 20, 0x455a14ed),
  (13, 5, 0xa9e3e905), (2, 9, 0xfcefa3f8), (7, 14, 0x676f02d9), (12, 20, 0x8d2a4c8a)]

def ROUND3 : List (Nat × UInt32 × UInt32) := [
  (5, 4, 0xfffa3942), (8, 11, 0x8771f681), (11, 16, 0x6d9d6122), (14, 23, 0xfde5380c),
  (1, 4, 0xa4beea44), (4, 11, 0x4bdecfa9), (7, 16, 0xf6bb4b60), (10, 23, 0xbebfbc70),
  (13, 4, 0x289b7ec6), (0, 11, 0xeaa127fa), (3, 16, 0xd4ef3085), (6, 23, 0x4881d05),
  (9, 4, 0xd9d4d039), (12, 11, 0xe6db99e5), (15, 16, 0x1fa27cf8), (2, 23, 0xc4ac5665)]

def ROUND4 : List (Nat × UInt32 × UInt32) := [
  (0, 6, 0xf4292244), (7, 10, 0x432aff97), (14, 15, 0xab9423a7), (5, 21, 0xfc93a039),
  (12, 6, 0x655b59c3), (3, 10, 0x8f0ccc92), (10, 15, 0xffeff47d), (1, 21, 0x85845dd1),
  (8, 6, 0x6fa87e4f), (15, 10, 0xfe2ce6e0), (6, 15, 0xa3014314), (13, 21, 0x4e0811a1),
  (4, 6, 0xf7537e82), (11, 10, 0xbd3af235), (2, 15, 0x2ad7d2bb), (9, 21, 0xeb86d391)]

def md5Compress (H : Vector UInt32 4) (Block : List UInt8) : Vector UInt32 4 :=
  let h := fun i => H.toList.getD i 0
  let X := littleWords Block
  let s := ROUND1.foldl (md5Round MD5_F X) (h 0, h 1, h 2, h 3)
  let s := ROUND2.foldl (md5Round MD5_G X) s
  let s := ROUND3.foldl (md5Round Parity X) s
  H.zipWith (· + ·) (ROUND4.foldl (md5Round MD5_I X) s).words

def SHA1 : HashFunction 5 where
  DefaultHashValue := #v[0x67452301, 0xefcdab89, 0x98badcfe, 0x10325476, 0xc3d2e1f0]
  compress := sha1Compress
  wordBytes := fun x => bigBytes 4 x.toUInt64
  lengthBytes := bigBytes 8
  length_wordBytes := fun _ => rfl
  length_lengthBytes := fun _ => rfl

def SHA256 : HashFunction 8 where
  DefaultHashValue := #v[0x6a09e667, 0xbb67ae85, 0x3c6ef372, 0xa54ff53a, 0x510e527f, 0x9b05688c,
    0x1f83d9ab, 0x5be0cd19]
  compress := sha256Compress
  wordBytes := fun x => bigBytes 4 x.toUInt64
  lengthBytes := bigBytes 8
  length_wordBytes := fun _ => rfl
  length_lengthBytes := fun _ => rfl

def MD5 : HashFunction 4 where
  DefaultHashValue := #v[0x67452301, 0xefcdab89, 0x98badcfe, 0x10325476]
  compress := md5Compress
  wordBytes := fun x => littleBytes 4 x.toUInt64
  lengthBytes := littleBytes 8
  length_wordBytes := fun _ => rfl
  length_lengthBytes := fun _ => rfl

/-- The counts are held in 64 and in 32 bits. -/
structure CTX_STRUC (w : Nat) where
  HashValue : Vector UInt32 w
  MessageLen : UInt64
  Block : Store
  BlockLen : Nat

namespace HashFunction

variable {w : Nat} (H : HashFunction w)

def Init : CTX_STRUC w := ⟨H.DefaultHashValue, 0, fun _ => 0, 0⟩

def Hash (c : CTX_STRUC w) : CTX_STRUC w :=
  { c with
    HashValue := H.compress c.HashValue (readBytes c.Block 0 64)
    Block := fun _ => 0
    BlockLen := 0 }

/-- What is left of a message is taken into the block, which is 64 bytes long. -/
def appendLoop (c : CTX_STRUC w) (Message : List UInt8) : Option (CTX_STRUC w) :=
  if Message = [] then some c
  else if (c.BlockLen + Message.length) % 2 ^ 32 < 64 then do
    let Block ← save 64 c.Block c.BlockLen Message
    return { c with Block := Block, BlockLen := c.BlockLen + Message.length }
  else do
    let Block ← save 64 c.Block c.BlockLen (Message.take (64 - c.BlockLen))
    appendLoop (H.Hash { c with Block := Block, BlockLen := 64 }) (Message.drop (64 - c.BlockLen))
termination_by (Message.length, c.BlockLen)
decreasing_by
  rename_i hne _
  have hpos : 0 < Message.length := List.length_pos_iff.mpr hne
  rw [List.length_drop]
  rcases Nat.lt_or_ge c.BlockLen 64 with hlt | hge
  · exact Prod.Lex.left _ _ (by omega)
  · rw [Nat.sub_eq_zero_of_le hge, Nat.sub_zero]
    exact Prod.Lex.right _ (by show 0 < _; omega)

def Append (c : CTX_STRUC w) (Message : List UInt8) : Option (CTX_STRUC w) := do
  let c ← H.appendLoop c Message
  return { c with MessageLen := c.MessageLen + UInt64.ofNat Message.length }

def End (c : CTX_STRUC w) : Option (List UInt8) := do
  let Block ← save 64 c.Block c.BlockLen [0x80]
  let c := { c with Block := Block }
  let c := if 55 < c.BlockLen then H.Hash c else c
  let Block ← save 64 c.Block 56 (H.lengthBytes (c.MessageLen * 8))
  return (H.Hash { c with Block := Block }).HashValue.toList.flatMap H.wordBytes

def digestOf (Message : List UInt8) : Option (List UInt8) := do
  let c ← H.Append H.Init Message
  H.End c

def keyedDigest (K0 Message : List UInt8) : Option (List UInt8) := do
  let c ← H.Append H.Init K0
  let c ← H.Append c Message
  H.End c

/-- `RT_HMAC_*`: a key that is longer than a block is replaced by its digest. -/
def HMAC (Key Message : List UInt8) (MACLen : Nat) : Option (List UInt8) := do
  let K0 ← (if Key.length ≤ 64 then some Key else H.digestOf Key)
  let K0 := (K0 ++ List.replicate (64 - K0.length) 0).map (· ^^^ 0x36)
  let Digest ← H.keyedDigest K0 Message
  let K0 := K0.map (· ^^^ (0x36 ^^^ 0x5c))
  let Digest ← H.keyedDigest K0 Digest
  return if 4 * w < MACLen then Digest else Digest.take MACLen

end HashFunction

def RT_SHA1_Init : CTX_STRUC 5 := SHA1.Init
def RT_SHA1_Append : CTX_STRUC 5 → List UInt8 → Option (CTX_STRUC 5) := SHA1.Append
def RT_SHA1_End : CTX_STRUC 5 → Option (List UInt8) := SHA1.End
def RT_SHA1 : List UInt8 → Option (List UInt8) := SHA1.digestOf
def RT_HMAC_SHA1 : List UInt8 → List UInt8 → Nat → Option (List UInt8) := SHA1.HMAC

def RT_SHA256_Init : CTX_STRUC 8 := SHA256.Init
def RT_SHA256_Append : CTX_STRUC 8 → List UInt8 → Option (CTX_STRUC 8) := SHA256.Append
def RT_SHA256_End : CTX_STRUC 8 → Option (List UInt8) := SHA256.End
def RT_SHA256 : List UInt8 → Option (List UInt8) := SHA256.digestOf
def RT_HMAC_SHA256 : List UInt8 → List UInt8 → Nat → Option (List UInt8) := SHA256.HMAC

def RT_MD5_Init : CTX_STRUC 4 := MD5.Init
def RT_MD5_Append : CTX_STRUC 4 → List UInt8 → Option (CTX_STRUC 4) := MD5.Append
def RT_MD5_End : CTX_STRUC 4 → Option (List UInt8) := MD5.End
def RT_MD5 : List UInt8 → Option (List UInt8) := MD5.digestOf
def RT_HMAC_MD5 : List UInt8 → List UInt8 → Nat → Option (List UInt8) := MD5.HMAC

end Ralink.Crypt
