import RegisterMachine.Bytes

/-!
# XXH3

The 64-bit hash by which native functions are known. Short inputs are mixed at once, inputs of up to
240 bytes sixteen bytes at a time, and longer ones in stripes of 64 bytes into eight lanes.
-/

namespace RegisterMachine.Digest

/-- The fixed bytes that inputs are mixed with. -/
def xxh3Secret : Bytes := [
  0xb8, 0xfe, 0x6c, 0x39, 0x23, 0xa4, 0x4b, 0xbe, 0x7c, 0x01, 0x81, 0x2c, 0xf7, 0x21, 0xad, 0x1c,
  0xde, 0xd4, 0x6d, 0xe9, 0x83, 0x90, 0x97, 0xdb, 0x72, 0x40, 0xa4, 0xa4, 0xb7, 0xb3, 0x67, 0x1f,
  0xcb, 0x79, 0xe6, 0x4e, 0xcc, 0xc0, 0xe5, 0x78, 0x82, 0x5a, 0xd0, 0x7d, 0xcc, 0xff, 0x72, 0x21,
  0xb8, 0x08, 0x46, 0x74, 0xf7, 0x43, 0x24, 0x8e, 0xe0, 0x35, 0x90, 0xe6, 0x81, 0x3a, 0x26, 0x4c,
  0x3c, 0x28, 0x52, 0xbb, 0x91, 0xc3, 0x00, 0xcb, 0x88, 0xd0, 0x65, 0x8b, 0x1b, 0x53, 0x2e, 0xa3,
  0x71, 0x64, 0x48, 0x97, 0xa2, 0x0d, 0xf9, 0x4e, 0x38, 0x19, 0xef, 0x46, 0xa9, 0xde, 0xac, 0xd8,
  0xa8, 0xfa, 0x76, 0x3f, 0xe3, 0x9c, 0x34, 0x3f, 0xf9, 0xdc, 0xbb, 0xc7, 0xc7, 0x0b, 0x4f, 0x1d,
  0x8a, 0x51, 0xe0, 0x4b, 0xcd, 0xb4, 0x59, 0x31, 0xc8, 0x9f, 0x7e, 0xc9, 0xd9, 0x78, 0x73, 0x64,
  0xea, 0xc5, 0xac, 0x83, 0x34, 0xd3, 0xeb, 0xc3, 0xc5, 0x81, 0xa0, 0xff, 0xfa, 0x13, 0x63, 0xeb,
  0x17, 0x0d, 0xdd, 0x51, 0xb7, 0xf0, 0xda, 0x49, 0xd3, 0x16, 0x55, 0x26, 0x29, 0xd4, 0x68, 0x9e,
  0x2b, 0x16, 0xbe, 0x58, 0x7d, 0x47, 0xa1, 0xfc, 0x8f, 0xf8, 0xb8, 0xd1, 0x7a, 0xd0, 0x31, 0xce,
  0x45, 0xcb, 0x3a, 0x8f, 0x95, 0x16, 0x04, 0x28, 0xaf, 0xd7, 0xfb, 0xca, 0xbb, 0x4b, 0x40, 0x7e]

def prime32₁ : UInt64 := 0x9E3779B1
def prime32₂ : UInt64 := 0x85EBCA77
def prime32₃ : UInt64 := 0xC2B2AE3D
def prime64₁ : UInt64 := 0x9E3779B185EBCA87
def prime64₂ : UInt64 := 0xC2B2AE3D27D4EB4F
def prime64₃ : UInt64 := 0x165667B19E3779F9
def prime64₄ : UInt64 := 0x85EBCA77C2B2AE63
def prime64₅ : UInt64 := 0x27D4EB2F165667C5
def primeMix₁ : UInt64 := 0x165667919E3779F9
def primeMix₂ : UInt64 := 0x9FB21C651E98DF25

/-- The 32-bit word at a place. -/
def word32 (s : Bytes) (i : Nat) : UInt64 := UInt64.ofNat (Bytes.ofLittleEndian ((s.drop i).take 4))

/-- The 64-bit word at a place. -/
def word64 (s : Bytes) (i : Nat) : UInt64 := UInt64.ofNat (Bytes.ofLittleEndian ((s.drop i).take 8))

/-- The word of the secret at a place. -/
def secret64 (i : Nat) : UInt64 := word64 xxh3Secret i

/-- The two halves of the 128-bit product, combined. -/
def foldedProduct (x y : UInt64) : UInt64 :=
  let p := x.toNat * y.toNat
  UInt64.ofNat p ^^^ UInt64.ofNat (p / 2 ^ (64 : Nat))

/-- The bytes of a word in reverse order. -/
def byteSwap (x : UInt64) : UInt64 :=
  UInt64.ofNat (Bytes.ofBigEndian (Bytes.littleEndian 8 x.toNat))

/-- Rotates to the left. -/
def rotateLeft (x n : UInt64) : UInt64 := (x <<< n) ||| (x >>> (64 - n))

/-- The last mix of the shortest inputs. -/
def avalancheShort (h : UInt64) : UInt64 :=
  let h := h ^^^ (h >>> 33)
  let h := h * prime64₂
  let h := h ^^^ (h >>> 29)
  let h := h * prime64₃
  h ^^^ (h >>> 32)

/-- The last mix of longer inputs. -/
def avalanche (h : UInt64) : UInt64 :=
  let h := h ^^^ (h >>> 37)
  let h := h * primeMix₁
  h ^^^ (h >>> 32)

/-- The last mix of inputs of four to eight bytes. -/
def mixWithLength (h length : UInt64) : UInt64 :=
  let h := h ^^^ rotateLeft h 49 ^^^ rotateLeft h 24
  let h := h * primeMix₂
  let h := h ^^^ ((h >>> 35) + length)
  let h := h * primeMix₂
  h ^^^ (h >>> 28)

/-- Sixteen bytes of input mixed with sixteen of the secret. -/
def mixSixteen (s : Bytes) (i k : Nat) : UInt64 :=
  foldedProduct (word64 s i ^^^ secret64 k) (word64 s (i + 8) ^^^ secret64 (k + 8))

/-- The hash of at most sixteen bytes. -/
def hashShort (s : Bytes) (n : Nat) : UInt64 :=
  if n = 0 then avalancheShort (secret64 56 ^^^ secret64 64)
  else if n ≤ 3 then
    let at' (i : Nat) : UInt64 := UInt64.ofNat (s.getD i 0).toNat
    let combined :=
      (at' 0 <<< 16) ||| (at' (n / 2) <<< 24) ||| at' (n - 1) ||| (UInt64.ofNat n <<< 8)
    avalancheShort (combined ^^^ (word32 xxh3Secret 0 ^^^ word32 xxh3Secret 4))
  else if n ≤ 8 then
    let x := word32 s (n - 4) + (word32 s 0 <<< 32)
    mixWithLength (x ^^^ (secret64 8 ^^^ secret64 16)) (UInt64.ofNat n)
  else
    let lo := word64 s 0 ^^^ (secret64 24 ^^^ secret64 32)
    let hi := word64 s (n - 8) ^^^ (secret64 40 ^^^ secret64 48)
    avalanche (UInt64.ofNat n + byteSwap lo + hi + foldedProduct lo hi)

/-- The hash of 17 to 128 bytes: pairs of sixteen bytes from both ends inward. -/
def hashMedium (s : Bytes) (n : Nat) : UInt64 :=
  let pairs := (n - 1) / 32 + 1
  avalanche ((List.range pairs).foldl (fun acc i =>
    acc + mixSixteen s (16 * i) (32 * i) + mixSixteen s (n - 16 * (i + 1)) (32 * i + 16))
    (UInt64.ofNat n * prime64₁))

/-- The hash of 129 to 240 bytes. -/
def hashLarge (s : Bytes) (n : Nat) : UInt64 :=
  let first := (List.range 8).foldl (fun acc i => acc + mixSixteen s (16 * i) (16 * i))
    (UInt64.ofNat n * prime64₁)
  let rest := (List.range (n / 16 - 8)).foldl
    (fun acc i => acc + mixSixteen s (16 * (i + 8)) (16 * i + 3)) (avalanche first)
  avalanche (rest + mixSixteen s (n - 16) 119)

/-- The lanes before the first stripe. -/
def startLanes : Array UInt64 :=
  #[prime32₃, prime64₁, prime64₂, prime64₃, prime64₄, prime32₂, prime64₅, prime32₁]

/-- Adds the stripe at a place to the lanes, with the secret from `k` on. -/
def addStripe (s : Bytes) (i k : Nat) (lanes : Array UInt64) : Array UInt64 :=
  let stripe := (s.drop i).take 64
  (Array.range 8).map fun j =>
    let key : UInt64 := word64 stripe (8 * j) ^^^ secret64 (k + 8 * j)
    let neighbour := word64 stripe (8 * (if j % 2 = 0 then j + 1 else j - 1))
    lanes.getD j 0 + neighbour + (key &&& (0xFFFFFFFF : UInt64)) * (key >>> 32)

/-- Mixes the lanes at the end of a block. -/
def scramble (lanes : Array UInt64) : Array UInt64 :=
  (Array.range 8).map fun j =>
    let x := lanes.getD j 0
    (x ^^^ (x >>> 47) ^^^ secret64 (128 + 8 * j)) * prime32₁

/-- Adds `count` stripes from a place on. -/
def addStripes (s : Bytes) (start count : Nat) (lanes : Array UInt64) : Array UInt64 :=
  (List.range count).foldl (fun lanes i => addStripe s (start + 64 * i) (8 * i) lanes) lanes

/-- The hash of more than 240 bytes. -/
def hashLong (s : Bytes) (n : Nat) : UInt64 :=
  let blocks := (n - 1) / 1024
  let lanes := (List.range blocks).foldl
    (fun lanes b => scramble (addStripes s (1024 * b) 16 lanes)) startLanes
  let lanes := addStripes s (1024 * blocks) ((n - 1 - 1024 * blocks) / 64) lanes
  let lanes := addStripe s (n - 64) 121 lanes
  avalanche ((List.range 4).foldl (fun acc i =>
    acc + foldedProduct (lanes.getD (2 * i) 0 ^^^ secret64 (11 + 16 * i))
      (lanes.getD (2 * i + 1) 0 ^^^ secret64 (19 + 16 * i))) (UInt64.ofNat n * prime64₁))

/-- The hash of a byte string. -/
def xxh3 (s : Bytes) : UInt64 :=
  let n := s.length
  if n ≤ 16 then hashShort s n
  else if n ≤ 128 then hashMedium s n
  else if n ≤ 240 then hashLarge s n
  else hashLong s n

end RegisterMachine.Digest
