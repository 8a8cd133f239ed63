import RegisterMachine.Bytes

/-!
# SHA-256

The 256-bit digest by which programs are told apart: the message is padded to blocks of 64 bytes,
and each block changes eight words through 64 rounds.
-/

namespace RegisterMachine.Digest

/-- The round constants. -/
def sha256Constants : Array UInt32 := #[
  0x428a2f98, 0x71374491, 0xb5c0fbcf, 0xe9b5dba5, 0x3956c25b, 0x59f111f1, 0x923f82a4, 0xab1c5ed5,
  0xd807aa98, 0x12835b01, 0x243185be, 0x550c7dc3, 0x72be5d74, 0x80deb1fe, 0x9bdc06a7, 0xc19bf174,
  0xe49b69c1, 0xefbe4786, 0x0fc19dc6, 0x240ca1cc, 0x2de92c6f, 0x4a7484aa, 0x5cb0a9dc, 0x76f988da,
  0x983e5152, 0xa831c66d, 0xb00327c8, 0xbf597fc7, 0xc6e00bf3, 0xd5a79147, 0x06ca6351, 0x14292967,
  0x27b70a85, 0x2e1b2138, 0x4d2c6dfc, 0x53380d13, 0x650a7354, 0x766a0abb, 0x81c2c92e, 0x92722c85,
  0xa2bfe8a1, 0xa81a664b, 0xc24b8b70, 0xc76c51a3, 0xd192e819, 0xd6990624, 0xf40e3585, 0x106aa070,
  0x19a4c116, 0x1e376c08, 0x2748774c, 0x34b0bcb5, 0x391c0cb3, 0x4ed8aa4a, 0x5b9cca4f, 0x682e6ff3,
  0x748f82ee, 0x78a5636f, 0x84c87814, 0x8cc70208, 0x90befffa, 0xa4506ceb, 0xbef9a3f7, 0xc67178f2]

/-- The eight words that the digest is made of. -/
structure Sha256State where
  a : UInt32
  b : UInt32
  c : UInt32
  d : UInt32
  e : UInt32
  f : UInt32
  g : UInt32
  h : UInt32

namespace Sha256State

/-- The words before the first block. -/
def start : Sha256State :=
  ⟨0x6a09e667, 0xbb67ae85, 0x3c6ef372, 0xa54ff53a, 0x510e527f, 0x9b05688c, 0x1f83d9ab, 0x5be0cd19⟩

/-- The words added one by one. -/
def add (s t : Sha256State) : Sha256State :=
  ⟨s.a + t.a, s.b + t.b, s.c + t.c, s.d + t.d, s.e + t.e, s.f + t.f, s.g + t.g, s.h + t.h⟩

def words (s : Sha256State) : List UInt32 := [s.a, s.b, s.c, s.d, s.e, s.f, s.g, s.h]

end Sha256State

/-- Rotates to the right. -/
def rotateRight (x : UInt32) (n : UInt32) : UInt32 := (x >>> n) ||| (x <<< (32 - n))

/-- One round, with a word of the schedule and a constant. -/
def sha256Round (s : Sha256State) (w k : UInt32) : Sha256State :=
  let s₁ := rotateRight s.e 6 ^^^ rotateRight s.e 11 ^^^ rotateRight s.e 25
  let choice := (s.e &&& s.f) ^^^ (~~~s.e &&& s.g)
  let t₁ := s.h + s₁ + choice + k + w
  let s₀ := rotateRight s.a 2 ^^^ rotateRight s.a 13 ^^^ rotateRight s.a 22
  let majority := (s.a &&& s.b) ^^^ (s.a &&& s.c) ^^^ (s.b &&& s.c)
  ⟨t₁ + s₀ + majority, s.a, s.b, s.c, s.d + t₁, s.e, s.f, s.g⟩

/-- The 64 words that a block gives. -/
def sha256Schedule (block : Bytes) : Array UInt32 :=
  let first := (Array.range 16).map fun i =>
    UInt32.ofNat (Bytes.ofBigEndian ((block.drop (4 * i)).take 4))
  (List.range 48).foldl (fun w i =>
    let at' (j : Nat) := w.getD (i + j) 0
    let x := at' 1
    let y := at' 14
    let s₀ := rotateRight x 7 ^^^ rotateRight x 18 ^^^ (x >>> 3)
    let s₁ := rotateRight y 17 ^^^ rotateRight y 19 ^^^ (y >>> 10)
    w.push (at' 0 + s₀ + at' 9 + s₁)) first

/-- The words after a block. -/
def sha256Block (s : Sha256State) (block : Bytes) : Sha256State :=
  let w := sha256Schedule block
  s.add ((List.range 64).foldl
    (fun s i => sha256Round s (w.getD i 0) (sha256Constants.getD i 0)) s)

/-- The message with its padding: a one bit, zeros, and the length in bits. -/
def sha256Padded (message : Bytes) : Bytes :=
  let zeros := (119 - message.length % 64) % 64
  message ++ 0x80 :: (List.replicate zeros 0 ++ Bytes.bigEndian 8 (8 * message.length))

/-- The digest of a message, 32 bytes. -/
def sha256 (message : Bytes) : Bytes :=
  let padded := sha256Padded message
  let final := (List.range (padded.length / 64)).foldl
    (fun s i => sha256Block s ((padded.drop (64 * i)).take 64)) Sha256State.start
  final.words.flatMap fun w => Bytes.bigEndian 4 w.toNat

end RegisterMachine.Digest
