import RegisterMachine.Bytes
import RegisterMachine.Text.Utf8

/-!
# Binary objects

The data model of the concise binary object format: numbers, byte and text strings, arrays, maps,
tags, simple values and floating point numbers. `encode` writes the canonical form, with the
shortest heads and definite lengths; maps are written in the order of their entries, so whoever
builds a map puts shorter keys first and keys of one length in byte order.
-/

namespace RegisterMachine

/-- A data item. -/
inductive Cbor where
  | unsigned (n : Nat)
  /-- The number `-1 - n`. -/
  | negative (n : Nat)
  | bytes (b : Bytes)
  /-- A text string in the pieces that it was written in. -/
  | text (chunks : List Bytes)
  | array (items : List Cbor)
  | map (entries : List (Cbor × Cbor))
  | tag (number : Nat) (item : Cbor)
  | simple (n : Nat)
  /-- A floating point number of 2, 4 or 8 bytes. -/
  | float (size : Nat) (bits : Nat)
  deriving Inhabited

namespace Cbor

def null : Cbor := simple 22

/-- A text string in one piece. -/
def ofText (s : Bytes) : Cbor := text [s]

/-- A signed number. -/
def ofInt : Int → Cbor
  | .ofNat n => unsigned n
  | .negSucc n => negative n

/-- The first byte of an item and the shortest form of its number. -/
def head (major n : Nat) : Bytes :=
  let start (info : Nat) : UInt8 := UInt8.ofNat (32 * major + info)
  if n < 24 then [start n]
  else if n < 256 then start 24 :: Bytes.bigEndian 1 n
  else if n < 65536 then start 25 :: Bytes.bigEndian 2 n
  else if n < 4294967296 then start 26 :: Bytes.bigEndian 4 n
  else start 27 :: Bytes.bigEndian 8 n

mutual

/-- The canonical form of an item. -/
def encode : Cbor → Bytes
  | unsigned n => head 0 n
  | negative n => head 1 n
  | bytes b => head 2 b.length ++ b
  | text chunks => head 3 chunks.flatten.length ++ chunks.flatten
  | array items => head 4 items.length ++ encodeAll items
  | map entries => head 5 entries.length ++ encodeEntries entries
  | tag n item => head 6 n ++ encode item
  | simple n => head 7 n
  | float size bits =>
    UInt8.ofNat (if size = 2 then 249 else if size = 4 then 250 else 251) ::
      Bytes.bigEndian size bits

/-- The canonical forms of items one after the other. -/
def encodeAll : List Cbor → Bytes
  | [] => []
  | x :: xs => encode x ++ encodeAll xs

/-- The canonical forms of the entries of a map one after the other. -/
def encodeEntries : List (Cbor × Cbor) → Bytes
  | [] => []
  | (k, v) :: rest => encode k ++ encode v ++ encodeEntries rest

end

end Cbor

end RegisterMachine
