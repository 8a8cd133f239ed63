import RegisterMachine.Cursor

/-!
# The binary form of values

A value is written as its tag and its payload: numbers in little-endian order with an integer's
width in front, strings and arrays with their length in front, array elements as tagged values.
`decode` reads a tagged value at a cursor and `ofBinary` a byte string that holds nothing else;
`decodePayload` reads a payload whose kind is known and that must be used up.
-/

namespace RegisterMachine

namespace Kind

/-- The payload size of kinds that have a fixed one. -/
def payloadSize? : Kind → Option Nat
  | void | null => some 0
  | byte | bool => some 1
  | float | char => some 4
  | double | function | stackRef | heapRef => some 8
  | int | string | array => none

end Kind

namespace Value

open Bytes (littleEndian ofLittleEndian)

mutual

/-- The payload of a value, without its tag. -/
def payload : Value → Bytes
  | int w b => UInt8.ofNat w.bits :: littleEndian w.bytes b.toNat
  | byte b => [b]
  | bool b => [if b then 1 else 0]
  | float b => littleEndian 4 b.toNat
  | char c => littleEndian 4 c.toNat
  | double b => littleEndian 8 b.toNat
  | function e => littleEndian 8 e.toNat
  | stackRef s => littleEndian 8 s.toNat
  | heapRef r => littleEndian 8 r.toBits.toNat
  | string s => littleEndian 4 s.length ++ s
  | array es => littleEndian 4 es.length ++ toBinaryAll es
  | void | null => []

/-- The binary forms of array elements, one after the other. -/
def toBinaryAll : List Value → Bytes
  | [] => []
  | v :: vs => (v.kind.tag :: payload v) ++ toBinaryAll vs

end

/-- The binary form of a value. -/
def toBinary (v : Value) : Bytes := v.kind.tag :: v.payload

/-- How deeply encoded arrays may nest. -/
def maxDepth : Nat := 64

/-- Reads a payload of exactly the right size for a kind other than an array. -/
def ofScalarPayload (k : Kind) (p : Bytes) : Except CodecError Value :=
  let sized (n : Nat) (v : Value) : Except CodecError Value :=
    if p.length = n then .ok v else .error (.width (.payload k p.length n))
  match k with
  | .void => sized 0 void
  | .null => sized 0 null
  | .byte => sized 1 (byte (p.headD 0))
  | .bool =>
    if p.length = 1 then
      let b := p.headD 0
      if 1 < b then .error (.malformed (.boolPayload b)) else .ok (bool (b = 1))
    else .error (.width (.payload .bool p.length 1))
  | .float => sized 4 (float (UInt32.ofNat (ofLittleEndian p)))
  | .char => sized 4 (char (UInt32.ofNat (ofLittleEndian p)))
  | .double => sized 8 (double (UInt64.ofNat (ofLittleEndian p)))
  | .function => sized 8 (function (UInt64.ofNat (ofLittleEndian p)))
  | .stackRef => sized 8 (stackRef (UInt64.ofNat (ofLittleEndian p)))
  | .heapRef => sized 8 (heapRef (Ref.ofBits (UInt64.ofNat (ofLittleEndian p))))
  | .int =>
    match p with
    | [] => .error (.width .emptyInteger)
    | b :: digits =>
      match IntWidth.ofBits? b.toNat with
      | none => .error (.malformed (.integerWidth b))
      | some w =>
        if digits.length = w.bytes then .ok (int w (BitVec.ofNat w.bits (ofLittleEndian digits)))
        else .error (.width (.integer w.bits p.length (1 + w.bytes)))
  | .string =>
    if p.length < 4 ∨ ofLittleEndian (p.take 4) ≠ p.length - 4 then .error (.width .stringPayload)
    else .ok (string (p.drop 4))
  | .array => .error (.width .arrayPayload)

/-- The size of the payload of a kind other than an array that starts at a cursor. -/
def payloadSizeAt (k : Kind) (c : Cursor) : Except CodecError Nat :=
  match k.payloadSize? with
  | some n => .ok n
  | none =>
    match k with
    | .int =>
      match c.rest with
      | [] => .error (.truncated .integerWidth)
      | b :: _ =>
        match IntWidth.ofBits? b.toNat with
        | none => .error (.malformed (.integerWidth b))
        | some w => .ok (1 + w.bytes)
    | _ =>
      match c.take? 4 with
      | none => .error (.truncated .stringLength)
      | some (n, _) => .ok (4 + ofLittleEndian n)

/-- Reads the payload of an array at a cursor; `none` for the elements means that arrays may not
nest any deeper. -/
def decodeArrayWith (element : Option (Cursor → ReadResult Value)) (c : Cursor) :
    ReadResult Value :=
  match element with
  | none => c.fail (.malformed (.nestedTooDeep maxDepth))
  | some element =>
    match c.take? 4 with
    | none => c.fail (.truncated .arrayLength)
    | some (n, c) =>
      let count := ofLittleEndian n
      -- Every element takes at least its tag byte.
      if c.rest.length < count then c.fail (.truncated (.arrayElements count))
      else (readMany element count c).map fun (es, c) => (array es, c)

/-- Reads a tagged value at a cursor, with a reader for the elements of an array. -/
def decodeTagged (element : Option (Cursor → ReadResult Value)) (c : Cursor) : ReadResult Value :=
  match c.rest with
  | [] => c.fail (.truncated .valueTag)
  | t :: _ =>
    let c := c.skip 1
    match Kind.ofTag? t with
    | none => c.fail (.malformed (.unknownTag t))
    | some .array => decodeArrayWith element c
    | some k =>
      match payloadSizeAt k c with
      | .error e => c.fail e
      | .ok n =>
        match c.take? n with
        | none => c.fail (.truncated (.payload k))
        | some (p, c) =>
          match ofScalarPayload k p with
          | .error e => c.fail e
          | .ok v => .ok (v, c)

/-- Reads a tagged value in which arrays nest at most `levels` deep. -/
def decodeLevels : Nat → Cursor → ReadResult Value
  | 0 => decodeTagged none
  | levels + 1 => decodeTagged (some (decodeLevels levels))

/-- Reads a tagged value at a cursor. -/
def decode (c : Cursor) : ReadResult Value := decodeLevels maxDepth c

/-- The value whose binary form the byte string is. -/
def ofBinary (data : Bytes) : Except CodecError Value :=
  match decode (.ofBytes data 0) with
  | .error e => .error e.error
  | .ok (v, c) =>
    if c.rest.isEmpty then .ok v else .error (.malformed (.afterValue c.rest.length))

/-- Reads a payload of a known kind, which must be used up. -/
def ofPayload (k : Kind) (p : Bytes) : Except CodecError Value :=
  match k with
  | .array =>
    if p.length < 4 then .error (.width .arrayPayload)
    else match decodeArrayWith (some (decodeLevels (maxDepth - 1))) (.ofBytes p 0) with
      | .error e => .error e.error
      | .ok (v, c) =>
        if c.rest.isEmpty then .ok v else .error (.width (.afterArray c.rest.length))
  | k => ofScalarPayload k p

/-- Reads a payload whose kind is given by its tag. -/
def ofTaggedPayload (tag : UInt8) (p : Bytes) : Except CodecError Value :=
  match Kind.ofTag? tag with
  | none => .error (.malformed (.unknownTag tag))
  | some k => ofPayload k p

end Value

end RegisterMachine
