import RegisterMachine.Cbor.Record
import RegisterMachine.Program.Basic

/-!
# Program files

A program file starts with a mark, a version, the architecture and whether there is a main function;
then come the entry point and the number of instructions as addresses, the instructions, and a
trailer with the native calls, whose size stands in front of it.
-/

namespace RegisterMachine.Program

/-- The mark at the start of a program file. -/
def magic : Bytes := utf8 "RGVM"

/-- The version of the file format. -/
def fileVersion : Nat := 1

/-- A native call as a data item, the shorter keys first. -/
def nativeItem (n : NativeCall) : Cbor :=
  .map [
    (.ofText (utf8 "hash"), .unsigned n.hash.toNat),
    (.ofText (utf8 "name"), .ofText n.name),
    (.ofText (utf8 "site"), .unsigned n.site.toNat),
    (.ofText (utf8 "module"), .ofText n.module)]

/-- Reads a native call. -/
def readNative : Cbor.Reader NativeCall :=
  Cbor.readRecord [
    Cbor.field (.name "site") (Cbor.readNat (2 ^ (64 : Nat) - 1)) fun v n =>
      { n with site := UInt64.ofNat v },
    Cbor.field (.name "module") Cbor.readText fun v n => { n with module := v },
    Cbor.field (.name "hash") (Cbor.readNat (2 ^ (64 : Nat) - 1)) fun v n =>
      { n with hash := UInt64.ofNat v },
    Cbor.field (.name "name") Cbor.readText fun v n => { n with name := v }] ⟨0, [], 0, []⟩

/-- The trailer of a program file. -/
def trailer (natives : List NativeCall) : Bytes := (Cbor.array (natives.map nativeItem)).encode

/-- Reads the trailer of a program file. -/
def readTrailer (s : Bytes) : Except CodecError (List NativeCall) :=
  match Cbor.decode? s with
  | none => .error (.malformed .trailer)
  | some x => (Cbor.readList readNative x).mapError fun _ => .malformed .trailer

/-- The numbers in the head of a program file. -/
def headNumbers (p : Program) : List Nat :=
  [p.entry.start.toNat, p.entry.stop.toNat, p.entry.hash.toNat, p.length]

/-- The file of a program. -/
def serialize (p : Program) : Except CodecError Bytes := do
  if !p.arch.isSupported then throw (.malformed (.arch p.arch.byte))
  let numbers ← (p.headNumbers.mapM p.arch.encodeAddress).mapError (.inside .header)
  let (code, _) ← Instruction.encodeAll p.arch p.instructions.toList
  let tail := trailer p.natives
  return magic ++ Bytes.littleEndian 2 fileVersion ++ [p.arch.byte, if p.mainExists then 1 else 0]
    ++ numbers.flatten ++ code ++ Bytes.littleEndian 4 tail.length ++ tail

/-- Reads what follows the instructions: the trailer with its size, and nothing more. -/
def readTail (c : Cursor) : Except CodecError (List NativeCall) :=
  match c.take? 4 with
  | none => .error (.truncated .trailerLength)
  | some (n, c) =>
    match c.take? (Bytes.ofLittleEndian n) with
    | none => .error (.truncated .trailer)
    | some (tail, c) => do
      let natives ← readTrailer tail
      if !c.rest.isEmpty then throw (.malformed (.afterProgram c.rest.length))
      return natives

/-- Reads a program file after its fixed head. -/
def readBody (arch : Arch) (mainExists : Bool) (c : Cursor) : Except CodecError Program := do
  let ((numbers, c) : List Nat × Cursor) ←
    (readMany arch.decodeAddress 4 c).mapError fun e => .inside .header e.error
  let count := numbers.getD 3 0
  if c.rest.length < count then throw (.truncated (.instructions count c.rest.length))
  let (code, c) ← (Instruction.decodeAll arch count c).mapError (·.error)
  let natives ← readTail c
  let p : Program :=
    { arch
      mainExists
      entry := ⟨UInt64.ofNat (numbers.getD 0 0), UInt64.ofNat (numbers.getD 1 0),
        UInt64.ofNat (numbers.getD 2 0)⟩
      instructions := (code.map (·.1)).toArray
      offsets := (code.map (·.2)).toArray
      natives := sortNatives natives }
  match p.validate with
  | .error f => throw (.inconsistentFile f)
  | .ok () => return p

/-- The program in a file. -/
def deserialize (data : Bytes) : Except CodecError Program :=
  match data with
  | m₀ :: m₁ :: m₂ :: m₃ :: v₀ :: v₁ :: archByte :: main :: _ =>
    let version := Bytes.ofLittleEndian [v₀, v₁]
    if [m₀, m₁, m₂, m₃] ≠ magic then .error (.malformed (.magic [m₀, m₁, m₂, m₃]))
    else if version ≠ fileVersion then .error (.malformed (.version version fileVersion))
    else if !(Arch.mk archByte).isSupported then .error (.malformed (.arch archByte))
    else readBody ⟨archByte⟩ (main = 1) (.ofBytes data 8)
  | _ => .error (.truncated (.fileHead data.length))

end RegisterMachine.Program
