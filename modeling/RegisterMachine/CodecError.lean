import RegisterMachine.Instruction.Arch
import RegisterMachine.Instruction.Mnemonic
import RegisterMachine.Value.Basic

/-!
# What can be wrong with encoded data

Errors of reading and writing values, operands, instructions and program files. They fall into
three classes: the data ends too early, it is malformed, or a number or payload does not have the
width asked for. A program that is well encoded may still be inconsistent, which is a fourth one.
`CodecError.message` is the wording of each.
-/

namespace RegisterMachine

/-- What was being read when the data ended. -/
inductive Truncation where
  | valueTag
  | payload (kind : Kind)
  | arrayLength
  | arrayElements (count : Nat)
  | integerWidth
  | stringLength
  | address (position : Int)
  | immediateTag
  | immediate (size : Nat)
  | opcode (position : Nat)
  | fileHead (size : Nat)
  | instructions (count left : Nat)
  | trailerLength
  | trailer
  deriving DecidableEq, Inhabited

/-- How data is malformed. -/
inductive Malformation where
  | unknownTag (tag : UInt8)
  | unknownImmediateTag (tag : UInt8)
  | nestedTooDeep (limit : Nat)
  | integerWidth (width : UInt8)
  | boolPayload (payload : UInt8)
  | afterValue (count : Nat)
  | mode (number : UInt8)
  | unsupported (mnemonic : UInt8) (mode : UInt8)
  | opcode (op : UInt8)
  | arch (byte : UInt8)
  | magic (bytes : Bytes)
  | version (found wanted : Nat)
  | trailer
  | afterProgram (count : Nat)
  deriving DecidableEq, Inhabited

/-- How a payload or a number has the wrong width. -/
inductive WidthMismatch where
  | payload (kind : Kind) (found wanted : Nat)
  | emptyInteger
  | integer (bits found wanted : Nat)
  | stringPayload
  | arrayPayload
  | afterArray (count : Nat)
  | address (value : Nat) (arch : Arch)
  deriving DecidableEq, Inhabited

/-- How a program is inconsistent. -/
inductive ProgramFault where
  | entryStart (start count : Nat)
  | entryEnd (stop start : Nat)
  | entryNoHeader (start : Nat) (found : Mnemonic)
  | nativeSite (site : Nat)
  deriving DecidableEq, Inhabited

/-- Where an error was found. -/
inductive CodecContext where
  | byte (position : Nat)
  | operand (position : Nat) (mnemonic : Mnemonic)
  | instruction (index : Nat)
  | encoding (text : Bytes)
  | header
  deriving DecidableEq, Inhabited

/-- An error of reading or writing encoded data. -/
inductive CodecError where
  | truncated (what : Truncation)
  | malformed (how : Malformation)
  | width (how : WidthMismatch)
  | inconsistent (how : ProgramFault)
  /-- An inconsistent program in a file, which makes the file malformed. -/
  | inconsistentFile (how : ProgramFault)
  | inside (context : CodecContext) (error : CodecError)
  deriving DecidableEq, Inhabited

/-- The four categories of errors. -/
inductive CodecError.Category where
  | truncated | malformed | width | inconsistent
  deriving DecidableEq, Inhabited

open Number (decimal decimalInt)

/-- The category of an error, whatever its context. -/
def CodecError.category : CodecError → CodecError.Category
  | truncated _ => .truncated
  | malformed _ => .malformed
  | width _ => .width
  | inconsistent _ => .inconsistent
  | inconsistentFile _ => .malformed
  | inside _ e => e.category

def Truncation.message (t : Truncation) : Bytes :=
  utf8 "unexpected end of program" ++ match t with
    | valueTag => utf8 " reading value tag"
    | payload k => utf8 " reading " ++ utf8 k.name ++ utf8 " payload"
    | arrayLength => utf8 " reading array length"
    | arrayElements n => utf8 " reading " ++ decimal n ++ utf8 " array elements"
    | integerWidth => utf8 " reading integer width"
    | stringLength => utf8 " reading string length"
    | address p => utf8 " reading usize at byte " ++ decimalInt p
    | immediateTag => utf8 " reading immediate tag"
    | immediate n => utf8 " reading " ++ decimal n ++ utf8 " byte immediate"
    | opcode p => utf8 " reading opcode at byte " ++ decimal p
    | fileHead n => utf8 ": program too short: need at least 8 bytes, got " ++ decimal n
    | instructions n left =>
      utf8 ": " ++ decimal n ++ utf8 " instructions declared, " ++ decimal left
        ++ utf8 " bytes left"
    | trailerLength => utf8 " reading trailer length"
    | trailer => utf8 " reading trailer"

def Malformation.message (m : Malformation) : Bytes :=
  utf8 "invalid encoding: " ++ match m with
    | unknownTag t => utf8 "unknown type tag " ++ decimal t.toNat
    | unknownImmediateTag t => utf8 "unknown immediate type tag " ++ decimal t.toNat
    | nestedTooDeep n => utf8 "arrays nested deeper than " ++ decimal n
    | integerWidth w => utf8 "integer width " ++ decimal w.toNat
    | boolPayload b => utf8 "bool payload " ++ decimal b.toNat
    | afterValue n => decimal n ++ utf8 " trailing bytes after value"
    | mode n => utf8 "addressing mode " ++ decimal n.toNat
    | unsupported m n =>
      Mnemonic.numberName m ++ utf8 " does not support " ++ Mode.numberName n
        ++ utf8 " addressing"
    | opcode op => utf8 "unknown opcode " ++ decimal op.toNat
    | arch b => utf8 "unknown architecture byte " ++ decimal b.toNat
    | magic bs => utf8 "invalid magic " ++ Text.quote bs
    | version v w =>
      utf8 "unsupported program version " ++ decimal v ++ utf8 " (want " ++ decimal w ++ utf8 ")"
    | trailer => utf8 "native call trailer"
    | afterProgram n => decimal n ++ utf8 " trailing bytes after program"

def WidthMismatch.message (w : WidthMismatch) : Bytes :=
  utf8 "operand width mismatch: " ++ match w with
    | payload k n m =>
      utf8 k.name ++ utf8 " payload is " ++ decimal n ++ utf8 " bytes, want " ++ decimal m
    | emptyInteger => utf8 "empty integer payload"
    | integer b n m =>
      utf8 "int" ++ decimal b ++ utf8 " payload is " ++ decimal n ++ utf8 " bytes, want "
        ++ decimal m
    | stringPayload => utf8 "string payload length"
    | arrayPayload => utf8 "array payload length"
    | afterArray n => utf8 "array payload has " ++ decimal n ++ utf8 " trailing bytes"
    | address v a => decimal v ++ utf8 " does not fit in " ++ a.name ++ utf8 " usize"

def ProgramFault.message : ProgramFault → Bytes
  | entryStart s n =>
    utf8 "entry start " ++ decimal s ++ utf8 " outside program of " ++ decimal n
      ++ utf8 " instructions"
  | entryEnd e s => utf8 "entry end " ++ decimal e ++ utf8 " invalid for start " ++ decimal s
  | entryNoHeader s m =>
    utf8 "entry " ++ decimal s ++ utf8 " is " ++ utf8 m.name ++ utf8 ", not an FN header"
  | nativeSite s =>
    utf8 "native call trace at " ++ decimal s ++ utf8 " does not point at CALLN"

def CodecContext.message : CodecContext → Bytes
  | byte p => utf8 "byte " ++ decimal p ++ utf8 ": "
  | operand p m =>
    utf8 "byte " ++ decimal p ++ utf8 " (" ++ utf8 m.name ++ utf8 "): "
  | instruction i => utf8 "instruction " ++ decimal i ++ utf8 ": "
  | encoding t => utf8 "encoding " ++ t ++ utf8 ": "
  | header => utf8 "program header: "

/-- The wording of an error. -/
def CodecError.message : CodecError → Bytes
  | truncated t => t.message
  | malformed m => m.message
  | width w => w.message
  | inconsistent f => f.message
  | inconsistentFile f => utf8 "invalid encoding: " ++ f.message
  | inside c e => c.message ++ e.message

end RegisterMachine
