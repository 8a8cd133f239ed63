import RegisterMachine.Instruction.Operand

/-!
# Instructions

An instruction is a mnemonic with an operand. It is written as its opcode, which also fixes the
addressing mode, followed by the operand. Streams of instructions are written back to back; the
byte offsets of the single instructions are kept beside them.
-/

namespace RegisterMachine

/-- One instruction. -/
structure Instruction where
  mnemonic : Mnemonic
  operand : Operand
  deriving DecidableEq, Inhabited

namespace Instruction

/-- The addressing mode of the operand. -/
def mode (i : Instruction) : Mode := i.operand.mode

/-- Whether the mnemonic supports the operand's mode. -/
def isLegal (i : Instruction) : Bool := i.mnemonic.supports i.mode

/-- The error of an instruction whose mnemonic does not support its mode. -/
def unsupported (i : Instruction) : CodecError :=
  .malformed (.unsupported (UInt8.ofNat i.mnemonic.number) (UInt8.ofNat (Mode.all.idxOf i.mode)))

/-- The instruction in assembler form. -/
def text (i : Instruction) : Bytes :=
  match i.operand with
  | .implicit => utf8 i.mnemonic.name
  | op => utf8 i.mnemonic.name ++ utf8 " " ++ op.text

/-- The size of the written instruction. -/
def size (arch : Arch) (i : Instruction) : Nat := 1 + i.operand.size arch

/-- The bytes of an instruction. -/
def encode (arch : Arch) (i : Instruction) : Except CodecError Bytes :=
  match Opcode.encode? i.mnemonic i.mode with
  | none => .error i.unsupported
  | some op =>
    match i.operand.encode arch with
    | .error e => .error (.inside (.encoding i.text) e)
    | .ok bs => .ok (op :: bs)

/-- Reads one instruction; errors are reported where it starts. -/
def decode (arch : Arch) (c : Cursor) : ReadResult Instruction :=
  match c.rest with
  | [] => c.fail (.truncated (.opcode c.pos))
  | op :: _ =>
    match Opcode.decode? op with
    | none => c.fail (.inside (.byte c.pos) (.malformed (.opcode op)))
    | some (m, mode) =>
      match Operand.decode arch mode (c.skip 1) with
      | .error e => c.fail (.inside (.operand c.pos m) e.error)
      | .ok (operand, next) => .ok (⟨m, operand⟩, next)

/-- The bytes of instructions back to back, with the offset of each; `index` and `offset` count what
came before. -/
def encodeFrom (arch : Arch) (index offset : Nat) :
    List Instruction → Except CodecError (Bytes × List Nat)
  | [] => .ok ([], [])
  | i :: is =>
    match i.encode arch with
    | .error e => .error (.inside (.instruction index) e)
    | .ok bs =>
      match encodeFrom arch (index + 1) (offset + bs.length) is with
      | .error e => .error e
      | .ok (code, offsets) => .ok (bs ++ code, offset :: offsets)

/-- The bytes of instructions back to back, with the byte offset of each. -/
def encodeAll (arch : Arch) (is : List Instruction) : Except CodecError (Bytes × List Nat) :=
  encodeFrom arch 0 0 is

/-- Reads `count` instructions with their offsets from `base`; `index` counts those before. -/
def decodeFrom (arch : Arch) (base : Nat) : Nat → Nat → Cursor →
    ReadResult (List (Instruction × Nat))
  | _, 0, c => .ok ([], c)
  | index, count + 1, c =>
    match decode arch c with
    | .error e => c.fail (.inside (.instruction index) e.error)
    | .ok (i, next) =>
      match decodeFrom arch base (index + 1) count next with
      | .error e => .error e
      | .ok (is, last) => .ok ((i, c.pos - base) :: is, last)

/-- Reads exactly `count` instructions, each with its byte offset. -/
def decodeAll (arch : Arch) (count : Nat) (c : Cursor) : ReadResult (List (Instruction × Nat)) :=
  decodeFrom arch c.pos 0 count c

/-- How many instructions there can be room for. -/
def maxCount : Nat := 2 ^ (40 : Nat)

/-- Reads `count` instructions at a position of some data, and tells the position reached. None are
read at any position; fewer than none and more than there can be room for are not read at all. -/
def readAllAt? (arch : Arch) (count : Int) (data : Bytes) (pos : Int) :
    Option (Int × Except CodecError (List (Instruction × Nat))) :=
  if count < 0 ∨ maxCount < count then none
  else if count = 0 then some (pos, .ok [])
  else readAt? (decodeAll arch count.toNat) data pos

end Instruction

end RegisterMachine
