import RegisterMachine.Value.Codec

/-!
# Operands

An operand says where an instruction finds or puts a value. Its written form has no mark for its
mode, which the opcode gives: an immediate value is its tag, the size of its payload and the
payload; an address takes the bytes that the architecture asks for.
-/

namespace RegisterMachine

namespace Arch

/-- The bytes of an address, which has to fit the architecture. -/
def encodeAddress (a : Arch) (v : Nat) : Except CodecError Bytes :=
  if a.maxAddress < v then .error (.width (.address v a))
  else .ok (Bytes.littleEndian a.addressBytes v)

/-- Reads an address at a cursor. -/
def decodeAddress (a : Arch) (c : Cursor) : ReadResult Nat :=
  match c.take? a.addressBytes with
  | none => c.fail (.truncated (.address c.pos))
  | some (bs, c) => .ok (Bytes.ofLittleEndian bs, c)

end Arch

/-- An operand of an instruction. -/
inductive Operand where
  | implicit
  /-- A value written into the instruction. -/
  | immediate (value : Value)
  /-- A slot of the current frame. -/
  | absolute (addr : UInt64)
  /-- An element of what a slot refers to, the index being in another slot. -/
  | index (addr idx : UInt64)
  /-- An element of what a slot refers to, the index being part of the instruction. -/
  | property (addr ordinal : UInt64)
  /-- A slot counted from the bottom of the stack. -/
  | static (addr : UInt64)
  /-- The value in a register, or in the slot that it refers to. -/
  | indirect (r : Register)
  deriving DecidableEq, Inhabited

namespace Operand

/-- The addressing mode of an operand. -/
def mode : Operand → Mode
  | implicit => .implicit
  | immediate _ => .immediate
  | absolute _ => .absolute
  | index .. => .absoluteIndex
  | property .. => .absoluteProperty
  | static _ => .absoluteStatic
  | indirect r => .indirect r

/-- The operand in assembler form. -/
def text : Operand → Bytes
  | implicit => []
  | immediate v => utf8 "#" ++ v.literal
  | absolute a => utf8 "$" ++ Number.decimal a.toNat
  | index a i =>
    utf8 "$" ++ Number.decimal a.toNat ++ utf8 "[$" ++ Number.decimal i.toNat ++ utf8 "]"
  | property a k => utf8 "$" ++ Number.decimal a.toNat ++ utf8 "." ++ Number.decimal k.toNat
  | static a => utf8 "!" ++ Number.decimal a.toNat
  | indirect r => utf8 "@" ++ utf8 r.name

/-- The address that the operand holds, 0 when it holds none. -/
def addr : Operand → UInt64
  | absolute a | index a _ | property a _ | static a => a
  | _ => 0

/-- The second number that the operand holds, 0 when it holds none. -/
def second : Operand → UInt64
  | index _ i => i
  | property _ k => k
  | _ => 0

/-- The size of the written operand. -/
def size (arch : Arch) : Operand → Nat
  | immediate v => 1 + arch.addressBytes + v.payload.length
  | absolute _ | static _ => arch.addressBytes
  | index .. | property .. => 2 * arch.addressBytes
  | implicit | indirect _ => 0

/-- The bytes of an operand. -/
def encode (arch : Arch) : Operand → Except CodecError Bytes
  | implicit | indirect _ => .ok []
  | immediate v => do
    let size ← arch.encodeAddress v.payload.length
    return v.kind.tag :: size ++ v.payload
  | absolute a | static a => arch.encodeAddress a.toNat
  | index a i | property a i => do
    let first ← arch.encodeAddress a.toNat
    let second ← arch.encodeAddress i.toNat
    return first ++ second

/-- Reads an immediate value. -/
def decodeImmediate (arch : Arch) (c : Cursor) : ReadResult Value :=
  match c.rest with
  | [] => c.fail (.truncated .immediateTag)
  | t :: _ =>
    match Kind.ofTag? t with
    | none => c.fail (.malformed (.unknownImmediateTag t))
    | some k =>
      match arch.decodeAddress (c.skip 1) with
      | .error e => c.fail e.error
      | .ok (size, body) =>
        match body.take? size with
        | none => c.fail (.truncated (.immediate size))
        | some (p, next) =>
          match Value.ofPayload k p with
          | .error e => c.fail e
          | .ok v => .ok (v, next)

/-- Reads one address and makes an operand of it; errors are reported where the operand starts. -/
def decodeOne (arch : Arch) (make : UInt64 → Operand) (c : Cursor) : ReadResult Operand :=
  match arch.decodeAddress c with
  | .error e => c.fail e.error
  | .ok (a, next) => .ok (make (UInt64.ofNat a), next)

/-- Reads two addresses and makes an operand of them. -/
def decodeTwo (arch : Arch) (make : UInt64 → UInt64 → Operand) (c : Cursor) : ReadResult Operand :=
  match arch.decodeAddress c with
  | .error e => c.fail e.error
  | .ok (a, next) =>
    match arch.decodeAddress next with
    | .error e => c.fail e.error
    | .ok (i, next) => .ok (make (UInt64.ofNat a) (UInt64.ofNat i), next)

/-- Reads the operand of a mode. -/
def decode (arch : Arch) (mode : Mode) (c : Cursor) : ReadResult Operand :=
  match mode with
  | .implicit => .ok (implicit, c)
  | .immediate => (decodeImmediate arch c).map fun (v, next) => (immediate v, next)
  | .absolute => decodeOne arch absolute c
  | .absoluteStatic => decodeOne arch static c
  | .absoluteIndex => decodeTwo arch index c
  | .absoluteProperty => decodeTwo arch property c
  | .indirect r => .ok (indirect r, c)

/-- Reads the operand of the mode with a number, which may be none. -/
def decodeNumbered (arch : Arch) (mode : UInt8) (c : Cursor) : ReadResult Operand :=
  match Mode.ofNumber? mode.toNat with
  | some m => decode arch m c
  | none => c.fail (.malformed (.mode mode))

/-- Reads the operand of the mode with a number at a position of some data, and tells the position
reached. Before the data there is room for operands without bytes, and an address is truncated; an
immediate value cannot be read there, nor an address that would end beyond the last position. -/
def readAt? (arch : Arch) (mode : UInt8) (data : Bytes) (pos : Int) :
    Option (Int × Except CodecError Operand) :=
  let inside := RegisterMachine.readAt? (decodeNumbered arch mode) data pos
  match Mode.ofNumber? mode.toNat with
  | none => some (pos, .error (.malformed (.mode mode)))
  | some .implicit => some (pos, .ok implicit)
  | some (.indirect r) => some (pos, .ok (indirect r))
  | some .immediate => inside
  | some _ =>
    if pos < 0 then some (pos, .error (.truncated (.address pos)))
    else if Int64.maxValue.toInt < pos + arch.addressBytes then none
    else inside

end Operand

end RegisterMachine
