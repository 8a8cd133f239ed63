import RegisterMachine.Instruction.Basic

/-!
# Instructions given by numbers

A draft names its mnemonic and mode by numbers, which need not exist, and holds every operand field
whether the mode uses it or not. It can be shown and measured as it is; it becomes an instruction
when both numbers exist.
-/

namespace RegisterMachine

/-- An instruction given by numbers. -/
structure Draft where
  mnemonic : UInt8
  mode : UInt8
  value : Value
  addr : UInt64
  index : UInt64
  deriving DecidableEq, Inhabited

namespace Draft

/-- The operand, when the mode exists. -/
def operand? (d : Draft) : Option Operand :=
  (Mode.ofNumber? d.mode.toNat).map fun
    | .implicit => .implicit
    | .immediate => .immediate d.value
    | .absolute => .absolute d.addr
    | .absoluteIndex => .index d.addr d.index
    | .absoluteProperty => .property d.addr d.index
    | .absoluteStatic => .static d.addr
    | .indirect r => .indirect r

/-- The instruction, when mnemonic and mode exist. -/
def instruction? (d : Draft) : Option Instruction := do
  let m ← Mnemonic.ofNumber? d.mnemonic.toNat
  let op ← d.operand?
  return ⟨m, op⟩

/-- The draft in assembler form. -/
def text (d : Draft) : Bytes :=
  let name := Mnemonic.numberName d.mnemonic
  match d.operand? with
  | some .implicit => name
  | some op => name ++ utf8 " " ++ op.text
  | none => name ++ utf8 " <" ++ Mode.numberName d.mode ++ utf8 ">"

/-- The size that the instruction would have. -/
def size (arch : Arch) (d : Draft) : Nat := 1 + (d.operand?.map (·.size arch)).getD 0

/-- The instruction, which has to be legal. -/
def check (d : Draft) : Except CodecError Instruction :=
  let error := CodecError.malformed (.unsupported d.mnemonic d.mode)
  match d.instruction? with
  | some i => if i.isLegal then .ok i else .error error
  | none => .error error

/-- The bytes of the instruction. -/
def encode (arch : Arch) (d : Draft) : Except CodecError Bytes := do
  let i ← d.check
  i.encode arch

/-- The opcode of a pair of numbers. -/
def opcode (mnemonic mode : UInt8) : Except CodecError UInt8 :=
  match Mnemonic.ofNumber? mnemonic.toNat, Mode.ofNumber? mode.toNat with
  | some m, some md =>
    match Opcode.encode? m md with
    | some op => .ok op
    | none => .error (.malformed (.unsupported mnemonic mode))
  | _, _ => .error (.malformed (.unsupported mnemonic mode))

/-- The instructions of drafts; the first that cannot be written is reported with its index. -/
def checkAll (arch : Arch) (index : Nat) : List Draft → Except CodecError (List Instruction)
  | [] => .ok []
  | d :: ds =>
    match d.check with
    | .error e => .error (.inside (.instruction index) e)
    | .ok i =>
      match i.encode arch with
      | .error e => .error (.inside (.instruction index) e)
      | .ok _ => (checkAll arch (index + 1) ds).map (i :: ·)

end Draft

end RegisterMachine
