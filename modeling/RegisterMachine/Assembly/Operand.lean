import RegisterMachine.Instruction.Operand
import RegisterMachine.Value.Literal

/-!
# Operands in assembler text

An operand is written `#literal`, `$slot`, `$slot[$index]`, `$slot.ordinal`, `!slot`, `@register`,
or as the name of a label. Wherever a number is asked for a label may stand instead.
-/

namespace RegisterMachine.Assembly

/-- Why a text is no operand. -/
inductive OperandError where
  | literal (e : LiteralError)
  | unknownRegister (s : Bytes)
  | unterminatedIndex (s : Bytes)
  | notAnAddress (s : Bytes)
  | tooLarge (s : Bytes)
  | unreadable (s : Bytes)
  deriving DecidableEq, Inhabited

/-- The wording of an error. -/
def OperandError.message : OperandError → Bytes
  | literal e => e.message
  | unknownRegister s => utf8 "unknown register " ++ Text.quote s
  | unterminatedIndex s => utf8 "operand " ++ Text.quote s ++ utf8 ": unterminated index"
  | notAnAddress s => utf8 "address " ++ Text.quote s ++ utf8 ": not a number or label"
  | tooLarge s => utf8 "address " ++ Text.quote s ++ utf8 ": too large"
  | unreadable s => utf8 "cannot parse operand " ++ Text.quote s

/-- Names of labels and functions: letters, underscores and dots, and digits except at the start. -/
def isName (s : Bytes) : Bool :=
  match Text.glyphs s with
  | [] => false
  | g :: gs => starts g && gs.all fun g => starts g || continues g
where
  starts : Text.Glyph → Bool
    | .scalar c => c == 95 || c == 46 || Text.isLetter c
    | .stray _ => false
  continues : Text.Glyph → Bool
    | .scalar c => Text.isDigit c
    | .stray _ => false

/-- Reads an address: a label or a number below 2^63. -/
def readAddress (labels : Labels) (s : Bytes) : Except OperandError UInt64 :=
  match labels.index? s with
  | some i => .ok (UInt64.ofNat i)
  | none =>
    match Number.readUnsigned .byMark 64 s with
    | .error _ => .error (.notAnAddress s)
    | .ok n => if 2 ^ (63 : Nat) ≤ n then .error (.tooLarge s) else .ok (UInt64.ofNat n)

/-- Reads what follows a dollar sign; `s` is the whole operand. -/
def readSlot (labels : Labels) (s body : Bytes) : Except OperandError Operand :=
  match Bytes.cut? 91 body with
  | some (slot, idx) =>
    if body.getLast? ≠ some 93 then .error (.unterminatedIndex s)
    else do
      let a ← readAddress labels slot
      let idx := idx.dropLast
      let i ← readAddress labels (if idx.head? = some 36 then idx.drop 1 else idx)
      return .index a i
  | none =>
    match Bytes.cut? 46 body with
    | some (slot, ordinal) => do
      let a ← readAddress labels slot
      let k ← readAddress labels ordinal
      return .property a k
    | none => (readAddress labels body).map .absolute

/-- Reads a trimmed operand. -/
def readOperand (labels : Labels) (s : Bytes) : Except OperandError Operand :=
  match s with
  | [] => .ok .implicit
  | 35 :: body => ((Literal.read labels (Text.trim body)).mapError .literal).map .immediate
  | 64 :: body =>
    match Register.parse? body with
    | some r => .ok (.indirect r)
    | none => .error (.unknownRegister body)
  | 33 :: body => (readAddress labels body).map .static
  | 36 :: body => readSlot labels s body
  | _ =>
    if isName s then (readAddress labels s).map .absolute
    else .error (.unreadable s)

end RegisterMachine.Assembly
