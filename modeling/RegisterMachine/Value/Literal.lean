import RegisterMachine.Number.FloatReading
import RegisterMachine.Text.Words
import RegisterMachine.Value.Basic

/-!
# Typed literals

A literal is a type name in parentheses followed by the value: `(int8)-1`, `(string)"hi"`,
`(array)[(int)1, (char)'x']`. Inside a program a label may stand for an integer and means the index
of the instruction that it marks. `Value.literal` is the other direction.
-/

namespace RegisterMachine

/-- Why a text is no literal. -/
inductive LiteralError where
  | missingType (s : Bytes)
  | unterminatedType (s : Bytes)
  | number (s : Bytes) (e : Number.NumberError)
  | outOfRange (s : Bytes) (bits : Nat)
  | notAChar (s : Bytes)
  | notAString (s : Bytes)
  | notAnArray (s : Bytes)
  | unknownType (s : Bytes) (type : Bytes)
  deriving DecidableEq, Inhabited

/-- The wording of an error. -/
def LiteralError.message (e : LiteralError) : Bytes :=
  let literal (s : Bytes) (what : Bytes) := utf8 "literal " ++ Text.quote s ++ utf8 ": " ++ what
  match e with
  | missingType s => literal s (utf8 "missing (type) prefix")
  | unterminatedType s => literal s (utf8 "unterminated type")
  | number s e => literal s e.message
  | outOfRange s bits => literal s (utf8 "out of range for int" ++ Number.decimal bits)
  | notAChar s => literal s (utf8 "invalid char")
  | notAString s => literal s (utf8 "invalid syntax")
  | notAnArray s => literal s (utf8 "array needs [...]")
  | unknownType s t => literal s (utf8 "unknown type " ++ Text.quote t)

/-- The instruction indices that labels stand for; a later definition of a name comes first. -/
abbrev Labels := List (Bytes × Nat)

/-- The index that a label stands for. -/
def Labels.index? (labels : Labels) (name : Bytes) : Option Nat := labels.lookup name

namespace Literal

/-- Where splitting at commas stands. -/
structure SplitState where
  /-- The part being read, reversed. -/
  part : Bytes
  depth : Int
  quoteMark : Option UInt8
  escaped : Bool

/-- Splits at the commas outside quotes and brackets; the result is never empty. -/
def splitFrom (st : SplitState) : Bytes → List Bytes
  | [] => [st.part.reverse]
  | c :: cs =>
    let st' := { st with part := c :: st.part }
    if st.escaped then splitFrom { st' with escaped := false } cs
    else match st.quoteMark with
      | some q =>
        if c = 92 then splitFrom { st' with escaped := true } cs
        else if c = q then splitFrom { st' with quoteMark := none } cs
        else splitFrom st' cs
      | none =>
        if c = 34 ∨ c = 39 then splitFrom { st' with quoteMark := some c } cs
        else if c = 91 then splitFrom { st' with depth := st.depth + 1 } cs
        else if c = 93 then splitFrom { st' with depth := st.depth - 1 } cs
        else if c = 44 ∧ st.depth = 0 then st.part.reverse :: splitFrom { st with part := [] } cs
        else splitFrom st' cs

/-- The parts between the commas outside quotes and brackets. -/
def splitTop (s : Bytes) : List Bytes := splitFrom ⟨[], 0, none, false⟩ s

/-- An integer of at most `bits` bits, or the index of a label, which is taken as it is. -/
def readInt (labels : Labels) (s body : Bytes) (bits : Nat) : Except LiteralError Int :=
  match labels.index? body with
  | some i => .ok i
  | none =>
    match Number.parseSigned .byMark body with
    | .error e => .error (.number s e)
    | .ok n =>
      if n < -(2 ^ (bits - 1) : Int) ∨ (2 ^ (bits - 1) : Int) ≤ n then .error (.outOfRange s bits)
      else .ok n

/-- The type name in parentheses and the trimmed rest of a literal. -/
def splitType (s : Bytes) : Except LiteralError (Bytes × Bytes) :=
  match s with
  | 40 :: r =>
    match Bytes.cut? 41 r with
    | some (type, body) => .ok (type, Text.trim body)
    | none => .error (.unterminatedType s)
  | _ => .error (.missingType s)

/-- The inside of square brackets. -/
def bracketed? (s : Bytes) : Option Bytes :=
  match s with
  | 91 :: r => if r.getLast? = some 93 then some r.dropLast else none
  | _ => none

/-- Reads a literal other than an array. -/
def readScalar (labels : Labels) (s type body : Bytes) : Except LiteralError Value :=
  let int (w : IntWidth) := (readInt labels s body w.bits).map (Value.ofInt w)
  let word (make : UInt64 → Value) :=
    (readInt labels s body 64).map fun n => make (UInt64.ofInt n)
  if type = utf8 "int" ∨ type = utf8 "int64" then int .w64
  else if type = utf8 "int8" then int .w8
  else if type = utf8 "int16" then int .w16
  else if type = utf8 "int32" then int .w32
  else if type = utf8 "float" then
    ((Number.parseFloat Number.single body).mapError (.number s)).map (.float <| UInt32.ofNat ·)
  else if type = utf8 "double" then
    ((Number.parseFloat Number.double body).mapError (.number s)).map (.double <| UInt64.ofNat ·)
  else if type = utf8 "byte" then
    ((Number.parseUnsigned .byMark 8 body).mapError (.number s)).map (.byte <| UInt8.ofNat ·)
  else if type = utf8 "bool" then ((Number.parseBool body).mapError (.number s)).map .bool
  else if type = utf8 "char" then
    match (Text.unquote? body).map Text.runes with
    | some [c] => .ok (.char (UInt32.ofNat c))
    | _ => .error (.notAChar s)
  else if type = utf8 "string" ∨ type = utf8 "str" then
    match Text.unquote? body with
    | some t => .ok (.string t)
    | none => .error (.notAString s)
  else if type = utf8 "void" then .ok .void
  else if type = utf8 "null" then .ok .null
  else if type = utf8 "fn" then word .function
  else if type = utf8 "stack_ref" then word .stackRef
  else .error (.unknownType s type)

/-- Reads a literal in which arrays nest at most `levels` deep. -/
def readLevels (labels : Labels) : Nat → Bytes → Except LiteralError Value
  | 0, s => .error (.notAnArray s)
  | levels + 1, s => do
    let (type, body) ← splitType s
    if type = utf8 "array" then
      match bracketed? body with
      | none => throw (.notAnArray s)
      | some inner =>
        let inner := Text.trim inner
        if inner.isEmpty then return .array []
        let elems ← (splitTop inner).mapM fun part => readLevels labels levels (Text.trim part)
        return .array elems
    else readScalar labels s type body

/-- Reads a trimmed literal. Each array takes two brackets, so the length bounds the nesting. -/
def read (labels : Labels) (s : Bytes) : Except LiteralError Value :=
  readLevels labels (s.length + 1) s

end Literal

/-- The value of a literal that stands outside a program. -/
def Value.ofLiteral (s : Bytes) : Except LiteralError Value := Literal.read [] (Text.trim s)

end RegisterMachine
