import RegisterMachine.Engine.Arithmetic
import RegisterMachine.Number.FloatReading
import RegisterMachine.Text.Words

/-!
# Conversions

What the value in A becomes when it is converted to another kind. Strings are read as numbers or
single characters, numbers out of range are refused, and every value but a reference or a function
has a truth value.
-/

namespace RegisterMachine.Conversion

open Arithmetic (widenFloat narrowDouble)

/-- The whole part of a double that lies in the range of 64-bit integers. -/
def truncate? (bits : UInt64) : Option Int :=
  match Number.double.decode bits.toNat with
  | .finite negative m q =>
    let magnitude : Nat := if 0 ≤ q then m * 2 ^ q.toNat else m / 2 ^ (-q).toNat
    let i : Int := if negative then -(magnitude : Int) else magnitude
    if i < -2 ^ (63 : Nat) ∨ 2 ^ (63 : Nat) ≤ i then none else some i
  | _ => none

/-- Converts to a 64-bit integer. -/
def toInt (a : Value) : Except Fault Value :=
  let ofDouble (bits : UInt64) : Except Fault Value :=
    match truncate? bits with
    | some i => .ok (.int64 i)
    | none => .error (.notAnInt (Number.floatText Number.double bits.toNat))
  match a with
  | .int .. | .byte _ | .char _ | .bool _ => .ok (.int64 a.toInt)
  | .float b => ofDouble (widenFloat b)
  | .double b => ofDouble b
  | .string s =>
    match Number.readSigned .ten (Text.trim s) with
    | .ok n => .ok (.int64 n)
    | .error _ => .error (.unreadable s .int)
  | _ => .error (.ofValues (.convert .int) [a])

/-- The bits of the double that a value converts to; `target` is the conversion asked for. -/
def toDouble (target : Conversion) (a : Value) : Except Fault UInt64 :=
  match a with
  | .int .. | .byte _ => .ok (UInt64.ofNat (Number.double.ofInt a.toInt))
  | .float b => .ok (widenFloat b)
  | .double b => .ok b
  | .string s =>
    match Number.readFloat Number.double (Text.trim s) with
    | .ok bits => .ok (UInt64.ofNat bits)
    | .error _ => .error (.unreadable s .number)
  | _ => .error (.ofValues (.convert target) [a])

/-- Converts to a byte. -/
def toByte (a : Value) : Except Fault Value :=
  match a with
  | .byte _ => .ok a
  | .int .. | .char _ | .bool _ =>
    let n := a.toInt
    if n < 0 ∨ 255 < n then .error (.notAByte n) else .ok (.byte (UInt8.ofInt n))
  | _ => .error (.ofValues (.convert .byte) [a])

/-- Converts to a string. -/
def toText (a : Value) : Except Fault Value :=
  match a with
  | .string _ => .ok a
  | .char c => .ok (.string (Text.encodeRune c.toNat))
  | .int .. | .byte _ | .float _ | .double _ | .bool _ => .ok (.string a.text)
  | _ => .error (.ofValues (.convert .string) [a])

/-- Converts to a character. -/
def toChar (a : Value) : Except Fault Value :=
  match a with
  | .char _ => .ok a
  | .byte b => .ok (.char (UInt32.ofNat b.toNat))
  | .int _ b =>
    let n := b.toInt
    if n < 0 ∨ !Text.isScalar n.toNat then .error (.notAChar n)
    else .ok (.char (UInt32.ofNat n.toNat))
  | .string s =>
    match Text.runes s with
    | [c] =>
      if c = Text.replacement then .error (.unreadable s .char) else .ok (.char (UInt32.ofNat c))
    | _ => .error (.unreadable s .char)
  | _ => .error (.ofValues (.convert .char) [a])

/-- Converts to a truth value: numbers are true unless zero, strings and arrays unless empty. -/
def toBool (a : Value) : Except Fault Value :=
  match a with
  | .bool _ => .ok a
  | .int .. | .byte _ | .char _ => .ok (.bool (a.toInt ≠ 0))
  | .float b => .ok (.bool (b.toNat % Number.single.signBit ≠ 0))
  | .double b => .ok (.bool (b.toNat % Number.double.signBit ≠ 0))
  | .string _ | .array _ => .ok (.bool (0 < a.length))
  | .void | .null => .ok (.bool false)
  | _ => .error (.ofValues (.convert .bool) [a])

/-- Converts a value, references already followed. -/
def convert (target : Conversion) (a : Value) : Except Fault Value :=
  match target with
  | .int => toInt a
  | .float => (toDouble target a).map fun b => .float (narrowDouble b)
  | .double => (toDouble target a).map .double
  | .byte => toByte a
  | .string => toText a
  | .char => toChar a
  | .bool => toBool a

end RegisterMachine.Conversion
