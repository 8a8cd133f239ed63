import RegisterMachine.Number.Decimal
import RegisterMachine.Text.Quoted

/-!
# Reading integers

Unsigned and signed integers of a given width, in base ten or in the base that a leading `0x`,
`0b`, `0o` or `0` asks for; with a base mark come underscores between digits. A number that does
not fit is told apart from a text that is no number, and the first of the two to be met, reading
from the left, is reported.
-/

namespace RegisterMachine.Number

/-- Why a text was not read as a number. -/
inductive NumberFault where
  | malformed
  | outOfRange
  deriving DecidableEq, Inhabited

/-- Which reader refused a text. -/
inductive NumberReader where
  | int | uint | float | bool
  deriving DecidableEq, Inhabited

/-- A text that a number reader refused. -/
structure NumberError where
  reader : NumberReader
  text : Bytes
  fault : NumberFault
  deriving DecidableEq, Inhabited

/-- The name under which messages mention a reader. -/
def NumberReader.name : NumberReader → String
  | .int => "ParseInt"
  | .uint => "ParseUint"
  | .float => "ParseFloat"
  | .bool => "ParseBool"

/-- The wording of a fault. -/
def NumberFault.message : NumberFault → String
  | .malformed => "invalid syntax"
  | .outOfRange => "value out of range"

def NumberError.message (e : NumberError) : Bytes :=
  utf8 "strconv." ++ utf8 e.reader.name ++ utf8 ": parsing " ++ Text.quote e.text ++ utf8 ": "
    ++ utf8 e.fault.message

/-- The value of a digit in bases up to 36, letters of either case. -/
def digit? (c : UInt8) : Option Nat :=
  let n := c.toNat
  if 48 ≤ n ∧ n ≤ 57 then some (n - 48)
  else if 97 ≤ n ∧ n ≤ 122 then some (n - 87)
  else if 65 ≤ n ∧ n ≤ 90 then some (n - 55)
  else none

/-- Reads digits of a base on top of the value so far, which must stay at most `max`. -/
def readDigits (base max : Nat) (underscores : Bool) : Nat → Bytes → Except NumberFault Nat
  | n, [] => .ok n
  | n, c :: cs =>
    if underscores && c == 95 then readDigits base max underscores n cs
    else match digit? c with
      | none => .error .malformed
      | some d =>
        if base ≤ d then .error .malformed
        else if max < n * base + d then .error .outOfRange
        else readDigits base max underscores (n * base + d) cs

/-- What the last character was while underscores are checked. -/
inductive Spot where
  | start | digit | underscore | other
  deriving DecidableEq

/-- Follows the underscore rule through the characters of a number. -/
def underscoresFollow (hex : Bool) : Spot → Bytes → Bool
  | spot, [] => spot != .underscore
  | spot, c :: cs =>
    if Bytes.isDigit c || (hex && 97 ≤ (Bytes.lower c).toNat && (Bytes.lower c).toNat ≤ 102) then
      underscoresFollow hex .digit cs
    else if c == 95 then spot == .digit && underscoresFollow hex .underscore cs
    else spot != .underscore && underscoresFollow hex .other cs

/-- Whether every underscore stands between digits, a base mark counting as one. -/
def underscoresSeparate (s : Bytes) : Bool :=
  let s := match s with
    | 43 :: r => r
    | 45 :: r => r
    | s => s
  match s with
  | 48 :: c :: r =>
    let l := Bytes.lower c
    if l = 98 ∨ l = 111 ∨ l = 120 then underscoresFollow (l == 120) .digit r
    else underscoresFollow false .start s
  | s => underscoresFollow false .start s

/-- How the base of a number is chosen. -/
inductive Radix where
  | ten
  | byMark

/-- The base that the start of a number asks for, and the digits after the mark. -/
def splitMark (s : Bytes) : Nat × Bytes :=
  match s with
  | 48 :: c :: d :: r =>
    let l := Bytes.lower c
    if l = 98 then (2, d :: r)
    else if l = 111 then (8, d :: r)
    else if l = 120 then (16, d :: r)
    else (8, c :: d :: r)
  | 48 :: r => (8, r)
  | s => (10, s)

/-- Reads an unsigned number of at most `bits` bits. -/
def readUnsigned (radix : Radix) (bits : Nat) (s : Bytes) : Except NumberFault Nat :=
  if s.isEmpty then .error .malformed
  else match radix with
    | .ten => readDigits 10 (2 ^ bits - 1) false 0 s
    | .byMark =>
      let (base, digits) := splitMark s
      match readDigits base (2 ^ bits - 1) true 0 digits with
      | .error e => .error e
      | .ok n => if digits.contains 95 && !underscoresSeparate s then .error .malformed else .ok n

/-- Reads a number with an optional sign into the signed range of 64 bits. -/
def readSigned (radix : Radix) (s : Bytes) : Except NumberFault Int :=
  let (negative, digits) := match s with
    | 43 :: r => (false, r)
    | 45 :: r => (true, r)
    | s => (false, s)
  match readUnsigned radix 64 digits with
  | .error e => .error e
  | .ok n =>
    if negative then
      if 2 ^ (63 : Nat) < n then .error .outOfRange else .ok (-(n : Int))
    else if 2 ^ (63 : Nat) ≤ n then .error .outOfRange
    else .ok n

/-- `readUnsigned` with the refused text in the error. -/
def parseUnsigned (radix : Radix) (bits : Nat) (s : Bytes) : Except NumberError Nat :=
  (readUnsigned radix bits s).mapError fun f => ⟨.uint, s, f⟩

/-- `readSigned` with the refused text in the error. -/
def parseSigned (radix : Radix) (s : Bytes) : Except NumberError Int :=
  (readSigned radix s).mapError fun f => ⟨.int, s, f⟩

/-- The spellings of truth values. -/
def parseBool (s : Bytes) : Except NumberError Bool :=
  if (["1", "t", "T", "TRUE", "true", "True"].map utf8).contains s then .ok true
  else if (["0", "f", "F", "FALSE", "false", "False"].map utf8).contains s then .ok false
  else .error ⟨.bool, s, .malformed⟩

end RegisterMachine.Number
