import RegisterMachine.Number.Ieee
import RegisterMachine.Number.Integer

/-!
# Reading floating point numbers

Decimal numbers with an optional exponent, hexadecimal numbers with a binary exponent, infinities
and not-a-number, each read as the nearest number of the format. Underscores may separate digits.
-/

namespace RegisterMachine.Number

/-- Digits before and after a point, read into one mantissa. -/
structure Mantissa where
  value : Nat
  /-- Digits after the point. -/
  places : Nat
  sawDigits : Bool
  sawPoint : Bool
  underscores : Bool
  rest : Bytes

/-- Reads digits of a base, at most one point and underscores. -/
def readMantissa (base : Nat) (m : Mantissa) : Bytes → Mantissa
  | [] => { m with rest := [] }
  | c :: cs =>
    if c = 95 then readMantissa base { m with underscores := true } cs
    else if c = 46 then
      if m.sawPoint then { m with rest := c :: cs }
      else readMantissa base { m with sawPoint := true } cs
    else match digit? c with
      | some d =>
        if d < base then
          readMantissa base
            { m with
              value := m.value * base + d
              places := if m.sawPoint then m.places + 1 else m.places
              sawDigits := true } cs
        else { m with rest := c :: cs }
      | none => { m with rest := c :: cs }

/-- Reads the digits of an exponent; beyond ten thousand further digits do not count. -/
def readExponentDigits : Nat → Bytes → Nat × Bytes
  | e, [] => (e, [])
  | e, c :: cs =>
    if c = 95 then readExponentDigits e cs
    else if Bytes.isDigit c then
      readExponentDigits (if e < 10000 then e * 10 + (c.toNat - 48) else e) cs
    else (e, c :: cs)

/-- Reads a signed exponent, which needs a digit right after the sign. -/
def readExponent? (s : Bytes) : Option (Int × Bytes) :=
  let (negative, s) := match s with
    | 43 :: r => (false, r)
    | 45 :: r => (true, r)
    | s => (false, s)
  match s with
  | [] => none
  | c :: _ =>
    if Bytes.isDigit c then
      let (e, rest) := readExponentDigits 0 s
      some (if negative then -(e : Int) else e, rest)
    else none

/-- The magnitude of a written number. -/
inductive Written where
  | infinite
  | nan
  /-- A fraction of two naturals. -/
  | fraction (num den : Nat)

/-- Reads a number without its sign; the whole text has to be used up. -/
def readMagnitude? (s : Bytes) : Option Written :=
  let hex := match s with
    | 48 :: x :: _ :: _ => Bytes.lower x == 120
    | _ => false
  let base := if hex then 16 else 10
  let m := readMantissa base ⟨0, 0, false, false, false, []⟩ (if hex then s.drop 2 else s)
  if !m.sawDigits then none
  else
    let exponent := match m.rest with
      | c :: r => if Bytes.lower c = (if hex then 112 else 101) then readExponent? r else none
      | [] => if hex then none else some (0, [])
    match exponent with
    | some (e, []) =>
      let underscores := m.underscores || m.rest.contains 95
      if underscores && !underscoresSeparate s then none
      else if m.value = 0 then some (.fraction 0 1)
      else if hex then
        let e := e - 4 * (m.places : Int)
        some (.fraction (m.value * 2 ^ e.toNat) (2 ^ (-e).toNat))
      else
        let e := e - (m.places : Int)
        some (.fraction (m.value * 10 ^ e.toNat) (10 ^ (-e).toNat))
    | _ => none

/-- The bytes with ASCII letters in lower case. -/
def lowered (s : Bytes) : Bytes := s.map Bytes.lower

/-- Reads a number with its sign as the nearest number of the format. -/
def readFloat (f : Format) (s : Bytes) : Except NumberFault Nat :=
  let (signed, negative, body) := match s with
    | 43 :: r => (true, false, r)
    | 45 :: r => (true, true, r)
    | s => (false, false, s)
  let magnitude :=
    if lowered body = utf8 "inf" ∨ lowered body = utf8 "infinity" then some .infinite
    else if lowered body = utf8 "nan" ∧ !signed then some .nan
    else readMagnitude? body
  let sign := if negative then f.signBit else 0
  match magnitude with
  | none => .error .malformed
  | some .infinite => .ok (sign + f.infinityBits)
  | some .nan => .ok (if f = double then f.quietNan + 1 else f.quietNan)
  | some (.fraction num den) =>
    let bits := f.round num den
    if bits = f.infinityBits then .error .outOfRange else .ok (sign + bits)

/-- `readFloat` with the refused text in the error. -/
def parseFloat (f : Format) (s : Bytes) : Except NumberError Nat :=
  (readFloat f s).mapError fun e => ⟨.float, s, e⟩

end RegisterMachine.Number
