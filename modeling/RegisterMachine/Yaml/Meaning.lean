import RegisterMachine.Calendar
import RegisterMachine.Number.FloatReading
import RegisterMachine.Text.Base64

/-!
# What scalars mean

A plain scalar without a tag means what it looks like: nothing, a truth value, a number, a moment in
time, or else a text. A tag asks for one of these, and the scalar has to look like it; a tag that is
not one of the common ones makes it a text.
-/

namespace RegisterMachine.Yaml

/-- What a scalar means. -/
inductive Meaning where
  | nothing
  | truth (b : Bool)
  /-- A number of 64 bits with a sign. -/
  | whole (n : Int)
  /-- A number that needs all of 64 bits without a sign. -/
  | huge (n : Nat)
  /-- A double, given by its bits. -/
  | float (bits : Nat)
  | moment
  | text (s : Bytes)
  deriving DecidableEq, Inhabited

/-! ## Moments -/

/-- Reads a number of one or two digits. -/
def shortNumber? : Bytes → Option (Nat × Bytes)
  | a :: b :: rest =>
    if !Bytes.isDigit a then none
    else if Bytes.isDigit b then some ((a.toNat - 48) * 10 + (b.toNat - 48), rest)
    else some (a.toNat - 48, b :: rest)
  | [a] => if Bytes.isDigit a then some (a.toNat - 48, []) else none
  | [] => none

/-- Reads a number of exactly two digits. -/
def pairNumber? : Bytes → Option (Nat × Bytes)
  | a :: b :: rest =>
    if Bytes.isDigit a && Bytes.isDigit b then some ((a.toNat - 48) * 10 + (b.toNat - 48), rest)
    else none
  | _ => none

/-- Takes a byte from the front. -/
def expect? (c : UInt8) : Bytes → Option Bytes
  | [] => none
  | b :: rest => if b = c then some rest else none

/-- Reads a day: a year of four digits, a month and a day. -/
def day? (s : Bytes) : Option Bytes := do
  let digits := s.takeWhile Bytes.isDigit
  if digits.length ≠ 4 then none
  let year := digits.foldl (fun v d => v * 10 + (d.toNat - 48)) 0
  let (month, s) ← shortNumber? (← expect? 45 (s.drop 4))
  let (day, s) ← shortNumber? (← expect? 45 s)
  if 1 ≤ month ∧ month ≤ 12 ∧ 1 ≤ day ∧ day ≤ Date.daysIn year month then some s else none

/-- Reads a time of day, which may have a fraction of a second. -/
def clock? (s : Bytes) : Option Bytes := do
  let (hour, s) ← shortNumber? s
  let (minute, s) ← shortNumber? (← expect? 58 s)
  let (second, s) ← shortNumber? (← expect? 58 s)
  if 24 ≤ hour ∨ 60 ≤ minute ∨ 60 ≤ second then none
  match s with
  | c :: d :: rest =>
    if (c = 46 ∨ c = 44) ∧ Bytes.isDigit d then some (rest.dropWhile Bytes.isDigit) else some s
  | s => some s

/-- Reads how far a time is from the standard time. -/
def zone? (s : Bytes) : Option Bytes := do
  match s with
  | 90 :: rest => some rest
  | c :: rest =>
    if c ≠ 43 ∧ c ≠ 45 then none
    let (hour, s) ← pairNumber? rest
    let (minute, s) ← pairNumber? (← expect? 58 s)
    if 24 < hour ∨ 60 < minute then none else some s
  | [] => none

/-- Whether a text is a day, with a time and a zone after a letter or with a time after blanks. -/
def isMoment (s : Bytes) : Bool :=
  match day? s with
  | some [] => true
  | some (84 :: s) | some (116 :: s) => ((clock? s).bind zone?) == some []
  | some (32 :: s) => (clock? (s.dropWhile (· == 32))) == some []
  | _ => false

/-! ## Numbers -/

/-- Whether a text has the form of a decimal float. -/
def looksFloat (s : Bytes) : Bool :=
  let s := match s with
    | 43 :: r => r
    | 45 :: r => r
    | s => s
  let whole := s.takeWhile Bytes.isDigit
  let rest := s.dropWhile Bytes.isDigit
  let (fraction, hasPoint, rest) := match rest with
    | 46 :: r => (r.takeWhile Bytes.isDigit, true, r.dropWhile Bytes.isDigit)
    | r => (([] : Bytes), false, r)
  let exponentFits : Bool := match rest with
    | [] => true
    | c :: r =>
      let digits := match r with
        | 43 :: d => d
        | 45 :: d => d
        | d => d
      (c == 101 || c == 69) && !digits.isEmpty && digits.all Bytes.isDigit
  (!whole.isEmpty || (hasPoint && !fraction.isEmpty)) && exponentFits

/-- The double that a text is written as. -/
def float? (s : Bytes) : Option Meaning :=
  match Number.readFloat Number.double s with
  | .ok bits => some (.float bits)
  | .error _ => none

/-- The number that digits of a base make; a number with a sign has one bit less. -/
def digits? (base : Nat) (s : Bytes) : Option Meaning := do
  let read (max : Nat) (s : Bytes) : Option Nat :=
    if s.isEmpty then none else (Number.readDigits base max false 0 s).toOption
  match s with
  | 45 :: r => (read (2 ^ (63 : Nat)) r).map fun n => .whole (-(n : Int))
  | 43 :: r => (read (2 ^ (63 : Nat) - 1) r).map fun n => .whole n
  | s =>
    (read (2 ^ (64 : Nat) - 1) s).map fun (n : Nat) => if n < 2 ^ (63 : Nat) then .whole n
      else .huge n

/-- The number that a text is written as, without underscores: an integer in the base that its start
asks for, a decimal float, or digits with a sign after the mark of their base. -/
def number? (s : Bytes) : Option Meaning :=
  match Number.readSigned .byMark s with
  | .ok n => some (.whole n)
  | .error _ =>
    match Number.readUnsigned .byMark 64 s with
    | .ok n => some (.huge n)
    | .error _ =>
      let float := if looksFloat s then float? s else none
      float.orElse fun _ =>
        match s with
        | 48 :: 98 :: r => digits? 2 r
        | 48 :: 111 :: r => digits? 8 r
        | _ => none

/-! ## Meanings -/

/-- Words that mean something. -/
def words : List (String × Meaning) :=
  let infinite (negative : Bool) : Meaning :=
    .float (Number.double.infinityBits + if negative then Number.double.signBit else 0)
  [("", .nothing), ("~", .nothing), ("null", .nothing), ("Null", .nothing), ("NULL", .nothing),
    ("true", .truth true), ("True", .truth true), ("TRUE", .truth true),
    ("false", .truth false), ("False", .truth false), ("FALSE", .truth false),
    (".nan", .float Number.double.quietNan), (".NaN", .float Number.double.quietNan),
    (".NAN", .float Number.double.quietNan),
    (".inf", infinite false), (".Inf", infinite false), (".INF", infinite false),
    ("+.inf", infinite false), ("+.Inf", infinite false), ("+.INF", infinite false),
    ("-.inf", infinite true), ("-.Inf", infinite true), ("-.INF", infinite true)]

/-- What a text looks like; moments are looked for only if wanted. -/
def Meaning.ofLook (moments : Bool) (s : Bytes) : Meaning :=
  match words.find? fun w => utf8 w.1 == s with
  | some w => w.2
  | none =>
    match s with
    | [] => .text s
    | c :: _ =>
      if c = 46 then (float? s).getD (.text s)
      else if Bytes.isDigit c ∨ c = 43 ∨ c = 45 then
        if moments && isMoment s then .moment else (number? (s.filter (· != 95))).getD (.text s)
      else .text s

/-- The tag that a meaning has. -/
def Meaning.tag : Meaning → String
  | nothing => "!!null"
  | truth _ => "!!bool"
  | whole _ | huge _ => "!!int"
  | float _ => "!!float"
  | moment => "!!timestamp"
  | text _ => "!!str"

/-- What a scalar means, which has to go with its tag. A whole number with a sign may stand for a
float. -/
def meaning? (tag : Option Bytes) (plain : Bool) (s : Bytes) : Option Meaning :=
  match tag with
  | none => some (if plain then .ofLook true s else .text s)
  | some tag =>
    if tag = utf8 "!!binary" then (Text.ofBase64? s).map .text
    else if (["!!bool", "!!int", "!!float", "!!null", "!!timestamp"].map utf8).contains tag then
      let m := Meaning.ofLook (tag = utf8 "!!timestamp") s
      match m with
      | .whole n =>
        if tag = utf8 "!!float" then some (.float (Number.double.ofInt n))
        else if tag = utf8 m.tag then some m
        else none
      | m => if tag = utf8 m.tag then some m else none
    else some (.text s)

end RegisterMachine.Yaml
