import RegisterMachine.Calendar
import RegisterMachine.Number.FloatReading
import RegisterMachine.Text.Utf8

/-!
# TOML statements

The statements of a TOML text: table headers and entries, with values as they are written. Reading
works on code points; every reader takes as much as belongs to its construct and gives the rest.
Numbers of floating point are checked for their form and range and moments in time for their form,
and nothing else of them is kept.
-/

namespace RegisterMachine.Toml

/-- A value as it is written. -/
inductive Value where
  | string (s : Bytes)
  | integer (n : Int)
  | float
  | bool (b : Bool)
  /-- A date, a time or both. -/
  | moment
  | array (items : List Value)
  /-- An inline table with its entries, whose keys may have several parts. -/
  | table (entries : List (List Bytes × Value))
  deriving Inhabited

/-- A line of a text that says something. -/
inductive Statement where
  | table (key : List Bytes)
  | arrayTable (key : List Bytes)
  | entry (key : List Bytes) (value : Value)
  deriving Inhabited

/-- A text as code points. -/
abbrev Source := List Nat

/-- A reader takes something from the front of a text. -/
abbrev Reader (α : Type) := Source → Option (α × Source)

/-! ## Characters -/

def isDigit (c : Nat) : Bool := 48 ≤ c && c ≤ 57

def isHexDigit (c : Nat) : Bool := isDigit c || (97 ≤ c && c ≤ 102) || (65 ≤ c && c ≤ 70)

def isBlank (c : Nat) : Bool := c == 32 || c == 9

/-- Characters of keys without quotes. -/
def isBareKey (c : Nat) : Bool :=
  isDigit c || (97 ≤ c && c ≤ 122) || (65 ≤ c && c ≤ 90) || c == 95 || c == 45

/-- The value of a hexadecimal digit. -/
def hexValue (c : Nat) : Nat := if isDigit c then c - 48 else if 97 ≤ c then c - 87 else c - 55

/-- Whether a text has control characters, or carriage returns that do not end a line. -/
def hasControls : Source → Bool
  | [] => false
  | 13 :: 10 :: rest => hasControls rest
  | c :: rest => (c < 32 && c != 9 && c != 10) || c == 127 || hasControls rest

/-- Drops spaces and tabs. -/
def skipBlanks (s : Source) : Source := s.dropWhile isBlank

/-- Drops a comment up to the end of its line. -/
def skipComment : Source → Source
  | 35 :: rest => rest.dropWhile (· != 10)
  | s => s

/-- Drops blanks, line ends and comments. -/
def skipSpace : Nat → Source → Source
  | 0, s => s
  | fuel + 1, s =>
    match s with
    | 35 :: rest => skipSpace fuel (rest.dropWhile (· != 10))
    | c :: rest => if isBlank c || c == 10 || c == 13 then skipSpace fuel rest else s
    | [] => []

/-- The end of a line, which may hold a comment. -/
def lineEnd : Reader Unit := fun s =>
  match skipComment (skipBlanks s) with
  | [] => some ((), [])
  | 10 :: rest => some ((), rest)
  | 13 :: 10 :: rest => some ((), rest)
  | _ => none

/-! ## Strings -/

/-- The code point of `n` hexadecimal digits, which has to be a scalar value. -/
def codePoint (n : Nat) : Reader Nat := fun s =>
  let digits := s.take n
  let c := digits.foldl (fun v d => v * 16 + hexValue d) 0
  if digits.length = n ∧ digits.all isHexDigit ∧ Text.isScalar c then some (c, s.drop n) else none

/-- What a backslash stands for together with what follows it. -/
def escape : Reader Nat
  | 98 :: r => some (8, r)
  | 116 :: r => some (9, r)
  | 110 :: r => some (10, r)
  | 102 :: r => some (12, r)
  | 114 :: r => some (13, r)
  | 101 :: r => some (27, r)
  | 34 :: r => some (34, r)
  | 92 :: r => some (92, r)
  | 120 :: r => codePoint 2 r
  | 117 :: r => codePoint 4 r
  | 85 :: r => codePoint 8 r
  | _ => none

/-- The rest of a string on one line; `raw` strings have no escapes. -/
def lineString (quote : Nat) (raw : Bool) : Nat → Reader (List Nat)
  | 0, _ => none
  | fuel + 1, s =>
    match s with
    | [] => none
    | c :: rest =>
      if c = quote then some ([], rest)
      else if c = 10 ∨ c = 13 then none
      else if c = 92 ∧ !raw then do
        let (c, rest) ← escape rest
        let (cs, rest) ← lineString quote raw fuel rest
        return (c :: cs, rest)
      else do
        let (cs, rest) ← lineString quote raw fuel rest
        return (c :: cs, rest)

/-- The rest of a string of several lines. It ends with three quotes, before which up to two more
may stand, or three after an escaped backslash; a backslash at the end of a line takes the white
space that follows it. -/
def blockString (quote : Nat) (raw : Bool) (afterBackslash : Bool) : Nat → Reader (List Nat)
  | 0, _ => none
  | fuel + 1, s =>
    match s with
    | [] => none
    | c :: rest =>
      if c = quote then
        let run := (s.takeWhile (· == quote)).length
        if run < 3 then do
          let (cs, rest) ← blockString quote raw false fuel rest
          return (c :: cs, rest)
        else if run ≤ (if afterBackslash then 6 else 5) then some (List.replicate (run - 3) quote,
          s.drop run)
        else none
      else if c = 92 ∧ !raw then
        match skipBlanks rest with
        | 10 :: _ | 13 :: _ =>
          blockString quote raw false fuel (rest.dropWhile fun c => isBlank c || c == 10 || c == 13)
        | _ => do
          let (c, rest) ← escape rest
          let (cs, rest) ← blockString quote raw (c == 92) fuel rest
          return (c :: cs, rest)
      else do
        let (cs, rest) ← blockString quote raw false fuel rest
        return (c :: cs, rest)

/-- A string without the line end that may follow its opening quotes. -/
def dropFirstLineEnd : Source → Source
  | 10 :: r => r
  | 13 :: 10 :: r => r
  | s => s

/-- A string of any of the four kinds. -/
def string : Reader Bytes := fun s =>
  let wrap (r : Option (List Nat × Source)) := r.map fun (cs, rest) => (Text.ofRunes cs, rest)
  match s with
  | 34 :: 34 :: 34 :: rest =>
    wrap (blockString 34 false false (s.length + 1) (dropFirstLineEnd rest))
  | 39 :: 39 :: 39 :: rest =>
    wrap (blockString 39 true false (s.length + 1) (dropFirstLineEnd rest))
  | 34 :: rest => wrap (lineString 34 false (s.length + 1) rest)
  | 39 :: rest => wrap (lineString 39 true (s.length + 1) rest)
  | _ => none

/-! ## Keys -/

/-- One part of a key. -/
def keyPart : Reader Bytes := fun s =>
  match s with
  | 34 :: rest =>
    (lineString 34 false (s.length + 1) rest).map fun (cs, rest) => (Text.ofRunes cs, rest)
  | 39 :: rest =>
    (lineString 39 true (s.length + 1) rest).map fun (cs, rest) => (Text.ofRunes cs, rest)
  | s =>
    let part := s.takeWhile isBareKey
    if part.isEmpty then none else some (Text.ofRunes part, s.dropWhile isBareKey)

/-- A key of one part or of several with dots between them. -/
def key : Nat → Reader (List Bytes)
  | 0, _ => none
  | fuel + 1, s => do
    let (part, rest) ← keyPart (skipBlanks s)
    match skipBlanks rest with
    | 46 :: rest =>
      let (parts, rest) ← key fuel rest
      return (part :: parts, rest)
    | rest => return ([part], rest)

/-! ## Numbers and moments -/

/-- Digits with single underscores between them; gives the digits. -/
def digits (isOne : Nat → Bool) : Nat → Reader (List Nat)
  | 0, _ => none
  | fuel + 1, s =>
    match s with
    | [] => none
    | c :: rest =>
      if !isOne c then none
      else match rest with
        | 95 :: more => do
          let (ds, rest) ← digits isOne fuel more
          return (c :: ds, rest)
        | d :: _ =>
          if isOne d then do
            let (ds, rest) ← digits isOne fuel rest
            return (c :: ds, rest)
          else some ([c], rest)
        | [] => some ([c], [])

/-- The value of digits in a base. -/
def valueOf (base : Nat) (ds : List Nat) : Nat := ds.foldl (fun v d => v * base + hexValue d) 0

/-- An integer, provided that it has at most 64 bits. -/
def fitted (n : Int) : Option Value :=
  if -(2 ^ (63 : Nat)) ≤ n ∧ n < 2 ^ (63 : Nat) then some (.integer n) else none

/-- Whole digits without a needless zero in front. -/
def wholeDigits : Reader (List Nat) := fun s => do
  let (ds, rest) ← digits isDigit (s.length + 1) s
  if ds.head? = some 48 ∧ 1 < ds.length then none else some (ds, rest)

/-- What may follow the whole digits of a float: a fraction, an exponent or both. -/
def floatTail (s : Source) : Option Source := do
  let exponent (s : Source) : Option Source := do
    let s := match s with
      | 43 :: r => r
      | 45 :: r => r
      | s => s
    let (_, rest) ← digits isDigit (s.length + 1) s
    return rest
  match s with
  | 46 :: rest =>
    let (_, rest) ← digits isDigit (rest.length + 1) rest
    match rest with
    | 101 :: r | 69 :: r => exponent r
    | rest => return rest
  | 101 :: r | 69 :: r => exponent r
  | _ => none

/-- Whether a decimal number lies in the range of doubles. -/
def inRange (s : Source) : Bool :=
  match Number.readFloat Number.double (Text.ofRunes (s.filter (· != 95))) with
  | .ok _ => true
  | .error _ => false

/-- A decimal integer or a float after its sign. -/
def decimalNumber (negative : Bool) : Reader Value := fun s => do
  let (ds, rest) ← wholeDigits s
  match rest with
  | 46 :: _ | 101 :: _ | 69 :: _ =>
    let rest ← floatTail rest
    if inRange (s.take (s.length - rest.length)) then return (.float, rest) else none
  | rest =>
    let n : Int := valueOf 10 ds
    return (← fitted (if negative then -n else n), rest)

/-- An integer in another base. -/
def basedNumber (base : Nat) (isOne : Nat → Bool) : Reader Value := fun s => do
  let (ds, rest) ← digits isOne (s.length + 1) s
  return (← fitted (valueOf base ds), rest)

/-- The number that the next `n` characters spell. -/
def fixedDigits (n : Nat) : Reader Nat := fun s =>
  let ds := s.take n
  if ds.length = n ∧ ds.all isDigit then some (valueOf 10 ds, s.drop n) else none

/-- A date. -/
def date (s : Source) : Option Source := do
  let (year, s) ← fixedDigits 4 s
  let some (45, s) := s.head?.map (·, s.tail) | none
  let (month, s) ← fixedDigits 2 s
  let some (45, s) := s.head?.map (·, s.tail) | none
  let (day, s) ← fixedDigits 2 s
  if 1 ≤ month ∧ month ≤ 12 ∧ 1 ≤ day ∧ day ≤ Date.daysIn year month then some s else none

/-- A time of day; the seconds may be left out, and may have a fraction. -/
def clock (s : Source) : Option Source := do
  let (hour, s) ← fixedDigits 2 s
  let some (58, s) := s.head?.map (·, s.tail) | none
  let (minute, s) ← fixedDigits 2 s
  if 24 ≤ hour ∨ 60 ≤ minute then none
  match s with
  | 58 :: r =>
    let (second, s) ← fixedDigits 2 r
    if 60 ≤ second then none
    match s with
    | 46 :: r => if (r.takeWhile isDigit).isEmpty then none else some (r.dropWhile isDigit)
    | s => some s
  | s => some s

/-- What a time is ahead of the standard time, if it says so; up to 24 hours and 60 minutes. -/
def zone (s : Source) : Option Source :=
  match s with
  | 90 :: r | 122 :: r => some r
  | 43 :: r | 45 :: r => do
    let (hour, s) ← fixedDigits 2 r
    let some (58, s) := s.head?.map (·, s.tail) | none
    let (minute, s) ← fixedDigits 2 s
    if 24 < hour ∨ 60 < minute then none else some s
  | s => some s

/-- A date with or without a time. -/
def dateAndTime (s : Source) : Option Source := do
  let s ← date s
  match s with
  | 84 :: r | 116 :: r => zone (← clock r)
  | 32 :: r => if (r.head?.map isDigit).getD false then zone (← clock r) else some s
  | s => some s

/-- A number or a moment; the first two digits and what follows tell which. -/
def numberOrMoment : Reader Value := fun s =>
  let ds := s.takeWhile isDigit
  match s.dropWhile isDigit with
  | 45 :: _ => if ds.length = 4 then (dateAndTime s).map (.moment, ·) else none
  | 58 :: _ => if ds.length = 2 then (clock s).map (.moment, ·) else none
  | _ =>
    match s with
    | 48 :: 120 :: r => basedNumber 16 isHexDigit r
    | 48 :: 111 :: r => basedNumber 8 (fun c => 48 ≤ c && c ≤ 55) r
    | 48 :: 98 :: r => basedNumber 2 (fun c => c == 48 || c == 49) r
    | s => decimalNumber false s

/-- Takes a fixed word from the front. -/
def word (w : String) : Source → Option Source := fun s =>
  let cs := w.toList.map (·.toNat)
  if cs.isPrefixOf s then some (s.drop cs.length) else none

/-- A number after a sign. -/
def signedNumber (negative : Bool) : Reader Value := fun s =>
  match (word "inf" s).orElse fun _ => word "nan" s with
  | some rest => some (.float, rest)
  | none => decimalNumber negative s

/-! ## Values -/

mutual

/-- A value. -/
def value : Nat → Reader Value
  | 0, _ => none
  | fuel + 1, s =>
    match s with
    | 34 :: _ | 39 :: _ => (string s).map fun (t, rest) => (.string t, rest)
    | 91 :: rest => (items fuel rest).map fun (vs, rest) => (.array vs, rest)
    | 123 :: rest => (entries fuel rest).map fun (es, rest) => (.table es, rest)
    | 116 :: _ => (word "true" s).map (.bool true, ·)
    | 102 :: _ => (word "false" s).map (.bool false, ·)
    | 105 :: _ => (word "inf" s).map (.float, ·)
    | 110 :: _ => (word "nan" s).map (.float, ·)
    | 43 :: rest => signedNumber false rest
    | 45 :: rest => signedNumber true rest
    | c :: _ => if isDigit c then numberOrMoment s else none
    | [] => none

/-- The rest of an array. -/
def items : Nat → Reader (List Value)
  | 0, _ => none
  | fuel + 1, s =>
    match skipSpace (s.length + 1) s with
    | 93 :: rest => some ([], rest)
    | s => do
      let (v, rest) ← value fuel s
      match skipSpace (rest.length + 1) rest with
      | 44 :: rest =>
        let (vs, rest) ← items fuel rest
        return (v :: vs, rest)
      | 93 :: rest => return ([v], rest)
      | _ => none

/-- The rest of an inline table. -/
def entries : Nat → Reader (List (List Bytes × Value))
  | 0, _ => none
  | fuel + 1, s =>
    match skipSpace (s.length + 1) s with
    | 125 :: rest => some ([], rest)
    | s => do
      let (k, rest) ← key (s.length + 1) s
      let some (61, rest) := rest.head?.map (·, rest.tail) | none
      let (v, rest) ← value fuel (skipBlanks rest)
      match skipSpace (rest.length + 1) rest with
      | 44 :: rest =>
        let (es, rest) ← entries fuel rest
        return ((k, v) :: es, rest)
      | 125 :: rest => return ([(k, v)], rest)
      | _ => none

end

/-! ## Statements -/

/-- One statement with the end of its line. -/
def statement : Reader Statement := fun s =>
  let fuel := s.length + 1
  match s with
  | 91 :: 91 :: rest => do
    let (k, rest) ← key fuel rest
    let rest ← word "]]" rest
    let ((), rest) ← lineEnd rest
    return (.arrayTable k, rest)
  | 91 :: rest => do
    let (k, rest) ← key fuel rest
    let rest ← word "]" rest
    let ((), rest) ← lineEnd rest
    return (.table k, rest)
  | s => do
    let (k, rest) ← key fuel s
    let some (61, rest) := rest.head?.map (·, rest.tail) | none
    let (v, rest) ← value fuel (skipBlanks rest)
    let ((), rest) ← lineEnd rest
    return (.entry k v, rest)

/-- All statements of a text. -/
def statements : Nat → Source → Option (List Statement)
  | 0, _ => none
  | fuel + 1, s =>
    match skipSpace (s.length + 1) s with
    | [] => some []
    | s => do
      let (st, rest) ← statement s
      return st :: (← statements fuel rest)

/-- A text without the mark of its encoding. -/
def dropMark : Bytes → Bytes
  | 0xFF :: 0xFE :: r => r
  | 0xFE :: 0xFF :: r => r
  | 0xEF :: 0xBB :: 0xBF :: r => r
  | s => s

/-- The statements of a text, which has to be UTF-8 without control characters. -/
def read? (text : Bytes) : Option (List Statement) :=
  let text := dropMark text
  let cs := Text.runes text
  if !Text.isUtf8 text || hasControls cs then none else statements (cs.length + 1) cs

end RegisterMachine.Toml
