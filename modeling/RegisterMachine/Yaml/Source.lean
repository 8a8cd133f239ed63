import RegisterMachine.Text.Utf8

/-!
# Texts being read

A YAML text is a list of code points, written in UTF-8 or, after the mark for it, in UTF-16. A
`Source` is a place in such a text: the code points that follow, with the line and the column that
tell how the text is laid out. A line ends with a line feed, a carriage return, both, or one of
three Unicode line ends. What lies behind the end of the text reads as zero, which no text holds.
-/

namespace RegisterMachine.Yaml

/-! ## Code points -/

/-- Whether a text may hold a code point. -/
def isAllowed (c : Nat) : Bool :=
  c == 9 || c == 10 || c == 13 || (0x20 ≤ c && c ≤ 0x7E) || c == 0x85 || (0xA0 ≤ c && c ≤ 0xD7FF)
    || (0xE000 ≤ c && c ≤ 0xFFFD) || (0x10000 ≤ c && c ≤ 0x10FFFF)

/-- Spaces and tabs. -/
def isBlank (c : Nat) : Bool := c == 32 || c == 9

/-- Code points that end a line. -/
def isBreak (c : Nat) : Bool := c == 10 || c == 13 || c == 0x85 || c == 0x2028 || c == 0x2029

/-- The end of a line or of the text. -/
def isLineEnd (c : Nat) : Bool := isBreak c || c == 0

/-- A blank, the end of a line or of the text. -/
def isGap (c : Nat) : Bool := isBlank c || isLineEnd c

/-- Characters of names: letters, digits, underscores and hyphens. -/
def isNameChar (c : Nat) : Bool :=
  (48 ≤ c && c ≤ 57) || (65 ≤ c && c ≤ 90) || (97 ≤ c && c ≤ 122) || c == 95 || c == 45

/-- Characters that divide or enclose flow collections and so end a plain scalar in them. -/
def isFlowMark (c : Nat) : Bool :=
  c == 44 || c == 63 || c == 91 || c == 93 || c == 123 || c == 125

def isDigit (c : Nat) : Bool := 48 ≤ c && c ≤ 57

/-- The value of a hexadecimal digit. -/
def hexValue? (c : Nat) : Option Nat :=
  if 48 ≤ c ∧ c ≤ 57 then some (c - 48)
  else if 97 ≤ c ∧ c ≤ 102 then some (c - 87)
  else if 65 ≤ c ∧ c ≤ 70 then some (c - 55)
  else none

/-- The value of hexadecimal digits, of which there have to be `n`. -/
def hexNumber? (n : Nat) (s : List Nat) : Option Nat := do
  let digits ← (s.take n).mapM hexValue?
  if digits.length = n then some (digits.foldl (fun v d => v * 16 + d) 0) else none

/-- The code points of 16-bit units; surrogates have to come in pairs. -/
def ofUnits? : List Nat → Option (List Nat)
  | [] => some []
  | u :: rest =>
    if 0xDC00 ≤ u ∧ u ≤ 0xDFFF then none
    else if 0xD800 ≤ u ∧ u ≤ 0xDBFF then
      match rest with
      | v :: rest =>
        if 0xDC00 ≤ v ∧ v ≤ 0xDFFF then
          (ofUnits? rest).map ((0x10000 + (u - 0xD800) * 0x400 + (v - 0xDC00)) :: ·)
        else none
      | [] => none
    else (ofUnits? rest).map (u :: ·)

/-- Bytes taken two by two. -/
def units? (littleEndian : Bool) : Bytes → Option (List Nat)
  | [] => some []
  | [_] => none
  | a :: b :: rest =>
    let u := if littleEndian then a.toNat + 256 * b.toNat else 256 * a.toNat + b.toNat
    (units? littleEndian rest).map (u :: ·)

/-- The code points of a text, all of which have to be allowed. A mark at the start tells the
encoding, which is UTF-8 without one. -/
def codePoints? (text : Bytes) : Option (List Nat) := do
  let utf8Points (s : Bytes) : Option (List Nat) :=
    if Text.isUtf8 s then some (Text.runes s) else none
  let cs ← match text with
    | 0xFF :: 0xFE :: rest => (units? true rest).bind ofUnits?
    | 0xFE :: 0xFF :: rest => (units? false rest).bind ofUnits?
    | 0xEF :: 0xBB :: 0xBF :: rest => utf8Points rest
    | text => utf8Points text
  if cs.all isAllowed then some cs else none

/-! ## Places -/

/-- A place in a text. -/
structure Source where
  rest : List Nat
  /-- How many code points the text has. -/
  size : Nat
  index : Nat := 0
  line : Nat := 0
  column : Nat := 0
  /-- Line ends read since the last character that is not blank. -/
  breaks : Nat := 0
  deriving Inhabited

namespace Source

/-- The start of a text. -/
def ofCodePoints (cs : List Nat) : Source := { rest := cs, size := cs.length }

/-- How many steps suffice to read what follows. -/
def steps (s : Source) : Nat := s.size - s.index + 1

/-- The next code point. -/
def next (s : Source) : Nat := s.rest.headD 0

/-- The code point `n` places further on. -/
def ahead (s : Source) (n : Nat) : Nat := s.rest.getD n 0

/-- Moves on by one character of the line. -/
def skip (s : Source) : Source :=
  { s with
    rest := s.rest.drop 1
    index := s.index + 1
    column := s.column + 1
    breaks := if isBlank s.next then s.breaks else 0 }

/-- Takes characters of the line while they satisfy a condition. -/
def takeWhile (p : Nat → Bool) (s : Source) : List Nat × Source :=
  let run := s.rest.takeWhile p
  (run,
    { s with
      rest := s.rest.drop run.length
      index := s.index + run.length
      column := s.column + run.length
      breaks := if run.all isBlank then s.breaks else 0 })

/-- Moves on while a condition holds. -/
def skipWhile (p : Nat → Bool) (s : Source) : Source := (s.takeWhile p).2

/-- Takes a line end, if there is one. Most are taken as a line feed. -/
def takeBreak (s : Source) : List Nat × Source :=
  let past (n : Nat) : Source :=
    { s with
      rest := s.rest.drop n, index := s.index + n, line := s.line + 1, column := 0
      breaks := s.breaks + 1 }
  match s.rest with
  | 13 :: 10 :: _ => ([10], past 2)
  | c :: _ =>
    if c == 0x2028 || c == 0x2029 then ([c], past 1)
    else if isBreak c then ([10], past 1)
    else ([], s)
  | [] => ([], s)

/-- Moves past a line end, if there is one. -/
def skipBreak (s : Source) : Source := s.takeBreak.2

/-- Moves to the end of the line. -/
def skipLine (s : Source) : Source := s.skipWhile (!isBreak ·)

/-- Whether three equal characters that start or end a document follow, alone in their word. -/
def atMarker (c : Nat) (s : Source) : Bool :=
  s.column == 0 && s.next == c && s.ahead 1 == c && s.ahead 2 == c && isGap (s.ahead 3)

/-- Whether the line starts or ends a document. -/
def atDocumentMark (s : Source) : Bool := s.atMarker 45 || s.atMarker 46

/-- How far a comment may be away. -/
def commentReach : Nat := 512

/-- Moves past a comment that follows on the same line. -/
def skipLineComment (s : Source) : Source :=
  let blanks := (s.rest.takeWhile isBlank).length
  if s.breaks = 0 ∧ blanks < commentReach ∧ s.ahead blanks = 35 then s.skipLine else s

/-- Moves past characters and line ends up to a place. -/
def skipTo (index : Nat) : Nat → Source → Source
  | 0, s => s
  | fuel + 1, s =>
    if index ≤ s.index then s
    else skipTo index fuel (if isBreak s.next then s.skipBreak else s.skip)

/-- Moves past a comment to the end of its line. Where only blanks and empty lines lie between it
and another comment that is within reach, that one is passed too. -/
def skipComments : Nat → Source → Source
  | 0, s => s
  | fuel + 1, s =>
    let s := s.skipLine
    if s.next = 10 ∨ s.next = 13 then
      let blanks := ((s.rest.drop 1).takeWhile fun c => isBlank c || c == 10 || c == 13).length
      if blanks + 1 < commentReach ∧ s.ahead (blanks + 1) = 35 then
        skipComments fuel (s.skipTo (s.index + blanks + 1) (blanks + 1))
      else s
    else s

end Source

end RegisterMachine.Yaml
