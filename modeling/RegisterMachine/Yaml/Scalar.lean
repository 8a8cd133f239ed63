import RegisterMachine.Yaml.Source

/-!
# Scalars as they are written

A scalar is plain, in single or double quotes, or a block of lines. Lines of plain and quoted
scalars are folded: one line end between two parts becomes a space, and of several the first is
dropped. The lines of a block start at one column, and keep their line ends unless they are folded
too.
-/

namespace RegisterMachine.Yaml

/-! ## Gaps between the parts of a scalar -/

/-- Blanks and line ends between two parts of a scalar. -/
structure Gap where
  /-- Blanks, the last one first. -/
  blanks : List Nat := []
  /-- Whether a line ended. -/
  crossed : Bool := false
  /-- The first line end. -/
  first : List Nat := []
  /-- The line ends after the first, the last one first. -/
  more : List Nat := []
  deriving Inhabited

namespace Gap

/-- What stands for a gap in the text of a scalar, the last character first. -/
def reversed (g : Gap) : List Nat :=
  if !g.crossed then g.blanks
  else if g.first.head? = some 10 then (if g.more.isEmpty then [32] else g.more)
  else g.more ++ g.first

/-- Reads blanks and line ends on top of a gap. On a new line no tab may stand before a column. -/
def read (column : Nat) : Nat → Gap → Source → Option (Gap × Source)
  | 0, g, s => some (g, s)
  | fuel + 1, g, s =>
    if isBlank s.next then
      if g.crossed && s.next == 9 && s.column < column then none
      else read column fuel (if g.crossed then g else { g with blanks := s.next :: g.blanks })
        s.skip
    else if isBreak s.next then
      let (b, s) := s.takeBreak
      if g.crossed then read column fuel { g with more := b ++ g.more } s
      else read column fuel { crossed := true, first := b } s
    else some (g, s)

end Gap

/-! ## Plain scalars -/

/-- Reads characters of a plain scalar up to a blank, a line end or a mark that ends it, on top of
its text, which is reversed. -/
def readWord (flow : Bool) (done : List Nat) : Nat → Source → List Nat × Source
  | 0, s => (done, s)
  | fuel + 1, s =>
    let c := s.next
    if isGap c || (c == 58 && isGap (s.ahead 1)) || (flow && isFlowMark c) then (done, s)
    else readWord flow (c :: done) fuel s.skip

/-- A scalar that was read: its text and whether lines ended after its last part. -/
structure ScalarText where
  text : List Nat
  crossed : Bool := false

/-- Reads words of a plain scalar on top of its text, which is reversed, and a gap. In a block its
lines start at a column or further to the right. -/
def readPlain (flow : Bool) (column : Nat) (done : List Nat) (g : Gap) :
    Nat → Source → Option (ScalarText × Source)
  | 0, _ => none
  | fuel + 1, s =>
    let (word, next) := readWord flow (g.reversed ++ done) s.steps s
    if s.atDocumentMark || s.next == 35 ||
      next.index == s.index then some (⟨done.reverse, g.crossed⟩, s)
    else match Gap.read column next.steps {} next with
      | none => none
      | some (g, after) =>
        if after.index = next.index || (!flow && after.column < column) then
          some (⟨word.reverse, g.crossed⟩, after)
        else readPlain flow column word g fuel after

/-! ## Quoted scalars -/

/-- What a backslash in double quotes stands for together with what follows it: a code point, and
how many characters it takes beyond the backslash. -/
def escape? : List Nat → Option (Nat × Nat)
  | [] => none
  | c :: rest =>
    let simple : List (Nat × Nat) :=
      [(48, 0), (97, 7), (98, 8), (116, 9), (9, 9), (110, 10), (118, 11),
      (102, 12), (114, 13), (101, 27), (32, 32), (34, 34), (39, 39), (92, 92), (78, 0x85),
      (95, 0xA0), (76, 0x2028), (80, 0x2029)]
    let code (n : Nat) : Option (Nat × Nat) := do
      let v ← hexNumber? n rest
      if Text.isScalar v then some (v, n + 1) else none
    if c = 120 then code 2
    else if c = 117 then code 4
    else if c = 85 then code 8
    else (simple.lookup c).map (·, 1)

/-- What ended a part of a quoted scalar. -/
inductive PartEnd where
  | quote | gap
  /-- A backslash at the end of a line. -/
  | escapedBreak
  deriving DecidableEq

/-- Reads a part of a quoted scalar on top of its text; both are reversed. -/
def readPart (double : Bool) (done : List Nat) : Nat → Source → Option (List Nat × PartEnd × Source)
  | 0, _ => none
  | fuel + 1, s =>
    let c := s.next
    if isGap c then some (done, .gap, s)
    else if !double && c == 39 then
      if s.ahead 1 = 39 then readPart double (39 :: done) fuel s.skip.skip
      else some (done, .quote, s.skip)
    else if double && c == 34 then some (done, .quote, s.skip)
    else if double && c == 92 then
      if isBreak (s.ahead 1) then some (done, .escapedBreak, s.skip.skipBreak)
      else match escape? (s.rest.drop 1) with
        | none => none
        | some (v, n) => readPart double (v :: done) fuel (Nat.repeat Source.skip (n + 1) s)
    else readPart double (c :: done) fuel s.skip

/-- Reads the rest of a quoted scalar on top of its text, which is reversed. No document may start
or end in it. -/
def readQuoted (double : Bool) (done : List Nat) : Nat → Source → Option (ScalarText × Source)
  | 0, _ => none
  | fuel + 1, s =>
    if s.atDocumentMark || s.rest.isEmpty then none
    else match readPart double done s.steps s with
      | none => none
      | some (done, .quote, s) => some (⟨done.reverse, false⟩, s)
      | some (done, stop, s) =>
        let quote := if double then 34 else 39
        if stop = .escapedBreak ∧ s.next = quote then some (⟨done.reverse, false⟩, s.skip)
        else match Gap.read 0 s.steps { crossed := stop = .escapedBreak } s with
          | none => none
          | some (g, s) => readQuoted double (g.reversed ++ done) fuel s

/-! ## Block scalars -/

/-- What happens to the line ends after a block scalar. -/
inductive Chomp where
  | strip | clip | keep
  deriving DecidableEq

/-- The head of a block scalar: an indentation and what happens to the line ends. -/
structure BlockHead where
  indent : Option Nat := none
  chomp : Chomp := .clip

/-- Reads the two indicators of a block scalar's head, which come in either order. -/
def readBlockHead (s : Source) : Option (BlockHead × Source) :=
  let chomp (s : Source) : Option (Chomp × Source) :=
    if s.next = 43 then some (.keep, s.skip) else if s.next = 45 then some (.strip, s.skip)
    else none
  match chomp s with
  | some (c, s) =>
    if !isDigit s.next then some ({ chomp := c }, s)
    else if s.next = 48 then none
    else some ({ indent := some (s.next - 48), chomp := c }, s.skip)
  | none =>
    if !isDigit s.next then some ({}, s)
    else if s.next = 48 then none
    else
      let indent := some (s.next - 48)
      match chomp s.skip with
      | some (c, s) => some ({ indent, chomp := c }, s)
      | none => some ({ indent }, s.skip)

/-- Reads spaces and empty lines before a line of a block. Spaces count as indentation up to a
column, if one is given, and no tab may stand among them. Gives the line ends on top of those
before, the last one first, and the widest indentation. -/
def readIndents (column : Option Nat) (widest : Nat) (ends : List Nat) :
    Nat → Source → Option (List Nat × Nat × Source)
  | 0, _ => none
  | fuel + 1, s =>
    let spaces := (s.rest.takeWhile (· == 32)).length
    let spaces := match column with
      | some n => min spaces (n - s.column)
      | none => spaces
    let s := Nat.repeat Source.skip spaces s
    let widest := max widest s.column
    let indented := match column with
      | some n => s.column < n
      | none => true
    if indented && s.next == 9 then none
    else if isBreak s.next then
      let (b, s) := s.takeBreak
      readIndents column widest (b ++ ends) fuel s
    else some (ends, widest, s)

/-- What has been read of a block scalar; texts are reversed. -/
structure Block where
  done : List Nat := []
  /-- The end of the last line. -/
  lastEnd : List Nat := []
  /-- The line ends after it. -/
  more : List Nat := []
  /-- Whether the last line starts with a blank. -/
  lastBlank : Bool := false

/-- Reads the lines of a block that start at a column on top of what has been read. Folding makes a
space of a line end between two lines that do not start with a blank. -/
def readLines (fold : Bool) (column : Nat) (b : Block) : Nat → Source → Option (Block × Source)
  | 0, _ => none
  | fuel + 1, s =>
    if s.column ≠ column ∨ s.rest.isEmpty then some (b, s)
    else
      let blank := isBlank s.next
      let joint :=
        if fold && !b.lastBlank && !blank && b.lastEnd.head? == some 10 then
          (if b.more.isEmpty then [32] else [])
        else b.lastEnd
      let (line, s) := s.takeWhile (!isBreak ·)
      let (lastEnd, s) := s.takeBreak
      match readIndents (some column) 0 [] s.steps s with
      | none => none
      | some (more, _, s) =>
        let done := line.reverse ++ b.more ++ joint ++ b.done
        readLines fold column { done, lastEnd, more, lastBlank := blank } fuel s

/-- Reads a block scalar after its mark, inside something at column `parent`. -/
def readBlock (fold : Bool) (parent : Int) (s : Source) : Option (ScalarText × Source) := do
  let (head, s) ← readBlockHead s
  let s := s.skipWhile isBlank
  let s := if s.next = 35 then s.skipLine else s
  if !isLineEnd s.next then none
  let s := s.skipBreak
  let column := head.indent.map fun n => (max parent 0).toNat + n
  let (more, widest, s) ← readIndents column 0 [] s.steps s
  let column := column.getD (max widest (max (parent + 1).toNat 1))
  let (b, s) ← readLines fold column { more } s.steps s
  let done := match head.chomp with
    | .strip => b.done
    | .clip => b.lastEnd ++ b.done
    | .keep => b.more ++ b.lastEnd ++ b.done
  return (⟨done.reverse, false⟩, s)

end RegisterMachine.Yaml
