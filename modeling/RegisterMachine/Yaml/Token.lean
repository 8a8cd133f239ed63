import RegisterMachine.Yaml.Scalar

/-!
# Tokens

The pieces that a YAML text is made of. Some stand for characters of the text; those that start and
end block collections stand for changes of the indentation. Here are also the readers of tokens with
a name in them: anchors, tags and directives.
-/

namespace RegisterMachine.Yaml

/-- A piece of a text. -/
inductive Token where
  | streamEnd
  | documentStart
  | documentEnd
  /-- The version that a document is written for. -/
  | version (major minor : Nat)
  /-- A short form for the start of tags. -/
  | tagHandle (handle stem : Bytes)
  | blockSequenceStart
  | blockMappingStart
  | blockEnd
  | flowSequenceStart
  | flowSequenceEnd
  | flowMappingStart
  | flowMappingEnd
  /-- The dash before an entry of a block sequence. -/
  | blockEntry
  /-- The comma between the entries of a flow collection. -/
  | flowEntry
  | key
  | value
  /-- A name for the node that follows. -/
  | anchor (name : Bytes)
  /-- The node with a name. -/
  | reference (name : Bytes)
  /-- A tag; without a handle the suffix is all of it. -/
  | tag (handle suffix : Bytes)
  | scalar (text : Bytes) (plain : Bool)
  deriving DecidableEq, Inhabited

/-! ## Anchors -/

/-- Reads a name after its mark. It ends before a gap or a mark that cannot be part of a name. -/
def readName (s : Source) : Option (Bytes × Source) :=
  let (name, s) := s.takeWhile isNameChar
  let ends := isGap s.next || [63, 58, 44, 93, 125, 37, 64, 96].contains s.next
  if name.isEmpty || !ends then none else some (Text.ofRunes name, s)

/-! ## Tags -/

/-- Characters of tags other than escapes. -/
def isTagChar (c : Nat) : Bool :=
  isNameChar c || [59, 47, 63, 58, 64, 38, 61, 43, 36, 44, 46, 33, 126, 42, 39, 40, 41,
    91, 93].contains c

/-- How many bytes a UTF-8 sequence has, by its first byte. -/
def sequenceLength? (b : Nat) : Option Nat :=
  if b < 0x80 then some 1
  else if b < 0xC0 then none
  else if b < 0xE0 then some 2
  else if b < 0xF0 then some 3
  else if b < 0xF8 then some 4
  else none

/-- Reads an escaped byte: a percent sign and two hexadecimal digits. -/
def readOctet (s : Source) : Option (Nat × Source) := do
  if s.next ≠ 37 then none
  let b ← hexNumber? 2 (s.rest.drop 1)
  return (b, s.skip.skip.skip)

/-- Reads `n` escaped bytes that continue a UTF-8 sequence. -/
def readOctets : Nat → Source → Option (Bytes × Source)
  | 0, s => some ([], s)
  | n + 1, s => do
    let (b, s) ← readOctet s
    if b < 0x80 ∨ 0xC0 ≤ b then none
    let (bs, s) ← readOctets n s
    return (UInt8.ofNat b :: bs, s)

/-- Reads characters of a tag and escaped ones. -/
def readTagChars : Nat → Source → Option (Bytes × Source)
  | 0, s => some ([], s)
  | fuel + 1, s =>
    if isTagChar s.next then
      (readTagChars fuel s.skip).map fun (bs, r) => (Text.encodeRune s.next ++ bs, r)
    else if s.next = 37 then do
      let (b, s) ← readOctet s
      let (more, s) ← readOctets ((← sequenceLength? b) - 1) s
      let (bs, s) ← readTagChars fuel s
      return (UInt8.ofNat b :: more ++ bs, s)
    else some ([], s)

/-- Reads a part of a tag that is not empty. -/
def readTagPart (s : Source) : Option (Bytes × Source) := do
  let (bs, s) ← readTagChars s.steps s
  if bs.isEmpty then none else some (bs, s)

/-- Reads what may be a handle: an exclamation mark, a name and perhaps another mark. -/
def readHandle (s : Source) : Option (Bytes × Source) := do
  if s.next ≠ 33 then none
  let (name, s) := s.skip.takeWhile isNameChar
  let start := 33 :: Text.ofRunes name
  if s.next = 33 then some (start ++ [33], s.skip) else some (start, s)

/-- Reads a tag: in angle brackets, or with or without a handle. -/
def readTag (s : Source) : Option (Token × Source) := do
  let (t, s) ←
    if s.ahead 1 = 60 then do
      let (uri, s) ← readTagPart s.skip.skip
      if s.next ≠ 62 then none
      pure (Token.tag [] uri, s.skip)
    else do
      let (handle, s) ← readHandle s
      if 1 < handle.length ∧ handle.getLast? = some 33 then
        let (suffix, s) ← readTagPart s
        pure (Token.tag handle suffix, s)
      else
        let (more, s) ← readTagChars s.steps s
        let suffix := handle.drop 1 ++ more
        pure (if suffix.isEmpty then Token.tag [] [33] else Token.tag [33] suffix, s)
  if isGap s.next then some (t, s) else none

/-! ## Directives -/

/-- Reads a part of a version, which has one or two digits. -/
def readVersionPart (s : Source) : Option (Nat × Source) :=
  let (digits, s) := s.takeWhile isDigit
  if digits.isEmpty || 2 < digits.length then none
  else some (digits.foldl (fun v d => v * 10 + (d - 48)) 0, s)

/-- Reads the value of a version directive. -/
def readVersion (s : Source) : Option (Token × Source) := do
  let (major, s) ← readVersionPart (s.skipWhile isBlank)
  if s.next ≠ 46 then none
  let (minor, s) ← readVersionPart s.skip
  return (.version major minor, s)

/-- Reads the value of a tag directive. -/
def readTagDirective (s : Source) : Option (Token × Source) := do
  let (handle, s) ← readHandle (s.skipWhile isBlank)
  if handle ≠ [33] ∧ handle.getLast? ≠ some 33 then none
  if !isBlank s.next then none
  let (stem, s) ← readTagPart (s.skipWhile isBlank)
  if isGap s.next then some (.tagHandle handle stem, s) else none

/-- Reads a directive to the end of its line. -/
def readDirective (s : Source) : Option (Token × Source) := do
  let (name, s) := s.skip.takeWhile isNameChar
  if name.isEmpty || !isGap s.next then none
  let (t, s) ←
    if Text.ofRunes name = utf8 "YAML" then readVersion s
    else if Text.ofRunes name = utf8 "TAG" then readTagDirective s
    else none
  let s := s.skipWhile isBlank
  let s := if s.next = 35 then s.skipLine else s
  if isLineEnd s.next then some (t, s.skipBreak) else none

end RegisterMachine.Yaml
