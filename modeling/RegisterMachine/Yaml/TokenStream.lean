import RegisterMachine.Yaml.Token

/-!
# Token streams

The tokens of a text, read as far as they are asked for. In blocks, a token further to the right
than the indentation starts a collection there, and one further to the left ends those that it is
outside of. A key needs no mark of its own when its colon follows on the same line: so what may be
such a key is noted where it starts, and the tokens for it are put in there once the colon is found.
Therefore a token is handed out only when it is known whether it is a key, and not before two more
have been read.
-/

namespace RegisterMachine.Yaml

/-- A place where a key without a mark may start. -/
structure PossibleKey where
  /-- Whether it has to be a key, because an entry of a block mapping starts there. -/
  required : Bool
  /-- How many tokens are before it. -/
  number : Nat
  index : Nat
  line : Nat
  column : Nat

/-- The tokens of a text: those that wait to be handed out, and what is needed to read more. -/
structure TokenStream where
  source : Source
  /-- The column of the innermost block collection, -1 outside of all. -/
  indent : Int := -1
  /-- The columns of the collections around it. -/
  indents : List Int := []
  /-- The possible key at each level of flow collections, the innermost first; the last level is
  that of blocks. -/
  keys : List (Option PossibleKey) := [none]
  /-- Whether a key without a mark may start at the next token. -/
  keyAllowed : Bool := true
  /-- Tokens that have been read. -/
  queue : List Token := []
  /-- How many tokens have been handed out. -/
  taken : Nat := 0

namespace TokenStream

/-- How deeply collections may nest. -/
def maxDepth : Nat := 10000

/-- How long a key without a mark may be. -/
def maxKey : Nat := 1024

/-- How many tokens have been read when one is handed out. -/
def lookahead : Nat := 3

/-- Whether the next token is inside a flow collection. -/
def inFlow (t : TokenStream) : Bool := !(t.keys.drop 1).isEmpty

/-- Adds a token. -/
def push (t : TokenStream) (token : Token) : TokenStream := { t with queue := t.queue ++ [token] }

/-- Puts a token before the one with a number. -/
def insert (t : TokenStream) (number : Nat) (token : Token) : TokenStream :=
  let n := number - t.taken
  { t with queue := t.queue.take n ++ token :: t.queue.drop n }

/-! ## Keys -/

/-- The possible key at the current level. -/
def key? (t : TokenStream) : Option PossibleKey := t.keys.headD none

/-- Sets the possible key at the current level. -/
def setKey (t : TokenStream) (k : Option PossibleKey) : TokenStream :=
  { t with keys := k :: t.keys.drop 1 }

/-- Gives up the possible key at the current level, unless there has to be one. -/
def dropKey (t : TokenStream) : Option TokenStream :=
  match t.key? with
  | none => some t
  | some k => if k.required then none else some (t.setKey none)

/-- Notes that the next token may start a key. -/
def noteKey (t : TokenStream) : Option TokenStream :=
  if !t.keyAllowed then some t
  else
    let s := t.source
    let required := !t.inFlow && t.indent == (s.column : Int)
    t.dropKey.map fun t =>
      t.setKey (some ⟨required, t.taken + t.queue.length, s.index, s.line, s.column⟩)

/-- Whether a possible key can still become one: it ends on the line that it starts on. -/
def reaches (t : TokenStream) (k : PossibleKey) : Bool :=
  t.source.line ≤ k.line && t.source.index ≤ k.index + maxKey

/-! ## Indentation -/

/-- Ends the block collections to the right of a column. -/
def endBlocks (column : Int) : List Int → TokenStream → TokenStream
  | [], t => t
  | outer :: rest, t =>
    if column < t.indent then
      endBlocks column rest { t.push .blockEnd with indent := outer, indents := rest }
    else t

/-- Ends the block collections to the right of a column; in flow collections columns do not
count. -/
def unroll (t : TokenStream) (column : Int) : TokenStream :=
  if t.inFlow then t else endBlocks column t.indents t

/-- Starts a block collection at a column to the right of the current one; `add` puts its token
in. -/
def roll (t : TokenStream) (column : Nat) (add : TokenStream → TokenStream) : Option TokenStream :=
  if t.inFlow || (column : Int) ≤ t.indent then some t
  else if maxDepth ≤ t.indents.length then none
  else some (add { t with indent := column, indents := t.indent :: t.indents })

/-! ## Reading tokens -/

/-- Moves past blanks, line ends and comments. A tab counts as a blank only where no key may
start. -/
def skipGaps : Nat → TokenStream → TokenStream
  | 0, t => t
  | fuel + 1, t =>
    let s := t.source
    let s := if s.column = 0 ∧ s.next = 0xFEFF then s.skip else s
    let s := s.skipWhile fun c => c == 32 || (c == 9 && (t.inFlow || !t.keyAllowed))
    let s := if s.next = 35 then s.skipComments s.steps else s
    if isBreak s.next then
      skipGaps fuel { t with source := s.skipBreak, keyAllowed := t.keyAllowed || !t.inFlow }
    else { t with source := s }

/-- Moves past a character that is a token. -/
def take (t : TokenStream) (token : Token) (keyAllowed : Bool) : TokenStream :=
  { t.push token with source := t.source.skip, keyAllowed }

/-- The end of the text, which ends its last line too. -/
def readEnd (t : TokenStream) : Option TokenStream := do
  let t ← (t.unroll (-1)).dropKey
  let s := t.source
  let source := if s.column = 0 then s else { s with line := s.line + 1, column := 0 }
  return { t.push .streamEnd with source, keyAllowed := false }

/-- A line that starts or ends a document. -/
def readMarker (t : TokenStream) (token : Token) : Option TokenStream := do
  let t ← (t.unroll (-1)).dropKey
  return { t.push token with source := t.source.skip.skip.skip, keyAllowed := false }

/-- A directive. -/
def readDirectiveLine (t : TokenStream) : Option TokenStream := do
  let t ← (t.unroll (-1)).dropKey
  let (token, source) ← readDirective t.source
  return { t.push token with source, keyAllowed := false }

/-- The start of a flow collection. -/
def readFlowStart (t : TokenStream) (token : Token) : Option TokenStream := do
  let t ← t.noteKey
  if maxDepth < t.keys.length then none
  return { t with keys := none :: t.keys }.take token true

/-- The end of a flow collection. -/
def readFlowEnd (t : TokenStream) (token : Token) : Option TokenStream := do
  let t ← t.dropKey
  return { t with keys := if t.inFlow then t.keys.drop 1 else t.keys }.take token false

/-- The comma between entries of a flow collection. -/
def readFlowEntry (t : TokenStream) : Option TokenStream := do
  let t ← t.dropKey
  return t.take .flowEntry true

/-- The dash before an entry of a block sequence. -/
def readBlockEntry (t : TokenStream) : Option TokenStream := do
  if !t.inFlow && !t.keyAllowed then none
  let t ← t.roll t.source.column (·.push .blockSequenceStart)
  let t ← t.dropKey
  return t.take .blockEntry true

/-- The mark of a key. -/
def readKey (t : TokenStream) : Option TokenStream := do
  if !t.inFlow && !t.keyAllowed then none
  let t ← t.roll t.source.column (·.push .blockMappingStart)
  let t ← t.dropKey
  return t.take .key (!t.inFlow)

/-- The colon before a value, which may make a key of what is before it. -/
def readValue (t : TokenStream) : Option TokenStream := do
  match t.key? with
  | some k =>
    if t.reaches k then
      let t := t.insert k.number .key
      let t ← t.roll k.column (·.insert k.number .blockMappingStart)
      return (t.setKey none).take .value false
    else if k.required then none
    else unmarked (t.setKey none)
  | none => unmarked t
where
  /-- A value whose key has a mark or is missing. -/
  unmarked (t : TokenStream) : Option TokenStream := do
    if !t.inFlow && !t.keyAllowed then none
    let t ← t.roll t.source.column (·.push .blockMappingStart)
    return t.take .value (!t.inFlow)

/-- An anchor or a reference. -/
def readNamed (t : TokenStream) (make : Bytes → Token) : Option TokenStream := do
  let t ← t.noteKey
  let (name, source) ← readName t.source.skip
  return { t.push (make name) with source, keyAllowed := false }

/-- A tag. -/
def readTagToken (t : TokenStream) : Option TokenStream := do
  let t ← t.noteKey
  let (token, source) ← readTag t.source
  return { t.push token with source, keyAllowed := false }

/-- A block scalar, after which a key may start. -/
def readBlockScalar (t : TokenStream) (fold : Bool) : Option TokenStream := do
  let t ← t.dropKey
  let (s, source) ← readBlock fold t.indent t.source.skip
  return { t.push (.scalar (Text.ofRunes s.text) false) with source, keyAllowed := true }

/-- A scalar in quotes. -/
def readQuotedScalar (t : TokenStream) (double : Bool) : Option TokenStream := do
  let t ← t.noteKey
  let (s, source) ← readQuoted double [] t.source.steps t.source.skip
  return { t.push (.scalar (Text.ofRunes s.text) false) with source, keyAllowed := false }

/-- A plain scalar. When lines ended after it, a key may start. -/
def readPlainScalar (t : TokenStream) : Option TokenStream := do
  let t ← t.noteKey
  let (s, source) ← readPlain t.inFlow (t.indent + 1).toNat [] {} t.source.steps t.source
  return { t.push (.scalar (Text.ofRunes s.text) true) with source, keyAllowed := s.crossed }

/-- Whether a plain scalar can start here. -/
def startsPlain (t : TokenStream) : Bool :=
  let s := t.source
  let marks : List Nat :=
    [45, 63, 58, 44, 91, 93, 123, 125, 35, 38, 42, 33, 124, 62, 39, 34, 37, 64, 96]
  !(isGap s.next || marks.contains s.next)
    || (s.next == 45 && !isBlank (s.ahead 1))
    || (!t.inFlow && (s.next == 63 || s.next == 58) && !isGap (s.ahead 1))

/-- Reads a token that starts with its first character, neither a directive nor a document's
mark. -/
def readByMark (t : TokenStream) : Option TokenStream :=
  let c := t.source.next
  let divided := isGap (t.source.ahead 1)
  if c = 91 then t.readFlowStart .flowSequenceStart
  else if c = 123 then t.readFlowStart .flowMappingStart
  else if c = 93 then t.readFlowEnd .flowSequenceEnd
  else if c = 125 then t.readFlowEnd .flowMappingEnd
  else if c = 44 then t.readFlowEntry
  else if c = 45 ∧ divided then t.readBlockEntry
  else if c = 63 ∧ (t.inFlow ∨ divided) then t.readKey
  else if c = 58 ∧ (t.inFlow ∨ divided) then t.readValue
  else if c = 42 then t.readNamed .reference
  else if c = 38 then t.readNamed .anchor
  else if c = 33 then t.readTagToken
  else if c = 124 ∧ !t.inFlow then t.readBlockScalar false
  else if c = 62 ∧ !t.inFlow then t.readBlockScalar true
  else if c = 39 then t.readQuotedScalar false
  else if c = 34 then t.readQuotedScalar true
  else if t.startsPlain then t.readPlainScalar
  else none

/-- Moves past a comment behind the last token, unless that is the dash of an entry. -/
def skipTrailing (t : TokenStream) : TokenStream :=
  if t.queue.getLast? = some .blockEntry then t
  else { t with source := t.source.skipLineComment }

/-- Reads a token, with those that come before it by indentation. -/
def readToken (t : TokenStream) : Option TokenStream :=
  let t := t.skipGaps t.source.steps
  let t := t.unroll t.source.column
  let s := t.source
  if s.rest.isEmpty then t.readEnd
  else if s.column = 0 ∧ s.next = 37 then t.readDirectiveLine
  else if s.atMarker 45 then t.readMarker .documentStart
  else if s.atMarker 46 then t.readMarker .documentEnd
  else t.readByMark.map skipTrailing

/-- The possible key at the token with a number. -/
def keyAt? (number : Nat) : List (Option PossibleKey) → Option PossibleKey
  | [] => none
  | some k :: rest => if k.number = number then some k else keyAt? number rest
  | none :: rest => keyAt? number rest

/-- The possible keys without the one at the token with a number. -/
def withoutKey (number : Nat) : List (Option PossibleKey) → List (Option PossibleKey)
  | [] => []
  | some k :: rest => if k.number = number then none :: rest else some k :: withoutKey number rest
  | none :: rest => none :: withoutKey number rest

/-- Reads tokens until the first one that waits can be handed out. -/
def fill : Nat → TokenStream → Option TokenStream
  | 0, _ => none
  | fuel + 1, t =>
    if t.queue.length < lookahead then t.readToken.bind (fill fuel)
    else match keyAt? t.taken t.keys with
      | none => some t
      | some k =>
        if t.reaches k then t.readToken.bind (fill fuel)
        else if k.required then none
        else some { t with keys := withoutKey t.taken t.keys }

/-- The next token, and the stream with that token still in it. -/
def peek (t : TokenStream) : Option (Token × TokenStream) := do
  let t ← t.fill (t.source.steps + lookahead + 1)
  return (← t.queue.head?, t)

/-- The stream without its next token, which has been read. -/
def advance (t : TokenStream) : TokenStream :=
  { t with queue := t.queue.drop 1, taken := t.taken + 1 }

/-- The tokens of a text. -/
def ofCodePoints (cs : List Nat) : TokenStream := { source := .ofCodePoints cs }

end TokenStream

end RegisterMachine.Yaml
