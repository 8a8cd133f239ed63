import RegisterMachine.Yaml.TokenStream

/-!
# Nodes

The first document of a YAML text as a tree of scalars, sequences and mappings. A node may have an
anchor; a reference to it is a node of its own that names it by number, so that a collection may
refer to itself. `Document.ofText?` reads a document: it keeps the collections that are open on a
stack, and the next token tells whether a node, an entry or an end follows.
-/

namespace RegisterMachine.Yaml

/-- A node of a document. -/
inductive Node where
  /-- A scalar with its tag; one that is not plain is a text whatever it looks like. -/
  | scalar (tag : Option Bytes) (plain : Bool) (text : Bytes)
  | sequence (items : List Node)
  | mapping (entries : List (Node × Node))
  /-- The node with an anchor. References are numbered, and so are anchored nodes. -/
  | reference (name : Bytes) (number target : Nat)
  deriving Inhabited

/-- The node that is not written. -/
def Node.nothing : Node := .scalar none true []

/-- A document: its root and its anchored nodes. -/
structure Document where
  root : Node
  anchored : List (Nat × Node)
  /-- How many references there are. -/
  references : Nat

/-- What has been read of a collection, the last part first. Block mappings may lack a key or a
value, and entries of block sequences may be empty. -/
inductive Open where
  | blockSequence (items : List Node)
  /-- A sequence at the column of the mapping that it is a value of. -/
  | indentlessSequence (items : List Node)
  | blockMapping (entries : List (Node × Node)) (key : Option Node)
  | flowSequence (items : List Node)
  /-- A pair in a flow sequence, which is a mapping of its own. -/
  | flowPair (key : Option Node)
  /-- A flow mapping; `bare` tells that the next key has no value. -/
  | flowMapping (entries : List (Node × Node)) (key : Option Node) (bare : Bool)
  deriving Inhabited

/-- The collection with all that has been read of it. -/
def Open.close : Open → Node
  | blockSequence items | indentlessSequence items | flowSequence items => .sequence items.reverse
  | blockMapping entries _ | flowMapping entries _ _ => .mapping entries.reverse
  | flowPair _ => .mapping []

/-- The state of reading a document. -/
structure Reading where
  tokens : TokenStream
  /-- Handles of tags with what they stand for. -/
  handles : List (Bytes × Bytes) := []
  /-- Open collections with the numbers of their anchors, the innermost first. -/
  stack : List (Open × Option Nat) := []
  /-- Anchors that references mean now. -/
  anchors : List (Bytes × Nat) := []
  /-- How many anchors there have been. -/
  anchorCount : Nat := 0
  anchored : List (Nat × Node) := []
  references : Nat := 0

/-- What is to be done next. -/
inductive Goal where
  /-- Read a node, which may be a block collection, or a sequence at the column of its mapping. -/
  | node (block indentless : Bool)
  /-- Add a node to the innermost collection. -/
  | add (n : Node)
  /-- Go on with the innermost collection. -/
  | proceed

/-- The tag and the number of the anchor that a node has. -/
structure Properties where
  tag : Option Bytes := none
  anchor : Option Nat := none

namespace Reading

/-- The next token. -/
def peek (r : Reading) : Option (Token × Reading) := do
  let (t, tokens) ← r.tokens.peek
  return (t, { r with tokens })

/-- Takes the next token, which has been looked at. -/
def skip (r : Reading) : Reading := { r with tokens := r.tokens.advance }

/-! ## Properties -/

/-- A tag with its handle written out, in its short form when it is one of the common tags. The tag
that says nothing counts as none. -/
def tagOf (r : Reading) (handle suffix : Bytes) : Option (Option Bytes) := do
  let whole ← if handle.isEmpty then some suffix else (r.handles.lookup handle).map (· ++ suffix)
  let common := utf8 "tag:yaml.org,2002:"
  if whole = [33] then some none
  else if common.isPrefixOf whole then some (some (utf8 "!!" ++ whole.drop common.length))
  else some (some whole)

/-- Gives the next node a name. -/
def setAnchor (r : Reading) (name : Bytes) : Nat × Reading :=
  (r.anchorCount,
    { r with anchors := (name, r.anchorCount) :: r.anchors, anchorCount := r.anchorCount + 1 })

/-- The properties of a node before it, an anchor and a tag in either order; and whether there are
any. -/
def properties (r : Reading) : Option (Properties × Bool × Reading) := do
  match ← r.peek with
  | (.anchor name, r) =>
    match ← r.skip.peek with
    | (.tag handle suffix, r) =>
      let tag ← r.tagOf handle suffix
      let (n, r) := r.skip.setAnchor name
      return ({ tag, anchor := some n }, true, r)
    | (_, r) =>
      let (n, r) := r.setAnchor name
      return ({ anchor := some n }, true, r)
  | (.tag handle suffix, r) =>
    let tag ← r.tagOf handle suffix
    match ← r.skip.peek with
    | (.anchor name, r) =>
      let (n, r) := r.skip.setAnchor name
      return ({ tag, anchor := some n }, true, r)
    | (_, r) => return ({ tag }, true, r)
  | (_, r) => return ({}, false, r)

/-- Keeps an anchored node. -/
def keep (r : Reading) (anchor : Option Nat) (n : Node) : Reading :=
  match anchor with
  | some a => { r with anchored := (a, n) :: r.anchored }
  | none => r

/-! ## Steps -/

/-- Opens a collection. -/
def start (r : Reading) (c : Open) (anchor : Option Nat) : Reading :=
  { r with stack := (c, anchor) :: r.stack }

/-- Starts to read a node. -/
def readNode (r : Reading) (block indentless : Bool) : Option (Goal × Reading) := do
  match ← r.peek with
  | (.reference name, r) =>
    let target ← r.anchors.lookup name
    return (.add (.reference name r.references target),
      { r.skip with references := r.references + 1 })
  | (_, r) =>
    let (p, some?, r) ← r.properties
    let (token, r) ← r.peek
    let whole (n : Node) (r : Reading) : Option (Goal × Reading) := some (.add n, r.keep p.anchor n)
    match token with
    | .blockEntry =>
      if indentless then return (.proceed, r.start (.indentlessSequence []) p.anchor)
      else if some? then whole (.scalar p.tag true []) r
      else none
    | .scalar text plain => whole (.scalar p.tag plain text) r.skip
    | .flowSequenceStart => return (.proceed, r.skip.start (.flowSequence []) p.anchor)
    | .flowMappingStart => return (.proceed, r.skip.start (.flowMapping [] none false) p.anchor)
    | .blockSequenceStart =>
      if block then return (.proceed, r.skip.start (.blockSequence []) p.anchor)
      else if some? then whole (.scalar p.tag true []) r
      else none
    | .blockMappingStart =>
      if block then return (.proceed, r.skip.start (.blockMapping [] none) p.anchor)
      else if some? then whole (.scalar p.tag true []) r
      else none
    | _ => if some? then whole (.scalar p.tag true []) r else none

/-- Closes the innermost collection. -/
def finish (r : Reading) : Option (Goal × Reading) :=
  match r.stack with
  | [] => none
  | (c, anchor) :: stack =>
    let n := c.close
    some (.add n, { r with stack }.keep anchor n)

/-- Replaces the innermost collection. -/
def setTop (r : Reading) (c : Open) : Reading :=
  match r.stack with
  | [] => r
  | (_, anchor) :: stack => { r with stack := (c, anchor) :: stack }

/-- Reads a node unless the next token is one of those that can follow it. -/
def nodeUnless (r : Reading) (followers : List Token) (block indentless : Bool) :
    Option (Goal × Reading) := do
  let (t, r) ← r.peek
  if followers.contains t then return (.add .nothing, r) else return (.node block indentless, r)

/-- Adds a node to a collection. Gives the node again when the collection is complete with it. -/
def addTo (n : Node) : Open → Open × Option Node
  | .blockSequence items => (.blockSequence (n :: items), none)
  | .indentlessSequence items => (.indentlessSequence (n :: items), none)
  | .flowSequence items => (.flowSequence (n :: items), none)
  | .blockMapping entries none => (.blockMapping entries (some n), none)
  | .blockMapping entries (some k) => (.blockMapping ((k, n) :: entries) none, none)
  | .flowMapping entries none true => (.flowMapping ((n, .nothing) :: entries) none false, none)
  | .flowMapping entries none false => (.flowMapping entries (some n) false, none)
  | .flowMapping entries (some k) _ => (.flowMapping ((k, n) :: entries) none false, none)
  | .flowPair none => (.flowPair (some n), none)
  | .flowPair (some k) => (.flowPair none, some (.mapping [(k, n)]))

/-- Goes on with the innermost collection. -/
def proceed (r : Reading) : Option (Goal × Reading) := do
  let (c, _) ← r.stack.head?
  let (t, r) ← r.peek
  let blockFollowers : List Token := [.key, .value, .blockEnd]
  match c with
  | .blockSequence _ =>
    match t with
    | .blockEntry => r.skip.nodeUnless [.blockEntry, .blockEnd] true false
    | .blockEnd => r.skip.finish
    | _ => none
  | .indentlessSequence _ =>
    match t with
    | .blockEntry => r.skip.nodeUnless (.blockEntry :: blockFollowers) true false
    | _ => r.finish
  | .blockMapping _ none =>
    match t with
    | .key => r.skip.nodeUnless blockFollowers true true
    | .blockEnd => r.skip.finish
    | _ => none
  | .blockMapping _ (some _) =>
    match t with
    | .value => r.skip.nodeUnless blockFollowers true true
    | _ => return (.add .nothing, r)
  | .flowSequence items =>
    let (t, r) ← if items.isEmpty ∨ t = .flowSequenceEnd then some (t, r)
      else if t = .flowEntry then r.skip.peek
      else none
    match t with
    | .flowSequenceEnd => r.skip.finish
    | .key =>
      let (t, r) ← (r.skip.start (.flowPair none) none).peek
      if [Token.value, .flowEntry, .flowSequenceEnd].contains t then return (.add .nothing, r.skip)
      else return (.node false false, r)
    | _ => return (.node false false, r)
  | .flowPair _ =>
    match t with
    | .value => r.skip.nodeUnless [.flowEntry, .flowSequenceEnd] false false
    | _ => return (.add .nothing, r)
  | .flowMapping entries none _ =>
    let (t, r) ← if entries.isEmpty ∨ t = .flowMappingEnd then some (t, r)
      else if t = .flowEntry then r.skip.peek
      else none
    match t with
    | .flowMappingEnd => r.skip.finish
    | .key => r.skip.nodeUnless [.value, .flowEntry, .flowMappingEnd] false false
    | _ => return (.node false false, r.setTop (.flowMapping entries none true))
  | .flowMapping _ (some _) _ =>
    match t with
    | .value => r.skip.nodeUnless [.flowEntry, .flowMappingEnd] false false
    | _ => return (.add .nothing, r)

/-- Reads until the root is complete. -/
def run : Nat → Goal → Reading → Option (Node × Reading)
  | 0, _, _ => none
  | fuel + 1, .node block indentless, r =>
    (r.readNode block indentless).bind fun (goal, r) => run fuel goal r
  | fuel + 1, .proceed, r => r.proceed.bind fun (goal, r) => run fuel goal r
  | fuel + 1, .add n, r =>
    match r.stack with
    | [] => some (n, r)
    | (c, anchor) :: stack =>
      match addTo n c with
      | (c, none) => run fuel .proceed { r with stack := (c, anchor) :: stack }
      | (_, some pair) => run fuel (.add pair) { r with stack }

/-! ## Documents -/

/-- Reads directives. There may be one for the version, which has to be 1.1, and one for each
handle. -/
def directives (version : Bool) : Nat → Reading → Option Reading
  | 0, _ => none
  | fuel + 1, r => do
    match ← r.peek with
    | (.version major minor, r) =>
      if version ∨ major ≠ 1 ∨ minor ≠ 1 then none else directives true fuel r.skip
    | (.tagHandle handle stem, r) =>
      if (r.handles.lookup handle).isSome then none
      else directives version fuel { r.skip with handles := (handle, stem) :: r.handles }
    | (_, r) => return r

/-- The handles that need no directive. -/
def commonHandles : List (Bytes × Bytes) :=
  [(utf8 "!", utf8 "!"), (utf8 "!!", utf8 "tag:yaml.org,2002:")]

/-- Reads the first document, `none` within when there is none. -/
def document (fuel : Nat) (r : Reading) : Option (Option (Node × Reading)) := do
  match ← r.peek with
  | (.streamEnd, _) => return none
  | (first, r) =>
    let r ← r.directives false fuel
    let (t, r) ← r.peek
    let r := { r with handles := r.handles ++ commonHandles }
    let (root, r) ←
      match first, t with
      | .version .., .documentStart | .tagHandle .., .documentStart | .documentStart,
        .documentStart => do
        let r := r.skip
        match ← r.peek with
        | (.version .., r) | (.tagHandle .., r) | (.documentStart, r) | (.documentEnd, r)
        | (.streamEnd, r) => some (Node.nothing, r)
        | (_, r) => run fuel (.node true false) r
      | .version .., _ | .tagHandle .., _ => none
      | _, _ => run fuel (.node true false) r
    let (_, r) ← r.peek
    return some (root, r)

end Reading

/-- The first document of a text: `none` when the text is no YAML, and `none` within when it has no
document. What follows the document does not count. -/
def Document.ofText? (text : Bytes) : Option (Option Document) := do
  let cs ← codePoints? (if text.isEmpty then [10] else text)
  let r : Reading := { tokens := .ofCodePoints cs }
  match ← r.document (32 * (cs.length + 4)) with
  | none => return none
  | some (root, r) => return some { root, anchored := r.anchored, references := r.references }

end RegisterMachine.Yaml
