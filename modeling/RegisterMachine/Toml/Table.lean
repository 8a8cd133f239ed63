import RegisterMachine.Toml.Statement

/-!
# TOML tables

The table that the statements of a text build up. A table may come to be implicitly, as a part of
the key of another one, and may then still be defined, once; defining anything else twice is an
error. A table that is not defined yet keeps its entries when it is, but an array takes its place.
-/

namespace RegisterMachine.Toml

/-- What a key stands for. -/
inductive Node where
  | leaf (v : Value)
  | table (entries : List (Bytes × Node))
  /-- An array of tables, the last one first. -/
  | tables (items : List (List (Bytes × Node)))
  deriving Inhabited

/-- A table. -/
abbrev Entries := List (Bytes × Node)

/-- Sets an entry of a table. -/
def Entries.set (es : Entries) (k : Bytes) (n : Node) : Entries :=
  match es with
  | [] => [(k, n)]
  | (k', n') :: rest => if k' = k then (k, n) :: rest else (k', n') :: Entries.set rest k n

/-- Changes the table that a path leads to; where it meets an array of tables, the last one is
meant. Nothing comes of a path that leads elsewhere. -/
def Entries.update (f : Entries → Option Entries) (es : Entries) : List Bytes → Option Entries
  | [] => f es
  | k :: ks =>
    match es.lookup k with
    | some (.table t) => (Entries.update f t ks).map fun t => es.set k (.table t)
    | some (.tables (t :: ts)) => (Entries.update f t ks).map fun t => es.set k (.tables (t :: ts))
    | _ => none

/-- Puts a node at a path, making tables on the way. -/
def Entries.place (es : Entries) (n : Node) : List Bytes → Entries
  | [] => es
  | [k] => es.set k n
  | k :: ks =>
    let inner := match es.lookup k with
      | some (.table t) => t
      | _ => []
    es.set k (.table (Entries.place inner n ks))

/-- The entry with a key in the table that a path leads to: nothing when the path leads
elsewhere. -/
def Entries.entry? (es : Entries) (k : Bytes) : List Bytes → Option (Option Node)
  | [] => some (es.lookup k)
  | p :: ps =>
    match es.lookup p with
    | some (.table t) => Entries.entry? t k ps
    | some (.tables (t :: _)) => Entries.entry? t k ps
    | _ => none

/-- What has been built so far. -/
structure Build where
  root : Entries := []
  /-- Paths of tables that are not defined yet. -/
  implicits : List (List Bytes) := []
  /-- Paths of arrays. -/
  arrays : List (List Bytes) := []
  /-- The table whose entries follow. -/
  context : List Bytes := []
  deriving Inhabited

mutual

/-- The node of a value. -/
def Value.node : Value → Node
  | .table es => .table (entriesNode [] es)
  | v => .leaf v

/-- Adds the entries of an inline table to a table; keys of several parts make tables in it. -/
def entriesNode (done : Entries) : List (List Bytes × Value) → Entries
  | [] => done
  | (k, v) :: rest => entriesNode (done.place v.node k) rest

end

namespace Build

/-- Marks a table as not defined yet. -/
def addImplicit (b : Build) (path : List Bytes) : Build :=
  { b with implicits := path :: b.implicits }

/-- Marks a table as defined. -/
def dropImplicit (b : Build) (path : List Bytes) : Build :=
  { b with implicits := b.implicits.filter (· != path) }

/-- The path under which the type of an entry is noted: for an empty key that of its table. -/
def typePath (b : Build) (k : Bytes) : List Bytes :=
  if k.isEmpty ∧ !b.context.isEmpty then b.context else b.context ++ [k]

/-- Notes whether a path stands for an array. -/
def setArray (b : Build) (path : List Bytes) (isArray : Bool) : Build :=
  let others := b.arrays.filter (· != path)
  { b with arrays := if isArray then path :: others else others }

/-- Defines an entry of a table. -/
def setEntry (b : Build) (path : List Bytes) (k : Bytes) (n : Node) : Option Build := do
  let whole := path ++ [k]
  let put (b : Build) : Option Build := do
    let root ← b.root.update (fun es => some (es.set k n)) path
    return { b with root }
  match ← b.root.entry? k path with
  | none => put b
  | some _ =>
    if !b.implicits.contains whole then none
    else if b.arrays.contains whole then put (b.dropImplicit whole)
    else return b.dropImplicit whole

/-- Makes sure that there are tables on the way to a key. -/
def makeParents (b : Build) (done : List Bytes) : List Bytes → Option Build
  | [] => some b
  | k :: ks => do
    let whole := done ++ [k]
    match ← b.root.entry? k done with
    | none =>
      let root ← b.root.update (fun es => some (es.set k (.table []))) done
      makeParents ({ b with root }.addImplicit whole) whole ks
    | some (.leaf _) => none
    | some _ => makeParents b whole ks

/-- Makes a table, or another table of an array, the one whose entries follow. -/
def enter (b : Build) (key : List Bytes) (array : Bool) : Option Build := do
  let parent := key.dropLast
  let k ← key.getLast?
  let b ← b.makeParents [] parent
  let b ←
    if array then
      let items ← match ← b.root.entry? k parent with
        | none => some []
        | some (.tables ts) => some ts
        | some _ => none
      let root ← b.root.update (fun es => some (es.set k (.tables ([] :: items)))) parent
      pure { b with root }
    else b.setEntry parent k (.table [])
  return { b with context := key }

/-- Goes into the tables that the parts of a key before the last one name. -/
def enterParents (b : Build) : List Bytes → Option Build
  | [] => some b
  | k :: ks => do
    let path := b.context ++ [k]
    let b ← (b.addImplicit path).enter path false
    enterParents b ks

mutual

/-- Takes account of what a value defines inside it: the key of an array, the entries of an inline
table. -/
def define (b : Build) (k : Bytes) (inArray : Bool) : Value → Option Build
  | .array vs => defineItems (b.setArray (b.typePath k) true) k vs
  | .table es => do
    let outer := b.context
    let path := outer ++ [k]
    let b ← (b.addImplicit path).enter path inArray
    let b ← defineEntries b path es
    return { b with context := outer }
  | _ => some b

/-- `define` for the items of an array. -/
def defineItems (b : Build) (k : Bytes) : List Value → Option Build
  | [] => some b
  | v :: vs => do
    let b ← define b k true v
    defineItems b k vs

/-- Defines the entries of an inline table. -/
def defineEntries (b : Build) (path : List Bytes) : List (List Bytes × Value) → Option Build
  | [] => some b
  | (key, v) :: rest => do
    let k ← key.getLast?
    let b ← b.enterParents key.dropLast
    let b ← define b k false v
    let b ← b.setEntry b.context k v.node
    let isArray := match v with
      | .array _ => true
      | _ => false
    let b := b.setArray (b.typePath k) isArray
    defineEntries { b with context := path } path rest

end

/-- Takes account of a statement. -/
def add (b : Build) : Statement → Option Build
  | .table key => do
    let b ← b.enter key false
    return b.setArray key false
  | .arrayTable key => do
    let b ← b.enter key true
    return b.setArray key false
  | .entry key v => defineEntries b b.context [(key, v)]

end Build

/-- The table that a text describes. -/
def table? (text : Bytes) : Option Entries := do
  let statements ← read? text
  let b ← statements.foldlM Build.add {}
  return b.root

end RegisterMachine.Toml
