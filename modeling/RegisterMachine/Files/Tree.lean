import RegisterMachine.Files.Path

/-!
# File trees

Files and directories as a finite map from places to nodes. A place is the list of names that lead
to it from the root, which is always a directory. Paths are followed part by part: every part but
the last has to be a directory.
-/

namespace RegisterMachine

/-- What is at a place. -/
inductive FileNode where
  | file (content : Bytes)
  | directory
  deriving DecidableEq, Inhabited

/-- Why a path cannot be used. -/
inductive FileFault where
  | notFound | notDirectory | isDirectory | nameTooLong | invalid
  deriving DecidableEq, Inhabited

/-- The wording of a fault. -/
def FileFault.message : FileFault → String
  | notFound => "no such file or directory"
  | notDirectory => "not a directory"
  | isDirectory => "is a directory"
  | nameTooLong => "file name too long"
  | invalid => "invalid argument"

/-- What was being done with a path. -/
inductive FileAction where
  | opening | reading | making
  deriving DecidableEq, Inhabited

/-- The name of an action in messages. -/
def FileAction.name : FileAction → String
  | opening => "open"
  | reading => "read"
  | making => "mkdir"

/-- A failure of working with a file. -/
structure FileError where
  action : FileAction
  path : Bytes
  fault : FileFault
  deriving DecidableEq, Inhabited

/-- The wording of an error. -/
def FileError.message (e : FileError) : Bytes :=
  utf8 e.action.name ++ utf8 " " ++ e.path ++ utf8 ": " ++ utf8 e.fault.message

/-- A tree of files and the directory from which relative paths start. -/
structure FileTree where
  /-- An absolute path. -/
  workingDir : Bytes
  nodes : List (List Bytes × FileNode) := []
  deriving DecidableEq, Inhabited

namespace FileTree

/-- The longest name that a file can have. -/
def maxName : Nat := 255

/-- The longest path that can be followed. -/
def maxPath : Nat := 4095

/-- The parts of a path. -/
def parts (p : Bytes) : List Bytes := Bytes.splitOn 47 p

/-- The place of the working directory. -/
def workingPlace (t : FileTree) : List Bytes := (parts t.workingDir).filter (!·.isEmpty)

/-- What is at a place. -/
def node? (t : FileTree) (place : List Bytes) : Option FileNode :=
  if place.isEmpty then some .directory else t.nodes.lookup place

/-- Puts a node at a place. -/
def put (t : FileTree) (place : List Bytes) (n : FileNode) : FileTree :=
  { t with nodes := (place, n) :: t.nodes.filter (·.1 != place) }

/-- Puts a node at a place and directories where places above it are empty. -/
def plant (t : FileTree) (place : List Bytes) (n : FileNode) : FileTree :=
  let above := (List.range place.length).map place.take
  (above.foldl (fun t p => if (t.node? p).isNone then t.put p .directory else t) t).put place n

/-- A tree with nothing but the working directory. -/
def empty (workingDir : Bytes) : FileTree :=
  let t : FileTree := { workingDir }
  t.plant t.workingPlace .directory

/-- Follows the parts of a path from a place. -/
def follow (t : FileTree) (place : List Bytes) : List Bytes → Except FileFault (List Bytes)
  | [] => .ok place
  | part :: rest =>
    match t.node? place with
    | some .directory =>
      if part = [] ∨ part = Path.here then t.follow place rest
      else if part = Path.above then t.follow place.dropLast rest
      else if maxName < part.length then .error .nameTooLong
      else if (t.node? (place ++ [part])).isNone then .error .notFound
      else t.follow (place ++ [part]) rest
    | _ => .error .notDirectory

/-- The place from which a path starts. -/
def origin (t : FileTree) (p : Bytes) : List Bytes :=
  if Path.isAbsolute p then [] else t.workingPlace

/-- What is wrong with the text of a path, wherever it leads. -/
def textFault? (p : Bytes) : Option FileFault :=
  if p.contains 0 then some .invalid
  else if maxPath < p.length then some .nameTooLong
  else if p.isEmpty then some .notFound
  else none

/-- The place that a path leads to. -/
def resolve (t : FileTree) (p : Bytes) : Except FileFault (List Bytes) :=
  match textFault? p with
  | some f => .error f
  | none => t.follow (t.origin p) (parts p)

/-- Whether a path leads to something. -/
def has (t : FileTree) (p : Bytes) : Bool := (t.resolve p).isOk

/-- The content of a file. -/
def read (t : FileTree) (p : Bytes) : Except FileError Bytes :=
  match t.resolve p with
  | .error f => .error ⟨.opening, p, f⟩
  | .ok place =>
    match t.node? place with
    | some (.file content) => .ok content
    | _ => .error ⟨.reading, p, .isDirectory⟩

/-- The place below a directory at which the last part of a path can be put. -/
def placeBelow (t : FileTree) (dir : List Bytes) (last : Bytes) : Except FileFault (List Bytes) :=
  if t.node? dir ≠ some .directory then .error .notDirectory
  else if last = Path.here ∨ last = Path.above then .error .isDirectory
  else if maxName < last.length then .error .nameTooLong
  else .ok (dir ++ [last])

/-- The place at which a file is written: its directory has to exist, and a path that ends in a
slash names a directory. -/
def writePlace (t : FileTree) (p : Bytes) : Except FileFault (List Bytes) := do
  if let some f := textFault? p then throw f
  let trailing := (parts p).reverse.takeWhile (·.isEmpty)
  match (parts p).reverse.dropWhile (·.isEmpty) with
  | [] => throw .isDirectory
  | last :: before =>
    let dir ← t.follow (t.origin p) before.reverse
    if t.node? dir ≠ some .directory then throw .notDirectory
    if !trailing.isEmpty then throw .isDirectory
    let place ← t.placeBelow dir last
    if t.node? place = some .directory then throw .isDirectory
    return place

/-- Writes a file. -/
def write (t : FileTree) (p content : Bytes) : Except FileError FileTree :=
  match t.writePlace p with
  | .error f => .error ⟨.opening, p, f⟩
  | .ok place => .ok (t.put place (.file content))

/-- The place that a path names, whether or not there is anything. -/
def placeOf (t : FileTree) (p : Bytes) : List Bytes :=
  ((t.origin p ++ parts p).foldl (Path.cleanStep true) []).reverse

/-- The paths on the way to a path, the shortest first: its texts up to each slash, and itself. -/
def waypoints (p : Bytes) : List Bytes :=
  let cuts := (List.range p.length).filter fun n => 0 < n && p[n]? == some 47
  cuts.map p.take ++ [p]

/-- Makes a directory unless it is there; the one that holds it has to exist. -/
def makeOne (t : FileTree) (p : Bytes) : Except FileError FileTree :=
  match t.resolve p with
  | .ok place =>
    if t.node? place = some .directory then .ok t else .error ⟨.making, p, .notDirectory⟩
  | .error .notFound =>
    let place := do
      let some last := (parts p).getLast? | throw FileFault.notFound
      t.placeBelow (← t.follow (t.origin p) (parts p).dropLast) last
    match place with
    | .error f => .error ⟨.making, p, f⟩
    | .ok place => .ok (t.put place .directory)
  | .error f => .error ⟨.making, p, f⟩

/-- Makes a directory and those above it; an error names the first path on the way that fails. -/
def makeDirectory (t : FileTree) (p : Bytes) : Except FileError FileTree :=
  (waypoints p).foldlM makeOne t

/-- What a tree has and an earlier one has not, directories before what they hold. -/
def changesSince (t earlier : FileTree) : List (List Bytes × FileNode) :=
  t.nodes.reverse.filter fun (place, n) => earlier.node? place ≠ some n

end FileTree

end RegisterMachine
