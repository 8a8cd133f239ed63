import RegisterMachine.Manifest.Reading

/-!
# Finding manifests

A directory's manifest is its TOML file or, when there is none, its YAML file. A project's manifest
is the one of the nearest directory above that has one.
-/

namespace RegisterMachine.Manifest

/-- The name of a manifest in TOML. -/
def tomlName : Bytes := utf8 "regvm.toml"

/-- The name of a manifest in YAML. -/
def yamlName : Bytes := utf8 "regvm.yaml"

/-- Why a manifest cannot be used. -/
inductive LoadError where
  | file (path : Bytes) (e : FileError)
  | text (path : Bytes)
  | settings (path : Bytes) (f : Fault)
  deriving DecidableEq, Inhabited

/-- The wording of an error. -/
def LoadError.message : LoadError → Bytes
  | file p e => utf8 "cannot read " ++ p ++ utf8 ": " ++ e.message
  | text p => utf8 "parse error in " ++ p
  | settings p f => p ++ utf8 ": " ++ f.message

/-- A manifest from its file's path and text. -/
def ofText (files : FileTree) (dir path : Bytes) (read : Bytes → Option Manifest) (text : Bytes) :
    Except LoadError Manifest :=
  match read text with
  | none => .error (.text path)
  | some m =>
    let m := { m with dir := Path.absolute files.workingDir dir, path }.withDefaults
    match m.fault? with
    | some f => .error (.settings path f)
    | none => .ok m

/-- The manifest of a directory. -/
def load (files : FileTree) (dir : Bytes) : Except LoadError Manifest :=
  let toml := Path.join [dir, tomlName]
  match files.read toml with
  | .ok text => ofText files dir toml ofToml? text
  | .error e =>
    if e.fault ≠ .notFound then .error (.file toml e)
    else
      let yaml := Path.join [dir, yamlName]
      match files.read yaml with
      | .ok text => ofText files dir yaml ofYaml? text
      | .error e => .error (.file yaml e)

/-- Whether a directory has a manifest. -/
def isIn (files : FileTree) (dir : Bytes) : Bool :=
  files.has (Path.join [dir, tomlName]) || files.has (Path.join [dir, yamlName])

/-- A directory and those above it, the nearest first. -/
def ancestors : Nat → Bytes → List Bytes
  | 0, dir => [dir]
  | n + 1, dir =>
    let above := Path.parent dir
    if above = dir then [dir] else dir :: ancestors n above

/-- The manifest of the nearest directory that has one, from a directory upwards. -/
def find (files : FileTree) (start : Bytes) : Except LoadError (Option Manifest) :=
  let dir := Path.absolute files.workingDir start
  match (ancestors dir.length dir).find? (isIn files) with
  | none => .ok none
  | some dir => (load files dir).map some

end RegisterMachine.Manifest
