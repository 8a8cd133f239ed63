import RegisterMachine.CommandLine.Commands
import Std.Time.DateTime

/-!
# The program

The commands work on a tree of files. Here that tree is filled from the disk before a command
starts, with all that its arguments name and with the manifests above the working directory, and
what the command changed is written back. A debugger is served line by line, so that it answers at
once.
-/

namespace RegisterMachine

/-- The path of a place, for the disk. -/
def FileTree.diskPath (place : List Bytes) : String :=
  (String.fromUTF8? ⟨(47 :: Bytes.join [47] place).toArray⟩).getD "/"

/-- Notes what the disk has at a place. -/
def FileTree.noting (t : FileTree) (place : List Bytes) : IO FileTree := do
  let path := FileTree.diskPath place
  if ← ((← IO.currentDir) / path).isDir then return t.put place .directory
  try
    return t.put place (.file (← IO.FS.readBinFile path).toList)
  catch _ =>
    return { t with nodes := t.nodes.filter (·.1 != place) }

/-- Notes what the disk has at a path and above it. -/
def FileTree.notingPath (t : FileTree) (p : Bytes) : IO FileTree :=
  let place := t.placeOf p
  ((List.range place.length).map fun n => place.take (n + 1)).foldlM FileTree.noting t

/-- Notes what the disk has at paths. -/
def FileTree.notingAll (t : FileTree) (ps : List Bytes) : IO FileTree :=
  ps.foldlM FileTree.notingPath t

/-- Brings the disk from an earlier tree to a later one. -/
def FileTree.commit (earlier later : FileTree) : IO Unit :=
  (later.changesSince earlier).forM fun (place, n) =>
    match n with
    | .directory => IO.FS.createDirAll (FileTree.diskPath place)
    | .file content => IO.FS.writeBinFile (FileTree.diskPath place) ⟨content.toArray⟩

namespace CommandLine

/-- The paths that arguments may name: an argument, what follows its equals sign, and the program
file that goes with it. -/
def namedPaths (args : List Bytes) : List Bytes :=
  args.flatMap fun a => [a, programPath a] ++ ((Bytes.cut? 61 a).map (·.2)).toList

/-- The paths at which a manifest is looked for. -/
def manifestPaths (workingDir : Bytes) : List Bytes :=
  (Manifest.ancestors workingDir.length workingDir).flatMap fun dir =>
    [Path.join [dir, Manifest.tomlName], Path.join [dir, Manifest.yamlName]]

/-- The files that a command can look at. -/
def readDisk (args : List Bytes) : IO FileTree := do
  let workingDir := utf8 (← IO.currentDir).toString
  let t : FileTree := { workingDir }
  let t ← t.notingAll (manifestPaths workingDir ++ namedPaths args)
  match Manifest.find t Path.here with
  | .ok m => t.notingPath (m.getD Manifest.default).journalFile
  | .error _ => return t

/-- Writes out a text. -/
def emit (stream : IO.FS.Stream) (text : Bytes) : IO Unit := do
  stream.write ⟨text.toArray⟩
  stream.flush

/-- Shows an outcome, after which the files are as it says. -/
def conclude (earlier : FileTree) (o : Outcome) : IO UInt32 := do
  earlier.commit o.files
  emit (← IO.getStdout) o.stdout
  emit (← IO.getStderr) o.stderr
  return UInt32.ofNat o.code

/-- Serves a console line by line. -/
partial def converse (c : Debugger.Console) : IO UInt32 := do
  let out ← IO.getStdout
  emit out c.prompt
  let input := Text.lines Text.lineLimit (utf8 (← (← IO.getStdin).getLine))
  match input.lines with
  | [] =>
    conclude c.files (.ofServed ⟨c, [], if input.overlong then some .overlongLine else none⟩)
  | line :: _ =>
    let files ← c.files.notingAll (Text.words line)
    let r := { c with files }.execute line
    emit out r.render
    files.commit r.console.files
    if r.exits then return 0 else converse r.console

/-- More steps than any run can take. -/
def unlimited : Nat := 2 ^ (60 : Nat)

end CommandLine

end RegisterMachine

open RegisterMachine in
/-- Carries out the command that the arguments give. -/
def main (arguments : List String) : IO UInt32 := do
  let args := arguments.map utf8
  let files ← CommandLine.readDisk args
  let random ← IO.getRandomBytes (16 * (args.length + 1)).toUSize
  let stdout ← IO.getStdout
  let env : CommandLine.Environment :=
    { files
      ids := fun n => (RunId.ofRandom ((random.toList.drop (16 * n)).take 16)).text
      now := (← Std.Time.Timestamp.now).toSecondsSinceUnixEpoch.val
      budget := CommandLine.unlimited
      terminal := (← stdout.isTty) && (← IO.getEnv "NO_COLOR").isNone }
  match CommandLine.start env args with
  | .finished o => CommandLine.conclude files o
  | .console c =>
    files.commit c.files
    CommandLine.emit stdout c.greeting
    CommandLine.converse c
