import RegisterMachine.Files.Tree
import RegisterMachine.Journal.RunId
import RegisterMachine.Wire.Report

/-!
# The run journal

The journal keeps a record of runs: which program ran, how it ended, and the exit report. Entries
are kept in the order of recording, and a run can be recorded only once. The journal lives in a file
of its own; `Journal.openAt` makes the file when there is none, and `Journal.save` writes it back.
-/

namespace RegisterMachine

/-- A recorded run. -/
structure JournalEntry where
  id : RunId
  program : Bytes
  /-- The digest of the program's file in hexadecimal digits. -/
  programHash : Bytes
  arch : Bytes
  outcome : Bytes
  /-- Empty when the run ended gracefully. -/
  panicReason : Bytes
  steps : Nat
  /-- The text of the value returned, empty after a panic. -/
  returned : Bytes
  /-- The written exit report. -/
  report : Bytes
  /-- When the run was recorded, in seconds. -/
  recordedAt : Int
  deriving DecidableEq, Inhabited

namespace JournalEntry

/-- Whether the run ended without a panic. -/
def isGraceful (e : JournalEntry) : Bool := e.outcome == utf8 "exit_gracefully"

/-- The exit report. -/
def decodeReport (e : JournalEntry) : Except Wire.WireError ExitReport := ExitReport.decode e.report

/-- The entry as a data item. -/
def item (e : JournalEntry) : Cbor :=
  .array [.bytes e.id.bytes, .bytes e.program, .bytes e.programHash, .bytes e.arch,
    .bytes e.outcome, .bytes e.panicReason, .unsigned e.steps, .bytes e.returned, .bytes e.report,
    .ofInt e.recordedAt]

/-- Reads an entry. -/
def ofItem? : Cbor → Option JournalEntry
  | .array [.bytes id, .bytes program, .bytes programHash, .bytes arch, .bytes outcome,
      .bytes panicReason, .unsigned steps, .bytes returned, .bytes report, at'] =>
    (Cbor.readInt at').toOption.map fun recordedAt =>
      { id := ⟨id⟩, program, programHash, arch, outcome, panicReason, steps, returned, report
        recordedAt }
  | _ => none

end JournalEntry

/-- A journal. -/
structure Journal where
  /-- The entries, the oldest first. -/
  entries : List JournalEntry := []
  deriving DecidableEq, Inhabited

namespace Journal

/-- Why a run cannot be recorded or found, or the journal not be opened. -/
inductive Error where
  | badId (text : Bytes) (e : RunId.ParseError)
  /-- The report tells of no end. -/
  | unfinished
  | duplicate
  | notFound
  | directory (e : FileError)
  | unopenable
  | notJournal
  deriving DecidableEq, Inhabited

/-- The wording of an error. -/
def Error.message : Error → Bytes
  | badId s e => utf8 "run id " ++ Text.quote s ++ utf8 ": " ++ e.message
  | unfinished => utf8 "run has not ended"
  | duplicate =>
    utf8 "saving run: constraint failed: UNIQUE constraint failed: runs.run_id (2067)"
  | notFound => utf8 "journal entry not found"
  | directory e => utf8 "creating journal directory: " ++ e.message
  | unopenable => utf8 "setting busy timeout: unable to open database file: out of memory (14)"
  | notJournal => utf8 "creating table: file is not a database (26)"

/-- The run with an identifier. -/
def get? (j : Journal) (id : RunId) : Option JournalEntry := j.entries.find? (·.id == id)

/-- The entry for a run that a report tells of. -/
def entryOf (program : Bytes) (r : ExitReport) (now : Int) : Except Error JournalEntry := do
  let id ← (RunId.parse r.id).mapError (.badId r.id)
  match r.exit with
  | none => throw .unfinished
  | some e =>
    let base : JournalEntry :=
      { id, program, programHash := Bytes.hex r.programHash, arch := r.arch
        outcome := utf8 e.kindName, panicReason := [], steps := r.steps, returned := []
        report := r.encode, recordedAt := now }
    if e.isGraceful then return { base with returned := e.value.text }
    else match e.panic with
      | none => throw .unfinished
      | some p => return { base with panicReason := p.reason.name }

/-- Records a run. -/
def record (j : Journal) (program : Bytes) (r : ExitReport) (now : Int) :
    Except Error (JournalEntry × Journal) := do
  let e ← entryOf program r now
  if (j.get? e.id).isSome then throw .duplicate
  return (e, { entries := j.entries ++ [e] })

/-- The latest `n` runs, the newest first; all of them when `n` is not positive. -/
def recent (j : Journal) (n : Int) : List JournalEntry :=
  if n ≤ 0 then j.entries.reverse else j.entries.reverse.take n.toNat

/-- The content of a journal's file. -/
def encode (j : Journal) : Bytes := (Cbor.array (j.entries.map (·.item))).encode

/-- Reads the content of a journal's file; a file of at most one byte is an empty journal. -/
def decode? (data : Bytes) : Option Journal :=
  if data.length ≤ 1 then some {}
  else match Cbor.decode? data with
    | some (.array items) => (items.mapM JournalEntry.ofItem?).map fun es => { entries := es }
    | _ => none

/-- The file of the journal at a path. What follows a question mark asks for ways of opening the
file and is not part of its name. -/
def filePath (path : Bytes) : Bytes :=
  match path.takeWhile (· != 63) with
  | [] => path
  | file => file

/-- Writes a journal to its file. -/
def save (j : Journal) (files : FileTree) (path : Bytes) : Except Error FileTree :=
  (files.write (filePath path) j.encode).mapError fun _ => .unopenable

/-- Opens the journal at a path, making it and the directories above it where they are missing. -/
def openAt (files : FileTree) (path : Bytes) : Except Error (Journal × FileTree) := do
  let files ← (files.makeDirectory (Path.parent path)).mapError .directory
  if files.has (filePath path) then
    match files.read (filePath path) with
    | .error _ => throw .unopenable
    | .ok data =>
      match decode? data with
      | some j => return (j, files)
      | none => throw .notJournal
  else return ({}, ← ({} : Journal).save files path)

end Journal

end RegisterMachine
