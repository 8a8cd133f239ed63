import RegisterMachine.Journal.Basic
import RegisterMachine.Calendar
import RegisterMachine.Text.Columns
import RegisterMachine.Text.Json

/-!
# Journal listings

Recorded runs as text: one line for each of several runs, plain or as JSON, or all that is known of
a single run.
-/

namespace RegisterMachine

open Text (Json)

namespace JournalEntry

/-- The moment of recording. -/
def date (e : JournalEntry) : Date := .ofSeconds e.recordedAt

/-- The entry as JSON. -/
def json (e : JournalEntry) : Json :=
  .object ([("run_id", .string e.id.text), ("program", .string e.program),
      ("program_hash", .string e.programHash), ("arch", .string e.arch),
      ("outcome", .string e.outcome)]
    ++ Json.optionalString "panic_reason" e.panicReason
    ++ Json.optionalString "return" e.returned
    ++ [("steps", .number e.steps), ("recorded_at", .string e.date.exchange),
      ("has_snapshot", .bool (!e.isGraceful))])

/-- The entry on a line. -/
def line (e : JournalEntry) : Bytes :=
  Bytes.join [32, 32] [e.id.text, e.date.plain, Text.padRight 15 e.outcome, Text.padRight 4 e.arch,
    Text.padRight 20 (if e.isGraceful then e.returned else e.panicReason), e.program]

/-- The lines about a panic that a report holds. -/
def panicLines (r : ExitReport) : List Bytes :=
  (match r.exit.bind (·.panic) with
    | some p => [utf8 "Message:  " ++ p.message]
    | none => [])
  ++ (match r.snapshot with
    | none => []
    | some s =>
      let location := ((s.exit.bind (·.panic)).map (·.location)).getD s.location
      (utf8 "Panicked: pc " ++ Number.decimalInt location.pc ++ utf8 ", "
        ++ Number.decimal s.stack.slots.length ++ utf8 " stack slots, "
        ++ Number.decimal s.heap.length ++ utf8 " heap entries")
      :: s.registers.map fun x =>
        utf8 "  " ++ Text.padRight 2 x.name ++ utf8 " " ++ Text.padRight 8 x.type ++ utf8 " "
          ++ x.value.text)

/-- The lines about a run, up to how it ended. -/
def headLines (e : JournalEntry) : List Bytes :=
  [utf8 "Run:      " ++ e.id.text,
    utf8 "Program:  " ++ e.program ++ utf8 " (" ++ e.programHash ++ utf8 ")",
    utf8 "Arch:     " ++ e.arch,
    utf8 "Recorded: " ++ e.date.exchange,
    utf8 "Steps:    " ++ Number.decimal e.steps,
    utf8 "Outcome:  " ++ e.outcome ++ (if e.isGraceful then utf8 " with " ++ e.returned
      else utf8 " (" ++ e.panicReason ++ utf8 ")")]

end JournalEntry

namespace Journal

/-- Runs one below the other. -/
def list (entries : List JournalEntry) (json : Bool) : Bytes :=
  if json then entries.flatMap fun e => e.json.render ++ [10]
  else if entries.isEmpty then utf8 "No runs recorded\n"
  else entries.flatMap fun e => e.line ++ [10]

/-- Why a run cannot be shown. -/
inductive ShowError where
  | badId (text : Bytes) (e : RunId.ParseError)
  | notFound
  | report (e : Wire.WireError)
  deriving DecidableEq, Inhabited

/-- The wording of an error. -/
def ShowError.message : ShowError → Bytes
  | badId s e => utf8 "invalid run id " ++ Text.quote s ++ utf8 ": " ++ e.message
  | notFound => Error.notFound.message
  | report e => e.message

/-- All about one run, and what kept the text from being complete. -/
def describe (j : Journal) (id : Bytes) : Bytes × Option ShowError :=
  match RunId.parse id with
  | .error e => ([], some (.badId id e))
  | .ok runId =>
    match j.get? runId with
    | none => ([], some .notFound)
    | some e =>
      let text (lines : List Bytes) : Bytes := lines.flatMap (· ++ [10])
      if e.isGraceful then (text e.headLines, none)
      else match e.decodeReport with
        | .error err => (text e.headLines, some (.report err))
        | .ok r => (text (e.headLines ++ JournalEntry.panicLines r), none)

end Journal

end RegisterMachine
