import RegisterMachine.Debugger.Session
import RegisterMachine.Engine.Run
import RegisterMachine.Journal.Basic
import RegisterMachine.Text.Columns
import RegisterMachine.Text.Json
import RegisterMachine.Wire.Policy

/-!
# Batches of runs

A batch loads programs, checks them against the native functions that are allowed, runs them one
after the other and reports how each ended, plainly or as JSON. Runs can be recorded in a journal
and counted by a profiler.
-/

namespace RegisterMachine.CommandLine

open Text (Json)
open Number (decimal decimalInt)

/-- Why a program file cannot be used. -/
inductive ProgramFileError where
  | file (path : Bytes) (e : FileError)
  | program (path : Bytes) (e : CodecError)
  deriving DecidableEq, Inhabited

/-- The wording of an error. -/
def ProgramFileError.message : ProgramFileError → Bytes
  | file p e => utf8 "cannot read " ++ p ++ utf8 ": " ++ e.message
  | program p e => p ++ utf8 ": " ++ e.message

/-- The program in a file. -/
def readProgram (files : FileTree) (path : Bytes) : Except ProgramFileError Program := do
  let data ← (files.read path).mapError (.file path)
  (Program.deserialize data).mapError (.program path)

/-- How a batch is run. -/
structure BatchOptions where
  json : Bool := false
  reclaimEvery : Nat := 0
  /-- The native functions that are allowed; none means all. -/
  natives : List Bytes := []
  maxStack : Int := 0
  profile : Bool := false
  deriving DecidableEq, Inhabited

/-- Why a batch came to a halt. -/
inductive BatchError where
  | file (e : ProgramFileError)
  | policy (path : Bytes) (v : NativePolicy.Violation)
  | thread (path : Bytes) (e : Thread.StartError)
  | canceled
  | report (path : Bytes) (e : CodecError)
  | journal (e : Journal.Error)
  deriving DecidableEq, Inhabited

/-- The wording of an error. -/
def BatchError.message : BatchError → Bytes
  | file e => e.message
  | policy p v => p ++ utf8 ": " ++ v.message
  | thread p e => p ++ utf8 ": " ++ e.message
  | canceled => Debugger.canceledMessage
  | report p e => utf8 "building exit report for " ++ p ++ utf8 ": " ++ e.message
  | journal e => e.message

/-- A thread for the program in a file. -/
def prepare (files : FileTree) (opts : BatchOptions) (id path : Bytes) :
    Except BatchError Thread := do
  let p ← (readProgram files path).mapError .file
  ((NativePolicy.restricted opts.natives).check p).mapError (.policy path)
  (Thread.start id p
    { maxStack := opts.maxStack, natives := NativeRegistry.std.restrict opts.natives }).mapError
    (.thread path)

/-- How a thread ended, as JSON. -/
def resultJson (path : Bytes) (t : Thread) : Json :=
  let outcome := match t.exit with
    | some (.panicked p) =>
      [("outcome", .string (utf8 "panic")),
        ("panic", .object [("reason", .string p.reason.name), ("message", .string p.message),
          ("pc", .number p.location.pc), ("offset", .number p.location.offset)])]
    | some (.graceful v) =>
      ("outcome", .string (utf8 "exit_gracefully")) :: Json.optionalString "return" v.text
    | none => []
  .object ([("program", .string path), ("run_id", .string t.id)] ++ outcome
    ++ [("steps", .number t.steps)])

/-- How a thread ended, on a line. -/
def resultLine (path : Bytes) (t : Thread) : Bytes :=
  match t.exit with
  | some (.panicked p) => path ++ utf8 ": " ++ (Exit.panicked p).text
  | some (.graceful v) =>
    path ++ utf8 ": exited gracefully with " ++ v.text ++ utf8 " after " ++ decimal t.steps
      ++ utf8 " steps"
  | none => path

/-- What a profiler counted. -/
def profileText (p : Profiler) : Bytes :=
  let s := p.stats
  utf8 "\nProfile: " ++ decimal s.instructions ++ utf8 " instructions, " ++ decimal s.calls
    ++ utf8 " function invocations\n"
    ++ ((p.topInstructions 10).flatMap fun (m, n) =>
      utf8 "  " ++ Text.padRight 6 (utf8 m.name) ++ utf8 " " ++ Number.padLeft 8 32 (decimal n)
        ++ utf8 "\n")
    ++ ((p.topFunctions 5).flatMap fun f =>
      utf8 "  fn " ++ Text.padRight 12 (decimal f.hash.toNat) ++ utf8 " "
        ++ Number.padLeft 8 32 (decimal f.count) ++ (if f.hot then utf8 " (hot)" else [])
          ++ utf8 "\n")

/-- What a batch leaves behind. -/
structure BatchReport where
  output : Bytes
  journal : Option Journal
  /-- Whether every program ended gracefully, or what went wrong with the batch. -/
  outcome : Except BatchError Bool
  deriving Inhabited

/-- Records and reports the threads that ran. -/
def reportThreads (json : Bool) (now : Int) (output : Bytes) (journal : Option Journal) :
    List (Bytes × Thread) → BatchReport
  | [] => ⟨output, journal, .ok true⟩
  | (path, t) :: rest =>
    let shown := (if json then (resultJson path t).render else resultLine path t) ++ [10]
    let recorded : Except BatchError (Option Journal) :=
      match journal with
      | none => .ok none
      | some j => do
        let r ← (ExitReport.ofThread t).mapError (.report path)
        let (_, j) ← (j.record path r now).mapError .journal
        return some j
    match recorded with
    | .error e => ⟨output, journal, .error e⟩
    | .ok journal =>
      let graceful := (t.exit.map (·.isGraceful)).getD false
      let r := reportThreads json now (output ++ shown) journal rest
      { r with outcome := r.outcome.map (graceful && ·) }

/-- Runs the programs in files. Every one is loaded before the first runs; the budget is for all
runs together, and `ids` names them. -/
def runBatch (files : FileTree) (opts : BatchOptions) (journal : Option Journal) (ids : Nat → Bytes)
    (now : Int) (budget : Nat) (paths : List Bytes) : BatchReport :=
  match paths.zipIdx.mapM fun (path, i) => prepare files opts (ids i) path with
  | .error e => ⟨[], journal, .error e⟩
  | .ok threads =>
    let r := runAll opts.reclaimEvery budget (if opts.profile then some {} else none) threads
    let printed := r.threads.flatMap (·.output)
    if r.canceled then ⟨printed, journal, .error .canceled⟩
    else
      let report := reportThreads opts.json now printed journal (paths.zip r.threads)
      match report.outcome, r.profiler with
      | .ok _, some p =>
        if opts.json then report else { report with output := report.output ++ profileText p }
      | _, _ => report

/-- The exit code after a batch. -/
def BatchReport.code (r : BatchReport) : Nat :=
  match r.outcome with
  | .ok true => 0
  | _ => 1

end RegisterMachine.CommandLine
