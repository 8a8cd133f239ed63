import RegisterMachine.Assembly.Source
import RegisterMachine.CommandLine.Batch
import RegisterMachine.CommandLine.Flags
import RegisterMachine.Debugger.Console
import RegisterMachine.Journal.Listing
import RegisterMachine.Manifest.Loading
import RegisterMachine.Program.Listing

/-!
# The command line

The commands run programs, debug one, assemble a source, list programs and show the journal. A
command is a function of the files, the arguments and the input to an outcome: an exit code, two
output texts and the files afterwards. Debugging goes on line by line, so `start` either finishes a
command or hands over a console.
-/

namespace RegisterMachine.CommandLine

/-- What a command works with. -/
structure Environment where
  files : FileTree
  /-- Identifiers for runs. -/
  ids : Nat → Bytes
  /-- The moment, in seconds. -/
  now : Int
  /-- How many steps all runs may take together. -/
  budget : Nat
  /-- Whether the output goes to a terminal that shows colors. -/
  terminal : Bool := false

/-- What a command comes to. -/
structure Outcome where
  code : Nat
  stdout : Bytes := []
  stderr : Bytes := []
  files : FileTree
  deriving Inhabited

/-- A command that has finished, or one that takes its input line by line. -/
inductive Started where
  | finished (o : Outcome)
  | console (c : Debugger.Console)

/-- A command that failed with a message. -/
def Outcome.failed (files : FileTree) (message : Bytes) (stdout : Bytes) : Outcome :=
  ⟨1, stdout, utf8 "Error: " ++ message ++ utf8 "\n", files⟩

/-- A command that was called in a wrong way. -/
def Outcome.misused (files : FileTree) (message : String) : Outcome :=
  ⟨2, [], utf8 "Error: " ++ utf8 message ++ utf8 "\n", files⟩

/-- What is said about wrong flags, or when help was asked for. -/
def Outcome.ofFlagError (files : FileTree) (e : FlagError) (usage : Bytes) : Outcome :=
  match e with
  | .help => ⟨0, [], usage, files⟩
  | e => ⟨2, [], e.message ++ utf8 "\n" ++ usage, files⟩

/-- The usage of a command with flags. -/
def commandUsage (name : String) (flags : List Flag) : Bytes :=
  utf8 "Usage of " ++ utf8 name ++ utf8 ":\n" ++ flagsHelp flags

/-- Reads the flags of a command and goes on with it. -/
def withFlags (files : FileTree) (name : String) (flags : List Flag) (args : List Bytes)
    (go : Parsed → Outcome) : Outcome :=
  match parseArguments flags args with
  | .error e => .ofFlagError files e (commandUsage name flags)
  | .ok p => go p

/-! ## Running -/

def runFlags : List Flag := [
  ⟨"json", .truth false, "Print one JSON object per program"⟩,
  ⟨"parallel", .truth false, "Run every program on its own goroutine"⟩,
  ⟨"reclaim-every", .count 0, "Reclaim unreachable heap entries every N steps"⟩,
  ⟨"profile", .truth false, "Print instruction and function counts after the runs"⟩,
  ⟨"no-journal", .truth false, "Do not record runs even when the journal is enabled"⟩]

/-- Runs a batch and turns what it leaves into an outcome. -/
def finishBatch (env : Environment) (files : FileTree) (opts : BatchOptions)
    (journal : Option (Journal × Bytes)) (paths : List Bytes) : Outcome :=
  let r := runBatch files opts (journal.map (·.1)) env.ids env.now env.budget paths
  let files := match journal, r.journal with
    | some (_, path), some j => (j.save files path).toOption.getD files
    | _, _ => files
  match r.outcome with
  | .error e => .failed files e.message r.output
  | .ok _ => ⟨r.code, r.output, [], files⟩

/-- Runs programs. -/
def run (env : Environment) (m : Manifest) (args : List Bytes) : Outcome :=
  withFlags env.files "run" runFlags args fun p =>
    if p.operands.isEmpty then .misused env.files "run requires at least one program file"
    else
      let opts : BatchOptions :=
        { json := p.truth "json", reclaimEvery := (p.number "reclaim-every").toNat
          natives := m.natives, maxStack := m.maxStack, profile := p.truth "profile" }
      if m.journalEnabled && !p.truth "no-journal" then
        match Journal.openAt env.files m.journalFile with
        | .error e => .failed env.files e.message []
        | .ok (j, files) => finishBatch env files opts (some (j, m.journalFile)) p.operands
      else finishBatch env env.files opts none p.operands

/-! ## Assembling and listing -/

/-- The ending of a program file's name. -/
def programExtension : String := ".rvm"

def assembleFlags (m : Manifest) : List Flag := [
  ⟨"arch", .text m.arch, "Target architecture: b16, b32 or b64"⟩,
  ⟨"o", .text [], "Output program file (default: input with " ++ programExtension ++ ")"⟩]

/-- The program file for a source file. -/
def programPath (source : Bytes) : Bytes :=
  source.take (source.length - (Path.extension source).length) ++ utf8 programExtension

/-- Assembles a source file; what goes wrong is told by a message. -/
def assembleFile (files : FileTree) (path arch : Bytes) : Except Bytes Program := do
  let some a := Arch.parse? arch | throw (Arch.unknownMessage arch)
  let src ← (files.read path).mapError fun e =>
      utf8 "cannot read " ++ path ++ utf8 ": " ++ e.message
  (Assembly.assemble src a).mapError fun e => path ++ utf8 ": " ++ e.message

/-- Assembles a source into a program file. -/
def assemble (env : Environment) (m : Manifest) (args : List Bytes) : Outcome :=
  withFlags env.files "asm" (assembleFlags m) args fun p =>
    match p.operands with
    | [source] =>
      let out := if (p.text "o").isEmpty then programPath source else p.text "o"
      let written : Except Bytes (Program × FileTree) := do
        let prog ← assembleFile env.files source (p.text "arch")
        let data ← prog.serialize.mapError (·.message)
        let files ← (env.files.write out data).mapError (·.message)
        return (prog, files)
      match written with
      | .error e => .failed env.files e []
      | .ok (prog, files) =>
        ⟨0, utf8 "Wrote " ++ out ++ utf8 " (" ++ Number.decimal prog.length
          ++ utf8 " instructions, " ++ prog.arch.name ++ utf8 ")\n", [], files⟩
    | _ => .misused env.files "asm requires exactly one source file"

/-- Lists programs up to the first that cannot be read. -/
def listPrograms (files : FileTree) (shown : Bytes) : List Bytes → Outcome
  | [] => ⟨0, shown, [], files⟩
  | path :: rest =>
    match readProgram files path with
    | .error e => .failed files e.message shown
    | .ok p => listPrograms files (shown ++ p.listing (Path.base path)) rest

/-- Lists programs. -/
def disassemble (env : Environment) (args : List Bytes) : Outcome :=
  withFlags env.files "disasm" [] args fun p =>
    if p.operands.isEmpty then .misused env.files "disasm requires at least one program file"
    else listPrograms env.files [] p.operands

/-! ## The journal -/

def journalFlags : List Flag := [
  ⟨"n", .int 20, "Number of runs to show, 0 for all"⟩,
  ⟨"json", .truth false, "Print one JSON object per run"⟩,
  ⟨"show", .text [], "Show a single run by id"⟩]

/-- Shows recorded runs. -/
def showJournal (env : Environment) (m : Manifest) (args : List Bytes) : Outcome :=
  withFlags env.files "journal" journalFlags args fun p =>
    let path := m.journalFile
    if !env.files.has path then
      .failed env.files (utf8 "no journal at " ++ path ++ utf8 " (enable [journal] in regvm.toml)")
        []
    else match Journal.openAt env.files path with
      | .error e => .failed env.files e.message []
      | .ok (j, files) =>
        if (p.text "show").isEmpty then
          ⟨0, Journal.list (j.recent (p.number "n")) (p.truth "json"), [], files⟩
        else match j.describe (p.text "show") with
          | (text, none) => ⟨0, text, [], files⟩
          | (text, some e) => .failed files e.message text

/-! ## Debugging -/

def debugFlags (m : Manifest) : List Flag := [
  ⟨"json", .truth (m.output = utf8 "json"), "Emit JSON messages instead of plain text"⟩,
  ⟨"color", .text m.color, "Color plain output: auto, always or never"⟩]

/-- The console of a debugger, with a program when one is given. -/
def debug (env : Environment) (m : Manifest) (args : List Bytes) : Started :=
  let flags := debugFlags m
  match parseArguments flags args with
  | .error e => .finished (.ofFlagError env.files e (commandUsage "debug" flags))
  | .ok p =>
    let color := p.text "color"
    if !Manifest.colorModes.contains color then
      .finished (.failed env.files (utf8 "invalid color mode " ++ Text.quote color) [])
    else
      let session : Debugger.Session :=
        { options := { maxStack := m.maxStack, natives := NativeRegistry.std.restrict m.natives }
          threadId := env.ids 0 }
      let loaded : Except Outcome Debugger.Session :=
        match p.operands with
        | [] => .ok session
        | program :: rest =>
          if 1 < rest.length then
            .error (.misused env.files "debug takes at most a program and a debug symbol file")
          else (session.load env.files program (rest.headD [])).mapError fun e =>
            .failed env.files e.message []
      match loaded with
      | .error o => .finished o
      | .ok session =>
        .console
          { session, files := env.files, budget := env.budget
            style :=
              { json := p.truth "json"
                color := color = utf8 "always" || (color = utf8 "auto" && env.terminal) } }

/-! ## All commands -/

def mainFlags : List Flag := [
  ⟨"v", .int 0, "Log verbosity (1 = info, 2 = debug)"⟩,
  ⟨"log", .text [], "Write logs to this file instead of stderr"⟩]

/-- The usage of the program. -/
def mainUsage : Bytes :=
  utf8 ("Usage: regvm [options] <command> [arguments]\n\n"
    ++ "Runs, debugs and inspects regvm programs.\n\n"
    ++ "Commands:\n"
    ++ "  run      Run programs to completion\n"
    ++ "  debug    Start the debugger command loop on stdin\n"
    ++ "  asm      Assemble a text listing into a program file\n"
    ++ "  disasm   Print a program listing\n"
    ++ "  journal  Show recorded runs\n"
    ++ "\nOptions:\n")
  ++ flagsHelp mainFlags
  ++ utf8 ("\nExamples:\n"
    ++ "  regvm asm -o add.rvm add.rasm        # Assemble for the configured arch\n"
    ++ "  regvm run add.rvm                    # Run and print the exit\n"
    ++ "  regvm run -parallel -json a.rvm b.rvm\n"
    ++ "  regvm debug -json                    # Machine-readable debugger\n"
    ++ "  regvm -v 2 run add.rvm               # Debug logging\n"
    ++ "  regvm journal -n 5                   # Last five runs\n")

/-- Makes the file for logs, to which nothing is written. -/
def openLog (files : FileTree) (path : Bytes) : Except FileError FileTree :=
  if path.isEmpty then .ok files
  else match files.read path with
    | .ok _ => .ok files
    | .error _ => files.write path []

/-- Carries out a command. -/
def dispatch (env : Environment) (m : Manifest) (command : Bytes) (args : List Bytes) : Started :=
  if command = utf8 "run" then .finished (run env m args)
  else if command = utf8 "debug" then debug env m args
  else if command = utf8 "asm" then .finished (assemble env m args)
  else if command = utf8 "disasm" then .finished (disassemble env args)
  else if command = utf8 "journal" then .finished (showJournal env m args)
  else if command = utf8 "help" then .finished ⟨0, [], mainUsage, env.files⟩
  else
    .finished ⟨2, [], utf8 "Error: unknown command " ++ Text.quote command ++ utf8 "\n"
      ++ mainUsage, env.files⟩

/-- Starts a command. -/
def start (env : Environment) (args : List Bytes) : Started :=
  match parseArguments mainFlags args with
  | .error e => .finished (.ofFlagError env.files e mainUsage)
  | .ok p =>
    match p.operands with
    | [] => .finished ⟨2, [], mainUsage, env.files⟩
    | command :: rest =>
      match Manifest.find env.files Path.here with
      | .error e =>
        .finished ⟨1, [], utf8 "Error loading manifest: " ++ e.message ++ utf8 "\n", env.files⟩
      | .ok m =>
        match openLog env.files (p.text "log") with
        | .error e =>
          .finished ⟨1, [], utf8 "log file error: " ++ e.message ++ utf8 "\n", env.files⟩
        | .ok files => dispatch { env with files } (m.getD Manifest.default) command rest

/-- The outcome of a console that has served its input. -/
def Outcome.ofServed (s : Debugger.Console.Served) : Outcome :=
  match s.error with
  | none => ⟨0, s.output, [], s.console.files⟩
  | some e => .failed s.console.files e.message s.output

/-- Carries out a command on a whole input. -/
def execute (env : Environment) (args : List Bytes) (stdin : Bytes) : Outcome :=
  match start env args with
  | .finished o => o
  | .console c => .ofServed (c.serve stdin)

end RegisterMachine.CommandLine
