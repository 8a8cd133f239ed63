import RegisterMachine.Debugger.Symbols
import RegisterMachine.Engine.Step
import RegisterMachine.Files.Tree
import RegisterMachine.Program.File

/-!
# Debugger sessions

A session holds one program under the debugger: its thread, its symbols and the breakpoints. The
thread is only ever stepped, one instruction at a time; a breakpoint is looked at before the
instruction at its location runs. An operation that fails gives no new session.
-/

namespace RegisterMachine.Debugger

/-- Where the life of a loaded program has got to. -/
inductive Stage where
  | loaded
  | running
  /-- Stopped at a breakpoint or a trap, or paused. -/
  | waiting
  | completed
  deriving DecidableEq, Inhabited

/-- The state of a session. -/
inductive SessionState where
  | notLoaded
  | at (s : Stage)
  deriving DecidableEq, Inhabited

/-- The name of a state. -/
def SessionState.name : SessionState → String
  | notLoaded => "program_not_loaded"
  | .at .loaded => "program_loaded"
  | .at .running => "running"
  | .at .waiting => "waiting_at_breakpoint"
  | .at .completed => "program_completed"

/-- What a step led to. -/
inductive Event where
  /-- One instruction ran, and more can follow. -/
  | stepped
  /-- The program waits at a breakpoint or a trap. -/
  | breakpoint
  /-- The thread ended. -/
  | completed
  deriving DecidableEq, Inhabited

/-- The name of an event. -/
def Event.name : Event → String
  | stepped => "stepped"
  | breakpoint => "breakpoint"
  | completed => "completed"

/-- An instruction to stop at; module and line are there when it was chosen by a source line. -/
structure Breakpoint where
  location : Int
  module : Bytes := []
  line : Int := 0
  deriving DecidableEq, Inhabited

/-- What a breakpoint is asked for. -/
inductive Position where
  /-- The index of an instruction. -/
  | instruction (index : Int)
  /-- A line of a module's source, counted from one. -/
  | source (module : Bytes) (line : Int)
  deriving DecidableEq, Inhabited

/-- The text of a position. -/
def Position.text : Position → Bytes
  | instruction i => utf8 "location " ++ Number.decimalInt i
  | source m l => m ++ utf8 ":" ++ Number.decimalInt l

/-- What can be done only in certain states. -/
inductive Act where
  | run | tick | pause
  deriving DecidableEq, Inhabited

/-- The name of an act. -/
def Act.name : Act → String
  | run => "run"
  | tick => "tick"
  | pause => "pause"

/-- Why an operation failed. -/
inductive SessionError where
  | file (e : FileError)
  | program (e : CodecError)
  | thread (e : Thread.StartError)
  | symbols (e : SymbolError)
  | wrongState (act : Act) (s : SessionState)
  | noProgram
  | noPosition (p : Position)
  | notSuspended
  | canceled
  deriving DecidableEq, Inhabited

/-- What is said when a budget is used up. -/
def canceledMessage : Bytes := utf8 "context canceled"

/-- The wording of an error. -/
def SessionError.message : SessionError → Bytes
  | file e => utf8 "failed to read the file: " ++ e.message
  | program e => utf8 "failed to read program: " ++ e.message
  | thread e => utf8 "failed to read program: " ++ e.message
  | symbols e => utf8 "failed to parse debug file: " ++ e.message
  | wrongState a s =>
    utf8 "invalid session state: cannot " ++ utf8 a.name ++ utf8 " while " ++ utf8 s.name
  | noProgram => utf8 "invalid session state: no program loaded"
  | noPosition p => utf8 "breakpoint position not found: " ++ p.text
  | notSuspended => utf8 "program is not waiting at a breakpoint"
  | canceled => canceledMessage

/-- A loaded program. -/
structure Active where
  program : Program
  symbols : Option Symbols
  thread : Thread
  breakpoints : List Breakpoint := []
  stage : Stage := .loaded
  deriving Inhabited

namespace Active

/-- Whether there is a breakpoint at a location. -/
def stopsAt (a : Active) (location : Int) : Bool := a.breakpoints.any (·.location == location)

/-- Runs one instruction. -/
def execute (a : Active) : Event × Active :=
  let (info, thread) := a.thread.step
  if thread.exit.isSome then (.completed, { a with thread, stage := .completed })
  else if info.kind = .trap then (.breakpoint, { a with thread, stage := .waiting })
  else (.stepped, { a with thread })

/-- Stops at a breakpoint or runs one instruction. -/
def tick (a : Active) : Event × Active :=
  if a.stopsAt a.thread.location then (.breakpoint, { a with stage := .waiting }) else a.execute

/-- Ticks until the program stops or the budget of ticks is used up; gives the event, unless the
budget ended, and what is left of the budget. -/
def advance : Nat → Active → Option Event × Nat × Active
  | 0, a => (none, 0, a)
  | budget + 1, a =>
    match a.tick with
    | (.stepped, a) => advance budget a
    | (ev, a) => (some ev, budget, a)

/-- The instruction that a position means. -/
def find (a : Active) : Position → Option Breakpoint
  | .instruction i => if i < 0 ∨ (a.program.length : Int) ≤ i then none else some { location := i }
  | .source m l => (a.symbols.bind (·.locate? m l)).map fun h => ⟨h.start, m, l⟩

end Active

/-- A debugger session. -/
structure Session where
  /-- How every thread is set up. -/
  options : Thread.Options
  /-- The name of every thread. -/
  threadId : Bytes
  active : Option Active := none
  /-- What threads printed that are no longer there. -/
  earlier : Bytes := []
  deriving Inhabited

namespace Session

/-- The state of a session. -/
def state (s : Session) : SessionState :=
  match s.active with
  | none => .notLoaded
  | some a => .at a.stage

/-- Everything that native functions printed. -/
def output (s : Session) : Bytes :=
  s.earlier ++ ((s.active.map (·.thread.output)).getD [])

/-- The index of the next instruction, or -1 without a live thread. -/
def location (s : Session) : Int := (s.active.map (·.thread.location)).getD (-1)

/-- How the thread ended. -/
def exit (s : Session) : Option Exit := s.active.bind (·.thread.exit)

/-- Loads a program; the breakpoints are dropped. -/
def loadProgram (s : Session) (program : Program) (symbols : Option Symbols) :
    Except SessionError Session := do
  let thread ← (Thread.start s.threadId program s.options).mapError .thread
  return { s with active := some { program, symbols, thread }, earlier := s.output }

/-- Loads a program file and, unless its path is empty, a debug file. -/
def load (s : Session) (files : FileTree) (program debug : Bytes) :
    Except SessionError Session := do
  let data ← (files.read program).mapError .file
  let p ← (Program.deserialize data).mapError .program
  if debug.isEmpty then s.loadProgram p none
  else
    let text ← (files.read debug).mapError .file
    let symbols ← (Symbols.parse text).mapError .symbols
    s.loadProgram p (some symbols)

/-- Starts the loaded program anew; the breakpoints stay. -/
def reload (s : Session) : Except SessionError Session :=
  match s.active with
  | none => .error .noProgram
  | some a => do
    let thread ← (Thread.start s.threadId a.program s.options).mapError .thread
    return { s with active := some { a with thread, stage := .loaded }, earlier := s.output }

/-- The loaded program, provided that it is running. -/
def runningFor (s : Session) (act : Act) : Except SessionError Active :=
  match s.active with
  | some a => if a.stage = .running then .ok a else .error (.wrongState act s.state)
  | none => .error (.wrongState act s.state)

/-- Lets a program that was just loaded run. -/
def run (s : Session) : Except SessionError Session :=
  match s.active with
  | some a =>
    if a.stage = .loaded then .ok { s with active := some { a with stage := .running } }
    else .error (.wrongState .run s.state)
  | none => .error (.wrongState .run s.state)

/-- Stops at a breakpoint or runs one instruction. -/
def tick (s : Session) : Except SessionError (Event × Session) :=
  (s.runningFor .tick).map fun a =>
    let (ev, a) := a.tick
    (ev, { s with active := some a })

/-- What running on comes to: the session also changes when the budget ends. -/
structure Progress where
  outcome : Except SessionError Event
  budget : Nat
  session : Session
  deriving Inhabited

/-- Ticks until the program stops. The budget is looked at before the state. -/
def advance (s : Session) (budget : Nat) : Progress :=
  match budget with
  | 0 => ⟨.error .canceled, 0, s⟩
  | budget' + 1 =>
    match s.runningFor .tick with
    | .error e => ⟨.error e, budget', s⟩
    | .ok a =>
      match a.advance budget with
      | (none, left, a) => ⟨.error .canceled, left, { s with active := some a }⟩
      | (some ev, left, a) => ⟨.ok ev, left, { s with active := some a }⟩

/-- The loaded program, provided that it waits. -/
def suspended (s : Session) : Except SessionError Active :=
  match s.active with
  | some a => if a.stage = .waiting then .ok a else .error .notSuspended
  | none => .error .notSuspended

/-- Runs one instruction whatever breakpoint there is, and lets the program run. -/
def stepForward (s : Session) : Except SessionError (Event × Session) :=
  s.suspended.map fun a =>
    let (ev, a) := { a with stage := .running }.execute
    (ev, { s with active := some a })

/-- Stops a running program where it is. -/
def pause (s : Session) : Except SessionError Session :=
  (s.runningFor .pause).map fun a => { s with active := some { a with stage := .waiting } }

/-- Adds a breakpoint, unless there is one at that location already. -/
def setBreakpoint (s : Session) (p : Position) : Except SessionError (Breakpoint × Session) :=
  match s.active with
  | none => .error .noProgram
  | some a =>
    match a.find p with
    | none => .error (.noPosition p)
    | some b =>
      if a.stopsAt b.location then .ok (b, s)
      else .ok (b, { s with active := some { a with breakpoints := a.breakpoints ++ [b] } })

/-- Removes every breakpoint. -/
def clear (s : Session) : Session :=
  { s with active := s.active.map fun a => { a with breakpoints := [] } }

/-- The breakpoints in the order in which they were set. -/
def breakpoints (s : Session) : List Breakpoint := (s.active.map (·.breakpoints)).getD []

/-- The modules of the debug file. -/
def modules (s : Session) : List ModuleInfo :=
  ((s.active.bind (·.symbols)).map (·.modules)).getD []

end Session

end RegisterMachine.Debugger
