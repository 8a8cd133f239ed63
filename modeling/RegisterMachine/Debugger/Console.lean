import RegisterMachine.Debugger.Message

/-!
# The debugger console

The console takes command lines, acts on the session and answers with messages, among which stands
what the program prints meanwhile. `Console.execute` takes one line; `Console.serve` takes a whole
text, with a prompt before every line when the messages are plain.
-/

namespace RegisterMachine.Debugger

/-- What a command brings forth, in order. -/
inductive Emission where
  | message (m : Message)
  /-- What native functions printed. -/
  | printed (s : Bytes)
  deriving Inhabited

/-- The text of an emission. -/
def Emission.render (style : Style) : Emission → Bytes
  | message m => m.render style
  | printed s => s

/-- A console. -/
structure Console where
  session : Session
  files : FileTree
  style : Style := {}
  /-- How many more ticks and lines there may be. -/
  budget : Nat
  deriving Inhabited

namespace Console

/-- What a command comes to. -/
structure Reply where
  console : Console
  emissions : List Emission
  /-- Whether the debugger is to end. -/
  exits : Bool := false
  deriving Inhabited

/-- Answers with one message. -/
def say (c : Console) (m : Message) : Reply := ⟨c, [.message m], false⟩

/-- Answers with an error of the session. -/
def refuse (c : Console) (e : SessionError) : Reply := c.say (.error e.code e.message)

/-- Goes on with another session and says something. -/
def become (c : Console) (s : Session) (m : Message) : Reply := { c with session := s }.say m

/-- Says where a program stopped. -/
def stopMessage (s : Session) : Event → Option Message
  | .stepped => none
  | .breakpoint =>
    some (.info .breakpointHit (utf8 "Breakpoint hit at " ++ Number.decimalInt s.location))
  | .completed =>
    s.exit.map fun
      | .graceful v => .info .programCompleted (utf8 "Program completed: " ++ v.text)
      | .panicked p => .info .programPanicked (utf8 "Program panicked: " ++ (Exit.panicked p).text)

/-- Goes on with a session that has run: what it printed comes before the message. -/
def after (c : Console) (s : Session) (m : Option Message) : Reply :=
  let printed := s.output.drop c.session.output.length
  ⟨{ c with session := s },
    (if printed.isEmpty then [] else [.printed printed]) ++ m.toList.map .message, false⟩

/-- Runs a session until its next stop. -/
def drive (c : Console) (s : Session) : Reply :=
  let p := s.advance c.budget
  let r := c.after p.session (match p.outcome with
    | .ok ev => stopMessage p.session ev
    | .error e => some (.error e.code e.message))
  { r with console := { r.console with budget := p.budget } }

/-- Shows something of a thread that waits. -/
def inspect (c : Console) (view : Thread → Message) : Reply :=
  match c.session.suspended with
  | .error e => c.refuse e
  | .ok a => c.say (view a.thread)

/-- The help on one verb or on all. -/
def helpMessages : Option Bytes → List Message
  | none => .free (utf8 "Available commands:") :: Verb.all.map fun v => .free v.summary
  | some name =>
    match Verb.find? name with
    | none => [.free (utf8 "Command not found")]
    | some v => [.free v.manual]

/-- Writes a snapshot of a thread that waits. -/
def dump (c : Console) (file : Bytes) : Reply :=
  match c.session.suspended with
  | .error e => c.refuse e
  | .ok a =>
    let data := a.thread.snapshot.encode
    match c.files.write file data with
    | .error e => c.say (.error fileErrorCode (utf8 "write " ++ file ++ utf8 ": " ++ e.message))
    | .ok files =>
      { c with files }.say (.info .snapshotWritten (utf8 "Snapshot written to " ++ file ++ utf8 " ("
        ++ Number.decimal data.length ++ utf8 " bytes)"))

/-- Runs one instruction and stops again. -/
def stepOnce (c : Console) : Reply :=
  match c.session.stepForward with
  | .error e => c.refuse e
  | .ok (.stepped, s) =>
    match s.pause with
    | .error e => c.after s (some (.error e.code e.message))
    | .ok s =>
      c.after s (some (.info .stepped (utf8 "Stopped at " ++ Number.decimalInt s.location)))
  | .ok (ev, s) => c.after s (stopMessage s ev)

/-- Runs one instruction and on to the next stop. -/
def stepAndDrive (c : Console) : Reply :=
  match c.session.stepForward with
  | .error e => c.refuse e
  | .ok (.stepped, s) => c.drive s
  | .ok (ev, s) => c.after s (stopMessage s ev)

/-- Sets a breakpoint. -/
def wait (c : Console) (p : Position) : Reply :=
  match c.session.setBreakpoint p with
  | .error e => c.refuse e
  | .ok (b, s) =>
    c.become s (.info .breakpointSet (utf8 "Breakpoint set at " ++ Number.decimalInt b.location))

/-- Carries out a command. -/
def perform (c : Console) : Command → Reply
  | .exit => { c.say (.info .exited (utf8 "Debugger exited")) with exits := true }
  | .help verb => ⟨c, (helpMessages verb).map .message, false⟩
  | .clear => c.become c.session.clear (.info .breakpointsCleared (utf8 "Breakpoints cleared"))
  | .load program debug =>
    match c.session.load c.files program (debug.getD []) with
    | .error e => c.refuse e
    | .ok s => c.become s (.info .programLoaded (utf8 "Program loaded"))
  | .reload =>
    match c.session.reload with
    | .error e => c.refuse e
    | .ok s => c.become s (.info .machineReloaded (utf8 "VM reloaded"))
  | .run =>
    match c.session.run with
    | .error e => c.refuse e
    | .ok s => c.drive s
  | .wait true i _ => c.wait (.instruction i)
  | .wait false l m => c.wait (.source m l)
  | .step => c.stepOnce
  | .continue => c.stepAndDrive
  | .paths => c.say (modulesResult c.session.modules)
  | .breakpoints => c.say (breakpointsResult c.session.breakpoints)
  | .registers => c.inspect fun t => registersResult t.registerViews
  | .stack => c.inspect fun t => stackResult t.stackView
  | .heap => c.inspect fun t => heapResult t.heapViews
  | .dump file => c.dump file

/-- Takes one command line; a blank one does nothing. -/
def execute (c : Console) (line : Bytes) : Reply :=
  match Text.words line with
  | [] => ⟨c, [], false⟩
  | verb :: words =>
    match Command.parse (!c.style.json) verb words with
    | .error e => c.say (.error e.code e.message)
    | .ok cmd => c.perform cmd

/-- The text of a reply. -/
def Reply.render (r : Reply) : Bytes := r.emissions.flatMap (·.render r.console.style)

/-- What the console shows when it starts. -/
def greeting (c : Console) : Bytes := (Message.info .ready (utf8 "Ready")).render c.style

/-- What the console shows before it takes a line. -/
def prompt (c : Console) : Bytes := if c.style.json then [] else utf8 "> "

/-- Why the console gave up. -/
inductive ServeError where
  | canceled
  | overlongLine
  deriving DecidableEq, Inhabited

/-- The wording of an error. -/
def ServeError.message : ServeError → Bytes
  | canceled => canceledMessage
  | overlongLine => SymbolError.overlongLine.message

/-- What serving a text comes to. -/
structure Served where
  console : Console
  output : Bytes
  error : Option ServeError := none
  deriving Inhabited

/-- Takes lines until the debugger is to end, the lines are used up or the budget is. -/
def serveLines (overlong : Bool) (c : Console) : List Bytes → Served
  | [] => ⟨c, c.prompt, if overlong then some .overlongLine else none⟩
  | line :: rest =>
    match c.budget with
    | 0 => ⟨c, c.prompt, some .canceled⟩
    | budget + 1 =>
      let r := { c with budget }.execute line
      let shown := c.prompt ++ r.render
      if r.exits then ⟨r.console, shown, none⟩
      else
        let s := serveLines overlong r.console rest
        { s with output := shown ++ s.output }

/-- Takes the lines of a text. -/
def serve (c : Console) (text : Bytes) : Served :=
  let ls := Text.lines Text.lineLimit text
  let s := c.serveLines ls.overlong ls.lines
  { s with output := c.greeting ++ s.output }

end Console

end RegisterMachine.Debugger
