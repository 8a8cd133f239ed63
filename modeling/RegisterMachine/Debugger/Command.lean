import RegisterMachine.Number.Integer
import RegisterMachine.Text.Columns
import RegisterMachine.Text.Words

/-!
# Debugger commands

A command is a line of words: a verb, in a long or a short form, and its arguments. Every verb has a
list of parameters with a kind each; parameters that may be left out come last. `Command.parse`
turns the words into a command or says what is wrong with them.
-/

namespace RegisterMachine.Debugger

/-- What an argument can be. -/
inductive ArgumentKind where
  | string | int | bool
  deriving DecidableEq, Inhabited

/-- The name of a kind. -/
def ArgumentKind.name : ArgumentKind → String
  | string => "String"
  | int => "Int"
  | bool => "Bool"

/-- What an argument was read as. -/
inductive ArgumentValue where
  | string
  | int (n : Int)
  | bool (b : Bool)
  deriving DecidableEq, Inhabited

/-- A word of a command with what it was read as. -/
structure Argument where
  text : Bytes
  value : ArgumentValue
  deriving DecidableEq, Inhabited

namespace Argument

/-- Reads a word: the four words of truth, a decimal number of 64 bits, or any text. -/
def ofWord (w : Bytes) : Argument :=
  if w = utf8 "on" ∨ w = utf8 "true" then ⟨w, .bool true⟩
  else if w = utf8 "off" ∨ w = utf8 "false" then ⟨w, .bool false⟩
  else match Number.readSigned .ten w with
    | .ok n => ⟨w, .int n⟩
    | .error _ => ⟨w, .string⟩

/-- The kind of an argument. -/
def kind (a : Argument) : ArgumentKind :=
  match a.value with
  | .string => .string
  | .int _ => .int
  | .bool _ => .bool

/-- Whether an argument can stand for a parameter of a kind; a text can be any word. -/
def fits (a : Argument) (k : ArgumentKind) : Bool := k == .string || a.kind == k

end Argument

/-- A parameter of a verb. -/
structure Parameter where
  name : String
  kind : ArgumentKind
  optional : Bool := false
  deriving DecidableEq, Inhabited

/-- What can be asked of the debugger. -/
inductive Verb where
  | exit | help | clear | load | reload | run | wait | step | continue
  | paths | breakpoints | registers | stack | heap | dump
  deriving DecidableEq, Inhabited

/-- How a verb is written and described. -/
structure VerbInfo where
  short : String
  long : String
  help : String
  parameters : List Parameter := []
  /-- Whether the answer is free text. -/
  freeText : Bool := false
  deriving DecidableEq, Inhabited

namespace Verb

/-- The verbs in the order of the help text. -/
def all : List Verb :=
  [.exit, .help, .clear, .load, .reload, .run, .wait, .step, .continue, .paths, .breakpoints,
    .registers, .stack, .heap, .dump]

/-- How a verb is written and described. -/
def info : Verb → VerbInfo
  | .exit => ⟨"e", "exit", "Exit the debugger", [], false⟩
  | .help => ⟨"h", "help", "Show help, or help for one command", [⟨"command", .string, true⟩], true⟩
  | .clear => ⟨"c", "clear", "Remove all breakpoints", [], false⟩
  | .load => ⟨"l", "load", "Load a program and its optional debug file",
      [⟨"program", .string, false⟩, ⟨"debug", .string, true⟩], false⟩
  | .reload =>
    ⟨"rv", "reload-vm", "Reset the vm to its initial state with the program loaded", [], false⟩
  | .run => ⟨"r", "run", "Run the program until a breakpoint or the end", [], false⟩
  | .wait => ⟨"w", "wait", "Wait at a stack location or at a source line of a module",
      [⟨"by_stack", .bool, false⟩, ⟨"position", .int, false⟩, ⟨"module_path", .string, false⟩],
      false⟩
  | .step => ⟨"s", "step", "Execute one instruction and stop again", [], false⟩
  | .continue => ⟨"cn", "continue", "Step past the breakpoint and run to the next stop", [], false⟩
  | .paths => ⟨"gp", "get-paths", "Get the paths of all modules", [], false⟩
  | .breakpoints => ⟨"gbp", "get-breakpoints", "Get the list of breakpoints", [], false⟩
  | .registers => ⟨"gr", "get-registers", "Get the registers", [], false⟩
  | .stack => ⟨"gs", "get-stack-memory", "Get the stack memory", [], false⟩
  | .heap => ⟨"gh", "get-heap-memory", "Get the heap memory", [], false⟩
  | .dump => ⟨"d", "dump", "Write a CBOR snapshot of the suspended thread",
      [⟨"file", .string, false⟩], false⟩

/-- The verb with a name, in either form. -/
def find? (name : Bytes) : Option Verb :=
  all.find? fun v => utf8 v.info.short == name || utf8 v.info.long == name

/-- The usage of a verb: its name and its parameters. -/
def usage (v : Verb) : Bytes :=
  utf8 v.info.long ++ v.info.parameters.flatMap fun p =>
    utf8 " (" ++ utf8 p.name ++ utf8 ":" ++ utf8 p.kind.name
      ++ (if p.optional then utf8 " <optional>" else []) ++ utf8 ")"

/-- The line of a verb in the list of all verbs. -/
def summary (v : Verb) : Bytes :=
  utf8 "  " ++ Text.padRight 4 (utf8 v.info.short) ++ utf8 " "
    ++ Text.padRight 18 (utf8 v.info.long) ++ utf8 " " ++ utf8 v.info.help

/-- The help text of a verb. -/
def manual (v : Verb) : Bytes :=
  utf8 "Command     : " ++ utf8 v.info.short ++ utf8 " | " ++ utf8 v.info.long
    ++ utf8 "\nDescription : " ++ utf8 v.info.help ++ utf8 "\nUsage       : " ++ v.usage

end Verb

/-- A command with its arguments. -/
inductive Command where
  | exit
  | help (verb : Option Bytes)
  | clear
  | load (program : Bytes) (debug : Option Bytes)
  | reload
  | run
  | wait (byStack : Bool) (position : Int) (module : Bytes)
  | step
  | continue
  | paths | breakpoints | registers | stack | heap
  | dump (file : Bytes)
  deriving DecidableEq, Inhabited

/-- What is wrong with the words of a command. -/
inductive CommandError where
  | unknown (name : Bytes)
  | freeText (v : Verb)
  | count (v : Verb)
  | kind (v : Verb) (parameter : String)
  deriving DecidableEq, Inhabited

/-- The wording of an error. -/
def CommandError.message : CommandError → Bytes
  | unknown n => utf8 "Unknown command: " ++ n
  | freeText v =>
    utf8 "Output of " ++ utf8 v.info.long ++ utf8 " is free text and cannot be rendered as JSON"
  | count v => utf8 "Invalid argument length, usage: " ++ v.usage
  | kind v p => utf8 "Invalid argument type for " ++ utf8 p ++ utf8 ", usage: " ++ v.usage

namespace Command

/-- The first parameter whose argument has another kind. -/
def misfit? : List Parameter → List Argument → Option Parameter
  | p :: ps, a :: as => if a.fits p.kind then misfit? ps as else some p
  | _, _ => none

/-- The command of a verb with arguments that fit its parameters. -/
def build : Verb → List Argument → Option Command
  | .exit, [] => some .exit
  | .help, args => some (.help (args.head?.map (·.text)))
  | .clear, [] => some .clear
  | .load, [p] => some (.load p.text none)
  | .load, [p, d] => some (.load p.text (some d.text))
  | .reload, [] => some .reload
  | .run, [] => some .run
  | .wait, [⟨_, .bool b⟩, ⟨_, .int n⟩, m] => some (.wait b n m.text)
  | .step, [] => some .step
  | .continue, [] => some .continue
  | .paths, [] => some .paths
  | .breakpoints, [] => some .breakpoints
  | .registers, [] => some .registers
  | .stack, [] => some .stack
  | .heap, [] => some .heap
  | .dump, [f] => some (.dump f.text)
  | _, _ => none

/-- Reads the words of a command; free text can be refused. -/
def parse (freeText : Bool) (verb : Bytes) (words : List Bytes) : Except CommandError Command :=
  match Verb.find? verb with
  | none => .error (.unknown verb)
  | some v =>
    let ps := v.info.parameters
    let args := words.map Argument.ofWord
    if v.info.freeText && !freeText then .error (.freeText v)
    else if args.length < (ps.filter (!·.optional)).length ∨ ps.length < args.length then
      .error (.count v)
    else match misfit? ps args with
      | some p => .error (.kind v p.name)
      | none => (build v args).elim (.error (.count v)) .ok

end Command

end RegisterMachine.Debugger
