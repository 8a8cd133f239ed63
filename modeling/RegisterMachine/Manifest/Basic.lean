import RegisterMachine.Files.Tree
import RegisterMachine.Instruction.Arch

/-!
# Project manifests

How a project is run: the architecture, limits, the debugger's output, the journal and the native
functions that programs may call. What a manifest leaves open has a default, and what it says has to
make sense.
-/

namespace RegisterMachine

/-- The settings of a project. -/
structure Manifest where
  name : Bytes := []
  version : Bytes := []
  arch : Bytes := []
  maxStack : Int := 0
  trace : Bool := false
  /-- How the debugger writes: plain or as JSON. -/
  output : Bytes := []
  /-- When the debugger uses colours. -/
  color : Bytes := []
  journalPath : Bytes := []
  journalEnabled : Bool := false
  /-- The native functions that may be called; none means all. -/
  natives : List Bytes := []
  /-- The directory of the manifest's file. -/
  dir : Bytes := []
  /-- The manifest's file. -/
  path : Bytes := []
  deriving DecidableEq, Inhabited

namespace Manifest

/-- The stack slots that a thread may use when nothing is said. -/
def defaultMaxStack : Int := 65536

/-- A text, or another one when it is empty. -/
def orElse (s : Bytes) (other : String) : Bytes := if s.isEmpty then utf8 other else s

/-- Fills in what is left open. -/
def withDefaults (m : Manifest) : Manifest :=
  { m with
    arch := orElse m.arch "b64"
    maxStack := if m.maxStack = 0 then defaultMaxStack else m.maxStack
    output := orElse m.output "plain"
    color := orElse m.color "auto"
    journalPath := orElse m.journalPath ".regvm/journal.db" }

/-- The settings without a manifest. -/
def default : Manifest := ({} : Manifest).withDefaults

/-- What makes no sense in a manifest. -/
inductive Fault where
  | arch (s : Bytes)
  | maxStack (n : Int)
  | output (s : Bytes)
  | color (s : Bytes)
  deriving DecidableEq, Inhabited

/-- The wording of a fault. -/
def Fault.message : Fault → Bytes
  | arch s => Arch.unknownMessage s
  | maxStack n => utf8 "vm.max-stack must not be negative, got " ++ Number.decimalInt n
  | output s => utf8 "debugger.output must be plain or json, got " ++ Text.quote s
  | color s => utf8 "debugger.color must be auto, always or never, got " ++ Text.quote s

/-- The texts that say when colours are used. -/
def colorModes : List Bytes := ["auto", "always", "never"].map utf8

/-- The first thing that makes no sense. -/
def fault? (m : Manifest) : Option Fault :=
  if (Arch.parse? m.arch).isNone then some (.arch m.arch)
  else if m.maxStack < 0 then some (.maxStack m.maxStack)
  else if m.output ≠ utf8 "plain" ∧ m.output ≠ utf8 "json" then some (.output m.output)
  else if !colorModes.contains m.color then some (.color m.color)
  else none

/-- Where the journal is: a relative path is seen from the manifest's directory. -/
def journalFile (m : Manifest) : Bytes :=
  if Path.isAbsolute m.journalPath || m.dir.isEmpty then m.journalPath
  else Path.join [m.dir, m.journalPath]

end Manifest

end RegisterMachine
