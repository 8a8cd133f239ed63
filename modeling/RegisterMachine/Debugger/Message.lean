import RegisterMachine.Debugger.Command
import RegisterMachine.Debugger.Session
import RegisterMachine.Text.Json
import RegisterMachine.Wire.Snapshot

/-!
# Debugger messages

Everything the debugger says is a message: information and errors with a code, results with data,
and free text. A message is rendered as plain text, whose tag may be coloured, or as a line of JSON.
-/

namespace RegisterMachine.Debugger

open Text (Json)

/-- What a piece of information is about. -/
inductive Notice where
  | ready | programLoaded | breakpointSet | breakpointHit | programCompleted | programPanicked
  | exited
  | breakpointsCleared | machineReloaded | snapshotWritten | stepped
  deriving DecidableEq, Inhabited

/-- The code of a notice. -/
def Notice.code : Notice → Nat
  | ready => 0
  | programLoaded => 1
  | breakpointSet => 2
  | breakpointHit => 3
  | programCompleted => 4
  | programPanicked => 5
  | exited => 6
  | breakpointsCleared => 7
  | machineReloaded => 8
  | snapshotWritten => 9
  | stepped => 10

/-- The code of a command that cannot be understood. -/
def CommandError.code : CommandError → Nat
  | unknown _ => 1
  | count _ => 2
  | kind .. => 3
  | freeText _ => 4

/-- The code of an operation that failed. -/
def SessionError.code : SessionError → Nat
  | file _ => 5
  | program _ => 6
  | thread _ => 6
  | symbols _ => 7
  | wrongState .. => 8
  | noProgram => 8
  | canceled => 8
  | noPosition _ => 9
  | notSuspended => 10

/-- The code of a file that cannot be written. -/
def fileErrorCode : Nat := 5

/-- One thing the debugger says. -/
inductive Message where
  | info (about : Notice) (text : Bytes)
  | error (code : Nat) (text : Bytes)
  | result (text : Bytes) (data : Json)
  | free (text : Bytes)
  deriving Inhabited

/-- How messages are rendered. -/
structure Style where
  json : Bool := false
  color : Bool := false
  deriving DecidableEq, Inhabited

namespace Message

/-- The name of the kind of a message. -/
def type : Message → String
  | info .. => "info"
  | error .. => "error"
  | result .. => "result"
  | free _ => "log"

/-- The text of a message. -/
def text : Message → Bytes
  | info _ t => t
  | error _ t => t
  | result t _ => t
  | free t => t

/-- The code of a message. -/
def code : Message → Int
  | info n _ => n.code
  | error c _ => c
  | result .. => 0
  | free _ => -1

/-- The colour of a message's tag, as a terminal escape. -/
def colorStart : Message → Bytes
  | info .. => utf8 "\x1b[32m"
  | error .. => utf8 "\x1b[31m"
  | result .. => utf8 "\x1b[36m"
  | free _ => []

/-- The escape that ends a colour. -/
def colorEnd : Bytes := utf8 "\x1b[0m"

/-- The message as JSON. -/
def json (m : Message) : Json :=
  .object ([("type", .string (utf8 m.type)), ("code", .number m.code), ("message", .string m.text)]
    ++ (match m with
      | result _ d => [("data", d)]
      | _ => []))

/-- The message as plain text. -/
def plain (color : Bool) (m : Message) : Bytes :=
  match m with
  | free t => t
  | m =>
    let tag := utf8 "[" ++ utf8 m.type ++ utf8 "]"
    (if color then m.colorStart ++ tag ++ colorEnd else tag) ++ utf8 ": " ++ m.text

/-- The message on a line. -/
def render (s : Style) (m : Message) : Bytes :=
  (if s.json then m.json.render else m.plain s.color) ++ [10]

end Message

/-- The breakpoints as a result. -/
def breakpointsResult (bs : List Breakpoint) : Message :=
  .result
    (Text.table (bs.map fun b => [Number.decimalInt b.location,
      if b.module.isEmpty then [] else b.module ++ utf8 ":" ++ Number.decimalInt b.line]))
    (.arrayOrNull (bs.map fun b =>
      .object ([("location", .number b.location)] ++ Json.optionalString "module" b.module
        ++ (if b.line = 0 then [] else [("line", .number b.line)]))))

/-- The modules as a result. -/
def modulesResult (ms : List ModuleInfo) : Message :=
  .result
    (Text.table (ms.map fun m =>
      [m.name, Number.decimal m.hash.toNat, if m.path.isEmpty then [45] else m.path]))
    (.arrayOrNull (ms.map fun m =>
      .object ([("name", .string m.name), ("hash", .number m.hash.toNat)]
        ++ Json.optionalString "path" m.path)))

/-- The registers as a result. -/
def registersResult (rs : List RegisterView) : Message :=
  .result (Text.table (rs.map fun r => [r.name, r.type, r.value.text]))
    (.array (rs.map fun r =>
      .object [("name", .string r.name), ("type", .string r.type),
        ("value", .string r.value.text)]))

/-- Slots and frames as JSON. -/
def stackJson (s : StackView) : Json :=
  .object [
    ("slots", .array (s.slots.map fun x =>
      .object [("index", .number x.index), ("type", .string x.type),
        ("value", .string x.value.text)])),
    ("frames", .array (s.frames.map fun f =>
      .object [("hash", .number f.hash.toNat), ("entry", .number f.entry), ("end", .number f.stop),
        ("base", .number f.base), ("window", .number f.window), ("pc", .number f.pc),
        ("return_pc", .number f.returnPC)]))]

/-- Slots and frames as a result. -/
def stackResult (s : StackView) : Message :=
  let frames := s.frames.zipIdx.map fun (f, i) =>
    [Number.decimal i, Number.decimal f.hash.toNat, Number.decimalInt f.base,
      Number.decimalInt f.window, Number.decimalInt f.pc, Number.decimalInt f.returnPC]
  let slots := s.slots.map fun x => [Number.decimalInt x.index, x.type, x.value.text]
  .result
    (Text.table ((["frame", "hash", "base", "window", "pc", "return"].map utf8) :: frames)
      ++ utf8 "\n\n" ++ Text.table ((["slot", "type", "value"].map utf8) :: slots))
    (stackJson s)

/-- The live heap entries as a result. -/
def heapResult (h : List HeapView) : Message :=
  .result
    (Text.table (h.map fun e =>
      [Number.decimal e.ref.index.toNat ++ utf8 "@" ++ Number.decimal e.ref.gen.toNat, e.type,
        e.value.text]))
    (.array (h.map fun e =>
      .object [("index", .number e.ref.index.toNat), ("generation", .number e.ref.gen.toNat),
        ("type", .string e.type), ("value", .string e.value.text)]))

end RegisterMachine.Debugger
