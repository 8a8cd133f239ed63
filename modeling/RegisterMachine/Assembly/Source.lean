import RegisterMachine.Assembly.Operand
import RegisterMachine.Program.Basic

/-!
# Assembler sources

A source has one instruction, label or directive on a line; a semicolon outside double quotes starts
a comment. The first pass (`Outline`) counts instructions, so that every label and the end of every
function is known; the second one (`assemble`) reads the operands. `.fn` writes the two instructions
of a function's header, the second of which holds the function's end.
-/

namespace RegisterMachine.Assembly

/-- Why a line was refused. -/
inductive LineFault where
  | duplicateLabel (name : Bytes)
  | functionUsage
  | functionHash (e : Number.NumberError)
  | endWithoutFunction
  | entryUsage
  | nativeUsage
  | nativeHash (e : Number.NumberError)
  | unknownDirective (name : Bytes)
  | unknownMnemonic (name : Bytes)
  | neverClosed (name : Bytes)
  | operand (e : OperandError)
  | unsupported (e : CodecError)
  | unknownLabel (name : Bytes)
  deriving DecidableEq, Inhabited

/-- The wording of a fault. -/
def LineFault.message : LineFault → Bytes
  | duplicateLabel n => utf8 "duplicate label " ++ Text.quote n
  | functionUsage => utf8 ".fn needs a name and a hash"
  | functionHash e => utf8 ".fn hash: " ++ e.message
  | endWithoutFunction => utf8 ".end without .fn"
  | entryUsage => utf8 ".entry needs a function name"
  | nativeUsage => utf8 ".native needs label, module, hash and name"
  | nativeHash e => utf8 ".native hash: " ++ e.message
  | unknownDirective n => utf8 "unknown directive " ++ n
  | unknownMnemonic n => utf8 "unknown mnemonic " ++ Text.quote n
  | neverClosed n => utf8 ".fn " ++ n ++ utf8 " is never closed"
  | operand e => e.message
  | unsupported e => e.message
  | unknownLabel n => utf8 "unknown label " ++ Text.quote n

/-- Why a source was refused. -/
inductive SourceError where
  | line (number : Nat) (fault : LineFault)
  | overlongLine
  /-- The program as a whole cannot be written or is inconsistent. -/
  | program (e : CodecError)
  deriving DecidableEq, Inhabited

/-- What is said of a line that is too long. -/
def overlongMessage : Bytes := utf8 "bufio.Scanner: token too long"

/-- The wording of an error. -/
def SourceError.message : SourceError → Bytes
  | line n f => utf8 "line " ++ Number.decimal n ++ utf8 ": " ++ f.message
  | overlongLine => overlongMessage
  | program e => e.message

/-- Where the operand of an instruction comes from. -/
inductive OperandSource where
  /-- The text after the mnemonic. -/
  | text (s : Bytes)
  /-- The hash in a function header. -/
  | hash (h : UInt64)
  /-- The end of a function. -/
  | endOf (function : Bytes)
  deriving DecidableEq, Inhabited

/-- An instruction whose operand is still to be read. -/
structure Item where
  line : Nat
  mnemonic : Mnemonic
  source : OperandSource
  deriving DecidableEq, Inhabited

/-- A function whose end is still to come. -/
structure OpenFunction where
  name : Bytes
  hash : UInt64
  start : Nat
  deriving DecidableEq, Inhabited

/-- A function with its extent. -/
structure Extent extends OpenFunction where
  stop : Nat
  deriving DecidableEq, Inhabited

/-- A native call whose label is still to be looked up. -/
structure NativeLine where
  line : Nat
  label : Bytes
  module : Bytes
  hash : UInt64
  name : Bytes
  deriving DecidableEq, Inhabited

/-- What the first pass has found. -/
structure Outline where
  labels : Labels := []
  /-- The instructions so far, the last one first. -/
  items : List Item := []
  /-- How many instructions there are. -/
  count : Nat := 0
  opened : List OpenFunction := []
  closed : List Extent := []
  entry : Bytes := utf8 "main"
  /-- The native calls so far, the last one first. -/
  natives : List NativeLine := []
  deriving DecidableEq, Inhabited

/-- The label at the end of a function. -/
def endLabel (function : Bytes) : Bytes := function ++ utf8 ".end"

/-- The bytes before a semicolon outside double quotes. -/
def beforeComment (quoted : Bool) : Bytes → Bytes
  | [] => []
  | c :: cs =>
    if c = 34 then c :: beforeComment (!quoted) cs
    else if c = 59 ∧ !quoted then []
    else c :: beforeComment quoted cs

/-- A line without its comment, trimmed. -/
def stripComment (s : Bytes) : Bytes := Text.trim (beforeComment false s)

/-- The name that a line marks: a name followed by a colon. -/
def labelOf? (s : Bytes) : Option Bytes :=
  if s.getLast? = some 58 ∧ isName s.dropLast then some s.dropLast else none

namespace Outline

/-- Adds a name for the next instruction, which must be new. -/
def addLabel (o : Outline) (name : Bytes) : Except LineFault Outline :=
  if (o.labels.index? name).isSome then .error (.duplicateLabel name)
  else .ok { o with labels := (name, o.count) :: o.labels }

/-- Starts a function. -/
def openFunction (o : Outline) (line : Nat) (name hash : Bytes) : Except LineFault Outline :=
  if !isName name then .error .functionUsage
  else match Number.parseUnsigned .byMark 64 hash with
    | .error e => .error (.functionHash e)
    | .ok h =>
      (o.addLabel name).map fun o =>
        { o with
          opened := ⟨name, UInt64.ofNat h, o.count⟩ :: o.opened
          items :=
            ⟨line, .store .a, .endOf name⟩ :: ⟨line, .function, .hash (UInt64.ofNat h)⟩ :: o.items
          count := o.count + 2 }

/-- Ends the innermost function. -/
def closeFunction (o : Outline) : Except LineFault Outline :=
  match o.opened with
  | [] => .error .endWithoutFunction
  | f :: rest =>
    .ok { o with
      opened := rest
      closed := ⟨f, o.count⟩ :: o.closed
      labels := (endLabel f.name, o.count) :: o.labels }

/-- Takes one line without comment into account. -/
def addLine (o : Outline) (line : Nat) (text : Bytes) : Except LineFault Outline :=
  match labelOf? text with
  | some name => o.addLabel name
  | none =>
    match Text.words text with
    | [] => .ok o
    | first :: args =>
      if first = utf8 ".fn" then
        match args with
        | [name, hash] => o.openFunction line name hash
        | _ => .error .functionUsage
      else if first = utf8 ".end" then o.closeFunction
      else if first = utf8 ".entry" then
        match args with
        | [name] => .ok { o with entry := name }
        | _ => .error .entryUsage
      else if first = utf8 ".native" then
        match args with
        | [label, module, hash, name] =>
          match Number.parseUnsigned .byMark 64 hash with
          | .error e => .error (.nativeHash e)
          | .ok h =>
            .ok { o with natives := ⟨line, label, module, UInt64.ofNat h, name⟩ :: o.natives }
        | _ => .error .nativeUsage
      else if first.head? = some 46 then .error (.unknownDirective first)
      else match Mnemonic.parse? first with
        | none => .error (.unknownMnemonic first)
        | some m =>
          .ok { o with
            items := ⟨line, m, .text (Text.headAndTail text).2⟩ :: o.items
            count := o.count + 1 }

/-- Takes lines into account, numbered from `line` on. -/
def addLines (o : Outline) : Nat → List Bytes → Except SourceError Outline
  | _, [] => .ok o
  | line, s :: rest =>
    let text := stripComment s
    if text.isEmpty then addLines o (line + 1) rest
    else match o.addLine line text with
      | .error f => .error (.line line f)
      | .ok o => addLines o (line + 1) rest

/-- The outline of a source. -/
def ofSource (src : Bytes) : Except SourceError Outline :=
  let ls := Text.lines Text.lineLimit src
  match addLines {} 1 ls.lines with
  | .error e => .error e
  | .ok o =>
    if ls.overlong then .error .overlongLine
    else match o.opened with
      | f :: _ => .error (.line ls.lines.length (.neverClosed f.name))
      | [] => .ok o

end Outline

/-- Reads the operand of an instruction. -/
def Item.operand (labels : Labels) (i : Item) : Except LineFault Operand :=
  match i.source with
  | .text s => (readOperand labels s).mapError .operand
  | .hash h => .ok (.immediate (.int .w64 (BitVec.ofNat 64 h.toNat)))
  | .endOf f =>
    match labels.index? (endLabel f) with
    | some n => .ok (.immediate (.int64 n))
    | none => .error (.unknownLabel (endLabel f))

/-- The instruction of an item. -/
def Item.instruction (labels : Labels) (i : Item) : Except SourceError Instruction :=
  match i.operand labels with
  | .error f => .error (.line i.line f)
  | .ok op =>
    let ins : Instruction := ⟨i.mnemonic, op⟩
    if ins.isLegal then .ok ins else .error (.line i.line (.unsupported ins.unsupported))

/-- The native call that a directive asks for. -/
def NativeLine.call (labels : Labels) (n : NativeLine) : Except SourceError NativeCall :=
  match labels.index? n.label with
  | some site => .ok ⟨UInt64.ofNat site, n.module, n.hash, n.name⟩
  | none => .error (.line n.line (.unknownLabel n.label))

/-- The entry point, when there is a function of the entry's name. -/
def Outline.entryPoint? (o : Outline) : Option EntryPoint :=
  (o.closed.find? (·.name == o.entry)).map fun f =>
    ⟨UInt64.ofNat f.start, UInt64.ofNat f.stop, f.hash⟩

/-- The program that a source describes. -/
def assemble (src : Bytes) (arch : Arch) : Except SourceError Program := do
  let o ← Outline.ofSource src
  let instructions ← o.items.reverse.mapM (Item.instruction o.labels)
  let natives ← o.natives.reverse.mapM (NativeLine.call o.labels)
  (Program.build arch o.entryPoint? instructions natives).mapError .program

end RegisterMachine.Assembly
