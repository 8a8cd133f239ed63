import RegisterMachine.Cbor.Record
import RegisterMachine.Engine.Run

/-!
# Snapshots

A snapshot is a copy of a thread's state: its registers, slots, frames, live heap entries and exit.
It is written as a record whose fields have numbers; runtime values are byte strings in their binary
form. `Snapshot.encode` and `Snapshot.decode` are the two directions. What is read need not come
from a thread, so an exit is kept as it is written: a kind, a value and perhaps a panic.
-/

namespace RegisterMachine

/-- An exit as it is written. -/
structure ExitRecord where
  /-- Zero for a graceful exit. -/
  kind : Int := 0
  value : Value := .void
  panic : Option Panic := none
  deriving DecidableEq, Inhabited

namespace ExitRecord

def isGraceful (e : ExitRecord) : Bool := e.kind == 0

/-- The name of the kind of exit. -/
def kindName (e : ExitRecord) : String := if e.isGraceful then "exit_gracefully" else "panic"

/-- The text of an exit; a panic that is missing has none. -/
def text? (e : ExitRecord) : Option Bytes :=
  if e.isGraceful then some (Exit.graceful e.value).text
  else e.panic.map fun p => (Exit.panicked p).text

end ExitRecord

/-- The written form of an exit. -/
def Exit.record : Exit → ExitRecord
  | graceful v => { value := v }
  | panicked p => { kind := 1, panic := some p }

/-- A register in a snapshot. -/
structure RegisterView where
  name : Bytes := []
  type : Bytes := []
  value : Value := .void
  deriving DecidableEq, Inhabited

/-- A slot in a snapshot. -/
structure SlotView where
  index : Int := 0
  type : Bytes := []
  value : Value := .void
  deriving DecidableEq, Inhabited

/-- A frame in a snapshot. -/
structure FrameView where
  hash : UInt64 := 0
  entry : Int := 0
  stop : Int := 0
  base : Int := 0
  window : Int := 0
  pc : Int := 0
  returnPC : Int := 0
  deriving DecidableEq, Inhabited

/-- A heap entry in a snapshot. -/
structure HeapView where
  ref : Ref := ⟨0, 0⟩
  type : Bytes := []
  value : Value := .void
  deriving DecidableEq, Inhabited

/-- Slots and frames, outermost frame first. -/
structure StackView where
  slots : List SlotView := []
  frames : List FrameView := []
  deriving DecidableEq, Inhabited

/-- A copy of a thread's state. -/
structure Snapshot where
  id : Bytes := []
  state : Bytes := []
  steps : Nat := 0
  arch : Bytes := []
  location : CodeLocation := ⟨0, 0⟩
  registers : List RegisterView := []
  stack : StackView := {}
  heap : List HeapView := []
  exit : Option ExitRecord := none
  deriving DecidableEq, Inhabited

/-- A frame as a snapshot shows it. -/
def Frame.view (f : Frame) : FrameView :=
  ⟨f.hash, f.entry, f.stop, f.base, f.window, f.pc, (f.returnPC.map Int.ofNat).getD (-1)⟩

namespace Thread

/-- The registers as a snapshot shows them. -/
def registerViews (t : Thread) : List RegisterView :=
  Register.all.map fun r =>
    let v := t.registers.get r
    ⟨utf8 r.name, v.typeName, v⟩

/-- Slots and frames as a snapshot shows them. -/
def stackView (t : Thread) : StackView :=
  ⟨t.stack.slots.toList.zipIdx.map fun (v, i) => ⟨i, v.typeName, v⟩,
    t.stack.frames.reverse.map (·.view)⟩

/-- The live heap entries as a snapshot shows them. -/
def heapViews (t : Thread) : List HeapView :=
  t.heap.view.map fun e => ⟨e.ref, e.value.typeName, e.value⟩

/-- A copy of the thread's state. -/
def snapshot (t : Thread) : Snapshot :=
  { id := t.id
    state := utf8 t.state.name
    steps := t.steps
    arch := t.program.arch.name
    location := t.codeLocation
    registers := t.registerViews
    stack := t.stackView
    heap := t.heapViews
    exit := t.exit.map (·.record) }

end Thread

namespace Wire

open Cbor (ofText ofInt ofValue field readRecord readInt readNat readText readValue readList
  readOption Reader)

/-- A map with named keys, the shorter ones first. -/
def named (entries : List (String × Cbor)) : Cbor :=
  .map (entries.map fun (k, v) => (ofText (utf8 k), v))

/-- A map with numbered keys in ascending order. -/
def numbered (entries : List (Nat × Cbor)) : Cbor :=
  .map (entries.map fun (k, v) => (.unsigned k, v))

/-- The largest 64-bit number. -/
def maxWord : Nat := 2 ^ (64 : Nat) - 1

/-- A 64-bit word. -/
def readWord : Reader UInt64 := fun x => (readNat maxWord x).map UInt64.ofNat

/-- A 32-bit word. -/
def readHalf : Reader UInt32 := fun x => (readNat (2 ^ (32 : Nat) - 1) x).map UInt32.ofNat

def locationItem (l : CodeLocation) : Cbor := named [("pc", ofInt l.pc), ("offset", ofInt l.offset)]

def readLocation : Reader CodeLocation :=
  readRecord [
    field (.name "pc") readInt fun v l => { l with pc := v },
    field (.name "offset") readInt fun v l => { l with offset := v }] ⟨0, 0⟩

def traceItem (f : TraceFrame) : Cbor :=
  named [("pc", ofInt f.pc), ("base", ofInt f.base), ("hash", .unsigned f.hash.toNat),
    ("entry", ofInt f.entry)]

def readTrace : Reader TraceFrame :=
  readRecord [
    field (.name "hash") readWord fun v f => { f with hash := v },
    field (.name "entry") readInt fun v f => { f with entry := v },
    field (.name "pc") readInt fun v f => { f with pc := v },
    field (.name "base") readInt fun v f => { f with base := v }] ⟨0, 0, 0, 0⟩

def panicItem (p : Panic) : Cbor :=
  named [("reason", ofInt p.reason.code), ("message", ofText p.message),
    ("location", locationItem p.location), ("stack_trace", .array (p.trace.map traceItem))]

def readPanic : Reader Panic :=
  readRecord [
    field (.name "reason") readInt fun v p => { p with reason := ⟨v⟩ },
    field (.name "message") readText fun v p => { p with message := v },
    field (.name "location") readLocation fun v p => { p with location := v },
    field (.name "stack_trace") (readList readTrace) fun v p => { p with trace := v }]
    ⟨⟨0⟩, [], ⟨0, 0⟩, []⟩

def exitItem (e : ExitRecord) : Cbor :=
  named ([("kind", ofInt e.kind)]
    ++ (match e.panic with
      | some p => [("panic", panicItem p)]
      | none => [])
    ++ [("return", ofValue e.value)])

def readExit : Reader ExitRecord :=
  readRecord [
    field (.name "kind") readInt fun v e => { e with kind := v },
    field (.name "return") readValue fun v e => { e with value := v },
    field (.name "panic") (readOption readPanic) fun v e => { e with panic := v }] {}

def registerItem (r : RegisterView) : Cbor :=
  named [("name", ofText r.name), ("type", ofText r.type), ("value", ofValue r.value)]

def readRegister : Reader RegisterView :=
  readRecord [
    field (.name "name") readText fun v r => { r with name := v },
    field (.name "type") readText fun v r => { r with type := v },
    field (.name "value") readValue fun v r => { r with value := v }] {}

def slotItem (s : SlotView) : Cbor :=
  numbered [(1, ofInt s.index), (2, ofText s.type), (3, ofValue s.value)]

def readSlot : Reader SlotView :=
  readRecord [
    field (.number 1) readInt fun v s => { s with index := v },
    field (.number 2) readText fun v s => { s with type := v },
    field (.number 3) readValue fun v s => { s with value := v }] {}

def frameItem (f : FrameView) : Cbor :=
  numbered [(1, .unsigned f.hash.toNat), (2, ofInt f.entry), (3, ofInt f.stop), (4, ofInt f.base),
    (5, ofInt f.window), (6, ofInt f.pc), (7, ofInt f.returnPC)]

def readFrame : Reader FrameView :=
  readRecord [
    field (.number 1) readWord fun v f => { f with hash := v },
    field (.number 2) readInt fun v f => { f with entry := v },
    field (.number 3) readInt fun v f => { f with stop := v },
    field (.number 4) readInt fun v f => { f with base := v },
    field (.number 5) readInt fun v f => { f with window := v },
    field (.number 6) readInt fun v f => { f with pc := v },
    field (.number 7) readInt fun v f => { f with returnPC := v }] {}

def stackItem (s : StackView) : Cbor :=
  numbered [(1, .array (s.slots.map slotItem)), (2, .array (s.frames.map frameItem))]

def readStack : Reader StackView :=
  readRecord [
    field (.number 1) (readList readSlot) fun v s => { s with slots := v },
    field (.number 2) (readList readFrame) fun v s => { s with frames := v }] {}

def refItem (r : Ref) : Cbor :=
  named [("Gen", .unsigned r.gen.toNat), ("Index", .unsigned r.index.toNat)]

def readRef : Reader Ref :=
  readRecord [
    field (.name "Index") readHalf fun v r => { r with index := v },
    field (.name "Gen") readHalf fun v r => { r with gen := v }] ⟨0, 0⟩

def heapItem (e : HeapView) : Cbor :=
  named [("ref", refItem e.ref), ("type", ofText e.type), ("value", ofValue e.value)]

def readHeap : Reader HeapView :=
  readRecord [
    field (.name "ref") readRef fun v e => { e with ref := v },
    field (.name "type") readText fun v e => { e with type := v },
    field (.name "value") readValue fun v e => { e with value := v }] {}

def snapshotItem (s : Snapshot) : Cbor :=
  numbered ([(1, ofText s.id), (2, ofText s.state), (3, .unsigned s.steps), (4, ofText s.arch),
      (5, locationItem s.location), (6, .array (s.registers.map registerItem)),
      (7, stackItem s.stack), (8, .array (s.heap.map heapItem))]
    ++ (match s.exit with
      | some e => [(9, exitItem e)]
      | none => []))

def readSnapshot : Reader Snapshot :=
  readRecord [
    field (.number 1) readText fun v s => { s with id := v },
    field (.number 2) readText fun v s => { s with state := v },
    field (.number 3) (readNat maxWord) fun v s => { s with steps := v },
    field (.number 4) readText fun v s => { s with arch := v },
    field (.number 5) readLocation fun v s => { s with location := v },
    field (.number 6) (readList readRegister) fun v s => { s with registers := v },
    field (.number 7) readStack fun v s => { s with stack := v },
    field (.number 8) (readList readHeap) fun v s => { s with heap := v },
    field (.number 9) (readOption readExit) fun v s => { s with exit := v }] {}

/-- Why bytes are no snapshot or report. -/
inductive WireError where
  | snapshot (e : Cbor.ShapeError)
  | report (e : Cbor.ShapeError)
  | noExit (id : Bytes)
  | program (e : CodecError)
  | hashMismatch (report program : Bytes)
  deriving DecidableEq, Inhabited

/-- The wording of an error. -/
def WireError.message : WireError → Bytes
  | snapshot _ => utf8 "dist: unmarshal snapshot"
  | report _ => utf8 "dist: unmarshal exit report"
  | noExit id => utf8 "dist: exit report " ++ id ++ utf8 " has no exit"
  | program e => utf8 "dist: hash program: " ++ e.message
  | hashMismatch r p =>
    utf8 "dist: program hash mismatch: report has " ++ Bytes.hex r ++ utf8 ", program is "
      ++ Bytes.hex p

/-- The error in a program or a value that an error is about. -/
def WireError.codec? : WireError → Option CodecError
  | snapshot (.value e) | report (.value e) | program e => some e
  | _ => none

/-- Reads a whole byte string. -/
def readBytes {α : Type} (read : Reader α) (data : Bytes) : Except Cbor.ShapeError α :=
  match Cbor.decode? data with
  | none => .error .shape
  | some x => read x

end Wire

/-- The written form of a snapshot. -/
def Snapshot.encode (s : Snapshot) : Bytes := (Wire.snapshotItem s).encode

/-- Reads a snapshot. -/
def Snapshot.decode (data : Bytes) : Except Wire.WireError Snapshot :=
  (Wire.readBytes Wire.readSnapshot data).mapError .snapshot

end RegisterMachine
