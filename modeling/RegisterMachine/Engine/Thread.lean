import RegisterMachine.Engine.Native
import RegisterMachine.Engine.Stack

/-!
# Threads

A thread runs one program with registers, a stack and a heap of its own. When it is made, the
strings and arrays among the program's immediate values are moved into the heap; they are literals,
which are copied whenever they are loaded and are never freed. The entry function's frame is the
first.
-/

namespace RegisterMachine

/-- An instruction by its index and byte offset; both are -1 for none. -/
structure CodeLocation where
  pc : Int
  offset : Int
  deriving DecidableEq, Inhabited

/-- The text of a location. -/
def CodeLocation.text (l : CodeLocation) : Bytes :=
  utf8 "pc " ++ Number.decimalInt l.pc ++ utf8 " (byte 0x"
    ++ Number.zeroPadded 4 Number.upperHex l.offset ++ utf8 ")"

/-- One frame in the trace of a panic. -/
structure TraceFrame where
  hash : UInt64
  entry : Int
  pc : Int
  base : Int
  deriving DecidableEq, Inhabited

/-- How and where a thread panicked; the trace has the innermost frame first. -/
structure Panic where
  reason : PanicReason
  message : Bytes
  location : CodeLocation
  trace : List TraceFrame
  deriving DecidableEq, Inhabited

/-- The text of a panic. -/
def Panic.text (p : Panic) : Bytes :=
  utf8 "thread panicked at " ++ p.location.text ++ utf8 ": " ++ p.message

/-- The end of a thread. -/
inductive Exit where
  /-- The last function returned a value. -/
  | graceful (value : Value)
  | panicked (p : Panic)
  deriving DecidableEq, Inhabited

namespace Exit

/-- Whether the thread ended without a panic. -/
def isGraceful : Exit → Bool
  | graceful _ => true
  | panicked _ => false

/-- The text of an exit. -/
def text : Exit → Bytes
  | graceful v => utf8 "exited gracefully with " ++ v.text
  | panicked p =>
    utf8 "panic (" ++ p.reason.name ++ utf8 ") at " ++ p.location.text ++ utf8 ": " ++ p.message

end Exit

/-- The stage of a thread's life. -/
inductive ThreadState where
  | ready | running | suspended | exited
  deriving DecidableEq, Inhabited, Repr

/-- The name of a stage. -/
def ThreadState.name : ThreadState → String
  | ready => "ready"
  | running => "running"
  | suspended => "suspended"
  | exited => "exited"

/-- A thread. -/
structure Thread where
  id : Bytes
  program : Program
  /-- The program's instructions with literals replaced by references. -/
  code : Array Instruction
  /-- The references of literals. -/
  literals : List Ref
  natives : NativeRegistry
  registers : Registers := {}
  stack : Stack
  heap : Heap := {}
  state : ThreadState := .ready
  /-- Whether a trap suspended the thread. -/
  trapped : Bool := false
  exit : Option Exit := none
  /-- How many instructions were executed. -/
  steps : Nat := 0
  /-- What native functions printed, the last piece first. -/
  printed : List Bytes := []
  deriving Inhabited

mutual

/-- Moves strings and arrays into the heap, the inner ones first, and gives the reference. -/
def Heap.intern (h : Heap) : Value → Heap × Value
  | .string s =>
    let (h, r) := h.alloc (.string s)
    (h, .heapRef r)
  | .array es =>
    let (h, es) := Heap.internAll h es
    let (h, r) := h.alloc (.array es)
    (h, .heapRef r)
  | v => (h, v)

/-- `intern` for the elements of an array, in order. -/
def Heap.internAll (h : Heap) : List Value → Heap × List Value
  | [] => (h, [])
  | v :: vs =>
    let (h, v) := Heap.intern h v
    let (h, vs) := Heap.internAll h vs
    (h, v :: vs)

end

/-- A function found at an instruction index. -/
structure FunctionHeader where
  hash : UInt64
  stop : Nat
  deriving DecidableEq, Inhabited

/-- The function whose header is at an index: a function instruction with an immediate hash,
followed by a store of A with its end. The one index whose successor is no 64-bit number passes the
first check and is a fault of the engine. -/
def functionAt (code : Array Instruction) (entry : Int) : Except Fault FunctionHeader :=
  if entry = 2 ^ (63 : Nat) - 1 then
    .error (.internal (utf8 "runtime error: index out of range [" ++ Number.decimalInt entry
      ++ utf8 "] with length " ++ Number.decimal code.size))
  else if entry < 0 ∨ (code.size : Int) ≤ entry + 1 then .error (.noHeader entry)
  else
    let header := code.getD entry.toNat default
    match header with
    | ⟨.function, .immediate hash⟩ =>
      match code.getD (entry.toNat + 1) default with
      | ⟨.store .a, .immediate (.int _ b)⟩ =>
        let stop := b.toInt
        if stop ≤ entry + 1 ∨ (code.size : Int) < stop then .error (.endOutside entry stop)
        else .ok ⟨UInt64.ofInt hash.toInt, stop.toNat⟩
      | _ => .error (.noEndMarker entry)
    | _ => .error (.notHeader entry header.mnemonic)

namespace Thread

/-- How a thread is set up. -/
structure Options where
  maxStack : Int := 0
  natives : NativeRegistry := {}
  deriving Inhabited

/-- Why a thread cannot be made. -/
inductive StartError where
  | noMain
  | entry (f : Fault)
  | memory (e : MemoryError)
  deriving DecidableEq, Inhabited

/-- The wording of an error. -/
def StartError.message : StartError → Bytes
  | noMain => utf8 "program has no main function"
  | entry f => utf8 "invalid entry point: " ++ f.fullMessage
  | memory e => e.message

/-- Moves the literals of instructions into the heap; gives the heap, the instructions and the
references of the literals. -/
def internLiterals (h : Heap) : List Instruction → Heap × List Instruction × List Ref
  | [] => (h, [], [])
  | i :: is =>
    match i.operand with
    | .immediate v =>
      match h.intern v with
      | (h', .heapRef r) =>
        if v.kind = .string ∨ v.kind = .array then
          let (h', is, refs) := internLiterals h' is
          (h', { i with operand := .immediate (.heapRef r) } :: is, r :: refs)
        else
          let (h', is, refs) := internLiterals h' is
          (h', i :: is, refs)
      | (h', _) =>
        let (h', is, refs) := internLiterals h' is
        (h', i :: is, refs)
    | _ =>
      let (h, is, refs) := internLiterals h is
      (h, i :: is, refs)

/-- A thread at the start of a program's main function. -/
def start (id : Bytes) (p : Program) (opts : Options) : Except StartError Thread :=
  if !p.mainExists then .error .noMain
  else
    let (heap, code, literals) := internLiterals {} p.instructions.toList
    let code := code.toArray
    let entry := p.entry.start.toNat
    match functionAt code entry with
    | .error f => .error (.entry f)
    | .ok fn =>
      let frame : Frame :=
        { hash := fn.hash, entry, stop := fn.stop, base := 0, window := fn.stop - entry
          pc := entry + 2 }
      match (Stack.empty opts.maxStack).push frame with
      | .error e => .error (.memory e)
      | .ok stack => .ok { id, program := p, code, literals, natives := opts.natives, stack, heap }

/-- The index of the next instruction, or -1 when the thread has ended. -/
def location (t : Thread) : Int :=
  match t.stack.top?, t.exit with
  | some f, none => f.pc
  | _, _ => -1

/-- The next instruction's place. -/
def codeLocation (t : Thread) : CodeLocation := ⟨t.location, t.program.offset t.location⟩

/-- The frames as a panic reports them, innermost first. -/
def trace (t : Thread) : List TraceFrame :=
  t.stack.frames.map fun f => ⟨f.hash, f.entry, f.pc, f.base⟩

/-- Ends the thread with a panic at an instruction. -/
def fail (t : Thread) (pc : Int) (f : Fault) : Thread :=
  { t with
    exit := some (.panicked ⟨f.reason, f.message, ⟨pc, t.program.offset pc⟩, t.trace⟩)
    state := .exited }

/-- The values from which the heap can be reached: literals, registers, saved registers, slots and
the value returned at the end. -/
def roots (t : Thread) : List Value :=
  t.literals.map .heapRef ++ t.registers.toList
    ++ t.stack.frames.flatMap (·.saved.toList)
    ++ t.stack.slots.toList
    ++ (match t.exit with
      | some (.graceful v) => [v]
      | _ => [])

/-- Frees the heap entries that the thread cannot reach, and says how many those are. -/
def reclaim (t : Thread) : Thread × Nat :=
  let (heap, n) := t.heap.reclaim t.roots
  ({ t with heap }, n)

/-- Everything that native functions printed. -/
def output (t : Thread) : Bytes := t.printed.reverse.flatten

end Thread

end RegisterMachine
