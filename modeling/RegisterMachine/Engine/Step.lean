import RegisterMachine.Engine.Conversion
import RegisterMachine.Engine.Resolve

/-!
# Steps

`Thread.step` executes one instruction. An instruction first resolves its operands; if anything
fails, registers, stack and frames stay as they were and the thread ends with a panic. A failure can
leave heap entries behind that a copy or a native function had already taken.
-/

namespace RegisterMachine

/-- How control moved in a step. -/
inductive StepKind where
  | next | jump | call | ret | trap | exit
  deriving DecidableEq, Inhabited, Repr

/-- The name of a kind of step. -/
def StepKind.name : StepKind → String
  | next => "next"
  | jump => "jump"
  | call => "call"
  | ret => "return"
  | trap => "trap"
  | exit => "exit"

/-- What one step did. -/
structure StepInfo where
  kind : StepKind
  /-- The index of the instruction, or -1 when the thread had already ended. -/
  pc : Int
  /-- The index of the next instruction, or -1 at the end. -/
  next : Int
  /-- The instruction, when the index lies in the program. -/
  instruction : Option Instruction
  deriving DecidableEq, Inhabited

/-- The largest array that can be made at once. -/
def maxStaticArray : Nat := 1048576

namespace Thread

/-- Puts a value into a register. -/
def setRegister (t : Thread) (r : Register) (v : Value) : Thread :=
  { t with registers := t.registers.set r v }

/-- Moves the current frame to another instruction. -/
def jumpTo (t : Thread) (pc : Nat) : Thread := { t with stack := t.stack.jump pc }

/-- Follows a reference; other values are returned unchanged. -/
def deref (t : Thread) (v : Value) : Except MemoryError Value := Native.deref t.heap v

/-- The outcome of an instruction: how control moved, and the thread after it. -/
abbrev Outcome := Except Failure (StepKind × Thread)

/-- Fails and leaves the heap as it is. -/
def refuse (t : Thread) (fault : Fault) : Outcome := .error ⟨fault, t.heap⟩

/-- Goes on to the next instruction with the thread that a computation gives. -/
def proceed (t : Thread) (f : Frame) (result : Except Fault Thread) : Outcome :=
  match result with
  | .error fault => t.refuse fault
  | .ok t' => .ok (.next, t'.jumpTo (f.pc + 1))

/-- Puts the value that a computation gives into a register. -/
def assign (t : Thread) (f : Frame) (r : Register) (result : Except Fault Value) : Outcome :=
  t.proceed f (result.map (t.setRegister r))

/-- Loads an operand into a register. -/
def execLoad (t : Thread) (f : Frame) (r : Register) (op : Operand) : Outcome :=
  match t.load f op with
  | .error e => .error e
  | .ok (v, heap) => .ok (.next, ({ t with heap }.setRegister r v).jumpTo (f.pc + 1))

/-- Stores a register, or an immediate value, where the operand points. -/
def execStore (t : Thread) (f : Frame) (r : Register) (op : Operand) : Outcome :=
  let (heap, value) := match op with
    | .immediate v => t.immediate v
    | _ => (t.heap, .ok (t.registers.get r))
  match value with
  | .error e => .error ⟨.memory e, heap⟩
  | .ok v =>
    match t.store f op heap v with
    | .error e => .error e
    | .ok t => .ok (.next, t.jumpTo (f.pc + 1))

/-- The values of B and C with references followed. -/
def operands (t : Thread) : Except Fault (Value × Value) := do
  let b ← (t.deref t.registers.b).mapError .memory
  let c ← (t.deref t.registers.c).mapError .memory
  return (b, c)

/-- Puts the result of arithmetic on B and C into A; the sum of two strings is a new string. -/
def execArith (t : Thread) (f : Frame) (op : ArithOp) : Outcome :=
  t.proceed f do
    let (b, c) ← t.operands
    match op, b, c with
    | .add, .string s, .string u =>
      let (heap, r) := t.heap.alloc (.string (s ++ u))
      return { t with heap }.setRegister .a (.heapRef r)
    | op, b, c => return t.setRegister .a (← Arithmetic.arith op b c)

/-- Jumps to an instruction of the program. -/
def execJump (t : Thread) (target : Nat) : Outcome :=
  if t.code.size ≤ target then t.refuse (.jumpOutside target t.code.size)
  else .ok (.jump, t.jumpTo target)

/-- Calls the function at an index; its window starts behind the caller's. -/
def execCall (t : Thread) (f : Frame) (entry : Int) : Outcome :=
  match functionAt t.code entry with
  | .error fault => t.refuse fault
  | .ok fn =>
    let callee : Frame :=
      { hash := fn.hash, entry := entry.toNat, stop := fn.stop, base := f.base + f.window
        window := fn.stop - entry.toNat, pc := entry.toNat + 2, returnPC := some (f.pc + 1)
        saved := t.registers }
    match t.stack.push callee with
    | .error e => t.refuse (.memory e)
    | .ok stack => .ok (.call, { t with stack })

/-- Returns to the caller with its registers, except for Y; from the first frame, ends the
thread. -/
def execReturn (t : Thread) : Outcome :=
  match t.stack.pop with
  | .error e => t.refuse (.memory e)
  | .ok (done, stack) =>
    let y := t.registers.y
    match stack.frames with
    | [] => .ok (.ret, { t with stack, exit := some (.graceful y), state := .exited })
    | caller :: _ =>
      .ok (.ret,
        { t with
          registers := { done.saved with y }
          stack := stack.jump (done.returnPC.getD caller.pc) })

/-- Appends a value to the array that A refers to. -/
def execPush (t : Thread) (f : Frame) (op : Operand) : Outcome :=
  match asRef t.registers.a with
  | .error fault => t.refuse fault
  | .ok r =>
    match t.load f op with
    | .error e => .error e
    | .ok (v, heap) =>
      match updateHeap heap r fun
        | .array es => .ok (.array (es ++ [v]))
        | c => .error (.ofValues .push [c]) with
      | .error fault => .error ⟨fault, heap⟩
      | .ok heap => .ok (.next, { t with heap }.jumpTo (f.pc + 1))

/-- The text that is appended to a string for a value. -/
def appendix (v : Value) : Except Fault Bytes :=
  match v with
  | .char c => .ok (Text.encodeRune c.toNat)
  | .byte b => .ok (Text.encodeRune b.toNat)
  | .string s => .ok s
  | v => .error (.ofValues .pushString [v])

/-- Appends a character, a byte or a string to the string that A refers to. -/
def execPushString (t : Thread) (f : Frame) (op : Operand) : Outcome :=
  match asRef t.registers.a with
  | .error fault => t.refuse fault
  | .ok r =>
    match t.load f op with
    | .error e => .error e
    | .ok (v, heap) =>
      let result : Except Fault Heap := do
        let v ← (Native.deref heap v).mapError .memory
        let tail ← appendix v
        updateHeap heap r fun
          | .string s => .ok (.string (s ++ tail))
          | c => .error (.ofValues .pushString [c])
      match result with
      | .error fault => .error ⟨fault, heap⟩
      | .ok heap => .ok (.next, { t with heap }.jumpTo (f.pc + 1))

/-- The number of elements of an array or of characters of a string. -/
def lengthOf? : Value → Option Nat
  | .array es => some es.length
  | .string s => some (Text.runes s).length
  | _ => none

/-- Puts the length of what a slot refers to into A. -/
def execLength (t : Thread) (f : Frame) (n : Nat) : Outcome :=
  t.assign f .a do
    let r ← t.slotRef f n
    let c ← (t.heap.get r).mapError .memory
    match lengthOf? c with
    | some k => return .int64 k
    | none => throw (.ofValues .length [c])

/-- Puts a reference to a new value into A. -/
def execNew (t : Thread) (f : Frame) (v : Value) : Outcome :=
  let (heap, r) := t.heap.alloc v
  .ok (.next, ({ t with heap }.setRegister .a (.heapRef r)).jumpTo (f.pc + 1))

/-- Makes an array with a given number of void elements. -/
def execNewStatic (t : Thread) (f : Frame) (count : Value) : Outcome :=
  match count with
  | .int _ b =>
    let n := b.toInt
    if n < 0 then t.refuse (.arrayCount count)
    else if (maxStaticArray : Int) < n then t.refuse (.arrayTooLarge n)
    else t.execNew f (.array (List.replicate n.toNat .void))
  | count => t.refuse (.arrayCount count)

/-- Moves the last element of the array in a slot into A. -/
def execPop (t : Thread) (f : Frame) (n : Nat) : Outcome :=
  t.proceed f do
    let r ← t.slotRef f n
    let c ← (t.heap.get r).mapError .memory
    match c with
    | .array es =>
      match es.getLast? with
      | none => throw (.popEmpty r)
      | some last =>
        let heap ← (t.heap.set r (.array es.dropLast)).mapError .memory
        return { t with heap }.setRegister .a last
    | c => throw (.ofValues .pop [c])

/-- Converts A; a string that A refers to is kept, and a new string goes to the heap. -/
def execConvert (t : Thread) (f : Frame) (target : Conversion) : Outcome :=
  t.proceed f do
    let a := t.registers.a
    let v ← (t.deref a).mapError .memory
    match target, a, v with
    | .string, .heapRef _, .string _ => return t
    | target, _, v =>
      match ← Conversion.convert target v with
      | .string s =>
        let (heap, r) := t.heap.alloc (.string s)
        return { t with heap }.setRegister .a (.heapRef r)
      | v => return t.setRegister .a v

/-- Puts a deep copy of a slot into A. -/
def execClone (t : Thread) (f : Frame) (n : Nat) : Outcome :=
  match t.getLocal f n with
  | .error e => t.refuse (.memory e)
  | .ok .void => t.refuse (.emptySlot n)
  | .ok v =>
    match t.heap.deepCopy v with
    | (heap, .error e) => .error ⟨.memory e, heap⟩
    | (heap, .ok v) => .ok (.next, ({ t with heap }.setRegister .a v).jumpTo (f.pc + 1))

/-- Frees what a slot refers to and clears the slot. -/
def execFree (t : Thread) (f : Frame) (n : Nat) : Outcome :=
  t.proceed f do
    let slot ← (f.slot n).mapError .memory
    let v ← (t.stack.get slot).mapError .memory
    let heap ← match v with
      | .heapRef r => (t.heap.free r).mapError .memory
      | _ => pure t.heap
    let stack ← (t.stack.set slot .void).mapError .memory
    return { t with heap, stack }

/-- The arguments of a native call: `arity` slots from an address on, which wraps at 64 bits. -/
def arguments (t : Thread) (f : Frame) (n : UInt64) (arity : Nat) :
    Except MemoryError (List Value) :=
  (List.range arity).mapM fun i => t.getLocal f (n + UInt64.ofNat i).toNat

/-- Calls the native function bound to this instruction; its result goes to Y. -/
def execCallNative (t : Thread) (f : Frame) (n : UInt64) : Outcome :=
  match t.program.native? f.pc with
  | none => t.refuse (.noNativeCall f.pc)
  | some call =>
    match t.natives.lookup? call.hash with
    | none => t.refuse (.unknownNative call)
    | some fn =>
      match t.arguments f n fn.arity with
      | .error e => t.refuse (.memory e)
      | .ok args =>
        match fn.code t.heap args with
        | .failed msg left => .error ⟨.nativeFailed fn.qualifiedName msg, left.getD t.heap⟩
        | .crashed msg left => .error ⟨.internal msg, left.getD t.heap⟩
        | .returned v heap printed =>
          let (heap, v) := heap.intern v
          let t := { t with
            heap
            printed := if printed.isEmpty then t.printed else printed :: t.printed }
          .ok (.next, (t.setRegister .y v).jumpTo (f.pc + 1))

/-- Executes an instruction in the current frame. -/
def exec (t : Thread) (f : Frame) (i : Instruction) : Outcome :=
  match i.mnemonic, i.operand with
  | .load r, op => t.execLoad f r op
  | .store r, op => t.execStore f r op
  | .arith op, _ => t.execArith f op
  | .logic op, _ => t.assign f .a (Arithmetic.logic op t.registers.b t.registers.c)
  | .compare op, _ =>
    t.assign f .a do
      let (b, c) ← t.operands
      return .bool (← Arithmetic.compareValues op b c)
  | .jump, .absolute a => t.execJump a.toNat
  | .jumpIf, .absolute a =>
    match t.registers.a with
    | .bool true => t.execJump a.toNat
    | .bool false => .ok (.next, t.jumpTo (f.pc + 1))
    | v => t.refuse (.jumpNeedsBool v.typeName)
  | .call, .absolute a => t.execCall f a.toInt64.toInt
  | .ret, _ => t.execReturn
  | .function, _ =>
    match functionAt t.code f.pc with
    | .error fault => t.refuse fault
    | .ok fn => .ok (.jump, t.jumpTo fn.stop)
  | .push, op => t.execPush f op
  | .pushString, op => t.execPushString f op
  | .length, .absolute a => t.execLength f a.toNat
  | .newArray, _ => t.execNew f (.array [])
  | .newString, _ => t.execNew f (.string [])
  | .newStaticArray, .immediate v => t.execNewStatic f v
  | .pop, .absolute a => t.execPop f a.toNat
  | .convert target, _ => t.execConvert f target
  | .clone, .absolute a => t.execClone f a.toNat
  | .free, .absolute a => t.execFree f a.toNat
  | .trap, _ => .ok (.trap, t.jumpTo (f.pc + 1))
  | .callNative, .absolute a => t.execCallNative f a
  | m, _ => t.refuse (.internal (utf8 "no effect defined for " ++ utf8 m.name))

/-- What a step says about a thread that has already ended. -/
def ended : StepInfo := ⟨.exit, -1, -1, none⟩

/-- Executes one instruction. A thread that has ended stays as it is. -/
def step (t : Thread) : StepInfo × Thread :=
  if t.exit.isSome then (ended, t)
  else match t.stack.top? with
    | none => (ended, t.fail (-1) .noFrame)
    | some f =>
      match t.code[f.pc]? with
      | none => (⟨.exit, f.pc, -1, none⟩, t.fail f.pc (.counterOutside f.pc t.code.size))
      | some i =>
        let shown := t.program.at? f.pc
        let t := { t with state := .running, trapped := false, steps := t.steps + 1 }
        match t.exec f i with
        | .error e => (⟨.exit, f.pc, -1, shown⟩, { t with heap := e.heap }.fail f.pc e.fault)
        | .ok (kind, t) =>
          if t.exit.isSome then (⟨.exit, f.pc, -1, shown⟩, t)
          else
            let t := if kind = .trap then { t with state := .suspended, trapped := true } else t
            (⟨kind, f.pc, t.location, shown⟩, t)

end Thread

end RegisterMachine
