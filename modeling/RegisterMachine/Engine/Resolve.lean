import RegisterMachine.Engine.Thread

/-!
# Operands at run time

How an operand is turned into a value, and how a value is written where an operand points. Loading a
literal copies it with everything it refers to, which takes heap entries; so loading gives a heap
back whether it succeeds or not.
-/

namespace RegisterMachine

/-- A reference and what it has been copied to. -/
abbrev Copied := List (Ref × Ref)

/-- The heap and what has been copied so far. -/
structure CopyState where
  heap : Heap
  copied : Copied
  deriving Inhabited

/-- Copies values in order and stops at the first that fails. -/
def copyAll (copy : CopyState → Value → CopyState × Except MemoryError Value) :
    CopyState → List Value → CopyState × Except MemoryError (List Value)
  | st, [] => (st, .ok [])
  | st, v :: vs =>
    match copy st v with
    | (st, .error e) => (st, .error e)
    | (st, .ok v) =>
      match copyAll copy st vs with
      | (st, .error e) => (st, .error e)
      | (st, .ok vs) => (st, .ok (v :: vs))

/-- Copies a value: each entry it reaches gets a new one, taken before the elements are copied, and
is copied only once. The fuel bounds how deeply entries refer to each other. -/
def copyValue : Nat → CopyState → Value → CopyState × Except MemoryError Value
  | fuel, st, .heapRef src =>
    match st.copied.lookup src with
    | some dst => (st, .ok (.heapRef dst))
    | none =>
      match fuel, st.heap.get src with
      | _, .error e => (st, .error e)
      | 0, .ok _ => (st, .error (.stale src))
      | fuel + 1, .ok content =>
        let (heap, dst) := st.heap.alloc .void
        let st : CopyState := ⟨heap, (src, dst) :: st.copied⟩
        match content with
        | .array es =>
          match copyAll (copyValue fuel) st es with
          | (st, .error e) => (st, .error e)
          | (st, .ok es) => finish st dst (.array es)
        | content => finish st dst content
  | _, st, v => (st, .ok v)
where
  /-- Puts the copied content into the new entry. -/
  finish (st : CopyState) (dst : Ref) (content : Value) : CopyState × Except MemoryError Value :=
    match st.heap.set dst content with
    | .error e => (st, .error e)
    | .ok heap => ({ st with heap }, .ok (.heapRef dst))

/-- How many entries a heap can have, and so how deeply they can refer to each other. -/
def Heap.maxEntries : Nat := 2 ^ (32 : Nat)

/-- Copies a value with everything it reaches; shared and cyclic references keep their shape. -/
def Heap.deepCopy (h : Heap) (v : Value) : Heap × Except MemoryError Value :=
  let (st, r) := copyValue Heap.maxEntries ⟨h, []⟩ v
  (st.heap, r)

/-- A fault and the heap that it leaves behind. -/
structure Failure where
  fault : Fault
  heap : Heap
  deriving Inhabited

namespace Thread

/-- The value of an immediate operand; literals are copied. -/
def immediate (t : Thread) (v : Value) : Heap × Except MemoryError Value :=
  match v with
  | .heapRef r => if t.literals.contains r then t.heap.deepCopy v else (t.heap, .ok v)
  | v => (t.heap, .ok v)

/-- Reads a slot of a frame. -/
def getLocal (t : Thread) (f : Frame) (n : Nat) : Except MemoryError Value := do
  let slot ← f.slot n
  t.stack.get slot

/-- The reference that a value is. -/
def asRef (v : Value) : Except Fault Ref :=
  match v with
  | .heapRef r => .ok r
  | .void | .null => .error (.nullReference v.typeName)
  | v => .error (.notReference v.typeName)

/-- The reference in a slot of a frame. -/
def slotRef (t : Thread) (f : Frame) (n : Nat) : Except Fault Ref := do
  let v ← (t.getLocal f n).mapError .memory
  asRef v

/-- The element that an index in a slot names. -/
def indexIn (t : Thread) (f : Frame) (n : Nat) : Except Fault Int := do
  let v ← (t.getLocal f n).mapError .memory
  match v with
  | .int _ b => return b.toInt
  | v => throw (.indexType v.typeName)

/-- An element of an array, or a character of a string. -/
def elementAt (h : Heap) (r : Ref) (i : Int) : Except Fault Value := do
  match ← (h.get r).mapError .memory with
  | .array es =>
    match if i < 0 then none else es[i.toNat]? with
    | some v => return v
    | none => throw (.arrayIndex i es.length)
  | .string s =>
    let rs := Text.runes s
    match if i < 0 then none else rs[i.toNat]? with
    | some c => return .char (UInt32.ofNat c)
    | none => throw (.stringIndex i rs.length)
  | v => throw (.notIndexable v.typeName)

/-- The container after an element is replaced. A string takes characters and bytes, and is written
anew with U+FFFD for every stray byte. -/
def withElement (container : Value) (i : Int) (v : Value) : Except Fault Value :=
  match container with
  | .array es =>
    if i < 0 ∨ (es.length : Int) ≤ i then .error (.arrayIndex i es.length)
    else .ok (.array (es.set i.toNat v))
  | .string s =>
    let rs := Text.runes s
    if i < 0 ∨ (rs.length : Int) ≤ i then .error (.stringIndex i rs.length)
    else match v with
      | .char c => .ok (.string (Text.ofRunes (rs.set i.toNat c.toNat)))
      | .byte b => .ok (.string (Text.ofRunes (rs.set i.toNat b.toNat)))
      | v => .error (.notStorable v.typeName)
  | c => .error (.notIndexable c.typeName)

/-- Replaces the value behind a reference by what a function makes of it. -/
def updateHeap (h : Heap) (r : Ref) (change : Value → Except Fault Value) : Except Fault Heap := do
  let v ← (h.get r).mapError .memory
  let v ← change v
  (h.set r v).mapError .memory

/-- The value in a register, or in the slot that it refers to. -/
def indirect (t : Thread) (r : Register) : Except MemoryError Value :=
  match t.registers.get r with
  | .stackRef s => t.stack.get s.toInt64.toInt
  | v => .ok v

/-- The value that an operand other than an immediate names; void is let through. -/
def readOperand (t : Thread) (f : Frame) (op : Operand) : Except Fault Value :=
  match op with
  | .absolute a => (t.getLocal f a.toNat).mapError .memory
  | .static a => (t.stack.get a.toInt64.toInt).mapError .memory
  | .index a i => do
    let r ← t.slotRef f a.toNat
    let i ← t.indexIn f i.toNat
    elementAt t.heap r i
  | .property a k => do
    let r ← t.slotRef f a.toNat
    elementAt t.heap r k.toInt64.toInt
  | .indirect r => (t.indirect r).mapError .memory
  | .implicit | .immediate _ =>
    .error (.internal (utf8 op.mode.name ++ utf8 " operand has no source value"))

/-- The value of an operand, which must not be void, and the heap after reading it. -/
def load (t : Thread) (f : Frame) (op : Operand) : Except Failure (Value × Heap) :=
  let (heap, result) := match op with
    | .immediate v =>
      let (heap, result) := t.immediate v
      (heap, result.mapError Fault.memory)
    | op => (t.heap, t.readOperand f op)
  match result with
  | .error fault => .error ⟨fault, heap⟩
  | .ok .void => .error ⟨.emptyOperand op, heap⟩
  | .ok v => .ok (v, heap)

/-- Writes a value where an operand points; implicit and immediate operands mean the instruction's
own slot. The given heap takes the place of the thread's. -/
def store (t : Thread) (f : Frame) (op : Operand) (heap : Heap) (v : Value) :
    Except Failure Thread :=
  let t := { t with heap }
  let result : Except Fault Thread := match op with
    | .implicit | .immediate _ => do
      let slot ← (f.ownSlot f.pc).mapError .memory
      let stack ← (t.stack.set slot v).mapError .memory
      return { t with stack }
    | .absolute a => do
      let slot ← (f.slot a.toNat).mapError .memory
      let stack ← (t.stack.set slot v).mapError .memory
      return { t with stack }
    | .index a i => do
      let r ← t.slotRef f a.toNat
      let i ← t.indexIn f i.toNat
      let heap ← updateHeap t.heap r (withElement · i v)
      return { t with heap }
    | .property a k => do
      let r ← t.slotRef f a.toNat
      let heap ← updateHeap t.heap r (withElement · k.toInt64.toInt v)
      return { t with heap }
    | op => .error (.internal (utf8 op.mode.name ++ utf8 " operand is not a destination"))
  result.mapError fun fault => ⟨fault, heap⟩

end Thread

end RegisterMachine
