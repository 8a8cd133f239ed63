import RegisterMachine.Engine.Fault
import RegisterMachine.Engine.Registers

/-!
# Stack memory

The stack holds value slots and a chain of frames, one for each active call. The window of a frame
has a slot for each instruction of its function, so an instruction has a slot of its own. Frames are
kept with the current one first.
-/

namespace RegisterMachine

/-- One active call. -/
structure Frame where
  hash : UInt64
  /-- The index of the function's header. -/
  entry : Nat
  /-- The index behind the function's body. -/
  stop : Nat
  /-- The first slot of the window. -/
  base : Nat
  /-- The number of slots. -/
  window : Nat
  /-- The next instruction. -/
  pc : Nat
  /-- Where the caller goes on; the first frame has no caller. -/
  returnPC : Option Nat := none
  /-- The registers at the time of the call. -/
  saved : Registers := {}
  deriving DecidableEq, Inhabited

namespace Frame

/-- The slot at an address within the frame. -/
def slot (f : Frame) (n : Nat) : Except MemoryError Nat :=
  if f.window ≤ n then .error (.localOutside n f.window) else .ok (f.base + n)

/-- The slot that belongs to the instruction at an index. -/
def ownSlot (f : Frame) (pc : Int) : Except MemoryError Nat :=
  if pc < f.entry ∨ (f.stop : Int) ≤ pc then .error (.counterOutside pc f.entry f.stop)
  else .ok (f.base + pc.toNat - f.entry)

end Frame

/-- The slots and frames of a thread. -/
structure Stack where
  slots : Array Value := #[]
  frames : List Frame := []
  /-- How many slots there may be. -/
  limit : Nat
  deriving DecidableEq, Inhabited

namespace Stack

/-- The limit when none is set. -/
def defaultLimit : Nat := 65536

/-- An empty stack; a limit of zero or less means the default. -/
def empty (limit : Int) : Stack :=
  { limit := if limit ≤ 0 then defaultLimit else limit.toNat }

/-- Makes a frame the current one and adds void slots up to the end of its window. -/
def push (s : Stack) (f : Frame) : Except MemoryError Stack :=
  let need := f.base + f.window
  if s.limit < need then .error (.stackOverflow need s.limit)
  else .ok { s with
    slots := s.slots ++ Array.replicate (need - s.slots.size) .void
    frames := f :: s.frames }

/-- The number of slots that the current frame and those below it use. -/
def extent (frames : List Frame) : Nat :=
  match frames with
  | [] => 0
  | f :: _ => f.base + f.window

/-- Removes the current frame and the slots beyond its caller's. -/
def pop (s : Stack) : Except MemoryError (Frame × Stack) :=
  match s.frames with
  | [] => .error .stackUnderflow
  | f :: rest => .ok (f, { s with slots := s.slots.take (extent rest), frames := rest })

/-- The current frame. -/
def top? (s : Stack) : Option Frame := s.frames.head?

/-- The number of frames. -/
def depth (s : Stack) : Nat := s.frames.length

/-- Reads a slot. -/
def get (s : Stack) (i : Int) : Except MemoryError Value :=
  match if i < 0 then none else s.slots[i.toNat]? with
  | some v => .ok v
  | none => .error (.slotOutside i s.slots.size)

/-- Writes a slot. -/
def set (s : Stack) (i : Int) (v : Value) : Except MemoryError Stack :=
  if 0 ≤ i ∧ i.toNat < s.slots.size then .ok { s with slots := s.slots.setIfInBounds i.toNat v }
  else .error (.slotOutside i s.slots.size)

/-- Moves the current frame to another instruction. -/
def jump (s : Stack) (pc : Nat) : Stack :=
  match s.frames with
  | [] => s
  | f :: rest => { s with frames := { f with pc } :: rest }

end Stack

end RegisterMachine
