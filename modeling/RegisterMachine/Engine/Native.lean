import RegisterMachine.Digest.Xxh3
import RegisterMachine.Engine.Heap

/-!
# Native functions

Functions that are not part of a program but provided around it. They are known by a hash, get the
heap and their arguments, and give back a value, the changed heap and what they print. The standard
ones print a value, measure a string or array, and concatenate two texts.

What is printed is collected and never refused: `Native.println` has no writer that it waits for. A
writer that reports an error is outside of this description of the standard functions; a function
that prints to one would be `failed` with the writer's message and leave the heap as it was, which
is an outcome that every statement about an arbitrary registry covers.
-/

namespace RegisterMachine

/-- What a call of a native function comes to. -/
inductive NativeOutcome where
  /-- The function returned a value, left a heap behind and printed something. -/
  | returned (value : Value) (heap : Heap) (printed : Bytes)
  /-- The function reported an error; `left` is the heap it leaves behind when it had changed it. -/
  | failed (message : Bytes) (left : Option Heap := none)
  /-- The function broke down. -/
  | crashed (message : Bytes) (left : Option Heap := none)
  deriving Inhabited

/-- The working of a native function: arguments are as stored in slots, so strings and arrays are
references into the heap. -/
abbrev NativeCode := Heap → List Value → NativeOutcome

/-- A native function. -/
structure NativeFunction where
  module : Bytes
  name : Bytes
  hash : UInt64
  arity : Nat
  code : NativeCode
  deriving Inhabited

namespace NativeFunction

/-- The function's name with its module. -/
def qualifiedName (f : NativeFunction) : Bytes := f.module ++ utf8 "." ++ f.name

end NativeFunction

/-- The hash of a native function when none is chosen for it. -/
def nativeHash (module name : Bytes) : UInt64 := Digest.xxh3 (module ++ utf8 "." ++ name)

/-- The native functions that a thread can call, in the order of their registration. -/
structure NativeRegistry where
  functions : List NativeFunction := []
  deriving Inhabited

namespace NativeRegistry

/-- Why a function cannot be registered. -/
inductive RegisterError where
  | noCode (module name : Bytes)
  | taken (hash : UInt64) (by' : Bytes)
  deriving DecidableEq, Inhabited

/-- The wording of an error. -/
def RegisterError.message : RegisterError → Bytes
  | noCode m n => utf8 "native " ++ m ++ utf8 "." ++ n ++ utf8 " has no implementation"
  | taken h n =>
    utf8 "native hash " ++ Number.decimal h.toNat ++ utf8 " already registered for " ++ n

/-- The function with a hash. -/
def lookup? (r : NativeRegistry) (hash : UInt64) : Option NativeFunction :=
  r.functions.find? (·.hash == hash)

/-- Adds a function. A hash of zero means the hash of its name; a hash can be used only once. -/
def register (r : NativeRegistry) (module name : Bytes) (hash : UInt64) (arity : Nat)
    (code : Option NativeCode) : Except RegisterError NativeRegistry :=
  match code with
  | none => .error (.noCode module name)
  | some code =>
    let hash := if hash = 0 then nativeHash module name else hash
    match r.lookup? hash with
    | some f => .error (.taken hash f.qualifiedName)
    | none => .ok { functions := r.functions ++ [{ module, name, hash, arity, code }] }

/-- The names of the functions in ascending order. -/
def names (r : NativeRegistry) : List Bytes := Bytes.sort (r.functions.map (·.qualifiedName))

/-- Keeps only the named functions; an empty list keeps all. -/
def restrict (r : NativeRegistry) (names : List Bytes) : NativeRegistry :=
  if names.isEmpty then r
  else { functions := r.functions.filter fun f => names.contains f.qualifiedName }

end NativeRegistry

namespace Native

/-- Follows a reference; other values are returned unchanged. -/
def deref (h : Heap) (v : Value) : Except MemoryError Value :=
  match v with
  | .heapRef r => h.get r
  | v => .ok v

/-- A value as it is printed: strings without quotes. -/
def printText (h : Heap) (v : Value) : Except MemoryError Bytes :=
  match deref h v with
  | .error e => .error e
  | .ok (.string s) => .ok s
  | .ok v => .ok v.text

/-- Prints its argument on a line, to a writer that takes everything. -/
def println : NativeCode := fun h args =>
  match printText h (args.headD .void) with
  | .error e => .failed e.message
  | .ok s => .returned .void h (s ++ [10])

/-- The number of bytes of a string or of elements of an array. -/
def len : NativeCode := fun h args =>
  match deref h (args.headD .void) with
  | .error e => .failed e.message
  | .ok (.string s) => .returned (.int64 s.length) h []
  | .ok (.array es) => .returned (.int64 es.length) h []
  | .ok v => .failed (utf8 "len of " ++ v.typeName)

/-- A new string with the printed forms of two values. -/
def concat : NativeCode := fun h args =>
  match printText h (args.headD .void), printText h (args.getD 1 .void) with
  | .error e, _ | _, .error e => .failed e.message
  | .ok s, .ok t =>
    let (h, r) := h.alloc (.string (s ++ t))
    .returned (.heapRef r) h []

/-- A function of the standard module under the hash of its name. -/
def standard (name : String) (arity : Nat) (code : NativeCode) : NativeFunction :=
  { module := utf8 "std", name := utf8 name, hash := nativeHash (utf8 "std") (utf8 name),
    arity, code }

end Native

/-- The standard functions. -/
def NativeRegistry.std : NativeRegistry :=
  { functions := [Native.standard "println" 1 Native.println, Native.standard "len" 1 Native.len,
      Native.standard "concat" 2 Native.concat] }

end RegisterMachine
