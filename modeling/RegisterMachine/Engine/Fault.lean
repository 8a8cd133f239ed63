import RegisterMachine.Instruction.Basic
import RegisterMachine.Program.Basic

/-!
# What stops a thread

A fault is the cause of a panic: an error of stack or heap memory, or something an instruction
cannot do with its operands. Every fault has a reason, one of thirteen, and a message.
-/

namespace RegisterMachine

/-- The class of a panic, known by its number. -/
structure PanicReason where
  code : Int
  deriving DecidableEq, Inhabited, Repr

namespace PanicReason

def stackOverflow : PanicReason := ⟨1⟩
def stackUnderflow : PanicReason := ⟨2⟩
def stackOutOfBounds : PanicReason := ⟨3⟩
def heapOutOfBounds : PanicReason := ⟨4⟩
def staleReference : PanicReason := ⟨5⟩
def nullReference : PanicReason := ⟨6⟩
def unexpectedType : PanicReason := ⟨7⟩
def divisionByZero : PanicReason := ⟨8⟩
def integerOverflow : PanicReason := ⟨9⟩
def callToUnknown : PanicReason := ⟨10⟩
def counterOutOfRange : PanicReason := ⟨11⟩
def runtimeError : PanicReason := ⟨12⟩
def internalError : PanicReason := ⟨13⟩

/-- The names of the reasons from number 1 on. -/
def names : List String :=
  ["stack overflow", "stack underflow", "stack index out of bounds", "heap index out of bounds",
    "stale heap reference", "null reference", "unexpected type", "division by zero",
    "integer overflow", "call to unknown target", "program counter out of range", "runtime error",
    "internal error"]

/-- The name of a reason, or its number when it has none. -/
def name (r : PanicReason) : Bytes :=
  match if r.code < 1 then none else names[(r.code - 1).toNat]? with
  | some n => utf8 n
  | none => utf8 "PanicReason(" ++ Number.decimalInt r.code ++ utf8 ")"

end PanicReason

/-- An error of stack or heap memory. -/
inductive MemoryError where
  | stackOverflow (need limit : Nat)
  | stackUnderflow
  | slotOutside (slot : Int) (count : Nat)
  | localOutside (n window : Nat)
  | counterOutside (pc : Int) (entry stop : Nat)
  | heapOutside (ref : Ref) (count : Nat)
  | stale (ref : Ref)
  deriving DecidableEq, Inhabited

namespace MemoryError

open Number (decimal decimalInt)

def reason : MemoryError → PanicReason
  | stackOverflow .. => .stackOverflow
  | stackUnderflow => .stackUnderflow
  | slotOutside .. | localOutside .. | counterOutside .. => .stackOutOfBounds
  | heapOutside .. => .heapOutOfBounds
  | stale _ => .staleReference

/-- The wording of an error. -/
def message (e : MemoryError) : Bytes :=
  e.reason.name ++ match e with
    | stackOverflow need limit =>
      utf8 ": frame needs " ++ decimal need ++ utf8 " slots, limit is " ++ decimal limit
    | stackUnderflow => []
    | slotOutside i n => utf8 ": slot " ++ decimalInt i ++ utf8 " of " ++ decimal n
    | localOutside n w =>
      utf8 ": local " ++ decimal n ++ utf8 " outside frame window of " ++ decimal w
    | counterOutside pc entry stop =>
      utf8 ": pc " ++ decimalInt pc ++ utf8 " outside function " ++ decimal entry ++ utf8 ".."
        ++ decimal stop
    | heapOutside r n =>
      utf8 ": " ++ r.text ++ utf8 " (heap has " ++ decimal n ++ utf8 " entries)"
    | stale r => utf8 ": " ++ r.text

end MemoryError

/-- The kinds of things that a heap string is converted to. -/
inductive StringTarget where
  | int | number | char
  deriving DecidableEq, Inhabited

/-- The cause of a panic. -/
inductive Fault where
  | memory (e : MemoryError)
  /-- An instruction cannot work on values of these types. -/
  | types (m : Mnemonic) (names : List Bytes)
  | noFrame
  | counterOutside (pc count : Nat)
  | jumpOutside (target count : Nat)
  | jumpNeedsBool (type : Bytes)
  | noHeader (entry : Int)
  | notHeader (entry : Int) (found : Mnemonic)
  | noEndMarker (entry : Int)
  | endOutside (entry stop : Int)
  | arrayCount (v : Value)
  | arrayTooLarge (n : Int)
  | popEmpty (ref : Ref)
  | emptySlot (n : Nat)
  | emptyOperand (op : Operand)
  | nullReference (type : Bytes)
  | notReference (type : Bytes)
  | indexType (type : Bytes)
  | arrayIndex (index : Int) (count : Nat)
  | stringIndex (index : Int) (count : Nat)
  | notIndexable (type : Bytes)
  | notStorable (type : Bytes)
  | divisionByZero (dividend : Int) (remainder : Bool)
  | negativeExponent (exponent : Int)
  | notAnInt (float : Bytes)
  | unreadable (s : Bytes) (target : StringTarget)
  | notAByte (n : Int)
  | notAChar (n : Int)
  | noNativeCall (site : Nat)
  | unknownNative (call : NativeCall)
  | nativeFailed (name message : Bytes)
  /-- A fault of the engine itself, or of a native function that crashed. -/
  | internal (message : Bytes)
  deriving DecidableEq, Inhabited

namespace Fault

open Number (decimal decimalInt)

def reason : Fault → PanicReason
  | memory e => e.reason
  | types .. | jumpNeedsBool _ | arrayCount _ | notReference _ | indexType _ | notIndexable _
  | notStorable _ | negativeExponent _ | unreadable .. => .unexpectedType
  | noFrame => .stackUnderflow
  | counterOutside .. | jumpOutside .. => .counterOutOfRange
  | noHeader _ | notHeader .. | noEndMarker _ | endOutside .. | noNativeCall _
  | unknownNative _ => .callToUnknown
  | arrayTooLarge _ | popEmpty _ | arrayIndex .. | stringIndex .. => .heapOutOfBounds
  | emptySlot _ | emptyOperand _ | nullReference _ => .nullReference
  | divisionByZero .. => .divisionByZero
  | notAnInt _ | notAByte _ | notAChar _ => .integerOverflow
  | nativeFailed .. => .runtimeError
  | internal _ => .internalError

/-- The wording of a fault. -/
def message : Fault → Bytes
  | memory e => e.message
  | types m names => utf8 m.name ++ utf8 " cannot operate on " ++ Bytes.join (utf8 ", ") names
  | noFrame => utf8 "no active frame"
  | counterOutside pc n =>
    utf8 "pc " ++ decimal pc ++ utf8 " outside program of " ++ decimal n ++ utf8 " instructions"
  | jumpOutside target n =>
    utf8 "jump to " ++ decimal target ++ utf8 " outside program of " ++ decimal n
      ++ utf8 " instructions"
  | jumpNeedsBool t => utf8 "JMPA needs a bool in A, got " ++ t
  | noHeader e => utf8 "no function header at " ++ decimalInt e
  | notHeader e m =>
    utf8 "instruction " ++ decimalInt e ++ utf8 " is " ++ utf8 m.name
      ++ utf8 ", not a function header"
  | noEndMarker e => utf8 "function at " ++ decimalInt e ++ utf8 " has no end marker"
  | endOutside e stop =>
    utf8 "function at " ++ decimalInt e ++ utf8 " ends at " ++ decimalInt stop
      ++ utf8 ", outside the program"
  | arrayCount v => utf8 "SAR needs a non-negative int, got " ++ v.text
  | arrayTooLarge n => utf8 "static array of " ++ decimalInt n ++ utf8 " elements is too large"
  | popEmpty r => utf8 "pop from empty array " ++ r.text
  | emptySlot n => utf8 "slot " ++ decimal n ++ utf8 " holds no value"
  | emptyOperand op => utf8 "operand " ++ op.text ++ utf8 " holds no value"
  | nullReference t | notReference t => utf8 "expected a heap reference, got " ++ t
  | indexType t => utf8 "index must be an int, got " ++ t
  | arrayIndex i n => utf8 "index " ++ decimalInt i ++ utf8 " outside array of " ++ decimal n
  | stringIndex i n => utf8 "index " ++ decimalInt i ++ utf8 " outside string of " ++ decimal n
  | notIndexable t => utf8 "cannot index " ++ t
  | notStorable t => utf8 "cannot store " ++ t ++ utf8 " into a string"
  | divisionByZero x remainder => decimalInt x ++ utf8 (if remainder then " % 0" else " / 0")
  | negativeExponent y => utf8 "negative integer exponent " ++ decimalInt y
  | notAnInt f => f ++ utf8 " does not fit in int"
  | unreadable s target =>
    utf8 "cannot convert " ++ Text.quote s ++ utf8 (match target with
      | .int => " to int"
      | .number => " to a number"
      | .char => " to char")
  | notAByte n => decimalInt n ++ utf8 " does not fit in a byte"
  | notAChar n => decimalInt n ++ utf8 " is not a valid char"
  | noNativeCall site => utf8 "no native call trace for site " ++ decimal site
  | unknownNative c =>
    utf8 "native " ++ c.qualifiedName ++ utf8 " (hash " ++ decimal c.hash.toNat
      ++ utf8 ") is not registered"
  | nativeFailed name msg => utf8 "native " ++ name ++ utf8 ": " ++ msg
  | internal msg => msg

/-- The fault with its reason in front. -/
def fullMessage (f : Fault) : Bytes := f.reason.name ++ utf8 ": " ++ f.message

end Fault

/-- An instruction cannot work on these values. -/
def Fault.ofValues (m : Mnemonic) (vs : List Value) : Fault := .types m (vs.map Value.typeName)

end RegisterMachine
