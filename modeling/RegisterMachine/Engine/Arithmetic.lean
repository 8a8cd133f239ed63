import RegisterMachine.Engine.Fault
import RegisterMachine.Number.FloatOps

/-!
# Arithmetic, logic and comparison

The operations that read B and C. Integers of two widths meet in the wider one, a byte counting as
16 bits beside an integer; a single float meets a double as a double; other mixes are refused.
Integers of every width are computed with as 64-bit ones, which wrap, and the result is cut to the
width at the end. Comparisons of numbers are those of their values, and a not-a-number is neither
above, below nor equal to anything.
-/

namespace RegisterMachine.Arithmetic

/-- Two numbers of a common type. -/
inductive NumberPair where
  | ints (width : IntWidth) (x y : BitVec width.bits)
  | bytes (x y : UInt8)
  | floats (x y : UInt32)
  | doubles (x y : UInt64)

/-- The bits of a single float as a double. -/
def widenFloat (b : UInt32) : UInt64 :=
  UInt64.ofNat (Number.single.convert Number.double b.toNat)

/-- The bits of a double as the nearest single float. -/
def narrowDouble (b : UInt64) : UInt32 :=
  UInt32.ofNat (Number.double.convert Number.single b.toNat)

/-- Two integers at one width. -/
def NumberPair.ofInts (w : IntWidth) (x y : Int) : NumberPair :=
  .ints w (BitVec.ofInt w.bits x) (BitVec.ofInt w.bits y)

/-- Brings two numeric values to a common type, if they have one. -/
def pair? : Value → Value → Option NumberPair
  | .int w x, .int w' y => some (.ofInts (w.max w') x.toInt y.toInt)
  | .int w x, .byte y => some (.ofInts (w.max .w16) x.toInt y.toNat)
  | .byte x, .int w y => some (.ofInts (w.max .w16) x.toNat y.toInt)
  | .byte x, .byte y => some (.bytes x y)
  | .float x, .float y => some (.floats x y)
  | .double x, .double y => some (.doubles x y)
  | .float x, .double y => some (.doubles (widenFloat x) y)
  | .double x, .float y => some (.doubles x (widenFloat y))
  | _, _ => none

/-- Square and multiply: what has been multiplied so far, times a power. -/
def timesPower (r x : Int64) (e : Nat) : Int64 :=
  if h : e = 0 then r
  else
    have : e / 2 < e := Nat.div_lt_self (Nat.pos_of_ne_zero h) (by decide)
    timesPower (if e % 2 = 1 then r * x else r) (x * x) (e / 2)
termination_by e

/-- An operation on 64-bit integers, which wraps; the caller cuts the result to its width. The
quotient of the least integer and -1 wraps as well. -/
def onInts (op : ArithOp) (x y : Int64) : Except Fault Int64 :=
  match op with
  | .add => .ok (x + y)
  | .sub => .ok (x - y)
  | .mul => .ok (x * y)
  | .div => if y = 0 then .error (.divisionByZero x.toInt false) else .ok (x / y)
  | .mod => if y = 0 then .error (.divisionByZero x.toInt true) else .ok (x % y)
  | .exp =>
    if y < 0 then .error (.negativeExponent y.toInt) else .ok (timesPower 1 x y.toInt.toNat)

/-- An operation on doubles. -/
def onDoubles (op : ArithOp) (x y : UInt64) : UInt64 :=
  match op with
  | .add => Number.onBits (· + ·) x y
  | .sub => Number.onBits (· - ·) x y
  | .mul => Number.onBits (· * ·) x y
  | .div => Number.onBits (· / ·) x y
  | .mod => Number.floatMod x y
  | .exp => Number.floatPow x y

/-- Applies an operation of arithmetic to two values. -/
def arith (op : ArithOp) (b c : Value) : Except Fault Value :=
  match pair? b c with
  | none => .error (.ofValues (.arith op) [b, c])
  | some (.ints w x y) =>
    (onInts op (.ofInt x.toInt) (.ofInt y.toInt)).map fun r => .ofInt w r.toInt
  | some (.bytes x y) =>
    (onInts op (.ofInt x.toNat) (.ofInt y.toNat)).map fun r => .byte (UInt8.ofInt r.toInt)
  | some (.floats x y) =>
    .ok (.float (narrowDouble (onDoubles op (widenFloat x) (widenFloat y))))
  | some (.doubles x y) => .ok (.double (onDoubles op x y))

/-- Applies a logical operation to two truth values. -/
def logic (op : LogicOp) (b c : Value) : Except Fault Value :=
  match b, c with
  | .bool x, .bool y =>
    .ok (.bool (match op with
      | .and => x && y
      | .or => x || y))
  | _, _ => .error (.ofValues (.logic op) [b, c])

/-- How two doubles compare; `none` when one is no number. -/
def orderDoubles (x y : UInt64) : Option Ordering :=
  let x := Float.ofBits x
  let y := Float.ofBits y
  if x < y then some .lt else if x > y then some .gt else if x == y then some .eq else none

/-- How two numbers compare. -/
def NumberPair.order : NumberPair → Option Ordering
  | ints _ x y => some (compare x.toInt y.toInt)
  | bytes x y => some (compare x.toNat y.toNat)
  | floats x y => orderDoubles (widenFloat x) (widenFloat y)
  | doubles x y => orderDoubles x y

/-- How two numbers or two characters compare; other values do not. -/
def order (op : Comparison) (b c : Value) : Except Fault (Option Ordering) :=
  match b, c with
  | .char x, .char y => .ok (some (compare x.toInt32.toInt y.toInt32.toInt))
  | b, c =>
    match pair? b c with
    | some p => .ok p.order
    | none => .error (.ofValues (.compare op) [b, c])

/-- Whether the value is void or null. -/
def isNothing (v : Value) : Bool :=
  match v with
  | .void | .null => true
  | _ => false

/-- Whether two values are equal. -/
def equal (op : Comparison) (b c : Value) : Except Fault Bool :=
  if isNothing b || isNothing c then .ok (b.kind == c.kind)
  else if b.kind.isNumeric && c.kind.isNumeric then
    (order op b c).map fun o => o == some .eq
  else if b.kind ≠ c.kind then .error (.ofValues (.compare op) [b, c])
  else .ok (decide (b = c))

/-- Whether an ordering satisfies a comparison. -/
def satisfies (op : Comparison) (o : Ordering) : Bool :=
  match op with
  | .eq => o == .eq
  | .ne => o != .eq
  | .gt => o == .gt
  | .lt => o == .lt
  | .ge => o != .lt
  | .le => o != .gt

/-- Compares two values, references already followed. -/
def compareValues (op : Comparison) (b c : Value) : Except Fault Bool :=
  match op with
  | .eq => equal op b c
  | .ne => (equal op b c).map (!·)
  | op => (order op b c).map fun
    | some o => satisfies op o
    | none => false

end RegisterMachine.Arithmetic
