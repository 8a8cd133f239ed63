import RegisterMachine.Number.Shortest
import RegisterMachine.Text.Quoted

/-!
# Runtime values

A value is one of thirteen kinds. Integers carry their width, and their bits always fit it;
floating point numbers and characters are kept as bits; strings are byte strings; a heap reference
names an arena index and the generation the entry had when the reference was taken. Equality is
structural, so integers of different widths differ and a not-a-number equals itself.
-/

namespace RegisterMachine

/-- The kinds of values. -/
inductive Kind where
  | int | float | double | byte | bool | string | char | void | array | null
  | function | stackRef | heapRef
  deriving DecidableEq, Inhabited, Repr

namespace Kind

/-- The byte written before every encoded value. -/
def tag : Kind → UInt8
  | int => 1
  | float => 2
  | double => 3
  | byte => 4
  | bool => 5
  | string => 6
  | char => 7
  | void => 8
  | array => 9
  | null => 10
  | function => 12
  | stackRef => 13
  | heapRef => 14

/-- The kinds in the order of their tags. -/
def all : List Kind :=
  [int, float, double, byte, bool, string, char, void, array, null, function, stackRef, heapRef]

/-- The kind with a given tag. -/
def ofTag? (t : UInt8) : Option Kind := all.find? (·.tag == t)

/-- The short type name. -/
def name : Kind → String
  | int => "int"
  | float => "float"
  | double => "double"
  | byte => "byte"
  | bool => "bool"
  | string => "string"
  | char => "char"
  | void => "void"
  | array => "array"
  | null => "null"
  | function => "function"
  | stackRef => "stack_ref"
  | heapRef => "heap_ref"

/-- The name of the kind with a tag, or the number of a tag that is none. -/
def tagName (t : UInt8) : Bytes :=
  match ofTag? t with
  | some k => utf8 k.name
  | none => utf8 "Kind(" ++ Number.decimal t.toNat ++ utf8 ")"

/-- Kinds that take part in arithmetic. -/
def isNumeric : Kind → Bool
  | int | float | double | byte => true
  | _ => false

theorem ofTag?_tag (k : Kind) : ofTag? k.tag = some k := by cases k <;> rfl

end Kind

/-- The declared width of an integer. -/
inductive IntWidth where
  | w8 | w16 | w32 | w64
  deriving DecidableEq, Inhabited, Repr

namespace IntWidth

/-- The number of bits. -/
def bits : IntWidth → Nat
  | w8 => 8
  | w16 => 16
  | w32 => 32
  | w64 => 64

/-- The number of bytes. -/
def bytes : IntWidth → Nat
  | w8 => 1
  | w16 => 2
  | w32 => 4
  | w64 => 8

/-- The width of a given number of bits. -/
def ofBits? : Nat → Option IntWidth
  | 8 => some w8
  | 16 => some w16
  | 32 => some w32
  | 64 => some w64
  | _ => none

/-- The wider of two widths. -/
def max (a b : IntWidth) : IntWidth := if a.bits < b.bits then b else a

end IntWidth

/-- A reference to a heap entry. -/
structure Ref where
  index : UInt32
  gen : UInt32
  deriving DecidableEq, Inhabited, Hashable, Repr

namespace Ref

/-- The reference as one number, the generation in the high half. -/
def toBits (r : Ref) : UInt64 := UInt64.ofNat (r.gen.toNat * 2 ^ (32 : Nat) + r.index.toNat)

/-- The reference that a number stands for. -/
def ofBits (b : UInt64) : Ref := ⟨UInt32.ofNat b.toNat, UInt32.ofNat (b.toNat / 2 ^ (32 : Nat))⟩

/-- The text of a reference. -/
def text (r : Ref) : Bytes :=
  utf8 "heap#" ++ Number.decimal r.index.toNat ++ utf8 "@" ++ Number.decimal r.gen.toNat

end Ref

/-- A runtime value. -/
inductive Value where
  | int (width : IntWidth) (bits : BitVec width.bits)
  | float (bits : UInt32)
  | double (bits : UInt64)
  | byte (b : UInt8)
  | bool (b : Bool)
  | string (bytes : Bytes)
  | char (code : UInt32)
  | void
  | array (elems : List Value)
  | null
  | function (entry : UInt64)
  | stackRef (slot : UInt64)
  | heapRef (ref : Ref)
  deriving Inhabited

namespace Value

mutual

/-- Structural equality as a test. -/
def beq : Value → Value → Bool
  | int w b, int w' b' => w == w' && b.toNat == b'.toNat
  | float b, float b' => b == b'
  | double b, double b' => b == b'
  | byte b, byte b' => b == b'
  | bool b, bool b' => b == b'
  | string s, string s' => s == s'
  | char c, char c' => c == c'
  | void, void => true
  | array es, array es' => beqAll es es'
  | null, null => true
  | function e, function e' => e == e'
  | stackRef s, stackRef s' => s == s'
  | heapRef r, heapRef r' => r == r'
  | _, _ => false

/-- `beq` on lists of values. -/
def beqAll : List Value → List Value → Bool
  | [], [] => true
  | v :: vs, w :: ws => beq v w && beqAll vs ws
  | _, _ => false

end

mutual

theorem beq_refl : (v : Value) → beq v v = true
  | int .. | float _ | double _ | byte _ | bool _ | string _ | char _ | void | null
  | function _ | stackRef _ | heapRef _ => by simp [beq]
  | array es => by simp [beq, beqAll_refl es]

theorem beqAll_refl : (vs : List Value) → beqAll vs vs = true
  | [] => rfl
  | v :: vs => by simp [beqAll, beq_refl v, beqAll_refl vs]

end

mutual

theorem eq_of_beq : (v w : Value) → beq v w = true → v = w
  | v, w, h => by
    cases v with
    | int wd b =>
      cases w <;> simp only [beq, Bool.false_eq_true, Bool.and_eq_true, beq_iff_eq] at h
      obtain ⟨rfl, hb⟩ := h
      rw [BitVec.eq_of_toNat_eq hb]
    | array es =>
      cases w <;> simp only [beq, Bool.false_eq_true] at h
      rw [eq_of_beqAll _ _ h]
    | _ => cases w <;> simp_all [beq]

theorem eq_of_beqAll : (vs ws : List Value) → beqAll vs ws = true → vs = ws
  | [], [], _ => rfl
  | [], _ :: _, h => by simp [beqAll] at h
  | _ :: _, [], h => by simp [beqAll] at h
  | v :: vs, w :: ws, h => by
    simp only [beqAll, Bool.and_eq_true] at h
    rw [eq_of_beq v w h.1, eq_of_beqAll vs ws h.2]

end

instance : DecidableEq Value := fun v w =>
  if h : beq v w = true then isTrue (eq_of_beq v w h)
  else isFalse fun e => h (e ▸ beq_refl v)

/-- The kind of a value. -/
def kind : Value → Kind
  | int .. => .int
  | float _ => .float
  | double _ => .double
  | byte _ => .byte
  | bool _ => .bool
  | string _ => .string
  | char _ => .char
  | void => .void
  | array _ => .array
  | null => .null
  | function _ => .function
  | stackRef _ => .stackRef
  | heapRef _ => .heapRef

/-- An integer of a width, reduced modulo it. -/
def ofInt (w : IntWidth) (i : Int) : Value := int w (BitVec.ofInt w.bits i)

/-- A 64-bit integer. -/
def int64 (i : Int) : Value := ofInt .w64 i

/-- The width of an integer. -/
def width? : Value → Option IntWidth
  | int w _ => some w
  | _ => none

/-- The payload as an integer: the signed value of integers and characters, 0 or 1 for truth
values, addresses as signed 64-bit numbers, and 0 for all other kinds. -/
def toInt : Value → Int
  | int _ b => b.toInt
  | byte b => b.toNat
  | bool b => if b then 1 else 0
  | function e => e.toInt64.toInt
  | stackRef s => s.toInt64.toInt
  | char c => c.toInt32.toInt
  | _ => 0

/-- The bytes of a string or the elements of an array, counted. -/
def length : Value → Nat
  | string s => s.length
  | array es => es.length
  | _ => 0

/-- The kind name, with the width for integers below 64 bits. -/
def typeName : Value → Bytes
  | int .w64 _ => utf8 "int"
  | int w _ => utf8 "int" ++ Number.decimal w.bits
  | v => utf8 v.kind.name

mutual

/-- The value as listings and the debugger show it. -/
def text : Value → Bytes
  | int _ b => Number.decimalInt b.toInt
  | float b => Number.floatText Number.single b.toNat
  | double b => Number.floatText Number.double b.toNat
  | byte b => Number.decimal b.toNat
  | bool b => utf8 (if b then "true" else "false")
  | string s => Text.quote s
  | char c => Text.quoteRune c.toNat
  | void => utf8 "void"
  | array es => utf8 "[" ++ Bytes.join (utf8 ", ") (textAll es) ++ utf8 "]"
  | null => utf8 "null"
  | function e => utf8 "fn@" ++ Number.decimal e.toNat
  | stackRef s => utf8 "stack#" ++ Number.decimal s.toNat
  | heapRef r => r.text

/-- The texts of the elements of an array. -/
def textAll : List Value → List Bytes
  | [] => []
  | v :: vs => text v :: textAll vs

end

mutual

/-- The value as a typed literal of the assembler. -/
def literal : Value → Bytes
  | int .w64 b => utf8 "(int)" ++ Number.decimalInt b.toInt
  | int w b => utf8 "(int" ++ Number.decimal w.bits ++ utf8 ")" ++ Number.decimalInt b.toInt
  | void => utf8 "(void)"
  | null => utf8 "(null)"
  | function e => utf8 "(fn)" ++ Number.decimal e.toNat
  | array es => utf8 "(array)[" ++ Bytes.join (utf8 ", ") (literalAll es) ++ utf8 "]"
  | heapRef r => utf8 "(heap_ref)" ++ Number.decimal r.toBits.toNat
  | stackRef s => utf8 "(stack_ref)" ++ Number.decimal s.toNat
  | v => utf8 "(" ++ utf8 v.kind.name ++ utf8 ")" ++ text v

/-- The literals of the elements of an array. -/
def literalAll : List Value → List Bytes
  | [] => []
  | v :: vs => literal v :: literalAll vs

end

end Value

end RegisterMachine
