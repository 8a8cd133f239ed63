import RegisterMachine.Instruction.Mode
import RegisterMachine.Text.Utf8

/-!
# Mnemonics and opcodes

A mnemonic says what an instruction does, apart from where its operand comes from. Each supports a
few addressing modes; the pairs are numbered from 1 in table order and the number is the opcode
byte.
-/

namespace RegisterMachine

/-- The six comparisons of B with C. -/
inductive Comparison where
  | eq | ne | gt | lt | ge | le
  deriving DecidableEq, Inhabited, Repr

/-- The six operations of arithmetic on B and C. -/
inductive ArithOp where
  | add | sub | mul | exp | div | mod
  deriving DecidableEq, Inhabited, Repr

/-- The two logical operations on B and C. -/
inductive LogicOp where
  | and | or
  deriving DecidableEq, Inhabited, Repr

/-- The kinds that A can be converted to. -/
inductive Conversion where
  | int | float | double | byte | string | char | bool
  deriving DecidableEq, Inhabited, Repr

/-- What an instruction does. -/
inductive Mnemonic where
  /-- Puts the operand into a register. -/
  | load (r : Register)
  /-- Writes a register, or an immediate operand, to memory. -/
  | store (r : Register)
  | compare (c : Comparison)
  | logic (op : LogicOp)
  | arith (op : ArithOp)
  | jump
  /-- Jumps when A is true. -/
  | jumpIf
  | call
  | ret
  /-- Appends the operand to the array that A refers to. -/
  | push
  /-- Appends the operand to the string that A refers to. -/
  | pushString
  /-- Puts the length of the array or string in a slot into A. -/
  | length
  | convert (target : Conversion)
  | newArray
  | newString
  /-- Makes an array with a given number of void elements. -/
  | newStaticArray
  /-- Moves the last element of the array in a slot into A. -/
  | pop
  /-- Suspends the thread. -/
  | trap
  | callNative
  /-- Puts a deep copy of a slot into A. -/
  | clone
  /-- Heads a function. -/
  | function
  /-- Frees what a slot refers to and clears the slot. -/
  | free
  deriving DecidableEq, Inhabited, Repr

namespace Mnemonic

/-- The mnemonics in the order of their numbers. -/
def all : List Mnemonic :=
  Register.all.map load ++ Register.all.map store
    ++ [Comparison.eq, .ne, .gt, .lt, .ge, .le].map compare
    ++ [LogicOp.and, .or].map logic
    ++ [ArithOp.add, .sub, .mul, .exp, .div, .mod].map arith
    ++ [jump, jumpIf, call, ret, push, pushString, length]
    ++ [Conversion.int, .float, .double, .byte, .string, .char, .bool].map convert
    ++ [newArray, newString, newStaticArray, pop, trap, callNative, clone, function, free]

/-- The place of a mnemonic in the table. -/
def number (m : Mnemonic) : Nat := all.idxOf m

/-- The mnemonic with a number. -/
def ofNumber? (n : Nat) : Option Mnemonic := all[n]?

/-- The assembler's name of a mnemonic. -/
def name : Mnemonic → String
  | load .a => "LDA"
  | load .b => "LDB"
  | load .c => "LDC"
  | load .x => "LDX"
  | load .y => "LDY"
  | store .a => "STA"
  | store .b => "STB"
  | store .c => "STC"
  | store .x => "STX"
  | store .y => "STY"
  | compare .eq => "EQ"
  | compare .ne => "NE"
  | compare .gt => "GT"
  | compare .lt => "LT"
  | compare .ge => "GQ"
  | compare .le => "LQ"
  | logic .and => "AND"
  | logic .or => "OR"
  | arith .add => "ADD"
  | arith .sub => "SUB"
  | arith .mul => "MUL"
  | arith .exp => "EXP"
  | arith .div => "DIV"
  | arith .mod => "MOD"
  | jump => "JMP"
  | jumpIf => "JMPA"
  | call => "CALL"
  | ret => "RET"
  | push => "PUSH"
  | pushString => "SPUS"
  | length => "LEN"
  | convert .int => "A2I"
  | convert .float => "A2F"
  | convert .double => "A2D"
  | convert .byte => "A2B"
  | convert .string => "A2S"
  | convert .char => "A2C"
  | convert .bool => "A2O"
  | newArray => "ARR"
  | newString => "STR"
  | newStaticArray => "SAR"
  | pop => "POPS"
  | trap => "BRK"
  | callNative => "CALLN"
  | clone => "CO"
  | function => "FN"
  | free => "DEA"

/-- The name of the mnemonic with a number, or the number when it is none. -/
def numberName (n : UInt8) : Bytes :=
  match ofNumber? n.toNat with
  | some m => utf8 m.name
  | none => utf8 "Mnemonic(" ++ Number.decimal n.toNat ++ utf8 ")"

/-- The upper-case form of a code point where it is an ASCII letter; U+0131 and U+017F are the two
other code points with such a form. -/
def upperCode (c : Nat) : Nat :=
  if 97 ≤ c ∧ c ≤ 122 then c - 32
  else if c = 0x131 then 73
  else if c = 0x17F then 83
  else c

/-- The mnemonic with a name in letters of either case. -/
def parse? (s : Bytes) : Option Mnemonic :=
  let codes := (Text.runes s).map upperCode
  all.find? fun m => (utf8 m.name).map UInt8.toNat == codes

/-- The register that a load writes. -/
def loaded? : Mnemonic → Option Register
  | load r => some r
  | _ => none

/-- The register that a store reads. -/
def stored? : Mnemonic → Option Register
  | store r => some r
  | _ => none

/-- The addressing modes a mnemonic supports, in opcode order. -/
def modes : Mnemonic → List Mode
  | load r =>
    [.immediate, .absolute, .absoluteIndex, .absoluteProperty, .absoluteStatic]
      ++ (Register.all.filter (· ≠ r)).map .indirect
  | store _ => [.implicit, .immediate, .absolute, .absoluteIndex, .absoluteProperty]
  | jump | jumpIf | call | length | pop | callNative | clone | free => [.absolute]
  | push | pushString => [.absolute, .absoluteIndex] ++ Register.all.map .indirect
  | newStaticArray | function => [.immediate]
  | _ => [.implicit]

/-- Whether the mnemonic supports the mode. -/
def supports (m : Mnemonic) (mode : Mode) : Bool := m.modes.contains mode

end Mnemonic

namespace Opcode

/-- Every supported pair of a mnemonic and a mode, in opcode order. -/
def table : List (Mnemonic × Mode) :=
  Mnemonic.all.flatMap fun m => m.modes.map fun mode => (m, mode)

/-- The opcode of a pair. -/
def encode? (m : Mnemonic) (mode : Mode) : Option UInt8 :=
  (table.idxOf? (m, mode)).map fun i => UInt8.ofNat (i + 1)

/-- The pair with an opcode. -/
def decode? (op : UInt8) : Option (Mnemonic × Mode) :=
  if op = 0 then none else table[op.toNat - 1]?

end Opcode

end RegisterMachine
