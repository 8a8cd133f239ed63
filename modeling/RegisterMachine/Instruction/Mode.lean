import RegisterMachine.Number.Decimal

/-!
# Registers and addressing modes

The five general registers, and the eleven ways in which an instruction finds its operand. Both
have a fixed numbering; `Mode.name` and `Register.name` give the names under which they appear.
-/

namespace RegisterMachine

/-- A general register. -/
inductive Register where
  | a | b | c | x | y
  deriving DecidableEq, Inhabited, Repr

namespace Register

/-- The registers in order. -/
def all : List Register := [a, b, c, x, y]

/-- The name of a register. -/
def name : Register → String
  | a => "A"
  | b => "B"
  | c => "C"
  | x => "X"
  | y => "Y"

/-- The register with a name of either case. -/
def parse? (s : Bytes) : Option Register :=
  match s with
  | [ch] => all.find? fun r => utf8 r.name == [Bytes.upper ch]
  | _ => none

end Register

/-- An addressing mode. -/
inductive Mode where
  | implicit | immediate | absolute | absoluteIndex | absoluteProperty | absoluteStatic
  | indirect (r : Register)
  deriving DecidableEq, Inhabited, Repr

namespace Mode

/-- The modes in the order of their numbers. -/
def all : List Mode :=
  [implicit, immediate, absolute, absoluteIndex, absoluteProperty, absoluteStatic]
    ++ Register.all.map indirect

/-- The mode with a number. -/
def ofNumber? (n : Nat) : Option Mode := all[n]?

/-- The name of a mode. -/
def name : Mode → String
  | implicit => "implicit"
  | immediate => "immediate"
  | absolute => "absolute"
  | absoluteIndex => "absolute_index"
  | absoluteProperty => "absolute_property"
  | absoluteStatic => "absolute_static"
  | indirect .a => "indirect_a"
  | indirect .b => "indirect_b"
  | indirect .c => "indirect_c"
  | indirect .x => "indirect_x"
  | indirect .y => "indirect_y"

/-- The name of the mode with a number, or the number when it is none. -/
def numberName (n : UInt8) : Bytes :=
  match ofNumber? n.toNat with
  | some m => utf8 m.name
  | none => utf8 "Mode(" ++ Number.decimal n.toNat ++ utf8 ")"

/-- The register that an indirect mode reads through. -/
def register? : Mode → Option Register
  | indirect r => some r
  | _ => none

end Mode

end RegisterMachine
