import RegisterMachine.Number.Integer

/-!
# Flags

A command takes flags and then operands. A flag is written with one or two dashes; its value follows
an equals sign or is the next word, and a flag for a truth value needs none. The first word that is
no flag ends the flags, and so do two dashes alone.
-/

namespace RegisterMachine.CommandLine

/-- The value of a flag. -/
inductive FlagValue where
  | truth (b : Bool)
  | int (n : Int)
  /-- A number that is not negative. -/
  | count (n : Nat)
  | text (s : Bytes)
  deriving DecidableEq, Inhabited

/-- A flag that a command knows. -/
structure Flag where
  name : String
  /-- The value when the flag is not given; it also tells the type. -/
  default : FlagValue
  usage : String
  deriving DecidableEq, Inhabited

/-- What is wrong with the flags. -/
inductive FlagError where
  /-- Help was asked for. -/
  | help
  | malformed (arg : Bytes)
  | unknown (name : Bytes)
  | missingValue (name : Bytes)
  | badTruth (value name : Bytes) (f : Number.NumberFault)
  | badValue (value name : Bytes) (f : Number.NumberFault)
  deriving DecidableEq, Inhabited

/-- The wording of a value's fault. -/
def faultText : Number.NumberFault → Bytes
  | .malformed => utf8 "parse error"
  | .outOfRange => utf8 "value out of range"

/-- The wording of an error; asking for help is none. -/
def FlagError.message : FlagError → Bytes
  | help => []
  | malformed a => utf8 "bad flag syntax: " ++ a
  | unknown n => utf8 "flag provided but not defined: -" ++ n
  | missingValue n => utf8 "flag needs an argument: -" ++ n
  | badTruth v n f =>
    utf8 "invalid boolean value " ++ Text.quote v ++ utf8 " for -" ++ n ++ utf8 ": " ++ faultText f
  | badValue v n f =>
    utf8 "invalid value " ++ Text.quote v ++ utf8 " for flag -" ++ n ++ utf8 ": " ++ faultText f

/-- The flags given, the last one first. -/
abbrev Given := List (String × FlagValue)

namespace Flag

/-- Reads a value of the flag's type. -/
def read (f : Flag) (v : Bytes) : Except FlagError FlagValue :=
  let name := utf8 f.name
  match f.default with
  | .truth _ =>
    match Number.parseBool v with
    | .ok b => .ok (.truth b)
    | .error _ => .error (.badTruth v name .malformed)
  | .int _ => ((Number.readSigned .byMark v).map .int).mapError (.badValue v name)
  | .count _ => ((Number.readUnsigned .byMark 64 v).map .count).mapError (.badValue v name)
  | .text _ => .ok (.text v)

/-- Whether the flag is for a truth value. -/
def isTruth (f : Flag) : Bool :=
  match f.default with
  | .truth _ => true
  | _ => false

/-- The name of the type of a flag's value in the help text. -/
def typeName (f : Flag) : String :=
  match f.default with
  | .truth _ => ""
  | .int _ => "int"
  | .count _ => "uint"
  | .text _ => "string"

/-- What the help text says of a default that is not the type's zero. -/
def defaultText (f : Flag) : Bytes :=
  match f.default with
  | .truth b => if b then utf8 " (default true)" else []
  | .int n => if n = 0 then [] else utf8 " (default " ++ Number.decimalInt n ++ utf8 ")"
  | .count n => if n = 0 then [] else utf8 " (default " ++ Number.decimal n ++ utf8 ")"
  | .text s => if s.isEmpty then [] else utf8 " (default " ++ Text.quote s ++ utf8 ")"

/-- The help text of a flag. -/
def help (f : Flag) : Bytes :=
  let head := utf8 "  -" ++ utf8 f.name
    ++ (if f.typeName.isEmpty then [] else utf8 " " ++ utf8 f.typeName)
  head ++ utf8 (if head.length ≤ 4 then "\t" else "\n    \t") ++ utf8 f.usage ++ f.defaultText
    ++ utf8 "\n"

end Flag

/-- The help texts of flags in the order of their names. -/
def flagsHelp (flags : List Flag) : Bytes :=
  (flags.mergeSort fun a b => Bytes.le (utf8 a.name) (utf8 b.name)).flatMap (·.help)

/-- What a word is. -/
inductive Word where
  | operand
  | terminator
  | malformed
  | flag (name : Bytes) (value : Option Bytes)
  deriving DecidableEq, Inhabited

/-- A flag's name and the value after an equals sign; the name has one character at least. -/
def splitValue (s : Bytes) : Bytes × Option Bytes :=
  match s with
  | [] => ([], none)
  | c :: r =>
    match Bytes.cut? 61 r with
    | some (l, v) => (c :: l, some v)
    | none => (c :: r, none)

/-- Tells what a word is. -/
def Word.ofArgument (arg : Bytes) : Word :=
  let named (name : Bytes) : Word :=
    if name.isEmpty || name.head? == some 45 || name.head? == some 61 then .malformed
    else
      let (name, value) := splitValue name
      .flag name value
  match arg with
  | [45, 45] => .terminator
  | 45 :: 45 :: name => named name
  | 45 :: c :: rest => named (c :: rest)
  | _ => .operand

/-- Reads the flags in front of the operands. -/
def parseFlags (flags : List Flag) (given : Given) :
    List Bytes → Except FlagError (Given × List Bytes)
  | [] => .ok (given, [])
  | arg :: rest =>
    match Word.ofArgument arg with
    | .operand => .ok (given, arg :: rest)
    | .terminator => .ok (given, rest)
    | .malformed => .error (.malformed arg)
    | .flag name value =>
      match flags.find? fun f => utf8 f.name == name with
      | none =>
        if name = utf8 "help" ∨ name = utf8 "h" then .error .help else .error (.unknown name)
      | some f =>
        match value with
        | some v =>
          match f.read v with
          | .error e => .error e
          | .ok x => parseFlags flags ((f.name, x) :: given) rest
        | none =>
          if f.isTruth then parseFlags flags ((f.name, .truth true) :: given) rest
          else match rest with
            | [] => .error (.missingValue name)
            | v :: rest =>
              match f.read v with
              | .error e => .error e
              | .ok x => parseFlags flags ((f.name, x) :: given) rest

/-- Flags and operands of a command. -/
structure Parsed where
  flags : List Flag
  given : Given
  operands : List Bytes

namespace Parsed

/-- The value of a flag. -/
def value (p : Parsed) (name : String) : FlagValue :=
  match p.given.lookup name with
  | some v => v
  | none => ((p.flags.find? (·.name == name)).map (·.default)).getD default

/-- The truth value of a flag. -/
def truth (p : Parsed) (name : String) : Bool :=
  match p.value name with
  | .truth b => b
  | _ => false

/-- The number of a flag. -/
def number (p : Parsed) (name : String) : Int :=
  match p.value name with
  | .int n => n
  | .count n => n
  | _ => 0

/-- The text of a flag. -/
def text (p : Parsed) (name : String) : Bytes :=
  match p.value name with
  | .text s => s
  | _ => []

end Parsed

/-- Reads the arguments of a command. -/
def parseArguments (flags : List Flag) (args : List Bytes) : Except FlagError Parsed :=
  (parseFlags flags [] args).map fun (given, operands) => ⟨flags, given, operands⟩

end RegisterMachine.CommandLine
