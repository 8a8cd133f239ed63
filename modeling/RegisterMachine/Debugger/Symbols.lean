import RegisterMachine.Number.Integer
import RegisterMachine.Text.Words

/-!
# Debug symbols

A debug file ties source lines to instructions. It starts with one module a line, `name E-E hash F:F
path`, ends that part with a line of three dashes, and then has one header a line with eleven fields
divided by `F:F`. Blank lines do not count, and fields may stand between blanks. `Symbols.parse`
reads such a file; the first line that does not fit is reported by its number.
-/

namespace RegisterMachine.Debugger

/-- What a header describes. -/
inductive HeaderKind where
  | variableDecl | setterCall | getterCall | classDecl | parameter | function | nativeFunction
  | condition
  deriving DecidableEq, Inhabited

namespace HeaderKind

/-- The kinds in the order of their numbers. -/
def all : List HeaderKind :=
  [.variableDecl, .setterCall, .getterCall, .classDecl, .parameter, .function, .nativeFunction,
    .condition]

/-- The kind with a number. -/
def ofNumber? (n : Nat) : Option HeaderKind := all[n]?

/-- The name of a kind. -/
def name : HeaderKind → String
  | .variableDecl => "variable"
  | .setterCall => "setter_call"
  | .getterCall => "getter_call"
  | .classDecl => "class"
  | .parameter => "parameter"
  | .function => "function"
  | .nativeFunction => "native_function"
  | .condition => "condition"

end HeaderKind

/-- A module with its hash and the path of its source, which is empty when there is none. -/
structure ModuleInfo where
  name : Bytes
  hash : UInt64
  path : Bytes
  deriving DecidableEq, Inhabited

/-- A range of a source; lines count from zero. -/
structure SourceRange where
  startLine : Int
  startColumn : Int
  endLine : Int
  endColumn : Int
  deriving DecidableEq, Inhabited

/-- A source element and the instructions made for it. -/
structure Header where
  kind : HeaderKind
  hash : UInt64
  module : Bytes
  moduleHash : UInt64
  name : Bytes
  start : Int
  stop : Int
  range : SourceRange
  deriving DecidableEq, Inhabited

/-- The content of a debug file. -/
structure Symbols where
  modules : List ModuleInfo := []
  headers : List Header := []
  deriving DecidableEq, Inhabited

/-- Why a debug file was refused. -/
inductive SymbolError where
  | broken (line : Nat)
  | overlongLine
  deriving DecidableEq, Inhabited

/-- The wording of an error. -/
def SymbolError.message : SymbolError → Bytes
  | broken n => utf8 "Broken debug header, line: " ++ Number.decimal n
  | overlongLine => utf8 "bufio.Scanner: token too long"

/-- The mark between a module's name and its hash. -/
def moduleMark : Bytes := utf8 "E-E"

/-- The mark between fields. -/
def fieldMark : Bytes := utf8 "F:F"

/-- The line after the modules. -/
def moduleEnd : Bytes := utf8 "---"

/-- Lines of a debug file have to be shorter than this. -/
def symbolLineLimit : Nat := 2 ^ (20 : Nat)

/-- A field with a number of 64 bits. -/
def readNumber? (s : Bytes) : Option UInt64 :=
  ((Number.readUnsigned .ten 64 (Text.trim s)).toOption).map UInt64.ofNat

/-- The signed reading of a 64-bit number. -/
def signed (n : UInt64) : Int := n.toInt64.toInt

/-- Reads the line of a module. -/
def ModuleInfo.parse? (line : Bytes) : Option ModuleInfo := do
  let (info, path) ← Bytes.cutAt? fieldMark line
  let (name, hash) ← Bytes.cutAt? moduleMark info
  let hash ← readNumber? hash
  let path := Text.trim path
  return ⟨Text.trim name, hash, if path = [45] then [] else path⟩

/-- Reads the line of a header. -/
def Header.parse? (line : Bytes) : Option Header :=
  match Bytes.splitAt fieldMark line with
  | [start, stop, module, moduleHash, name, line₀, column₀, line₁, column₁, hash, kind] => do
    let start ← readNumber? start
    let stop ← readNumber? stop
    let moduleHash ← readNumber? moduleHash
    let line₀ ← readNumber? line₀
    let column₀ ← readNumber? column₀
    let line₁ ← readNumber? line₁
    let column₁ ← readNumber? column₁
    let hash ← readNumber? hash
    let kind ← HeaderKind.ofNumber? (← readNumber? kind).toNat
    return {
      kind, hash, moduleHash
      module := Text.trim module
      name := Text.trim name
      start := signed start
      stop := signed stop
      range := ⟨signed line₀, signed column₀, signed line₁, signed column₁⟩ }
  | _ => none

/-- A line without carriage returns at its end. -/
def dropReturns (line : Bytes) : Bytes := (line.reverse.dropWhile (· == 13)).reverse

/-- Whether a line holds white space only. -/
def isBlank (line : Bytes) : Bool := (Text.trim line).isEmpty

/-- Reads header lines, numbered from `n` on. -/
def parseHeaders : Nat → List Bytes → Except SymbolError (List Header)
  | _, [] => .ok []
  | n, line :: rest =>
    if isBlank line then parseHeaders (n + 1) rest
    else match Header.parse? line with
      | none => .error (.broken n)
      | some h => (parseHeaders (n + 1) rest).map (h :: ·)

/-- Reads module lines, numbered from `n` on, and the headers after them; says whether the line that
ends the modules came. -/
def parseModules : Nat → List Bytes → Except SymbolError (Symbols × Bool)
  | _, [] => .ok ({}, false)
  | n, line :: rest =>
    if isBlank line then parseModules (n + 1) rest
    else if line = moduleEnd then (parseHeaders (n + 1) rest).map fun hs =>
      ({ headers := hs }, true)
    else match ModuleInfo.parse? line with
      | none => .error (.broken n)
      | some m =>
        (parseModules (n + 1) rest).map fun (s, ended) =>
          ({ s with modules := m :: s.modules }, ended)

namespace Symbols

/-- Reads a debug file. The lines before one that is too long are checked first; a file without the
line that ends the modules is broken at its last line. -/
def parse (text : Bytes) : Except SymbolError Symbols :=
  let ls := Text.lines symbolLineLimit text
  match parseModules 1 (ls.lines.map dropReturns) with
  | .error e => .error e
  | .ok (s, ended) =>
    if ls.overlong then .error .overlongLine
    else if ended then .ok s
    else .error (.broken ls.lines.length)

/-- The first header of a module whose range starts on a line, counted from one. -/
def locate? (s : Symbols) (module : Bytes) (line : Int) : Option Header :=
  s.headers.find? fun h => h.module == module &&
    h.range.startLine == signed (UInt64.ofInt (line - 1))

end Symbols

end RegisterMachine.Debugger
