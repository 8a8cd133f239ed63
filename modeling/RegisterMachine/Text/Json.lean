import RegisterMachine.Number.Decimal
import RegisterMachine.Text.Quoted

/-!
# JSON texts

Compact JSON without blanks, the members of an object in the order given. Texts are safe to embed in
markup: angle brackets, the ampersand and the two Unicode line separators are escaped, and a stray
byte is written as the escape of U+FFFD.
-/

namespace RegisterMachine.Text

/-- A JSON text as a tree. -/
inductive Json where
  | null
  | bool (b : Bool)
  | number (n : Int)
  | string (s : Bytes)
  | array (items : List Json)
  | object (members : List (String × Json))
  deriving Inhabited

namespace Json

/-- A `\u` escape. -/
def unicodeEscape (c : Nat) : Bytes := 92 :: 117 :: hexDigits 4 c

/-- A glyph as it stands in a JSON string. -/
def escape : Glyph → Bytes
  | .stray _ => unicodeEscape replacement
  | .scalar c =>
    if c = 34 ∨ c = 92 then [92, UInt8.ofNat c]
    else if c = 8 then [92, 98]
    else if c = 9 then [92, 116]
    else if c = 10 then [92, 110]
    else if c = 12 then [92, 102]
    else if c = 13 then [92, 114]
    else if c < 0x20 ∨ c = 0x3C ∨ c = 0x3E ∨ c = 0x26 ∨ c = 0x2028 ∨ c = 0x2029 then unicodeEscape c
    else encodeScalar c

/-- A byte string as a JSON string. -/
def quoted (s : Bytes) : Bytes := 34 :: (glyphs s).flatMap escape ++ [34]

mutual

/-- The text of a tree. -/
def render : Json → Bytes
  | null => utf8 "null"
  | bool b => utf8 (if b then "true" else "false")
  | number n => Number.decimalInt n
  | string s => quoted s
  | array items => 91 :: Bytes.join [44] (renderItems items) ++ [93]
  | object members => 123 :: Bytes.join [44] (renderMembers members) ++ [125]

/-- The texts of the items of an array. -/
def renderItems : List Json → List Bytes
  | [] => []
  | x :: xs => x.render :: renderItems xs

/-- The texts of the members of an object. -/
def renderMembers : List (String × Json) → List Bytes
  | [] => []
  | (name, x) :: xs => (quoted (utf8 name) ++ 58 :: x.render) :: renderMembers xs

end

/-- An array that is `null` when it is empty. -/
def arrayOrNull : List Json → Json
  | [] => null
  | items => array items

/-- A member that is left out when its text is empty. -/
def optionalString (name : String) (s : Bytes) : List (String × Json) :=
  if s.isEmpty then [] else [(name, string s)]

end Json

end RegisterMachine.Text
