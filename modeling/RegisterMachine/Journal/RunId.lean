import RegisterMachine.Number.Decimal
import RegisterMachine.Text.Quoted

/-!
# Run identifiers

A run is known by sixteen bytes. They are written as 32 hexadecimal digits in five groups divided by
dashes; when read, the text may also stand between braces or after `urn:uuid:`, or lack the dashes.
-/

namespace RegisterMachine

/-- The identifier of a run. -/
structure RunId where
  bytes : Bytes
  deriving DecidableEq, Inhabited

namespace RunId

/-- Why a text is no identifier. -/
inductive ParseError where
  | length (n : Nat)
  | urn (start : Bytes)
  | format
  deriving DecidableEq, Inhabited

/-- The wording of an error. -/
def ParseError.message : ParseError → Bytes
  | length n => utf8 "invalid UUID length: " ++ Number.decimal n
  | urn s => utf8 "invalid urn prefix: " ++ Text.quote s
  | format => utf8 "invalid UUID format"

/-- The sixteen bytes that hexadecimal digits spell. -/
def ofDigits (s : Bytes) : Except ParseError RunId :=
  match Bytes.ofHex? s with
  | some b => .ok ⟨b⟩
  | none => .error .format

/-- The lengths of the groups of digits. -/
def groups : List Nat := [8, 4, 4, 4, 12]

/-- The digits of groups divided by dashes; what follows the last group is not looked at. -/
def ungroup : List Nat → Bytes → Option Bytes
  | [], _ => some []
  | [n], s => some (s.take n)
  | n :: ns, s =>
    match s.drop n with
    | 45 :: rest => (ungroup ns rest).map (s.take n ++ ·)
    | _ => none

/-- Reads 36 characters of grouped digits. -/
def ofGroups (s : Bytes) : Except ParseError RunId :=
  match ungroup groups s with
  | some digits => ofDigits digits
  | none => .error .format

/-- What stands before an identifier in its longest form. -/
def urnMark : Bytes := utf8 "urn:uuid:"

/-- Reads an identifier; its length tells which form it has. -/
def parse (s : Bytes) : Except ParseError RunId :=
  if s.length = 36 then ofGroups s
  else if s.length = 45 then
    if (s.take 9).map Bytes.lower = urnMark then ofGroups (s.drop 9) else .error (.urn (s.take 9))
  else if s.length = 38 then ofGroups (s.drop 1)
  else if s.length = 32 then ofDigits s
  else .error (.length s.length)

/-- The groups of digits with dashes between them. -/
def group : List Nat → Bytes → List Bytes
  | [], _ => []
  | n :: ns, s => s.take n :: group ns (s.drop n)

/-- The text of an identifier. -/
def text (i : RunId) : Bytes := Bytes.join [45] (group groups (Bytes.hex i.bytes))

/-- The identifier that sixteen random bytes give: four bits tell the version and two the
variant. -/
def ofRandom (random : Bytes) : RunId :=
  ⟨random.mapIdx fun i b =>
    if i = 6 then (b &&& 0x0f) ||| 0x40 else if i = 8 then (b &&& 0x3f) ||| 0x80 else b⟩

end RunId

end RegisterMachine
