import RegisterMachine.Text.Classes
import RegisterMachine.Text.Utf8

/-!
# Quoted texts

A byte string is shown between double quotes, a character between single quotes. Printable
characters stand for themselves; the quote and the backslash take a backslash, the seven usual
controls their letter, other characters a `\x`, `\u` or `\U` escape, and a stray byte `\x` with
its two digits, so that no information is lost. `unquote?` reads such texts back, and three more
forms: single quotes around one character, octal escapes, and raw text between grave accents.
-/

namespace RegisterMachine.Text

/-- The `n` low-order hexadecimal digits of `v`. -/
def hexDigits : Nat → Nat → Bytes
  | 0, _ => []
  | n + 1, v => hexDigits n (v / 16) ++ [Bytes.hexDigit (v % 16)]

/-- The letter that names a control character after a backslash. -/
def controlLetter? (c : Nat) : Option UInt8 :=
  match c with
  | 7 => some 97
  | 8 => some 98
  | 9 => some 116
  | 10 => some 110
  | 11 => some 118
  | 12 => some 102
  | 13 => some 114
  | _ => none

/-- A scalar value as it stands inside quotes `q`. -/
def escapeScalar (q c : Nat) : Bytes :=
  if c = q ∨ c = 92 then [92, UInt8.ofNat c]
  else if isPrintable c then encodeScalar c
  else match controlLetter? c with
    | some l => [92, l]
    | none =>
      if c < 0x20 ∨ c = 0x7F then 92 :: 120 :: hexDigits 2 c
      else if c < 0x10000 then 92 :: 117 :: hexDigits 4 c
      else 92 :: 85 :: hexDigits 8 c

/-- A glyph as it stands inside quotes `q`. -/
def escapeGlyph (q : Nat) : Glyph → Bytes
  | .scalar c => escapeScalar q c
  | .stray b => 92 :: 120 :: hexDigits 2 b.toNat

/-- The byte string between double quotes. -/
def quote (s : Bytes) : Bytes := 34 :: (glyphs s).flatMap (escapeGlyph 34) ++ [34]

/-- The code point between single quotes; what is no scalar value is shown as U+FFFD. -/
def quoteRune (c : Nat) : Bytes :=
  39 :: escapeScalar 39 (if isScalar c then c else replacement) ++ [39]

/-- The value of the first `n` characters as hexadecimal digits, and the rest. -/
def takeHex? : Nat → Nat → Bytes → Option (Nat × Bytes)
  | 0, v, s => some (v, s)
  | _ + 1, _, [] => none
  | n + 1, v, c :: s =>
    match Bytes.hexValue? c with
    | some d => takeHex? n (16 * v + d) s
    | none => none

/-- The value of an octal digit. -/
def octalValue? (c : UInt8) : Option Nat :=
  if 48 ≤ c.toNat ∧ c.toNat ≤ 55 then some (c.toNat - 48) else none

/-- The control character that a letter names after a backslash. -/
def letterControl? (l : UInt8) : Option UInt8 :=
  match l.toNat with
  | 97 => some 7
  | 98 => some 8
  | 116 => some 9
  | 110 => some 10
  | 118 => some 11
  | 102 => some 12
  | 114 => some 13
  | _ => none

/-- Reads what follows a backslash inside quotes `q`: the bytes it stands for, and the rest. -/
def unescape? (q : UInt8) : Bytes → Option (Bytes × Bytes)
  | [] => none
  | c :: s =>
    match letterControl? c with
    | some b => some ([b], s)
    | none =>
      if c = 120 then (takeHex? 2 0 s).map fun (v, r) => ([UInt8.ofNat v], r)
      else if c = 117 ∨ c = 85 then
        match takeHex? (if c = 117 then 4 else 8) 0 s with
        | some (v, r) => if isScalar v then some (encodeScalar v, r) else none
        | none => none
      else match octalValue? c with
        | some d₁ =>
          match s with
          | x :: y :: r =>
            match octalValue? x, octalValue? y with
            | some d₂, some d₃ =>
              let v := 64 * d₁ + 8 * d₂ + d₃
              if v ≤ 255 then some ([UInt8.ofNat v], r) else none
            | _, _ => none
          | _ => none
        | none =>
          if c = 92 then some ([92], s)
          else if (c = 39 ∨ c = 34) ∧ c = q then some ([c], s)
          else none

/-- Reads one character inside quotes `q`: the bytes it stands for, and the rest. A line break and
the quote itself are refused; a stray byte stands for U+FFFD. -/
def unquoteOne? (q : UInt8) : Bytes → Option (Bytes × Bytes)
  | [] => none
  | b :: s =>
    if b = q ∨ b = 10 then none
    else if b = 92 then unescape? q s
    else
      let (g, rest) := nextGlyph b s
      some (encodeScalar g.code, rest)

/-- Reads characters up to the closing quote, at most `fuel` of them. -/
def unquoteMany? (q : UInt8) : Nat → Bytes → Bytes → Option (Bytes × Bytes)
  | 0, _, _ => none
  | fuel + 1, done, s =>
    match s with
    | [] => none
    | b :: rest =>
      if b = q then some (done.reverse, rest)
      else match unquoteOne? q s with
        | some (bs, rest') => unquoteMany? q fuel (bs.reverse ++ done) rest'
        | none => none

/-- The byte string that a quoted text stands for: double quotes, single quotes around at most one
character, or grave accents around raw text, from which carriage returns are dropped. -/
def unquote? (s : Bytes) : Option Bytes :=
  match s with
  | 34 :: body =>
    match unquoteMany? 34 (body.length + 1) [] body with
    | some (t, []) => some t
    | _ => none
  | [39, 39] => some []
  | 39 :: body =>
    match unquoteOne? 39 body with
    | some (t, [39]) => some t
    | _ => none
  | 96 :: body =>
    match Bytes.cut? 96 body with
    | some (t, []) => some (t.filter (· != 13))
    | _ => none
  | _ => none

end RegisterMachine.Text
