import RegisterMachine.Bytes

/-!
# UTF-8

Any byte string reads as a list of glyphs: well-formed sequences of one to four bytes, each a
Unicode scalar value, and stray bytes that start no such sequence. `glyphs` is the reading and
`Glyph.bytes` the writing; a stray byte counts as one character, U+FFFD, wherever the text is
taken as code points.
-/

namespace RegisterMachine.Text

/-- The code point that stands for what is no character. -/
def replacement : Nat := 0xFFFD

/-- Code points that UTF-8 can write: up to U+10FFFF without the surrogates. -/
def isScalar (c : Nat) : Bool := c < 0xD800 || (0xE000 ≤ c && c ≤ 0x10FFFF)

/-- The UTF-8 bytes of a scalar value. -/
def encodeScalar (c : Nat) : Bytes :=
  if c < 0x80 then [UInt8.ofNat c]
  else if c < 0x800 then [UInt8.ofNat (0xC0 + c / 64), UInt8.ofNat (0x80 + c % 64)]
  else if c < 0x10000 then
    [UInt8.ofNat (0xE0 + c / 4096), UInt8.ofNat (0x80 + c / 64 % 64), UInt8.ofNat (0x80 + c % 64)]
  else
    [UInt8.ofNat (0xF0 + c / 262144), UInt8.ofNat (0x80 + c / 4096 % 64),
      UInt8.ofNat (0x80 + c / 64 % 64), UInt8.ofNat (0x80 + c % 64)]

/-- The UTF-8 bytes of a code point; one that is no scalar value is written as U+FFFD. -/
def encodeRune (c : Nat) : Bytes := encodeScalar (if isScalar c then c else replacement)

/-- One character of a byte string. -/
inductive Glyph where
  /-- A well-formed sequence, given by its code point. -/
  | scalar (code : Nat)
  /-- A byte that starts no well-formed sequence. -/
  | stray (byte : UInt8)
  deriving DecidableEq, Inhabited

namespace Glyph

/-- The code point, U+FFFD for a stray byte. -/
def code : Glyph → Nat
  | scalar c => c
  | stray _ => replacement

/-- The bytes the glyph was read from. -/
def bytes : Glyph → Bytes
  | scalar c => encodeScalar c
  | stray b => [b]

end Glyph

/-- Whether the byte continues a sequence. -/
def isContinuation (b : UInt8) : Bool := 0x80 ≤ b.toNat && b.toNat ≤ 0xBF

/-- The code point of the well-formed sequence that `b` and the bytes after it start with, and how
many bytes it takes beyond `b`. -/
def scalarAt? (b : UInt8) (rest : Bytes) : Option (Nat × Nat) :=
  let n := b.toNat
  if n < 0x80 then some (n, 0)
  else if 0xC2 ≤ n ∧ n ≤ 0xDF then
    match rest with
    | x :: _ => if isContinuation x then some ((n - 0xC0) * 64 + (x.toNat - 0x80), 1) else none
    | [] => none
  else if 0xE0 ≤ n ∧ n ≤ 0xEF then
    match rest with
    | x :: y :: _ =>
      let c := (n - 0xE0) * 4096 + (x.toNat - 0x80) * 64 + (y.toNat - 0x80)
      if isContinuation x && isContinuation y && 0x800 ≤ c && isScalar c then some (c, 2) else none
    | _ => none
  else if 0xF0 ≤ n ∧ n ≤ 0xF4 then
    match rest with
    | x :: y :: z :: _ =>
      let c := (n - 0xF0) * 262144 + (x.toNat - 0x80) * 4096 + (y.toNat - 0x80) * 64
        + (z.toNat - 0x80)
      if isContinuation x && isContinuation y && isContinuation z && 0x10000 ≤ c && isScalar c then
        some (c, 3)
      else none
    | _ => none
  else none

/-- The glyph a non-empty byte string starts with, and the bytes after it. -/
def nextGlyph (b : UInt8) (rest : Bytes) : Glyph × Bytes :=
  match scalarAt? b rest with
  | some (c, k) => (.scalar c, rest.drop k)
  | none => (.stray b, rest)

theorem length_nextGlyph (b : UInt8) (rest : Bytes) :
    (nextGlyph b rest).2.length ≤ rest.length := by
  rw [nextGlyph]
  split
  · simp
  · simp

/-- Reads glyphs and puts them, reversed, before those already read. -/
def glyphsOnto (done : List Glyph) : Bytes → List Glyph
  | [] => done.reverse
  | b :: rest =>
    have := length_nextGlyph b rest
    glyphsOnto ((nextGlyph b rest).1 :: done) (nextGlyph b rest).2
termination_by s => s.length

/-- The characters of a byte string. -/
def glyphs (s : Bytes) : List Glyph := glyphsOnto [] s

theorem glyphsOnto_eq (done : List Glyph) (s : Bytes) :
    glyphsOnto done s = done.reverse ++ glyphs s := by
  suffices h : ∀ n (s : Bytes), s.length ≤ n → ∀ done,
      glyphsOnto done s = done.reverse ++ glyphs s from
    h s.length s (Nat.le_refl _) done
  intro n
  induction n with
  | zero =>
    intro s hs done
    cases s with
    | nil => simp [glyphs, glyphsOnto]
    | cons b rest => simp at hs
  | succ n ih =>
    intro s hs done
    cases s with
    | nil => simp [glyphs, glyphsOnto]
    | cons b rest =>
      have hlen : (nextGlyph b rest).2.length ≤ n := by
        have := length_nextGlyph b rest
        simp only [List.length_cons] at hs
        omega
      rw [glyphs, glyphsOnto, glyphsOnto, ih _ hlen, ih _ hlen]
      simp

@[simp] theorem glyphs_nil : glyphs [] = [] := by rw [glyphs, glyphsOnto]; rfl

theorem glyphs_cons (b : UInt8) (rest : Bytes) :
    glyphs (b :: rest) = (nextGlyph b rest).1 :: glyphs (nextGlyph b rest).2 := by
  rw [glyphs, glyphsOnto, glyphsOnto_eq]
  rfl

/-- The byte string that the glyphs make up. -/
def ofGlyphs (gs : List Glyph) : Bytes := gs.flatMap Glyph.bytes

/-- The code points of a byte string, U+FFFD for each stray byte. -/
def runes (s : Bytes) : List Nat := (glyphs s).map Glyph.code

/-- The UTF-8 bytes of a list of code points. -/
def ofRunes (cs : List Nat) : Bytes := cs.flatMap encodeRune

/-- Whether the byte string is well-formed UTF-8. -/
def isUtf8 (s : Bytes) : Bool :=
  (glyphs s).all fun
    | .scalar _ => true
    | .stray _ => false

end RegisterMachine.Text
