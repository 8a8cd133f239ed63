import RegisterMachine.Text.Classes
import RegisterMachine.Text.Utf8

/-!
# Trimming, words and lines

White space is the Unicode class `isSpace`. `trim` drops it at both ends, `words` splits at runs
of it, and `lines` splits a text into lines that may be at most a given number of bytes long.
-/

namespace RegisterMachine.Text

/-- Whether the glyph is white space; a stray byte is none. -/
def Glyph.isSpace : Glyph → Bool
  | .scalar c => Text.isSpace c
  | .stray _ => false

/-- The text without the white space at its two ends. -/
def trim (s : Bytes) : Bytes :=
  ofGlyphs ((((glyphs s).dropWhile Glyph.isSpace).reverse.dropWhile Glyph.isSpace).reverse)

/-- The glyphs up to the first white space and those from it on. -/
def firstWord (gs : List Glyph) : List Glyph × List Glyph :=
  (gs.takeWhile (!·.isSpace), gs.dropWhile (!·.isSpace))

/-- One step of splitting from the right: the run that reaches the front, and the runs after it. -/
def wordsStep (g : Glyph) : List Glyph × List (List Glyph) → List Glyph × List (List Glyph)
  | (run, runs) => if g.isSpace then ([], closeRun run runs) else (g :: run, runs)
where
  /-- A run counts only when it holds a glyph. -/
  closeRun (run : List Glyph) (runs : List (List Glyph)) : List (List Glyph) :=
    if run.isEmpty then runs else run :: runs

/-- The maximal runs of the text that hold no white space. -/
def words (s : Bytes) : List Bytes :=
  let (run, runs) := (glyphs s).foldr wordsStep ([], [])
  (wordsStep.closeRun run runs).map ofGlyphs

/-- The part before the first white space and the trimmed part after it. -/
def headAndTail (s : Bytes) : Bytes × Bytes :=
  let (head, tail) := firstWord (glyphs s)
  (ofGlyphs head, trim (ofGlyphs tail))

/-- A line without the carriage return that may end it. -/
def chomp (line : Bytes) : Bytes :=
  match line.reverse with
  | 13 :: rest => rest.reverse
  | _ => line

/-- The lines of a text up to the first that is too long, and whether there is such a line. -/
structure Lines where
  lines : List Bytes
  overlong : Bool
  deriving DecidableEq, Inhabited

/-- The lines of a text. A final newline ends the last line and starts no other one; every line has
to be shorter than `limit` bytes, counted with a final carriage return, which is then dropped. -/
def lines (limit : Nat) (s : Bytes) : Lines :=
  let parts := Bytes.splitOn 10 s
  let parts := if parts.getLast? = some [] then parts.dropLast else parts
  let short := parts.takeWhile (·.length < limit)
  ⟨short.map chomp, short.length < parts.length⟩

/-- The line length at which readers of source and command text give up. -/
def lineLimit : Nat := 65536

end RegisterMachine.Text
