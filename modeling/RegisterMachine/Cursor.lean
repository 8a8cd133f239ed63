import RegisterMachine.CodecError

/-!
# Reading positions

A cursor is a place in a byte string: how many bytes lie before it, and the bytes after it. Readers
take a cursor and give the value read with the cursor behind it; a failed reader gives the error
with the position that it reached.
-/

namespace RegisterMachine

/-- A place in a byte string. -/
structure Cursor where
  pos : Nat
  rest : Bytes
  deriving DecidableEq, Inhabited

namespace Cursor

/-- The place after `pos` bytes, which may lie beyond the end. -/
def ofBytes (data : Bytes) (pos : Nat) : Cursor := ⟨pos, data.drop pos⟩

/-- The place `n` bytes further on. -/
def skip (c : Cursor) (n : Nat) : Cursor := ⟨c.pos + n, c.rest.drop n⟩

/-- The next `n` bytes and the place behind them. -/
def take? (c : Cursor) (n : Nat) : Option (Bytes × Cursor) :=
  let bytes := c.rest.take n
  if bytes.length = n then some (bytes, c.skip n) else none

end Cursor

/-- An error and the position that the reader reached. -/
structure ReadFailure where
  error : CodecError
  pos : Nat
  deriving DecidableEq, Inhabited

/-- The outcome of reading at a cursor. -/
abbrev ReadResult (α : Type) := Except ReadFailure (α × Cursor)

/-- Fails at the cursor's position. -/
def Cursor.fail {α : Type} (c : Cursor) (e : CodecError) : ReadResult α := .error ⟨e, c.pos⟩

/-- Reads at a position of some data and tells the position reached. Nothing can be read at a
position before the data. -/
def readAt? {α : Type} (read : Cursor → ReadResult α) (data : Bytes) (pos : Int) :
    Option (Int × Except CodecError α) :=
  if pos < 0 then none
  else match read (.ofBytes data pos.toNat) with
    | .ok (a, c) => some (c.pos, .ok a)
    | .error e => some (e.pos, .error e.error)

/-- Reads `n` things one after the other. -/
def readMany {α : Type} (read : Cursor → ReadResult α) : Nat → Cursor → ReadResult (List α)
  | 0, c => .ok ([], c)
  | n + 1, c =>
    match read c with
    | .error e => .error e
    | .ok (a, c) =>
      match readMany read n c with
      | .error e => .error e
      | .ok (as, c) => .ok (a :: as, c)

end RegisterMachine
