import RegisterMachine.Cbor.Basic

/-!
# Reading binary objects

`Cbor.decode?` accepts a byte string that is exactly one well-formed item: heads with reserved
numbers, short simple values in the long form, stray breaks and truncated data are refused, as are
more than 32 levels of nesting and more than 131072 elements. Definite and indefinite lengths are
both read. Arrays and maps take a level each; of tags directly inside each other the first takes
none and every further one takes a level, which the content of the last one lacks.
-/

namespace RegisterMachine.Cbor

/-- How deeply items may nest. -/
def maxLevels : Nat := 32

/-- How many elements or entries an item may have. -/
def maxItems : Nat := 131072

/-- The number in the head of an item. -/
inductive Argument where
  | value (n : Nat)
  | indefinite
  deriving DecidableEq

/-- The head of an item: its major type, the short number in the first byte, and the argument. -/
structure Head where
  major : Nat
  info : Nat
  argument : Argument

/-- Reads the next `n` bytes as a big-endian number. -/
def takeNumber? (n : Nat) (s : Bytes) : Option (Nat × Bytes) :=
  let bs := s.take n
  if bs.length = n then some (Bytes.ofBigEndian bs, s.drop n) else none

/-- Reads the head of an item. -/
def readHead? : Bytes → Option (Head × Bytes)
  | [] => none
  | b :: rest =>
    let major := b.toNat / 32
    let info := b.toNat % 32
    if info < 24 then some (⟨major, info, .value info⟩, rest)
    else if info = 31 then
      if major = 0 ∨ major = 1 ∨ major = 6 ∨ major = 7 then none
      else some (⟨major, info, .indefinite⟩, rest)
    else if info < 28 then
      (takeNumber? (2 ^ (info - 24)) rest).bind fun (n, rest) =>
        if major = 7 ∧ info = 24 ∧ n < 32 then none
        else some (⟨major, info, .value n⟩, rest)
    else none

/-- Reads the chunks of a string of indefinite length up to the break. -/
def readChunks? (major : Nat) : Nat → Bytes → Option (List Bytes × Bytes)
  | 0, _ => none
  | fuel + 1, s =>
    match s with
    | [] => none
    | 255 :: rest => some ([], rest)
    | _ =>
      match readHead? s with
      | some (⟨m, _, .value n⟩, rest) =>
        if m = major ∧ n ≤ rest.length then
          (readChunks? major fuel (rest.drop n)).map fun (cs, r) => (rest.take n :: cs, r)
        else none
      | _ => none

/-- Reads `n` items. -/
def readItems? (item : Bytes → Option (Cbor × Bytes)) : Nat → Bytes → Option (List Cbor × Bytes)
  | 0, s => some ([], s)
  | n + 1, s =>
    match item s with
    | none => none
    | some (x, s) => (readItems? item n s).map fun (xs, r) => (x :: xs, r)

/-- Reads items up to the break, at most `fuel` of them. -/
def readUntilBreak? (item : Bytes → Option (Cbor × Bytes)) : Nat → Bytes →
    Option (List Cbor × Bytes)
  | 0, _ => none
  | fuel + 1, s =>
    match s with
    | 255 :: rest => some ([], rest)
    | _ =>
      match item s with
      | none => none
      | some (x, s) => (readUntilBreak? item fuel s).map fun (xs, r) => (x :: xs, r)

/-- Takes items two by two. -/
def pairs? : List Cbor → Option (List (Cbor × Cbor))
  | [] => some []
  | [_] => none
  | k :: v :: rest => (pairs? rest).map ((k, v) :: ·)

/-- Reads the elements of an array, or the keys and values of a map in turn. -/
def readElements? (item : Bytes → Option (Cbor × Bytes)) (per : Nat) (a : Argument) (s : Bytes) :
    Option (List Cbor × Bytes) :=
  match a with
  | .value n =>
    if maxItems < n ∨ s.length < n then none else readItems? item (per * n) s
  | .indefinite => readUntilBreak? item (per * maxItems + 1) s

/-- Reads one item; `inner` reads the items inside it and is absent at the deepest level. -/
def readItem? (inner : Option (Bytes → Option (Cbor × Bytes)))
    (content : Bytes → Option (Cbor × Bytes)) (s : Bytes) : Option (Cbor × Bytes) :=
  match readHead? s with
  | none => none
  | some (⟨major, info, argument⟩, rest) =>
    match major, argument with
    | 0, .value n => some (unsigned n, rest)
    | 1, .value n => some (negative n, rest)
    | 2, .value n => if n ≤ rest.length then some (bytes (rest.take n), rest.drop n) else none
    | 2, .indefinite =>
      (readChunks? 2 (rest.length + 1) rest).map fun (cs, r) => (bytes cs.flatten, r)
    | 3, .value n => if n ≤ rest.length then some (text [rest.take n], rest.drop n) else none
    | 3, .indefinite => (readChunks? 3 (rest.length + 1) rest).map fun (cs, r) => (text cs, r)
    | 4, a => do
      let (xs, r) ← readElements? (← inner) 1 a rest
      return (array xs, r)
    | 5, a => do
      let (xs, r) ← readElements? (← inner) 2 a rest
      return (map (← pairs? xs), r)
    | 6, .value n => (content rest).map fun (x, r) => (tag n x, r)
    | 7, .value n =>
      if info < 25 then some (simple n, rest) else some (float (2 ^ (info - 24)) n, rest)
    | _, _ => none

/-- Reads the content of a tag: a further tag takes a level, and its content is read by `lower`,
which is absent at the deepest level; anything else is read as `plain`. -/
def readContent? (plain : Bytes → Option (Cbor × Bytes))
    (lower : Option (Bytes → Option (Cbor × Bytes))) (s : Bytes) : Option (Cbor × Bytes) :=
  match s with
  | [] => none
  | b :: _ =>
    if b.toNat / 32 = 6 then
      match lower, readHead? s with
      | some lower, some (⟨_, _, .value n⟩, rest) => (lower rest).map fun (x, r) => (tag n x, r)
      | _, _ => none
    else plain s

/-- The readers of items and of contents of tags that nest at most `levels` deep. -/
def readers : Nat → (Bytes → Option (Cbor × Bytes)) × (Bytes → Option (Cbor × Bytes))
  | 0 =>
    let content := readContent? (readItem? none fun _ => none) none
    (readItem? none content, content)
  | levels + 1 =>
    let (inner, lower) := readers levels
    let content := readContent? (readItem? (some inner) fun _ => none) (some lower)
    (readItem? (some inner) content, content)

/-- Reads one item that nests at most `levels` deep. -/
def readLevels? (levels : Nat) (s : Bytes) : Option (Cbor × Bytes) := (readers levels).1 s

/-- The item that a byte string is the encoding of. -/
def decode? (s : Bytes) : Option Cbor :=
  match readLevels? maxLevels s with
  | some (x, []) => some x
  | _ => none

end RegisterMachine.Cbor
