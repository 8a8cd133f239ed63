import RegisterMachine.Cbor.Reading
import RegisterMachine.Value.Codec

/-!
# Records in binary objects

Readers that take a data item apart into numbers, texts, lists, runtime values and records. A record
is a map; its fields are found by a name or a number, unknown keys are passed over, of two entries
with one key the first counts, and a missing entry or a null leaves a field at its zero. Readers
stop at the first thing in the data that does not fit.
-/

namespace RegisterMachine.Cbor

/-- Why an item does not have the expected form. -/
inductive ShapeError where
  | shape
  /-- A runtime value inside is not well encoded. -/
  | value (e : CodecError)
  deriving DecidableEq, Inhabited

/-- A reader of items. -/
abbrev Reader (α : Type) := Cbor → Except ShapeError α

/-- Whether a tag with a fixed meaning stands before content of the right type. -/
def tagFits (number : Nat) (content : Cbor) : Bool :=
  match number, content with
  | 0, text _ => true
  | 0, _ => false
  | 1, unsigned _ | 1, negative _ | 1, float .. => true
  | 1, _ => false
  | 2, bytes _ | 3, bytes _ => true
  | 2, _ | 3, _ => false
  | _, _ => true

/-- Removes tags, except those that make a number of a byte string. -/
def untagged : Cbor → Except ShapeError Cbor
  | tag n x =>
    if !tagFits n x then .error .shape
    else if n = 2 ∨ n = 3 then .ok (tag n x)
    else untagged x
  | x => .ok x

/-- Whether the item is null or undefined. -/
def isNothing : Cbor → Bool
  | simple n => n = 22 || n = 23
  | _ => false

/-- A number from 0 to `max`. -/
def readNat (max : Nat) : Reader Nat := fun x => do
  let fit (n : Nat) : Except ShapeError Nat := if n ≤ max then .ok n else .error .shape
  match ← untagged x with
  | unsigned n => fit n
  | tag 2 (bytes b) => fit (Bytes.ofBigEndian b)
  | simple n => if n = 22 ∨ n = 23 then .ok 0 else if n = 20 ∨ n = 21 then .error .shape else fit n
  | _ => .error .shape

/-- A signed 64-bit number. -/
def readInt : Reader Int := fun x => do
  let positive (n : Nat) : Except ShapeError Int :=
    if n < 2 ^ (63 : Nat) then .ok n else .error .shape
  let negated (n : Nat) : Except ShapeError Int :=
    if n < 2 ^ (63 : Nat) then .ok (-1 - (n : Int)) else .error .shape
  match ← untagged x with
  | unsigned n => positive n
  | negative n => negated n
  | tag 2 (bytes b) => positive (Bytes.ofBigEndian b)
  | tag 3 (bytes b) => negated (Bytes.ofBigEndian b)
  | simple n =>
    if n = 22 ∨ n = 23 then .ok 0 else if n = 20 ∨ n = 21 then .error .shape else positive n
  | _ => .error .shape

/-- The text of a text string, every piece of which has to be UTF-8. -/
def chunksText (chunks : List Bytes) : Except ShapeError Bytes :=
  if chunks.all Text.isUtf8 then .ok chunks.flatten else .error .shape

/-- A text. -/
def readText : Reader Bytes := fun x => do
  match ← untagged x with
  | text chunks => chunksText chunks
  | x => if isNothing x then .ok [] else .error .shape

/-- Exactly `n` bytes: longer data is cut, shorter data filled up with zeros. -/
def readBytes (n : Nat) : Reader Bytes := fun x => do
  let fill (b : Bytes) : Bytes := b.take n ++ List.replicate (n - b.length) 0
  match ← untagged x with
  | bytes b | tag _ (bytes b) => .ok (fill b)
  | array xs => return fill (← (xs.take n).mapM fun x => return UInt8.ofNat (← readNat 255 x))
  | x => if isNothing x then .ok (fill []) else .error .shape

/-- A list of things. -/
def readList {α : Type} (item : Reader α) : Reader (List α) := fun x => do
  match ← untagged x with
  | array xs => xs.mapM item
  | x => if isNothing x then .ok [] else .error .shape

/-- A thing that may be absent. -/
def readOption {α : Type} (item : Reader α) : Reader (Option α) := fun x =>
  if isNothing x then .ok none else (item x).map some

/-- The key of a record's field. -/
inductive Key where
  | number (n : Nat)
  | name (s : String)
  deriving DecidableEq

/-- The text form of a key. -/
def Key.text : Key → Bytes
  | number n => Number.decimal n
  | name s => utf8 s

/-- A field of a record: its key, and how its item changes the record. -/
structure Field (σ : Type) where
  key : Key
  set : Cbor → σ → Except ShapeError σ

/-- A field that is set to what a reader gives. -/
def field {σ α : Type} (key : Key) (read : Reader α) (put : α → σ → σ) : Field σ :=
  ⟨key, fun x s => (read x).map (put · s)⟩

/-- Finds the field that an entry's key asks for: by its exact name, by its name up to the case of
letters, or by its number, which has to fit 64 bits when it is negative. -/
def findField? {σ : Type} (fields : List (Field σ)) : Cbor → Except ShapeError (Option (Field σ))
  | text chunks => do
    let k ← chunksText chunks
    return match fields.find? (·.key.text == k) with
      | some f => some f
      | none => fields.find? fun f => f.key.text.map Bytes.lower == k.map Bytes.lower
  | unsigned n => .ok (fields.find? (·.key == .number n))
  | negative n => if n < 2 ^ (63 : Nat) then .ok none else .error .shape
  | _ => .error .shape

/-- Reads the entries of a map in order; a field counts only the first time. -/
def readEntries {σ : Type} : List (Field σ) → σ → List (Cbor × Cbor) → Except ShapeError σ
  | _, s, [] => .ok s
  | fields, s, (k, v) :: rest =>
    match findField? fields k with
    | .error e => .error e
    | .ok none => readEntries fields s rest
    | .ok (some f) =>
      match f.set v s with
      | .error e => .error e
      | .ok s => readEntries (fields.filter (·.key != f.key)) s rest

/-- A record, from its zero. -/
def readRecord {σ : Type} (fields : List (Field σ)) (zero : σ) : Reader σ := fun x => do
  match ← untagged x with
  | map entries => readEntries fields zero entries
  | x => if isNothing x then .ok zero else .error .shape

/-- A runtime value: a byte string with its binary form. An empty record stands for void. -/
def readValue : Reader Value := fun x => do
  match ← untagged x with
  | bytes b => (Value.ofBinary b).mapError .value
  | x => readRecord [] Value.void x

/-- The item of a runtime value. -/
def ofValue (v : Value) : Cbor := bytes v.toBinary

end RegisterMachine.Cbor
