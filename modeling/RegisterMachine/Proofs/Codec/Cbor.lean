import RegisterMachine.Cbor.Reading
import RegisterMachine.Proofs.Codec.Value

/-!
# Reading binary objects back

The canonical form of a data item is read back as the same item, whatever follows it, if its numbers
and lengths fit 64 bits, it nests no deeper than the reader allows, and no array or map has more
elements than the reader accepts (`Cbor.isReadable`). That is `Cbor.readLevels?_encode`; it rests on
`Cbor.readHead?_head` for the heads of items and on `Cbor.readItems?_encodeAll` for what is inside
them.
-/

namespace RegisterMachine

open Bytes (littleEndian ofLittleEndian bigEndian ofBigEndian)

namespace Cbor

variable (suf : Bytes)

/-! ## Heads -/

/-- A number that fits is read back. -/
theorem takeNumber?_bigEndian {k n : Nat} (h : n < 256 ^ k) :
    takeNumber? k (bigEndian k n ++ suf) = some (n, suf) := by
  have hlen : (bigEndian k n).length = k := by simp [bigEndian]
  have htake : (bigEndian k n ++ suf).take k = bigEndian k n := List.take_left' hlen
  have hdrop : (bigEndian k n ++ suf).drop k = suf := List.drop_left' hlen
  have hnum : ofBigEndian (bigEndian k n) = n := by
    rw [bigEndian, ofBigEndian, List.reverse_reverse, ofLittleEndian_of_lt h]
  rw [takeNumber?, htake, hdrop, hnum, if_pos hlen]

/-- A head whose number follows in `2 ^ k` bytes is read back. -/
theorem readHead?_long {major k n : Nat} (hmajor : major < 7) (hk : k < 4) (h : n < 256 ^ 2 ^ k) :
    readHead? (UInt8.ofNat (32 * major + (24 + k)) :: bigEndian (2 ^ k) n ++ suf) =
      some (⟨major, 24 + k, .value n⟩, suf) := by
  have hbyte : (UInt8.ofNat (32 * major + (24 + k))).toNat = 32 * major + (24 + k) := by
    rw [UInt8.toNat_ofNat']
    omega
  have hdiv : (32 * major + (24 + k)) / 32 = major := by omega
  have hmod : (32 * major + (24 + k)) % 32 = 24 + k := by omega
  rw [List.cons_append, readHead?]
  dsimp only
  rw [hbyte, hdiv, hmod, if_neg (by omega), if_neg (by omega), if_pos (by omega),
    Nat.add_sub_cancel_left, takeNumber?_bigEndian suf h]
  rw [Option.bind_some, if_neg (by omega)]

/-- **The head of an item is read back.** -/
theorem readHead?_head {major n : Nat} (hmajor : major < 7) (hn : n < 2 ^ 64) :
    ∃ info, readHead? (head major n ++ suf) = some (⟨major, info, .value n⟩, suf) := by
  rw [head]
  dsimp only
  split
  · next h =>
    have hbyte : (UInt8.ofNat (32 * major + n)).toNat = 32 * major + n := by
      rw [UInt8.toNat_ofNat']
      omega
    have hdiv : (32 * major + n) / 32 = major := by omega
    have hmod : (32 * major + n) % 32 = n := by omega
    refine ⟨n, ?_⟩
    rw [List.cons_append, readHead?]
    dsimp only
    rw [hbyte, hdiv, hmod, if_pos h]
    rfl
  · split
    · next h => exact ⟨_, readHead?_long suf (k := 0) hmajor (by decide) h⟩
    · split
      · next h => exact ⟨_, readHead?_long suf (k := 1) hmajor (by decide) h⟩
      · split
        · next h => exact ⟨_, readHead?_long suf (k := 2) hmajor (by decide) h⟩
        · exact ⟨_, readHead?_long suf (k := 3) hmajor (by decide) hn⟩

/-- An item's head has at least one byte. -/
theorem length_head_pos (major n : Nat) : 0 < (head major n).length := by
  rw [head]
  dsimp only
  repeat' split
  all_goals exact Nat.succ_pos _

/-- An item takes a byte at least. -/
theorem length_encode_pos (x : Cbor) : 0 < x.encode.length := by
  cases x with
  | float => exact Nat.succ_pos _
  | unsigned | negative | simple => exact length_head_pos _ _
  | bytes | text | array | map | tag =>
    rw [encode, List.length_append]
    exact Nat.lt_of_lt_of_le (length_head_pos _ _) (Nat.le_add_right _ _)

/-! ## Items -/

/-- The item is of a kind that is read back as it is, its numbers and lengths fit, and it nests at
most `levels` deep. -/
def isReadable : Nat → Cbor → Bool
  | _, unsigned n => n < 2 ^ 64
  | _, negative n => n < 2 ^ 64
  | _, bytes b => b.length < 2 ^ 64
  | _, text [s] => s.length < 2 ^ 64
  | levels + 1, array xs => xs.length ≤ maxItems && xs.all (isReadable levels)
  | levels + 1, map es =>
    es.length ≤ maxItems && es.all fun e => isReadable levels e.1 && isReadable levels e.2
  | _, _ => false

/-- Items that are read one by one are read one after the other. -/
theorem readItems?_encodeAll {item : Bytes → Option (Cbor × Bytes)} {xs : List Cbor}
    (h : ∀ x ∈ xs, ∀ suf, item (encode x ++ suf) = some (x, suf)) :
    readItems? item xs.length (encodeAll xs ++ suf) = some (xs, suf) := by
  induction xs with
  | nil => rfl
  | cons x xs ih =>
    rw [encodeAll, List.append_assoc, List.length_cons, readItems?, h x List.mem_cons_self]
    dsimp only
    rw [ih (fun y hy => h y (List.mem_cons_of_mem x hy))]
    rfl

/-- The keys and values of a map in turn. -/
def inTurn (es : List (Cbor × Cbor)) : List Cbor := es.flatMap fun e => [e.1, e.2]

/-- Entries are two items each. -/
theorem length_inTurn (es : List (Cbor × Cbor)) : (inTurn es).length = 2 * es.length := by
  induction es with
  | nil => rfl
  | cons e es ih =>
    have : (inTurn (e :: es)).length = (inTurn es).length + 2 := rfl
    rw [this, ih, List.length_cons]
    omega

/-- Entries are written as their items in turn. -/
theorem encodeEntries_eq (es : List (Cbor × Cbor)) : encodeEntries es = encodeAll (inTurn es) := by
  induction es with
  | nil => rfl
  | cons e es ih =>
    obtain ⟨k, v⟩ := e
    rw [encodeEntries, ih, List.append_assoc]
    rfl

/-- Items in turn are paired up into the entries again. -/
theorem pairs?_inTurn (es : List (Cbor × Cbor)) : pairs? (inTurn es) = some es := by
  induction es with
  | nil => rfl
  | cons e es ih =>
    have : pairs? (inTurn (e :: es)) = (pairs? (inTurn es)).map ((e.1, e.2) :: ·) := rfl
    rw [this, ih]
    rfl

/-- Every item has at least one byte. -/
theorem length_le_encodeAll (xs : List Cbor) : xs.length ≤ (encodeAll xs).length := by
  induction xs with
  | nil => exact Nat.le_refl 0
  | cons x xs ih =>
    have := length_encode_pos x
    rw [encodeAll, List.length_append, List.length_cons]
    omega

/-- An item is no longer than all the items together. -/
theorem length_encode_le {x : Cbor} {xs : List Cbor} (h : x ∈ xs) :
    x.encode.length ≤ (encodeAll xs).length := by
  induction xs with
  | nil => cases h
  | cons y ys ih =>
    rw [encodeAll, List.length_append]
    rcases List.mem_cons.1 h with rfl | h
    · exact Nat.le_add_right _ _
    · exact Nat.le_trans (ih h) (Nat.le_add_left _ _)

/-- The elements of an array, or the keys and values of a map, are read back. -/
theorem readElements?_encodeAll {item : Bytes → Option (Cbor × Bytes)} {xs : List Cbor}
    {per n : Nat} (hper : 0 < per) (hlen : xs.length = per * n) (hn : n ≤ maxItems)
    (h : ∀ x ∈ xs, ∀ suf, item (encode x ++ suf) = some (x, suf)) :
    readElements? item per (.value n) (encodeAll xs ++ suf) = some (xs, suf) := by
  have hroom := length_le_encodeAll xs
  have hle : n ≤ per * n := Nat.le_mul_of_pos_left n hper
  rw [readElements?, if_neg, ← hlen, readItems?_encodeAll suf h]
  rw [List.length_append]
  omega

section
variable {inner : Option (Bytes → Option (Cbor × Bytes))} {content : Bytes → Option (Cbor × Bytes)}

/-- A written natural number is read back, whatever follows. -/
theorem readItem?_unsigned {n : Nat} (h : n < 2 ^ 64) :
    readItem? inner content (encode (unsigned n) ++ suf) = some (unsigned n, suf) := by
  obtain ⟨info, hhead⟩ := readHead?_head suf (by decide : 0 < 7) h
  rw [encode, readItem?, hhead]
  rfl

/-- A written negative number is read back, whatever follows. -/
theorem readItem?_negative {n : Nat} (h : n < 2 ^ 64) :
    readItem? inner content (encode (negative n) ++ suf) = some (negative n, suf) := by
  obtain ⟨info, hhead⟩ := readHead?_head suf (by decide : 1 < 7) h
  rw [encode, readItem?, hhead]
  rfl

/-- A written byte string is read back, whatever follows. -/
theorem readItem?_bytes {b : Bytes} (h : b.length < 2 ^ 64) :
    readItem? inner content (encode (bytes b) ++ suf) = some (bytes b, suf) := by
  obtain ⟨info, hhead⟩ := readHead?_head (b ++ suf) (by decide : 2 < 7) h
  rw [encode, List.append_assoc, readItem?, hhead]
  change (if b.length ≤ (b ++ suf).length then
    some (bytes ((b ++ suf).take b.length), (b ++ suf).drop b.length) else none) = _
  rw [if_pos (by simp), List.take_left, List.drop_left]

/-- A written text is read back, whatever follows. -/
theorem readItem?_text {s : Bytes} (h : s.length < 2 ^ 64) :
    readItem? inner content (encode (text [s]) ++ suf) = some (text [s], suf) := by
  have hs : [s].flatten = s := by simp
  obtain ⟨info, hhead⟩ := readHead?_head (s ++ suf) (by decide : 3 < 7) h
  rw [encode, hs, List.append_assoc, readItem?, hhead]
  change (if s.length ≤ (s ++ suf).length then
    some (text [(s ++ suf).take s.length], (s ++ suf).drop s.length) else none) = _
  rw [if_pos (by simp), List.take_left, List.drop_left]

end

section
variable {item content : Bytes → Option (Cbor × Bytes)}

/-- An array is read back when its elements are. -/
theorem readItem?_array {xs : List Cbor} (hlen : xs.length ≤ maxItems)
    (h : ∀ x ∈ xs, ∀ suf, item (encode x ++ suf) = some (x, suf)) :
    readItem? (some item) content (encode (array xs) ++ suf) = some (array xs, suf) := by
  have hbound : xs.length < 2 ^ 64 := Nat.lt_of_le_of_lt hlen (by decide)
  obtain ⟨info, hhead⟩ := readHead?_head (encodeAll xs ++ suf) (by decide : 4 < 7) hbound
  have hread := readElements?_encodeAll suf Nat.one_pos (Nat.one_mul _).symm hlen h
  rw [encode, List.append_assoc, readItem?, hhead]
  change (readElements? item 1 (.value xs.length) (encodeAll xs ++ suf)).bind
    (fun p => some (array p.1, p.2)) = _
  rw [hread, Option.bind_some]

/-- A map is read back when its keys and values are. -/
theorem readItem?_map {es : List (Cbor × Cbor)} (hlen : es.length ≤ maxItems)
    (h : ∀ x ∈ inTurn es, ∀ suf, item (encode x ++ suf) = some (x, suf)) :
    readItem? (some item) content (encode (map es) ++ suf) = some (map es, suf) := by
  have hbound : es.length < 2 ^ 64 := Nat.lt_of_le_of_lt hlen (by decide)
  obtain ⟨info, hhead⟩ :=
    readHead?_head (encodeAll (inTurn es) ++ suf) (by decide : 5 < 7) hbound
  have hread := readElements?_encodeAll suf Nat.two_pos (length_inTurn es) hlen h
  rw [encode, encodeEntries_eq, List.append_assoc, readItem?, hhead]
  change (readElements? item 2 (.value es.length) (encodeAll (inTurn es) ++ suf)).bind
    (fun p => (pairs? p.1).bind fun es => some (map es, p.2)) = _
  rw [hread, Option.bind_some, pairs?_inTurn, Option.bind_some]

end

/-- **An item is read back from its canonical form.** -/
theorem readLevels?_encode {levels : Nat} {x : Cbor} (h : x.isReadable levels = true) :
    ∀ suf, readLevels? levels (encode x ++ suf) = some (x, suf) := by
  induction levels generalizing x with
  | zero =>
    intro suf
    rw [readLevels?, readers]
    cases x with
    | unsigned n => exact readItem?_unsigned suf (by simpa [isReadable] using h)
    | negative n => exact readItem?_negative suf (by simpa [isReadable] using h)
    | bytes b => exact readItem?_bytes suf (by simpa [isReadable] using h)
    | text chunks =>
      obtain _ | ⟨s, _ | ⟨s', chunks⟩⟩ := chunks
      · cases h
      · exact readItem?_text suf (by simpa [isReadable] using h)
      · cases h
    | array | map | tag | simple | float => cases h
  | succ levels ih =>
    intro suf
    rw [readLevels?, readers]
    cases x with
    | unsigned n => exact readItem?_unsigned suf (by simpa [isReadable] using h)
    | negative n => exact readItem?_negative suf (by simpa [isReadable] using h)
    | bytes b => exact readItem?_bytes suf (by simpa [isReadable] using h)
    | text chunks =>
      obtain _ | ⟨s, _ | ⟨s', chunks⟩⟩ := chunks
      · cases h
      · exact readItem?_text suf (by simpa [isReadable] using h)
      · cases h
    | array xs =>
      simp only [isReadable, Bool.and_eq_true, decide_eq_true_eq, List.all_eq_true] at h
      exact readItem?_array suf h.1 (fun x hx => ih (h.2 x hx))
    | map es =>
      simp only [isReadable, Bool.and_eq_true, decide_eq_true_eq, List.all_eq_true] at h
      refine readItem?_map suf h.1 (fun x hx => ih ?_)
      obtain ⟨e, he, hx⟩ := List.mem_flatMap.1 hx
      obtain rfl | rfl : x = e.1 ∨ x = e.2 := by simpa using hx
      · exact (h.2 e he).1
      · exact (h.2 e he).2
    | tag | simple | float => cases h

/-- An item that does not nest too deeply is read back from a byte string that holds nothing
else. -/
theorem decode?_encode {x : Cbor} (h : x.isReadable maxLevels = true) :
    decode? x.encode = some x := by
  have hread := readLevels?_encode h []
  rw [List.append_nil] at hread
  rw [decode?, hread]

end Cbor

end RegisterMachine
