import Mathlib.Algebra.Group.Int.Defs
import Mathlib.Algebra.Group.Nat.Defs
import Mathlib.Data.List.Forall2
import RegisterMachine.Value.Codec

/-!
# Reading values back

`Reads read bs a` says that a reader finds `a` in the bytes `bs` whatever follows them, and stops
right behind them. It holds of the binary form of every value whose strings and arrays have lengths
that fit 32 bits and whose arrays nest no deeper than the reader allows (`Value.isEncodable`): that
is `Value.reads_toBinary`, by induction on the depth, with `Reads.many` for the elements of an
array. `Value.ofPayload_payload` says the same of payloads whose kind is known.
-/

namespace RegisterMachine

open Bytes (littleEndian ofLittleEndian)

/-- The reader finds `a` in `bs`, whatever follows, and stops behind it. -/
def Reads {α : Type} (read : Cursor → ReadResult α) (bs : Bytes) (a : α) : Prop :=
  ∀ pos suf, read ⟨pos, bs ++ suf⟩ = .ok (a, ⟨pos + bs.length, suf⟩)

/-- Taking as many bytes as were written gives these bytes. -/
theorem Cursor.take?_append (bs : Bytes) {n : Nat} (h : bs.length = n) (pos : Nat) (suf : Bytes) :
    (⟨pos, bs ++ suf⟩ : Cursor).take? n = some (bs, ⟨pos + n, suf⟩) := by
  subst h
  simp [Cursor.take?, Cursor.skip]

@[simp] theorem Cursor.skip_one (pos : Nat) (b : UInt8) (bs : Bytes) :
    (⟨pos, b :: bs⟩ : Cursor).skip 1 = ⟨pos + 1, bs⟩ := rfl

/-- Things that are read one by one are read one after the other. -/
theorem Reads.many {α : Type} {read : Cursor → ReadResult α} {bss : List Bytes} {as : List α}
    (h : List.Forall₂ (Reads read) bss as) : Reads (readMany read as.length) bss.flatten as := by
  induction h with
  | nil => exact fun pos suf => rfl
  | @cons bs a bss as ha _ ih =>
    intro pos suf
    rw [List.flatten_cons, List.append_assoc, List.length_cons, readMany, ha]
    dsimp only
    rw [ih]
    simp [Nat.add_assoc]

/-- What is read behind some bytes is what the reader finds there. -/
theorem readAt?_append {α : Type} (read : Cursor → ReadResult α) (pre bs : Bytes) :
    readAt? read (pre ++ bs) pre.length =
      match read ⟨pre.length, bs⟩ with
      | .ok (a, c) => some (c.pos, .ok a)
      | .error e => some (e.pos, .error e.error) := by
  have hdata : Cursor.ofBytes (pre ++ bs) (pre.length : Int).toNat = ⟨pre.length, bs⟩ := by
    rw [Int.toNat_natCast, Cursor.ofBytes, List.drop_left]
  rw [← hdata]
  exact if_neg (Int.not_lt.2 (Int.natCast_nonneg _))

/-- What stands somewhere in some data is found there. -/
theorem Reads.readAt? {α : Type} {read : Cursor → ReadResult α} {bs : Bytes} {a : α}
    (h : Reads read bs a) (pre suf : Bytes) :
    readAt? read (pre ++ bs ++ suf) pre.length = some ((pre.length : Int) + bs.length, .ok a) := by
  rw [List.append_assoc, readAt?_append, h]
  simp

/-- No bytes in which something is found go on as bytes in which something else is found. -/
theorem Reads.eq_of_isPrefix {α : Type} {read : Cursor → ReadResult α} {bs cs : Bytes} {a b : α}
    (ha : Reads read bs a) (hb : Reads read cs b) (hpre : bs <+: cs) : a = b := by
  obtain ⟨suf, rfl⟩ := hpre
  have hread := hb 0 []
  rw [List.append_nil, ha] at hread
  exact congrArg Prod.fst (Except.ok.inj hread)

/-- A number that fits is read back from its bytes. -/
theorem ofLittleEndian_of_lt {n v : Nat} (h : v < 256 ^ n) :
    ofLittleEndian (littleEndian n v) = v := by
  rw [Bytes.ofLittleEndian_littleEndian, Nat.mod_eq_of_lt h]

/-- A reference is read back from its word. -/
theorem Ref.ofBits_toBits (r : Ref) : Ref.ofBits r.toBits = r := by
  obtain ⟨index, gen⟩ := r
  have hi := index.toNat_lt
  have hg := gen.toNat_lt
  have hbits : (Ref.toBits ⟨index, gen⟩).toNat = gen.toNat * 2 ^ 32 + index.toNat := by
    rw [toBits, UInt64.toNat_ofNat_of_lt']
    show _ < 2 ^ 64
    dsimp only
    omega
  rw [ofBits, hbits, Ref.mk.injEq]
  constructor
  · apply UInt32.toNat_inj.1
    rw [UInt32.toNat_ofNat']
    omega
  · apply UInt32.toNat_inj.1
    rw [UInt32.toNat_ofNat']
    omega

namespace Value

/-- Arrays nest at most `levels` deep, and all lengths fit 32 bits. -/
def isEncodable : Nat → Value → Bool
  | _, string s => s.length < 2 ^ 32
  | 0, array _ => false
  | levels + 1, array es => es.length < 2 ^ 32 && es.all (isEncodable levels)
  | _, _ => true

/-! ## Values without elements -/

/-- A number of 32 bits is read back from its bytes. -/
theorem ofNat_littleEndian_four (b : UInt32) :
    UInt32.ofNat (ofLittleEndian (littleEndian 4 b.toNat)) = b := by
  rw [ofLittleEndian_of_lt b.toNat_lt, UInt32.ofNat_toNat]

/-- A number of 64 bits is read back from its bytes. -/
theorem ofNat_littleEndian_eight (b : UInt64) :
    UInt64.ofNat (ofLittleEndian (littleEndian 8 b.toNat)) = b := by
  rw [ofLittleEndian_of_lt b.toNat_lt, UInt64.ofNat_toNat]

/-- A width is known from its number of bits, which is written as a byte. -/
theorem ofBits?_bits (w : IntWidth) : IntWidth.ofBits? (w.bits % 256) = some w := by
  cases w <;> rfl

/-- An integer of any width is read back from its bytes. -/
theorem ofNat_littleEndian_bits {w : IntWidth} (b : BitVec w.bits) :
    BitVec.ofNat w.bits (ofLittleEndian (littleEndian w.bytes b.toNat)) = b := by
  have hpow : 2 ^ w.bits = 256 ^ w.bytes := by cases w <;> rfl
  rw [ofLittleEndian_of_lt (hpow ▸ b.isLt), BitVec.ofNat_toNat, BitVec.setWidth_eq]

/-- The payload of a value other than an array is read back. -/
theorem ofScalarPayload_payload {v : Value} (hk : v.kind ≠ .array)
    (hv : ∀ s, v = string s → s.length < 2 ^ 32) : ofScalarPayload v.kind v.payload = .ok v := by
  cases v with
  | array es => exact absurd rfl hk
  | void | null | byte b => rfl
  | bool b => cases b <;> rfl
  | float b | char b => simp [kind, payload, ofScalarPayload, ofNat_littleEndian_four]
  | double b | function b | stackRef b =>
    simp [kind, payload, ofScalarPayload, ofNat_littleEndian_eight]
  | heapRef r =>
    simp [kind, payload, ofScalarPayload, ofNat_littleEndian_eight, Ref.ofBits_toBits]
  | int w b =>
    simp [kind, payload, ofScalarPayload, ofBits?_bits, ofNat_littleEndian_bits]
  | string s =>
    have hlen : ofLittleEndian (littleEndian 4 s.length) = s.length :=
      ofLittleEndian_of_lt (hv s rfl)
    simp [kind, payload, ofScalarPayload, hlen]

/-- The size of a payload is known from its start. -/
theorem payloadSizeAt_payload {v : Value} (hk : v.kind ≠ .array)
    (hv : ∀ s, v = string s → s.length < 2 ^ 32) (pos : Nat) (suf : Bytes) :
    payloadSizeAt v.kind ⟨pos, v.payload ++ suf⟩ = .ok v.payload.length := by
  cases v with
  | array es => exact absurd rfl hk
  | void | null | byte b | bool b => rfl
  | float b | char b | double b | function b | stackRef b | heapRef b =>
    simp [kind, payload, payloadSizeAt, Kind.payloadSize?]
  | int w b =>
    simp [kind, payload, payloadSizeAt, Kind.payloadSize?, ofBits?_bits, Nat.add_comm]
  | string s =>
    have hlen : ofLittleEndian (littleEndian 4 s.length) = s.length :=
      ofLittleEndian_of_lt (hv s rfl)
    simp [kind, payload, payloadSizeAt, Kind.payloadSize?, List.append_assoc,
      Cursor.take?_append _ (Bytes.length_littleEndian 4 s.length), hlen]

/-- A tagged value other than an array is read back. -/
theorem reads_scalar {v : Value} (element : Option (Cursor → ReadResult Value))
    (hk : v.kind ≠ .array) (hv : ∀ s, v = string s → s.length < 2 ^ 32) :
    Reads (decodeTagged element) v.toBinary v := by
  intro pos suf
  have hsize := payloadSizeAt_payload hk hv (pos + 1) suf
  have htake := Cursor.take?_append v.payload rfl (pos + 1) suf
  have hpayload := ofScalarPayload_payload hk hv
  rw [toBinary, List.cons_append]
  unfold decodeTagged
  dsimp only
  rw [Kind.ofTag?_tag, Cursor.skip_one]
  split
  · next h => cases h
  · next h => exact absurd (Option.some.inj h) hk
  · next k _ h =>
    obtain rfl := Option.some.inj h
    rw [hsize]
    dsimp only
    rw [htake]
    dsimp only
    rw [hpayload]
    simp [Nat.add_assoc, Nat.add_comm]

/-! ## Arrays -/

/-- The elements of an array are written one by one. -/
theorem toBinaryAll_eq (es : List Value) : toBinaryAll es = (es.map toBinary).flatten := by
  induction es with
  | nil => rfl
  | cons v vs ih => rw [toBinaryAll, ih]; rfl

/-- Every element takes a byte at least. -/
theorem length_le_toBinaryAll (es : List Value) : es.length ≤ (toBinaryAll es).length := by
  induction es with
  | nil => exact Nat.le_refl 0
  | cons v vs ih =>
    simp only [toBinaryAll, List.length_append, List.length_cons]
    omega

/-- Reading a tagged array goes on with its payload. -/
theorem decodeTagged_array (element : Option (Cursor → ReadResult Value)) (es : List Value)
    (pos : Nat) (suf : Bytes) : decodeTagged element ⟨pos, (array es).toBinary ++ suf⟩ =
      decodeArrayWith element ⟨pos + 1, (array es).payload ++ suf⟩ := by
  have htag : Kind.ofTag? (array es).kind.tag = some .array := Kind.ofTag?_tag .array
  rw [toBinary, List.cons_append]
  unfold decodeTagged
  dsimp only
  rw [htag, Cursor.skip_one]

/-- Reading the payload of an array goes on with its elements. -/
theorem decodeArrayWith_payload (element : Cursor → ReadResult Value) {es : List Value}
    (hlen : es.length < 2 ^ 32) (pos : Nat) (suf : Bytes) :
    decodeArrayWith (some element) ⟨pos, (array es).payload ++ suf⟩ =
      (readMany element es.length ⟨pos + 4, (es.map toBinary).flatten ++ suf⟩).map
        fun (es, c) => (array es, c) := by
  have hcount : ofLittleEndian (littleEndian 4 es.length) = es.length := ofLittleEndian_of_lt hlen
  have hroom := length_le_toBinaryAll es
  rw [payload, List.append_assoc, decodeArrayWith]
  dsimp only
  rw [Cursor.take?_append _ (Bytes.length_littleEndian 4 es.length)]
  dsimp only
  rw [hcount, if_neg, toBinaryAll_eq]
  rw [List.length_append]
  omega

/-- The payload of an array is read back when its elements are. -/
theorem reads_array {element : Cursor → ReadResult Value} {es : List Value}
    (hlen : es.length < 2 ^ 32) (he : ∀ e ∈ es, Reads element e.toBinary e) :
    Reads (decodeArrayWith (some element)) (payload (array es)) (array es) := by
  intro pos suf
  have hmany : Reads (readMany element es.length) (es.map toBinary).flatten es := by
    refine Reads.many ?_
    rw [List.forall₂_map_left_iff, List.forall₂_same]
    exact he
  rw [decodeArrayWith_payload element hlen, hmany, payload, toBinaryAll_eq]
  simp [Except.map, Nat.add_assoc]

/-- A tagged array is read back when its elements are. -/
theorem reads_taggedArray {element : Cursor → ReadResult Value} {es : List Value}
    (hlen : es.length < 2 ^ 32) (he : ∀ e ∈ es, Reads element e.toBinary e) :
    Reads (decodeTagged (some element)) (toBinary (array es)) (array es) := by
  intro pos suf
  rw [decodeTagged_array, reads_array hlen he, toBinary]
  simp [Nat.add_assoc, Nat.add_comm]

/-- An encodable string has a length that fits. -/
theorem length_lt_of_isEncodable {levels : Nat} {v : Value} (hv : v.isEncodable levels = true) :
    ∀ s, v = string s → s.length < 2 ^ 32 := by
  rintro s rfl
  cases levels <;> simpa [isEncodable] using hv

/-- **A value is read back from its binary form.** -/
theorem reads_toBinary {levels : Nat} {v : Value} (hv : v.isEncodable levels = true) :
    Reads (decodeLevels levels) v.toBinary v := by
  have hstring := length_lt_of_isEncodable hv
  induction levels generalizing v with
  | zero =>
    cases v with
    | array es => cases hv
    | _ => exact reads_scalar none (by rintro ⟨⟩) hstring
  | succ levels ih =>
    cases v with
    | array es =>
      simp only [isEncodable, Bool.and_eq_true, decide_eq_true_eq, List.all_eq_true] at hv
      refine reads_taggedArray hv.1 (fun e he => ?_)
      exact ih (hv.2 e he) (length_lt_of_isEncodable (hv.2 e he))
    | _ => exact reads_scalar _ (by rintro ⟨⟩) hstring

/-- **A payload of a known kind is read back.** -/
theorem ofPayload_payload {v : Value} (hv : v.isEncodable maxDepth = true) :
    ofPayload v.kind v.payload = .ok v := by
  cases v with
  | array es =>
    simp only [isEncodable, maxDepth, Bool.and_eq_true, decide_eq_true_eq, List.all_eq_true] at hv
    have h := reads_array hv.1 (fun e he => reads_toBinary (hv.2 e he)) 0 []
    rw [List.append_nil] at h
    have hlen : ¬ (payload (array es)).length < 4 := by simp [payload]
    unfold ofPayload
    rw [kind]
    dsimp only
    rw [if_neg hlen, Cursor.ofBytes, List.drop_zero, maxDepth, h]
    rfl
  | _ => exact ofScalarPayload_payload (by rintro ⟨⟩) (length_lt_of_isEncodable hv)

end Value

end RegisterMachine
