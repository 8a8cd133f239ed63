import RegisterMachine.Cbor.Record
import RegisterMachine.Proofs.Codec.Canonical
import RegisterMachine.Proofs.Codec.Cbor
import RegisterMachine.Proofs.Codec.Limits
import RegisterMachine.Proofs.Memory.Flatness

/-!
# Values on the wire

The lengths in a binary form have four bytes, so whatever is read from one has lengths that fit 32
bits (`Value.lengthsFit_of_decodeLevels`). A value is therefore read back from its binary form
exactly when it nests within the limit and its lengths fit (`Value.ofBinary_toBinary_iff`). What a
thread holds does not nest: of the values in its heap those are read back whose lengths fit
(`Cbor.readValue_ofValue_iff`), and those in registers and slots are read back always
(`Cbor.readValue_ofValue`).
-/

namespace RegisterMachine

open Bytes (littleEndian ofLittleEndian)

namespace Value

variable {k : Kind} {v : Value} {c c' : Cursor}

/-! ## What is read -/

/-- Four bytes stand for a length that fits. -/
theorem ofLittleEndian_lt_of_length {n : Bytes} (h : n.length = 4) : ofLittleEndian n < 2 ^ 32 := by
  have hlt := ofLittleEndian_lt n
  rwa [h] at hlt

/-- A payload of a kind other than an array has no length but that of a string. -/
theorem lengthsFit_of_ofScalarPayload {p : Bytes} (h : ofScalarPayload k p = .ok v) :
    v.lengthsFit = true := by
  cases v with
  | string s =>
    obtain ⟨hkind, _⟩ := payload_of_ofScalarPayload h
    obtain rfl : k = .string := hkind.symm
    simp only [ofScalarPayload] at h
    split at h
    · cases h
    · next hlen =>
      cases h
      obtain ⟨hfour, hrest⟩ := not_or.1 hlen
      have htake : (p.take 4).length = 4 := List.length_take_of_le (Nat.le_of_not_lt hfour)
      have hlt := ofLittleEndian_lt_of_length htake
      rw [not_not.1 hrest] at hlt
      simpa [lengthsFit] using hlt
  | array es =>
    obtain ⟨hkind, _⟩ := payload_of_ofScalarPayload h
    obtain rfl : k = .array := hkind.symm
    cases h
  | _ => rfl

/-- An array that is read has as many elements as its length says. -/
theorem lengthsFit_of_decodeArrayWith {element : Cursor → ReadResult Value}
    (hwritten : WritesBack element fun v bs => bs = v.toBinary)
    (helement : ∀ c v c', element c = .ok (v, c') → v.lengthsFit = true)
    (h : decodeArrayWith (some element) c = .ok (v, c')) : v.lengthsFit = true := by
  rw [decodeArrayWith] at h
  dsimp only at h
  split at h
  · cases h
  · next n c₁ htake =>
    split at h
    · cases h
    · obtain ⟨⟨es, c₂⟩, hmany, heq⟩ := Except.map_eq_ok.1 h
      cases heq
      obtain ⟨_, ⟨hcount, _⟩, _⟩ := hwritten.many _ hmany
      have hlt := ofLittleEndian_lt_of_length (Cursor.Passes.ofTake htake).2
      rw [lengthsFit, Bool.and_eq_true, decide_eq_true_eq, hcount, lengthsFitAll_iff]
      refine ⟨hlt, fun e he => ?_⟩
      obtain ⟨c₂, c₃, hread⟩ := exists_of_mem_readMany hmany e he
      exact helement c₂ e c₃ hread

/-- **The lengths of whatever is read fit 32 bits.** -/
theorem lengthsFit_of_decodeLevels {levels : Nat} (h : decodeLevels levels c = .ok (v, c')) :
    v.lengthsFit = true := by
  induction levels generalizing c v c' with
  | zero =>
    obtain ⟨k, p, hv⟩ | ⟨c₁, h⟩ := decodeTagged_cases h
    · exact lengthsFit_of_ofScalarPayload hv
    · cases h
  | succ levels ih =>
    obtain ⟨k, p, hv⟩ | ⟨c₁, h⟩ := decodeTagged_cases h
    · exact lengthsFit_of_ofScalarPayload hv
    · exact lengthsFit_of_decodeArrayWith (writesBack_decodeLevels levels) (fun c v c' => ih) h

/-- **A value is read back exactly when it nests within the limit and its lengths fit.** -/
theorem ofBinary_toBinary_iff : ofBinary v.toBinary = .ok v ↔ v.isEncodable maxDepth = true := by
  have hdata : (Cursor.ofBytes v.toBinary 0) = ⟨0, v.toBinary ++ []⟩ := by
    rw [Cursor.ofBytes, List.drop_zero, List.append_nil]
  constructor
  · intro h
    unfold ofBinary decode at h
    split at h
    · cases h
    · next w c hread =>
      split at h
      · cases h
        exact isEncodable_iff.2 ⟨depth_le_of_decodeLevels hread, lengthsFit_of_decodeLevels hread⟩
      · cases h
  · intro hv
    rw [ofBinary, decode, hdata, reads_toBinary hv]
    rfl

/-! ## What a thread holds -/

/-- What fits a register is not nested. -/
theorem depth_of_isCell (hv : v.isCell = true) : v.depth = 0 := by
  cases v with
  | array es => cases hv
  | _ => rfl

/-- The lengths in what fits a register fit. -/
theorem lengthsFit_of_isCell (hv : v.isCell = true) : v.lengthsFit = true := by
  cases v with
  | string s => cases hv
  | array es => cases hv
  | _ => rfl

/-- An array of values that are no arrays nests one deep. -/
theorem depth_le_of_isFlat (hv : v.isFlat = true) : v.depth ≤ 1 := by
  cases v with
  | array es =>
    have helems : depthAll es ≤ 0 :=
      depthAll_le_iff.2 fun e he => Nat.le_of_eq (depth_of_isCell (isFlat_array.1 hv e he))
    exact Nat.succ_le_succ helems
  | _ => exact Nat.zero_le 1

/-- The binary form of a number or a reference takes ten bytes at most. -/
theorem length_toBinary_of_isCell (hv : v.isCell = true) : v.toBinary.length ≤ 10 := by
  cases v with
  | string s => cases hv
  | array es => cases hv
  | int w b => cases w <;> simp [toBinary, payload, IntWidth.bytes]
  | _ => simp [toBinary, payload]

end Value

namespace Cbor

variable {v : Value}

/-- The item of a value is read as the value says. -/
theorem readValue_ofValue_eq (v : Value) :
    readValue (ofValue v) = (Value.ofBinary v.toBinary).mapError .value := rfl

/-- **A value that does not nest is read back exactly when its lengths fit.** -/
theorem readValue_ofValue_iff (hv : v.isFlat = true) :
    readValue (ofValue v) = .ok v ↔ v.lengthsFit = true := by
  have hdepth : v.depth ≤ Value.maxDepth := Nat.le_trans (Value.depth_le_of_isFlat hv) (by decide)
  rw [readValue_ofValue_eq, Except.mapError_eq_ok, Value.ofBinary_toBinary_iff,
    Value.isEncodable_iff]
  exact and_iff_right hdepth

/-- What fits a slot is read back. -/
theorem readValue_ofValue (hv : v.isCell = true) : readValue (ofValue v) = .ok v :=
  (readValue_ofValue_iff (Value.isFlat_of_isCell hv)).2 (Value.lengthsFit_of_isCell hv)

/-- The item of a value can be read unless it is too long. -/
theorem isReadable_ofValue (levels : Nat) (hv : v.toBinary.length < 2 ^ 64) :
    (ofValue v).isReadable levels = true := by
  simpa [ofValue, isReadable] using hv

/-- The item of what fits a register can be read. -/
theorem isReadable_cell (levels : Nat) (hv : v.isCell = true) :
    (ofValue v).isReadable levels = true :=
  isReadable_ofValue levels (Nat.lt_of_le_of_lt (Value.length_toBinary_of_isCell hv) (by decide))

end Cbor

end RegisterMachine
