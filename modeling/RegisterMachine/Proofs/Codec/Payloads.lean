import RegisterMachine.Proofs.Codec.AcceptedFile
import RegisterMachine.Proofs.Codec.Instruction
import RegisterMachine.Proofs.Wire.Values

/-!
# Payloads of a known kind

A payload is read in two ways: behind its tag, where the reader finds out how long it is, and with
its kind known, where the reader is given exactly the payload. Both accept the payload of a value,
with the kind of that value, when the value nests within the limit and its lengths fit, and nothing
else (`Value.ofPayload_eq_ok_iff`, `Value.ofBinary_eq_ok_iff`). An immediate operand holds a tag,
the size of a payload and the payload (`Operand.decodeImmediate_eq_ok_iff`). So all three accept the
same payloads: `Value.payload_readers_agree`.
-/

namespace RegisterMachine

open Bytes (littleEndian)

/-- Kinds have different tags. -/
theorem Kind.tag_inj {k l : Kind} : k.tag = l.tag ↔ k = l := by
  refine ⟨fun h => ?_, congrArg tag⟩
  have hk := ofTag?_tag k
  rw [h, ofTag?_tag] at hk
  exact (Option.some.inj hk).symm

namespace Value

variable {k : Kind} {p data : Bytes} {v : Value}

/-! ## What the two readers accept -/

/-- The lengths of whatever is read from a payload fit 32 bits. -/
theorem lengthsFit_of_ofPayload (h : ofPayload k p = .ok v) : v.lengthsFit = true := by
  unfold ofPayload at h
  split at h
  · split at h
    · cases h
    · split at h
      · cases h
      · next hread =>
        split at h
        · cases h
          exact lengthsFit_of_decodeArrayWith (writesBack_decodeLevels _)
            (fun _ _ _ => lengthsFit_of_decodeLevels) hread
        · cases h
  · exact lengthsFit_of_ofScalarPayload h

/-- **A reader that knows the kind accepts the payloads of the values of that kind** which nest
within the limit and whose lengths fit. -/
theorem ofPayload_eq_ok_iff :
    ofPayload k p = .ok v ↔ v.kind = k ∧ v.payload = p ∧ v.isEncodable maxDepth = true := by
  constructor
  · intro h
    obtain ⟨hkind, hpayload⟩ := payload_of_ofPayload h
    exact ⟨hkind, hpayload, isEncodable_iff.2 ⟨depth_le_of_ofPayload h, lengthsFit_of_ofPayload h⟩⟩
  · rintro ⟨rfl, rfl, hv⟩
    exact ofPayload_payload hv

/-- What is read from a byte string that holds nothing else is written as that byte string. -/
theorem toBinary_of_ofBinary (h : ofBinary data = .ok v) : v.toBinary = data := by
  unfold ofBinary decode at h
  split at h
  · cases h
  · next w c hread =>
    split at h
    · next hempty =>
      cases h
      obtain ⟨_, rfl, hpass⟩ := writesBack_decodeLevels maxDepth hread
      have hrest := hpass.rest
      rw [List.isEmpty_iff.1 hempty, List.append_nil] at hrest
      exact hrest.symm
    · cases h

/-- **A reader of tagged values accepts the binary forms of values** which nest within the limit and
whose lengths fit. -/
theorem ofBinary_eq_ok_iff :
    ofBinary data = .ok v ↔ v.toBinary = data ∧ v.isEncodable maxDepth = true := by
  constructor
  · intro h
    obtain rfl := toBinary_of_ofBinary h
    exact ⟨rfl, ofBinary_toBinary_iff.1 h⟩
  · rintro ⟨rfl, hv⟩
    exact ofBinary_toBinary_iff.2 hv

/-- A binary form is known from its tag and its payload. -/
theorem toBinary_eq_cons_iff : v.toBinary = k.tag :: p ↔ v.kind = k ∧ v.payload = p := by
  rw [toBinary, List.cons.injEq, Kind.tag_inj]

/-- **A payload is accepted with its kind exactly if it is accepted behind its tag**, and as the
same value. -/
theorem ofPayload_eq_ok_iff_ofBinary : ofPayload k p = .ok v ↔ ofBinary (k.tag :: p) = .ok v := by
  rw [ofPayload_eq_ok_iff, ofBinary_eq_ok_iff, toBinary_eq_cons_iff, and_assoc]

end Value

/-! ## Immediate operands -/

namespace Operand

variable {arch : Arch} {c c' : Cursor} {v : Value} {bs : Bytes}

/-- An immediate value is written as its tag, the size of its payload and its payload, when the size
fits. -/
theorem encode_immediate_eq_ok_iff : (immediate v).encode arch = .ok bs ↔
    v.payload.length ≤ arch.maxAddress ∧
      bs = v.kind.tag :: (littleEndian arch.addressBytes v.payload.length ++ v.payload) := by
  have hencode : (immediate v).encode arch = (arch.encodeAddress v.payload.length).map
      fun size => v.kind.tag :: size ++ v.payload := rfl
  rw [hencode, Except.map_eq_ok]
  constructor
  · rintro ⟨size, hsize, rfl⟩
    have hfit := Arch.exists_encodeAddress_iff.1 ⟨size, hsize⟩
    rw [Arch.encodeAddress, if_neg (Nat.not_lt.2 hfit)] at hsize
    cases hsize
    exact ⟨hfit, rfl⟩
  · rintro ⟨hfit, rfl⟩
    exact ⟨_, if_neg (Nat.not_lt.2 hfit), rfl⟩

/-- An immediate value is read from a payload that its kind accepts. -/
theorem isEncodable_of_decodeImmediate_eq_ok (h : decodeImmediate arch c = .ok (v, c')) :
    v.isEncodable Value.maxDepth = true := by
  unfold decodeImmediate at h
  split at h
  · cases h
  · split at h
    · cases h
    · split at h
      · cases h
      · split at h
        · cases h
        · split at h
          · cases h
          · next hv =>
            cases h
            exact (Value.ofPayload_eq_ok_iff.1 hv).2.2

/-- **An immediate value is read where it is written**, when it nests within the limit and its
lengths fit. -/
theorem decodeImmediate_eq_ok_iff : decodeImmediate arch c = .ok (v, c') ↔
    ∃ bs, (immediate v).encode arch = .ok bs ∧ v.isEncodable Value.maxDepth = true ∧
      c.Passes bs c' := by
  constructor
  · intro h
    obtain ⟨bs, hbs, hpass⟩ := writesBack_decodeImmediate h
    exact ⟨bs, hbs, isEncodable_of_decodeImmediate_eq_ok h, hpass⟩
  · rintro ⟨bs, hbs, hv, hpass⟩
    obtain ⟨size, hsize, heq⟩ := Except.bind_eq_ok.1 hbs
    cases heq
    obtain ⟨pos, rest⟩ := c
    obtain ⟨pos', rest'⟩ := c'
    obtain ⟨hrest, hpos⟩ := hpass
    dsimp only at hrest hpos
    rw [hrest, hpos]
    exact reads_immediate hv hsize pos rest'

/-- An immediate operand is read at a position of some data where it is written. -/
theorem readAt?_immediate_eq_ok_iff {data : Bytes} {pos next : Int} :
    RegisterMachine.readAt? (decode arch .immediate) data pos = some (next, .ok (immediate v)) ↔
      0 ≤ pos ∧ v.isEncodable Value.maxDepth = true ∧ ∃ bs rest,
        (immediate v).encode arch = .ok bs ∧ data.drop pos.toNat = bs ++ rest ∧
          next = pos + bs.length := by
  constructor
  · intro h
    obtain ⟨hpos, c', hread, rfl⟩ := readAt?_eq_ok h
    obtain ⟨⟨w, c''⟩, hw, heq⟩ := Except.map_eq_ok.1 hread
    cases heq
    obtain ⟨bs, hbs, hv, hpass⟩ := decodeImmediate_eq_ok_iff.1 hw
    have hnext : c'.pos = pos.toNat + bs.length := hpass.pos
    exact ⟨hpos, hv, bs, c'.rest, hbs, hpass.rest, by omega⟩
  · rintro ⟨hpos, hv, bs, rest, hbs, hdata, rfl⟩
    have hpass : (Cursor.ofBytes data pos.toNat).Passes bs ⟨pos.toNat + bs.length, rest⟩ :=
      ⟨hdata, rfl⟩
    have hdecode : decode arch .immediate (.ofBytes data pos.toNat) =
        .ok (immediate v, ⟨pos.toNat + bs.length, rest⟩) :=
      Except.map_eq_ok.2 ⟨_, decodeImmediate_eq_ok_iff.2 ⟨bs, hbs, hv, hpass⟩, rfl⟩
    have hnext : ((pos.toNat + bs.length : Nat) : Int) = pos + bs.length := by omega
    rw [RegisterMachine.readAt?, if_neg (Int.not_lt.2 hpos), hdecode]
    dsimp only
    rw [hnext]

end Operand

namespace Value

/-- **The readers of payloads agree.** A payload is accepted by the reader that knows its kind
exactly if the tag of the kind and the payload are accepted by the reader of tagged values, and as
the same value. An immediate operand is read at some position exactly if a tag, a size and a payload
of this size stand there, and the tag and the payload are accepted by the reader of tagged values;
the next position is that behind the payload. All of them have the same limit: what is written for a
value is accepted exactly if its lengths fit 32 bits and its arrays nest at most `maxDepth` deep. -/
theorem payload_readers_agree :
    (∀ (k : Kind) (p : Bytes) (v : Value), ofPayload k p = .ok v ↔ ofBinary (k.tag :: p) = .ok v) ∧
      (∀ (arch : Arch) (data : Bytes) (pos next : Int) (v : Value),
        readAt? (Operand.decode arch .immediate) data pos = some (next, .ok (.immediate v)) ↔
          0 ≤ pos ∧ ∃ (k : Kind) (p rest : Bytes), p.length ≤ arch.maxAddress ∧
            data.drop pos.toNat =
              k.tag :: (littleEndian arch.addressBytes p.length ++ p) ++ rest ∧
            next = pos + (1 + arch.addressBytes + p.length : Nat) ∧ ofBinary (k.tag :: p) = .ok v) ∧
      ∀ v : Value, (ofPayload v.kind v.payload = .ok v ↔ v.lengthsFit = true ∧ v.depth ≤ maxDepth) ∧
        (ofBinary v.toBinary = .ok v ↔ v.lengthsFit = true ∧ v.depth ≤ maxDepth) := by
  refine ⟨fun k p v => ofPayload_eq_ok_iff_ofBinary, fun arch data pos next v => ?_,
    fun v => ⟨?_, ?_⟩⟩
  · rw [Operand.readAt?_immediate_eq_ok_iff]
    refine and_congr_right fun _ => ?_
    constructor
    · rintro ⟨hv, bs, rest, hbs, hdata, rfl⟩
      obtain ⟨hfit, rfl⟩ := Operand.encode_immediate_eq_ok_iff.1 hbs
      refine ⟨v.kind, v.payload, rest, hfit, hdata, ?_, ofBinary_eq_ok_iff.2 ⟨rfl, hv⟩⟩
      rw [List.length_cons, List.length_append, Bytes.length_littleEndian]
      omega
    · rintro ⟨k, p, rest, hfit, hdata, rfl, hv⟩
      obtain ⟨heq, hencodable⟩ := ofBinary_eq_ok_iff.1 hv
      obtain ⟨rfl, rfl⟩ := toBinary_eq_cons_iff.1 heq
      refine ⟨hencodable, _, rest, Operand.encode_immediate_eq_ok_iff.2 ⟨hfit, rfl⟩, hdata, ?_⟩
      rw [List.length_cons, List.length_append, Bytes.length_littleEndian]
      omega
  · rw [ofPayload_eq_ok_iff, isEncodable_iff, and_comm (a := v.lengthsFit = true)]
    exact ⟨fun h => h.2.2, fun h => ⟨rfl, rfl, h⟩⟩
  · rw [ofBinary_toBinary_iff, isEncodable_iff, and_comm]

end Value

end RegisterMachine
