import RegisterMachine.Instruction.Basic
import RegisterMachine.Proofs.Codec.Value
import RegisterMachine.Proofs.Fallible

/-!
# Reading instructions back

What the instruction writer produces, the instruction reader takes apart again: addresses of every
width, operands of every mode and opcodes each have a lemma, and `Instruction.reads` is made of
them. A stream of instructions is read back with the offsets that were noted when it was written
(`Instruction.decodeFrom_encodeFrom`, `Instruction.reads_stream`).
-/

namespace RegisterMachine

open Bytes (littleEndian ofLittleEndian)

variable {arch : Arch} {bs : Bytes}

/-- An address that fits the architecture is read back. -/
theorem Arch.reads_address {v : Nat} (h : arch.encodeAddress v = .ok bs) :
    Reads arch.decodeAddress bs v := by
  rw [encodeAddress] at h
  split at h
  · cases h
  · next hmax =>
    cases h
    have hpos : 0 < 256 ^ arch.addressBytes := Nat.pow_pos (by decide)
    have hlt : v < 256 ^ arch.addressBytes := by
      rw [maxAddress] at hmax
      omega
    intro pos suf
    rw [decodeAddress, Cursor.take?_append _ (Bytes.length_littleEndian _ _)]
    dsimp only
    rw [ofLittleEndian_of_lt hlt, Bytes.length_littleEndian]

/-! ## Operands -/

namespace Operand

/-- An immediate value can be written and read back. -/
def isEncodable : Operand → Bool
  | immediate v => v.isEncodable Value.maxDepth
  | _ => true

/-- An operand with one address is read back. -/
theorem reads_one {make : UInt64 → Operand} {a : UInt64} (h : arch.encodeAddress a.toNat = .ok bs) :
    Reads (decodeOne arch make) bs (make a) := by
  intro pos suf
  rw [decodeOne, Arch.reads_address h]
  dsimp only
  rw [UInt64.ofNat_toNat]

/-- An operand with two addresses is read back. -/
theorem reads_two {make : UInt64 → UInt64 → Operand} {a i : UInt64} {cs : Bytes}
    (ha : arch.encodeAddress a.toNat = .ok bs) (hi : arch.encodeAddress i.toNat = .ok cs) :
    Reads (decodeTwo arch make) (bs ++ cs) (make a i) := by
  intro pos suf
  rw [List.append_assoc, decodeTwo, Arch.reads_address ha]
  dsimp only
  rw [Arch.reads_address hi]
  dsimp only
  rw [UInt64.ofNat_toNat, UInt64.ofNat_toNat, List.length_append, Nat.add_assoc]

/-- An immediate value is read back. -/
theorem reads_immediate {v : Value} (hv : v.isEncodable Value.maxDepth = true)
    (h : arch.encodeAddress v.payload.length = .ok bs) :
    Reads (decodeImmediate arch) (v.kind.tag :: bs ++ v.payload) v := by
  intro pos suf
  have hsize := Arch.reads_address h (pos + 1) (v.payload ++ suf)
  have htake := Cursor.take?_append v.payload rfl (pos + 1 + bs.length) suf
  rw [List.cons_append, List.cons_append, List.append_assoc, decodeImmediate]
  dsimp only
  rw [Kind.ofTag?_tag, Cursor.skip_one]
  dsimp only
  rw [hsize]
  dsimp only
  rw [htake]
  dsimp only
  rw [Value.ofPayload_payload hv]
  simp only [List.length_cons, List.length_append]
  congr 3
  omega

/-- **An operand is read back by its mode.** -/
theorem reads {op : Operand} (h : op.encode arch = .ok bs)
    (hop : op.isEncodable = true) : Reads (decode arch op.mode) bs op := by
  cases op with
  | implicit | indirect r => cases h; exact fun pos suf => rfl
  | absolute a | static a => exact reads_one h
  | index a i | property a i =>
    obtain ⟨first, hfirst, h⟩ := Except.bind_eq_ok.1 h
    obtain ⟨second, hsecond, h⟩ := Except.bind_eq_ok.1 h
    cases h
    exact reads_two hfirst hsecond
  | immediate v =>
    obtain ⟨size, hsize, h⟩ := Except.bind_eq_ok.1 h
    cases h
    intro pos suf
    rw [mode, decode, reads_immediate hop hsize]
    rfl

end Operand

/-! ## Instructions -/

/-- There are fewer pairs of mnemonics and modes than bytes. -/
theorem Opcode.length_table : table.length < 256 := by decide

/-- The opcode of a pair stands for the pair. -/
theorem Opcode.decode?_of_encode? {m : Mnemonic} {mode : Mode} {op : UInt8}
    (h : encode? m mode = some op) : decode? op = some (m, mode) := by
  obtain ⟨i, hi, rfl⟩ := Option.map_eq_some_iff.1 h
  obtain ⟨hlt, hget, _⟩ := List.idxOf?_eq_some_iff.1 hi
  have hlen := length_table
  have hnat : (UInt8.ofNat (i + 1)).toNat = i + 1 := by
    rw [UInt8.toNat_ofNat']
    omega
  have hne : UInt8.ofNat (i + 1) ≠ 0 := by
    intro h0
    rw [h0] at hnat
    cases hnat
  rw [decode?, if_neg hne, hnat, Nat.add_sub_cancel, List.getElem?_eq_getElem hlt, hget]

namespace Instruction

/-- **An instruction is read back**, from at least one byte. -/
theorem reads {i : Instruction} (h : i.encode arch = .ok bs) (hi : i.operand.isEncodable = true) :
    Reads (decode arch) bs i ∧ 0 < bs.length := by
  rw [encode] at h
  split at h
  · cases h
  · next op hop =>
    split at h
    · cases h
    · next rest hrest =>
      cases h
      refine ⟨fun pos suf => ?_, Nat.succ_pos _⟩
      have hop := Opcode.decode?_of_encode? hop
      have hread := Operand.reads hrest hi (pos + 1) suf
      rw [List.cons_append, decode]
      dsimp only
      rw [hop]
      dsimp only
      rw [Cursor.skip_one]
      dsimp only [mode]
      rw [hread]
      simp only [List.length_cons]
      congr 3
      omega

/-- **A stream of instructions is read back with its offsets**, and takes a byte for each at
least. -/
theorem decodeFrom_encodeFrom {is : List Instruction} {index offset : Nat} {code : Bytes}
    {offsets : List Nat} (h : encodeFrom arch index offset is = .ok (code, offsets))
    (his : ∀ i ∈ is, i.operand.isEncodable = true) (base : Nat) (suf : Bytes) :
    decodeFrom arch base index is.length ⟨base + offset, code ++ suf⟩ =
        .ok (is.zip offsets, ⟨base + offset + code.length, suf⟩) ∧
      offsets.length = is.length ∧ is.length ≤ code.length := by
  induction is generalizing index offset code offsets with
  | nil => cases h; exact ⟨rfl, rfl, Nat.le_refl 0⟩
  | cons i is ih =>
    rw [encodeFrom] at h
    split at h
    · cases h
    · next bs hbs =>
      split at h
      · cases h
      · next code' offsets' hrest =>
        cases h
        obtain ⟨hread, hpos⟩ := reads hbs (his i List.mem_cons_self)
        obtain ⟨ih, hlen, hle⟩ := ih hrest (fun j hj => his j (List.mem_cons_of_mem i hj))
        have hnext : base + (offset + bs.length) = base + offset + bs.length := by omega
        rw [hnext] at ih
        refine ⟨?_, by simp [hlen], by simp only [List.length_cons, List.length_append]; omega⟩
        rw [List.append_assoc, List.length_cons, decodeFrom, hread]
        dsimp only
        rw [ih]
        simp only [List.zip_cons_cons, List.length_append, Nat.add_sub_cancel_left, Nat.add_assoc]

/-- A whole stream is read back with the offsets from its start. -/
theorem reads_stream {is : List Instruction} {code : Bytes} {offsets : List Nat}
    (h : encodeAll arch is = .ok (code, offsets)) (his : ∀ i ∈ is, i.operand.isEncodable = true) :
    Reads (decodeAll arch is.length) code (is.zip offsets) ∧
      offsets.length = is.length ∧ is.length ≤ code.length := by
  refine ⟨fun pos suf => ?_, (decodeFrom_encodeFrom h his 0 []).2⟩
  exact (decodeFrom_encodeFrom h his pos suf).1

end Instruction

end RegisterMachine
