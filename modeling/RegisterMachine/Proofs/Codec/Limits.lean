import RegisterMachine.Proofs.Codec.ProgramFile

/-!
# What the reader of program files refuses

The reader has limits that the writer has not: arrays nest at most `Value.maxDepth` deep, the
trailer has at most `Cbor.maxItems` native calls, and its size has 32 bits. Whatever is read nests
within the limit (`Value.depth_le_of_decodeLevels`, `Operand.depth_le_of_decode`,
`Program.depth_le_of_deserialize`), and a trailer beyond the others is not read at all
(`Program.readTail_eq_ok`). So a program whose parts are in order (`Program.Composed`) is read back
from its file exactly when it stays within the limits: `Program.deserialize_serialize_iff`.
-/

namespace RegisterMachine

open Bytes (littleEndian ofLittleEndian)

/-! ## How deeply arrays nest -/

namespace Value

mutual

/-- How deeply arrays nest in a value. -/
def depth : Value → Nat
  | array es => depthAll es + 1
  | _ => 0

/-- How deeply arrays nest in a list of values. -/
def depthAll : List Value → Nat
  | [] => 0
  | v :: vs => max (depth v) (depthAll vs)

end

mutual

/-- The strings and arrays inside a value have lengths that fit 32 bits. -/
def lengthsFit : Value → Bool
  | string s => s.length < 2 ^ 32
  | array es => es.length < 2 ^ 32 && lengthsFitAll es
  | _ => true

/-- `lengthsFit` of all values in a list. -/
def lengthsFitAll : List Value → Bool
  | [] => true
  | v :: vs => lengthsFit v && lengthsFitAll vs

end

/-- A list is at most as deep as a bound exactly if all its values are. -/
theorem depthAll_le_iff {n : Nat} {vs : List Value} : depthAll vs ≤ n ↔ ∀ v ∈ vs, v.depth ≤ n := by
  induction vs with
  | nil => simp [depthAll]
  | cons v vs ih => rw [depthAll, Nat.max_le, ih, List.forall_mem_cons]

/-- The lengths in a list fit exactly if they do in all its values. -/
theorem lengthsFitAll_iff {vs : List Value} :
    lengthsFitAll vs = true ↔ ∀ v ∈ vs, v.lengthsFit = true := by
  induction vs with
  | nil => simp [lengthsFitAll]
  | cons v vs ih => rw [lengthsFitAll, Bool.and_eq_true, ih, List.forall_mem_cons]

/-- A value can be read back when it nests within the limit and its lengths fit. -/
theorem isEncodable_iff {levels : Nat} {v : Value} :
    v.isEncodable levels = true ↔ v.depth ≤ levels ∧ v.lengthsFit = true := by
  induction levels generalizing v with
  | zero => cases v <;> simp [isEncodable, depth, lengthsFit]
  | succ levels ih =>
    cases v with
    | array es =>
      rw [isEncodable, depth, lengthsFit, Bool.and_eq_true, Bool.and_eq_true, List.all_eq_true,
        Nat.add_le_add_iff_right, depthAll_le_iff, lengthsFitAll_iff]
      constructor
      · rintro ⟨hlen, hes⟩
        exact ⟨fun e he => (ih.1 (hes e he)).1, hlen, fun e he => (ih.1 (hes e he)).2⟩
      · rintro ⟨hdepth, hlen, hes⟩
        exact ⟨hlen, fun e he => ih.2 ⟨hdepth e he, hes e he⟩⟩
    | _ => simp [isEncodable, depth, lengthsFit]

/-! ## Values that are read -/

/-- A payload of a kind other than an array holds no array. -/
theorem depth_of_ofScalarPayload {k : Kind} {bs : Bytes} {v : Value}
    (h : ofScalarPayload k bs = .ok v) : v.depth = 0 := by
  cases k with
  | array => cases h
  | int =>
    cases bs with
    | nil => cases h
    | cons b digits =>
      simp only [ofScalarPayload] at h
      split at h
      · cases h
      · split at h
        · cases h; rfl
        · cases h
  | bool =>
    simp only [ofScalarPayload] at h
    split at h
    · split at h
      · cases h
      · cases h; rfl
    · cases h
  | _ =>
    simp only [ofScalarPayload] at h
    split at h
    · cases h; try rfl
    · cases h; try rfl

end Value

/-- Whatever is in a list that was read one by one was read. -/
theorem exists_of_mem_readMany {α : Type} {read : Cursor → ReadResult α} {n : Nat} {c c' : Cursor}
    {as : List α} (h : readMany read n c = .ok (as, c')) :
    ∀ a ∈ as, ∃ c₁ c₂, read c₁ = .ok (a, c₂) := by
  induction n generalizing c as with
  | zero => cases h; exact fun _ ha => nomatch ha
  | succ n ih =>
    rw [readMany] at h
    cases hread : read c with
    | error e => rw [hread] at h; cases h
    | ok ac =>
      obtain ⟨a, c₁⟩ := ac
      rw [hread] at h
      dsimp only at h
      cases hmany : readMany read n c₁ with
      | error e => rw [hmany] at h; cases h
      | ok asc =>
        rw [hmany] at h
        cases h
        intro a' ha'
        rcases List.mem_cons.1 ha' with rfl | ha'
        · exact ⟨c, c₁, hread⟩
        · exact ih hmany a' ha'

namespace Value

/-- An array nests one deeper than its elements. -/
theorem depth_le_of_decodeArrayWith {n : Nat} {element : Cursor → ReadResult Value} {c c' : Cursor}
    {v : Value} (helement : ∀ c v c', element c = .ok (v, c') → v.depth ≤ n)
    (h : decodeArrayWith (some element) c = .ok (v, c')) : v.depth ≤ n + 1 := by
  rw [decodeArrayWith] at h
  dsimp only at h
  split at h
  · cases h
  · split at h
    · cases h
    · obtain ⟨⟨es, c₁⟩, hmany, heq⟩ := Except.map_eq_ok.1 h
      cases heq
      rw [depth, Nat.add_le_add_iff_right, depthAll_le_iff]
      intro e he
      obtain ⟨c₂, c₃, hread⟩ := exists_of_mem_readMany hmany e he
      exact helement c₂ e c₃ hread

/-- A tagged value that is read comes from the payload of a scalar or of an array. -/
theorem decodeTagged_cases {element : Option (Cursor → ReadResult Value)} {c c' : Cursor}
    {v : Value} (h : decodeTagged element c = .ok (v, c')) :
    (∃ k p, ofScalarPayload k p = .ok v) ∨ ∃ c₁, decodeArrayWith element c₁ = .ok (v, c') := by
  unfold decodeTagged at h
  split at h
  · cases h
  · dsimp only at h
    split at h
    · cases h
    · exact .inr ⟨_, h⟩
    · split at h
      · cases h
      · split at h
        · cases h
        · split at h
          · cases h
          · next hv =>
            cases h
            exact .inl ⟨_, _, hv⟩

/-- **A value that is read nests within the levels of its reader.** -/
theorem depth_le_of_decodeLevels {levels : Nat} {c c' : Cursor} {v : Value}
    (h : decodeLevels levels c = .ok (v, c')) : v.depth ≤ levels := by
  induction levels generalizing c v c' with
  | zero =>
    obtain ⟨k, p, hv⟩ | ⟨c₁, h⟩ := decodeTagged_cases h
    · exact Nat.le_of_eq (depth_of_ofScalarPayload hv)
    · cases h
  | succ levels ih =>
    obtain ⟨k, p, hv⟩ | ⟨c₁, h⟩ := decodeTagged_cases h
    · exact Nat.le_trans (Nat.le_of_eq (depth_of_ofScalarPayload hv)) (Nat.zero_le _)
    · exact depth_le_of_decodeArrayWith (fun c v c' => ih) h

/-- No value that is read from a payload is too deep. -/
theorem depth_le_of_ofPayload {k : Kind} {bs : Bytes} {v : Value} (h : ofPayload k bs = .ok v) :
    v.depth ≤ maxDepth := by
  unfold ofPayload at h
  split at h
  · split at h
    · cases h
    · split at h
      · cases h
      · next hread =>
        split at h
        · cases h
          exact depth_le_of_decodeArrayWith (fun _ _ _ => depth_le_of_decodeLevels) hread
        · cases h
  · exact Nat.le_trans (Nat.le_of_eq (depth_of_ofScalarPayload h)) (Nat.zero_le _)

end Value

/-! ## Instructions that are read -/

namespace Operand

/-- How deeply arrays nest in an operand. -/
def depth : Operand → Nat
  | immediate v => v.depth
  | _ => 0

/-- The strings and arrays inside an operand have lengths that fit 32 bits. -/
def lengthsFit : Operand → Bool
  | immediate v => v.lengthsFit
  | _ => true

/-- An operand can be written and read exactly if it is not too deep and its lengths fit. -/
theorem isEncodable_iff {op : Operand} :
    op.isEncodable = true ↔ op.depth ≤ Value.maxDepth ∧ op.lengthsFit = true := by
  cases op with
  | immediate v => exact Value.isEncodable_iff
  | _ => simp [isEncodable, depth, lengthsFit]

variable {arch : Arch} {c c' : Cursor}

/-- No immediate operand that is read is too deep. -/
theorem depth_le_of_decodeImmediate {v : Value} (h : decodeImmediate arch c = .ok (v, c')) :
    v.depth ≤ Value.maxDepth := by
  unfold decodeImmediate at h
  split at h
  · cases h
  · split at h
    · cases h
    · split at h
      · cases h
      · split at h
        · cases h
        · split at h
          · cases h
          · next hv =>
            cases h
            exact Value.depth_le_of_ofPayload hv

/-- A reader of one address gives no nested value. -/
theorem depth_of_decodeOne {make : UInt64 → Operand} {op : Operand}
    (hmake : ∀ a, (make a).depth = 0) (h : decodeOne arch make c = .ok (op, c')) :
    op.depth = 0 := by
  unfold decodeOne at h
  split at h
  · cases h
  · cases h; exact hmake _

/-- A reader of two addresses gives no nested value. -/
theorem depth_of_decodeTwo {make : UInt64 → UInt64 → Operand} {op : Operand}
    (hmake : ∀ a i, (make a i).depth = 0) (h : decodeTwo arch make c = .ok (op, c')) :
    op.depth = 0 := by
  unfold decodeTwo at h
  split at h
  · cases h
  · split at h
    · cases h
    · cases h; exact hmake _ _

/-- **An operand that is read nests within the limit.** -/
theorem depth_le_of_decode {mode : Mode} {op : Operand} (h : decode arch mode c = .ok (op, c')) :
    op.depth ≤ Value.maxDepth := by
  cases mode with
  | implicit | indirect r => cases h; exact Nat.zero_le _
  | immediate =>
    obtain ⟨⟨v, c₁⟩, hv, heq⟩ := Except.map_eq_ok.1 h
    cases heq
    exact depth_le_of_decodeImmediate hv
  | absolute | absoluteStatic =>
    exact Nat.le_trans (Nat.le_of_eq (depth_of_decodeOne (fun _ => rfl) h)) (Nat.zero_le _)
  | absoluteIndex | absoluteProperty =>
    exact Nat.le_trans (Nat.le_of_eq (depth_of_decodeTwo (fun _ _ => rfl) h)) (Nat.zero_le _)

end Operand

namespace Instruction

variable {arch : Arch} {c c' : Cursor}

/-- No instruction that is read has an operand that is too deep. -/
theorem depth_le_of_decode {i : Instruction} (h : decode arch c = .ok (i, c')) :
    i.operand.depth ≤ Value.maxDepth := by
  unfold decode at h
  split at h
  · cases h
  · split at h
    · cases h
    · split at h
      · cases h
      · next hop =>
        cases h
        exact Operand.depth_le_of_decode hop

/-- **The instructions of a stream nest within the limit.** -/
theorem depth_le_of_decodeFrom {base index count : Nat} {is : List (Instruction × Nat)}
    (h : decodeFrom arch base index count c = .ok (is, c')) :
    ∀ i ∈ is, i.1.operand.depth ≤ Value.maxDepth := by
  induction count generalizing index c is with
  | zero => cases h; exact fun _ hi => nomatch hi
  | succ count ih =>
    unfold decodeFrom at h
    split at h
    · cases h
    · next hfirst =>
      split at h
      · cases h
      · next hrest =>
        cases h
        intro i hi
        rcases List.mem_cons.1 hi with rfl | hi
        · exact depth_le_of_decode hfirst
        · exact ih hrest i hi

end Instruction

/-! ## The trailer -/

/-- An array with more items than the reader accepts is not read. -/
theorem Cbor.decode?_encode_array {xs : List Cbor} (hmany : maxItems < xs.length)
    (hlen : xs.length < 2 ^ 64) : decode? (array xs).encode = none := by
  obtain ⟨info, hhead⟩ := readHead?_head (encodeAll xs) (by decide : 4 < 7) hlen
  have hitems (item : Bytes → Option (Cbor × Bytes)) :
      readElements? item 1 (.value xs.length) (encodeAll xs) = none := if_pos (.inl hmany)
  have hread : readLevels? maxLevels (array xs).encode = none := by
    rw [readLevels?, maxLevels, readers, encode]
    dsimp only
    rw [readItem?, hhead]
    change (readElements? _ 1 (.value xs.length) (encodeAll xs)).bind _ = none
    rw [hitems]
    rfl
  rw [decode?, hread]

namespace Program

/-- **Only a trailer within the limits is read back**: its size fits 32 bits, for it is cut off
otherwise and bytes are left over, and it has no more calls than the reader accepts. -/
theorem readTail_eq_ok {ns ms : List NativeCall} {pos : Nat}
    (h : readTail ⟨pos, littleEndian 4 (trailer ns).length ++ trailer ns⟩ = .ok ms) :
    (trailer ns).length < 2 ^ 32 ∧ ns.length ≤ Cbor.maxItems := by
  have hsize : (trailer ns).length < 2 ^ 32 := by
    refine Nat.lt_of_not_le fun hlarge => ?_
    have hwrap : (trailer ns).length % 256 ^ 4 < (trailer ns).length :=
      Nat.lt_of_lt_of_le (Nat.mod_lt _ (by decide)) hlarge
    have hcut := Cursor.take?_append ((trailer ns).take ((trailer ns).length % 256 ^ 4))
      (List.length_take_of_le (Nat.le_of_lt hwrap)) (pos + 4)
      ((trailer ns).drop ((trailer ns).length % 256 ^ 4))
    rw [List.take_append_drop] at hcut
    rw [readTail, Cursor.take?_append _ (Bytes.length_littleEndian _ _)] at h
    dsimp only at h
    rw [Bytes.ofLittleEndian_littleEndian, hcut] at h
    obtain ⟨_, _, h⟩ := Except.bind_eq_ok.1 h
    have hleft : ((trailer ns).drop ((trailer ns).length % 256 ^ 4)).isEmpty = false := by
      rw [List.isEmpty_eq_false_iff, ne_eq, List.drop_eq_nil_iff]
      exact Nat.not_le_of_lt hwrap
    rw [hleft] at h
    cases h
  refine ⟨hsize, Nat.le_of_not_lt fun hmany => ?_⟩
  have hitems := Cbor.length_le_encodeAll (ns.map nativeItem)
  have hlen : (ns.map nativeItem).length < 2 ^ 64 := by
    rw [trailer, Cbor.encode, List.length_append] at hsize
    omega
  have htake := Cursor.take?_append (trailer ns) rfl (pos + 4) []
  rw [List.append_nil] at htake
  rw [readTail, Cursor.take?_append _ (Bytes.length_littleEndian _ _)] at h
  dsimp only at h
  rw [ofLittleEndian_of_lt hsize, htake] at h
  obtain ⟨_, hread, _⟩ := Except.bind_eq_ok.1 h
  rw [readTrailer, trailer, Cbor.decode?_encode_array (by rwa [List.length_map]) hlen] at hread
  cases hread

/-! ## Programs -/

variable {p : Program}

/-- The instructions that are read after the fixed head nest within the limit. -/
theorem depth_le_of_readBody {arch : Arch} {main : Bool} {c : Cursor}
    (h : readBody arch main c = .ok p) :
    ∀ i ∈ p.instructions, i.operand.depth ≤ Value.maxDepth := by
  unfold readBody at h
  obtain ⟨⟨numbers, c₁⟩, _, h⟩ := Except.bind_eq_ok.1 h
  dsimp only at h
  split at h
  · cases h
  obtain ⟨⟨code, c₂⟩, hcode, h⟩ := Except.bind_eq_ok.1 h
  obtain ⟨natives, _, h⟩ := Except.bind_eq_ok.1 h
  dsimp only at h
  split at h
  · cases h
  · cases h
    intro i hi
    obtain ⟨ic, hmem, rfl⟩ := List.mem_map.1 (List.mem_toArray.1 hi)
    exact Instruction.depth_le_of_decodeFrom (Except.mapError_eq_ok.1 hcode) ic hmem

/-- **The instructions of a program that is read nest within the limit.** -/
theorem depth_le_of_deserialize {data : Bytes} (h : deserialize data = .ok p) :
    ∀ i ∈ p.instructions, i.operand.depth ≤ Value.maxDepth := by
  unfold deserialize at h
  split at h
  · dsimp only at h
    split at h
    · cases h
    split at h
    · cases h
    split at h
    · cases h
    · exact depth_le_of_readBody h
  · cases h

/-- A program whose parts are in order: it is valid, the lengths inside its immediate values fit 32
bits, its offsets are those of its instructions, its native calls are in order and have names in
UTF-8. -/
structure Composed (p : Program) : Prop where
  valid : p.validate = .ok ()
  lengths : ∀ i ∈ p.instructions, i.operand.lengthsFit = true
  offsets : ∃ code, Instruction.encodeAll p.arch p.instructions.toList =
    .ok (code, p.offsets.toList)
  natives : p.natives.Pairwise (·.site < ·.site)
  names : ∀ n ∈ p.natives, Text.isUtf8 n.name = true ∧ Text.isUtf8 n.module = true

/-- A program within the limits of the reader. -/
structure WithinLimits (p : Program) : Prop where
  depth : ∀ i ∈ p.instructions, i.operand.depth ≤ Value.maxDepth
  calls : p.natives.length ≤ Cbor.maxItems
  trailer : (trailer p.natives).length < 2 ^ 32

/-- A composed program within the limits can be written and read back. -/
theorem Composed.storable (hp : p.Composed) (hl : p.WithinLimits) : p.Storable where
  valid := hp.valid
  immediates i hi := Operand.isEncodable_iff.2 ⟨hl.depth i hi, hp.lengths i hi⟩
  offsets := hp.offsets
  natives := hp.natives
  names := hp.names
  trailer := hl.trailer

/-- **A composed program is read back from its file exactly when it is within the limits.** -/
theorem deserialize_serialize_iff {data : Bytes} (hp : p.Composed) (hs : p.serialize = .ok data) :
    deserialize data = .ok p ↔ p.WithinLimits := by
  obtain ⟨harch, bss, code, offsets, hnumbers, hcode, rfl⟩ := serialize_eq_ok hs
  obtain ⟨_, hoffsets⟩ := hp.offsets
  rw [hcode] at hoffsets
  cases hoffsets
  rw [deserialize_head harch]
  constructor
  · intro h
    have hdepth := depth_le_of_readBody h
    have himm : ∀ i ∈ p.instructions, i.operand.isEncodable = true := fun i hi =>
      Operand.isEncodable_iff.2 ⟨hdepth i hi, hp.lengths i hi⟩
    -- The instructions are read, so the trailer must have been.
    obtain ⟨pos, finish, hbody, _⟩ := readBody_eq_bind hp.valid himm hp.natives hnumbers hcode 8 _
    rw [hbody] at h
    obtain ⟨ns, htail, _⟩ := Except.bind_eq_ok.1 h
    obtain ⟨hsize, hcalls⟩ := readTail_eq_ok htail
    exact ⟨hdepth, hcalls, hsize⟩
  · intro hl
    have hread := readTrailer_trailer hl.calls hl.trailer hp.names
    exact readBody_written (hp.storable hl) hread hnumbers hcode 8

end Program

end RegisterMachine
