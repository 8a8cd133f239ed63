import RegisterMachine.Proofs.Assembly.InstructionText

/-!
# Lines with deeply nested literals

The assembler takes literals that nest as deeply as a line has room for: `Assembly.nestedLine n`
loads `n` arrays inside each other, and `Assembly.assemble_nestedLine` assembles it for every `n`
that leaves the line below its limit. The line is the text of an instruction
(`Assembly.text_nestedLine`), which holds no semicolon, so it is read back. Beyond the depth that
the reader of program files allows, the file of such a program is refused
(`Assembly.nestedProgram_refused`).
-/

namespace RegisterMachine

/-! ## Nested arrays as literals -/

/-- Void inside `n` arrays. -/
def nestedValue : Nat → Value
  | 0 => .void
  | n + 1 => .array [nestedValue n]

/-- The literal of `nestedValue n`. -/
def nestedText : Nat → Bytes
  | 0 => utf8 "(void)"
  | n + 1 => 40 :: (utf8 "array" ++ 41 :: 91 :: (nestedText n ++ [93]))

/-- Nesting `n` arrays makes a value of depth `n`. -/
theorem depth_nestedValue (n : Nat) : (nestedValue n).depth = n := by
  induction n with
  | zero => rfl
  | succ n ih => rw [nestedValue, Value.depth, Value.depthAll, Value.depthAll, ih, Nat.max_zero]

/-- How long the text of nested arrays is. -/
theorem length_nestedText (n : Nat) : (nestedText n).length = 9 * n + 6 := by
  induction n with
  | zero => rfl
  | succ n ih =>
    have harray : (utf8 "array").length = 5 := rfl
    simp only [nestedText, List.length_cons, List.length_append, List.length_nil, ih, harray]
    omega

/-- Every array takes its tag and its length. -/
theorem length_payload_nestedValue (n : Nat) : (nestedValue n).payload.length ≤ 5 * n := by
  induction n with
  | zero => exact Nat.le_refl 0
  | succ n ih =>
    rw [nestedValue, Value.payload, Value.toBinaryAll, Value.toBinaryAll]
    simp only [List.length_append, Bytes.length_littleEndian, List.length_cons, List.length_nil]
    omega

/-- The text of nested arrays is what it was meant to be. -/
theorem literal_nestedValue (n : Nat) : (nestedValue n).literal = nestedText n := by
  induction n with
  | zero => rfl
  | succ n ih =>
    rw [nestedValue, Value.literal_array, List.map_singleton, Bytes.join_singleton, ih, nestedText]

/-- Nested arrays are readable, however deep. -/
theorem isReadable_nestedValue (n : Nat) : (nestedValue n).isReadable = true := by
  induction n with
  | zero => rfl
  | succ n ih => exact Value.isReadableAll_iff.2 (List.forall_mem_singleton.2 ih)

/-- There is no semicolon in the text of nested arrays. -/
theorem not_mem_nestedText (n : Nat) : 59 ∉ nestedText n := by
  induction n with
  | zero => decide
  | succ n ih =>
    have harray : (59 : UInt8) ∉ utf8 "array" := by decide
    simp [nestedText, ih, harray]

/-! ## Nested arrays in a source -/

namespace Assembly

/-- A line that loads `nestedValue n`. -/
def nestedLine (n : Nat) : Bytes := utf8 "LDA " ++ 35 :: nestedText n

/-- The program of `nestedLine n`. -/
def nestedProgram (n : Nat) : Program where
  arch := .b64
  mainExists := false
  entry := ⟨0, 0, 0⟩
  instructions := #[⟨.load .a, .immediate (nestedValue n)⟩]
  offsets := #[0]
  natives := []

variable {n : Nat}

/-- The line is the text of the instruction. -/
theorem text_nestedLine :
    (⟨.load .a, .immediate (nestedValue n)⟩ : Instruction).text = nestedLine n := by
  have htext : (⟨.load .a, .immediate (nestedValue n)⟩ : Instruction).text =
      utf8 "LDA" ++ utf8 " " ++ 35 :: (nestedValue n).literal := rfl
  rw [htext, literal_nestedValue]
  rfl

/-- The first pass finds one instruction. -/
theorem outline_nestedLine (h : 9 * n + 11 < Text.lineLimit) :
    Outline.ofSource (nestedLine n ++ [10]) =
      .ok { items := [⟨1, .load .a, .text (35 :: nestedText n)⟩], count := 1 } := by
  have hreadable : (Operand.immediate (nestedValue n)).isReadable = true := isReadable_nestedValue n
  have hlen : (nestedLine n).length = 9 * n + 11 := by
    have hline : (nestedLine n).length = (nestedText n).length + 5 := rfl
    rw [hline, length_nestedText]
  have hcontrol : ∀ b ∈ nestedLine n, 32 ≤ b.toNat := by
    rw [← text_nestedLine]
    exact fun b hb => Instruction.le_toNat_of_mem_text hreadable hb
  have hnewline : (10 : UInt8) ∉ nestedLine n := fun hb => absurd (hcontrol 10 hb) (by decide)
  have hreturn : (13 : UInt8) ∉ nestedLine n := fun hb => absurd (hcontrol 13 hb) (by decide)
  have hlines : Text.lines Text.lineLimit (nestedLine n ++ [10]) = ⟨[nestedLine n], false⟩ := by
    rw [Text.lines_append_newline hnewline (hlen ▸ h), Text.chomp_eq_self hreturn]
    rfl
  have hsemicolon : (59 : UInt8) ∉ nestedLine n := by
    have hname : (59 : UInt8) ∉ utf8 "LDA " := by decide
    simp [nestedLine, not_mem_nestedText, hname]
  have hstrip : stripComment (nestedLine n) = utf8 "LDA" ++ 32 :: 35 :: nestedText n := by
    rw [stripComment, beforeComment_of_not_mem hsemicolon, ← text_nestedLine,
      Instruction.trim_text hreadable, text_nestedLine]
    rfl
  have htrim := (Operand.trim_text hreadable).1
  rw [Operand.text_immediate, literal_nestedValue] at htrim
  have houtline := Outline.ofSource_operand (m := .load .a) hlines hstrip
  rwa [htrim] at houtline

/-- The instruction of the line can be written. -/
theorem exists_encodeAll_nested (h : 9 * n + 11 < Text.lineLimit) :
    ∃ code, Instruction.encodeAll .b64 [⟨.load .a, .immediate (nestedValue n)⟩] =
      .ok (code, [0]) := by
  have hpayload := length_payload_nestedValue n
  have hmax : Arch.b64.maxAddress = 2 ^ 64 - 1 := by decide
  have hopcode : (Opcode.encode? (.load .a) .immediate).isSome = true := by decide
  obtain ⟨op, hop⟩ := Option.isSome_iff_exists.1 hopcode
  obtain ⟨bs, hbs⟩ : ∃ bs, (Operand.immediate (nestedValue n)).encode .b64 = .ok bs := by
    rw [Text.lineLimit] at h
    exact ⟨_, Except.bind_eq_ok.2 ⟨_, if_neg (by omega), rfl⟩⟩
  have hencode : Instruction.encode .b64 ⟨.load .a, .immediate (nestedValue n)⟩ =
      .ok (op :: bs) := by
    simp only [Instruction.encode, Instruction.mode, Operand.mode, hop, hbs]
  refine ⟨op :: bs ++ [], ?_⟩
  rw [Instruction.encodeAll, Instruction.encodeFrom, hencode]
  rfl

/-- **The assembler takes as many arrays inside each other as a line has room for.** -/
theorem assemble_nestedLine (h : 9 * n + 11 < Text.lineLimit) :
    assemble (nestedLine n ++ [10]) .b64 = .ok (nestedProgram n) := by
  have hread : readOperand [] (35 :: nestedText n) = .ok (.immediate (nestedValue n)) := by
    have hreadable : (Operand.immediate (nestedValue n)).isReadable = true :=
      isReadable_nestedValue n
    rw [← literal_nestedValue]
    exact readOperand_text hreadable
  have hinstruction : Item.instruction [] ⟨1, .load .a, .text (35 :: nestedText n)⟩ =
      .ok ⟨.load .a, .immediate (nestedValue n)⟩ :=
    instruction_eq_ok_iff.2 ⟨rfl, hread, rfl⟩
  obtain ⟨code, hcode⟩ := exists_encodeAll_nested h
  have hbuild : Program.build .b64 none [⟨.load .a, .immediate (nestedValue n)⟩] [] =
      .ok (nestedProgram n) := by
    rw [Program.build, hcode]
    rfl
  refine Except.bind_eq_ok.2 ⟨_, outline_nestedLine h, ?_⟩
  refine Except.bind_eq_ok.2 ⟨_, Except.mapM_eq_ok.2 (.cons hinstruction .nil), ?_⟩
  refine Except.bind_eq_ok.2 ⟨[], rfl, ?_⟩
  exact Except.mapError_eq_ok.2 hbuild

/-- **The file of a program is refused when its arrays nest too deeply**, though the assembler and
the writer take it. -/
theorem nestedProgram_refused (hdeep : Value.maxDepth < n) (h : 9 * n + 11 < Text.lineLimit) :
    ∃ data, (nestedProgram n).serialize = .ok data ∧
      Program.deserialize data ≠ .ok (nestedProgram n) := by
  obtain ⟨code, hcode⟩ := exists_encodeAll_nested h
  have hwritten : Instruction.encodeAll (nestedProgram n).arch
      (nestedProgram n).instructions.toList = .ok (code, [0]) := hcode
  obtain ⟨bss, hnumbers⟩ : ∃ bss, (nestedProgram n).headNumbers.mapM
      (nestedProgram n).arch.encodeAddress = .ok bss := ⟨_, rfl⟩
  obtain ⟨data, hdata⟩ : ∃ data, (nestedProgram n).serialize = .ok data := by
    rw [Program.serialize, hnumbers, hwritten]
    exact ⟨_, rfl⟩
  refine ⟨data, hdata, fun hread => ?_⟩
  have hmem : ⟨.load .a, .immediate (nestedValue n)⟩ ∈ (nestedProgram n).instructions := by
    simp [nestedProgram]
  have hdepth := Program.depth_le_of_deserialize hread _ hmem
  rw [Operand.depth, depth_nestedValue] at hdepth
  omega

end Assembly

end RegisterMachine
