import RegisterMachine.Proofs.Assembly.Source
import RegisterMachine.Proofs.Codec.AcceptedFile

/-!
# Sources of one instruction

A source of one line that holds the name of a mnemonic, perhaps with a space and an operand behind
it, has one instruction in its outline (`Assembly.Outline.ofSource_name`,
`Assembly.Outline.ofSource_operand`): the line is no label, since names hold no spaces, and no name
of a mnemonic is a directive. What is assembled from such a source is that one instruction, when its
operand is read, legal and fits the architecture (`Assembly.exists_assemble_line_iff`).
-/

namespace RegisterMachine

/-! ## Names of mnemonics -/

namespace Mnemonic

/-- A mnemonic is known by its name. -/
theorem parse?_name (m : Mnemonic) : parse? (utf8 m.name) = some m := by
  have h : ∀ m ∈ all, parse? (utf8 m.name) = some m := by decide +kernel
  exact h m m.mem_all

/-- Names of mnemonics are made of digits and upper-case letters. -/
theorem toNat_of_mem_name {m : Mnemonic} {b : UInt8} (hb : b ∈ utf8 m.name) :
    48 ≤ b.toNat ∧ b.toNat ≤ 57 ∨ 65 ≤ b.toNat ∧ b.toNat ≤ 90 := by
  have h : ∀ m ∈ all, ∀ b ∈ utf8 m.name,
      48 ≤ b.toNat ∧ b.toNat ≤ 57 ∨ 65 ≤ b.toNat ∧ b.toNat ≤ 90 := by
    decide +kernel
  exact h m m.mem_all b hb

/-- No mnemonic has an empty name. -/
theorem name_ne_nil (m : Mnemonic) : utf8 m.name ≠ [] := by
  have h : ∀ m ∈ all, utf8 m.name ≠ [] := by decide +kernel
  exact h m m.mem_all

/-- The names of mnemonics have visible letters only. -/
theorem visible_of_mem_name {m : Mnemonic} : ∀ b ∈ utf8 m.name, Text.isVisible b = true := by
  intro b hb
  have := toNat_of_mem_name hb
  exact Text.isVisible_iff.2 (by omega)

/-- A byte that is no digit or upper-case letter is in no name. -/
theorem not_mem_name {m : Mnemonic} {b : UInt8} (hb : b.toNat < 48 ∨ 57 < b.toNat ∧ b.toNat < 65) :
    b ∉ utf8 m.name := by
  intro hmem
  have := toNat_of_mem_name hmem
  omega

/-- No name is a directive. -/
theorem head?_name (m : Mnemonic) : (utf8 m.name).head? ≠ some 46 := fun h =>
  not_mem_name (.inl (by decide)) (List.mem_of_head? h)

end Mnemonic

namespace Assembly

/-! ## Lines -/

/-- There are no spaces in names of labels. -/
theorem isName_append_space (s t : Bytes) : isName (s ++ 32 :: t) = false := by
  have hspace : (isName.starts (.scalar (32 : UInt8).toNat) ||
      isName.continues (.scalar (32 : UInt8).toNat)) = false :=
    rfl
  rw [isName, Text.glyphs_append_ascii (by decide)]
  cases Text.glyphs s with
  | nil =>
    rw [List.nil_append]
    dsimp only
    rw [(Bool.or_eq_false_iff.1 hspace).1, Bool.false_and]
  | cons g gs =>
    rw [List.cons_append]
    dsimp only
    rw [List.all_append, List.all_cons, hspace, Bool.false_and, Bool.and_false, Bool.and_false]

/-- A line with a space is no label. -/
theorem labelOf?_append_space (s : Bytes) {t : Bytes} (ht : t ≠ []) :
    labelOf? (s ++ 32 :: t) = none := by
  have hlast : (s ++ 32 :: t).dropLast = s ++ 32 :: t.dropLast := by
    rw [List.dropLast_append_of_ne_nil (List.cons_ne_nil _ _), List.dropLast_cons_of_ne_nil ht]
  rw [labelOf?, hlast, isName_append_space, if_neg fun h => Bool.false_ne_true h.2]

namespace Outline

variable {m : Mnemonic}

/-- A line that starts with the name of a mnemonic is an instruction. -/
theorem addLine_name {o : Outline} {line : Nat} {text : Bytes} {args : List Bytes}
    (hlabel : labelOf? text = none) (hwords : Text.words text = utf8 m.name :: args) :
    o.addLine line text = .ok { o with
      items := ⟨line, m, .text (Text.headAndTail text).2⟩ :: o.items
      count := o.count + 1 } := by
  have hdirective : ∀ s : Bytes, s.head? = some 46 → utf8 m.name ≠ s := fun s hs heq =>
    m.head?_name (heq ▸ hs)
  rw [addLine, hlabel, hwords]
  dsimp only
  rw [if_neg (hdirective _ rfl), if_neg (hdirective _ rfl), if_neg (hdirective _ rfl),
    if_neg (hdirective _ rfl), if_neg m.head?_name, m.parse?_name]

/-- The outline of a source of one line. -/
theorem ofSource_line {src line text : Bytes} {o : Outline}
    (hlines : Text.lines Text.lineLimit src = ⟨[line], false⟩) (hstrip : stripComment line = text)
    (hne : text ≠ []) (hadd : addLine {} 1 text = .ok o) (hopened : o.opened = []) :
    ofSource src = .ok o := by
  have hlines' : addLines {} 1 [line] = .ok o := by
    rw [addLines, hstrip, if_neg (by rwa [List.isEmpty_iff]), hadd]
    rfl
  rw [ofSource, hlines]
  dsimp only
  rw [hlines']
  dsimp only
  rw [if_neg Bool.false_ne_true, hopened]

/-- A source of one line with a mnemonic alone. -/
theorem ofSource_name {src line : Bytes} (hlines : Text.lines Text.lineLimit src = ⟨[line], false⟩)
    (hstrip : stripComment line = utf8 m.name) :
    ofSource src = .ok { items := [⟨1, m, .text []⟩], count := 1 } := by
  have hlabel : labelOf? (utf8 m.name) = none :=
    if_neg fun h => Mnemonic.not_mem_name (.inr (by decide)) (List.mem_of_getLast? h.1)
  have hadd : addLine {} 1 (utf8 m.name) = .ok _ :=
    addLine_name hlabel (Text.words_of_visible m.name_ne_nil Mnemonic.visible_of_mem_name)
  rw [Text.headAndTail_of_visible Mnemonic.visible_of_mem_name] at hadd
  exact ofSource_line hlines hstrip m.name_ne_nil hadd rfl

/-- A source of one line with a mnemonic and an operand. -/
theorem ofSource_operand {src line : Bytes} {c : UInt8} {rest : Bytes}
    (hlines : Text.lines Text.lineLimit src = ⟨[line], false⟩)
    (hstrip : stripComment line = utf8 m.name ++ 32 :: c :: rest) :
    ofSource src = .ok { items := [⟨1, m, .text (Text.trim (c :: rest))⟩], count := 1 } := by
  have hlabel := labelOf?_append_space (utf8 m.name) (List.cons_ne_nil c rest)
  have hadd : addLine {} 1 (utf8 m.name ++ 32 :: c :: rest) = .ok _ := addLine_name hlabel
    (Text.words_append_space m.name_ne_nil Mnemonic.visible_of_mem_name (c :: rest))
  rw [Text.headAndTail_append_space Mnemonic.visible_of_mem_name] at hadd
  exact ofSource_line hlines hstrip (by simp) hadd rfl

end Outline

/-! ## Programs of one instruction -/

variable {arch : Arch} {i : Instruction}

/-- A single instruction is a program when it is legal and its operand fits. -/
theorem exists_build_iff : (∃ p, Program.build arch none [i] [] = .ok p ∧ p.instructions = #[i]) ↔
    i.isLegal = true ∧ i.operand.fits arch = true := by
  rw [← Instruction.exists_encode_iff]
  constructor
  · rintro ⟨p, h, _⟩
    rw [Program.build, Instruction.encodeAll, Instruction.encodeFrom] at h
    cases hencode : i.encode arch with
    | error e =>
      rw [hencode] at h
      cases h
    | ok bs => exact ⟨bs, rfl⟩
  · rintro ⟨bs, hbs⟩
    rw [Program.build, Instruction.encodeAll, Instruction.encodeFrom, hbs]
    exact ⟨_, rfl, rfl⟩

/-- A program has the instructions that it is made from. -/
theorem instructions_of_build {entry : Option EntryPoint} {is : List Instruction}
    {ns : List NativeCall} {p : Program} (h : Program.build arch entry is ns = .ok p) :
    p.instructions = is.toArray := by
  rw [Program.build] at h
  split at h
  · cases h
  · dsimp only at h
    split at h
    · cases h
    · cases h
      rfl

/-- The instruction of an item with a written operand. -/
theorem instruction_eq_ok_iff {labels : Labels} {line : Nat} {m : Mnemonic} {t : Bytes} :
    Item.instruction labels ⟨line, m, .text t⟩ = .ok i ↔
      i.mnemonic = m ∧ readOperand labels t = .ok i.operand ∧ i.isLegal = true := by
  rw [Item.instruction, Item.operand]
  dsimp only
  cases readOperand labels t with
  | error e => exact ⟨nofun, fun h => nomatch h.2.1⟩
  | ok op =>
    rw [Except.mapError]
    dsimp only
    constructor
    · intro h
      split at h
      · next hlegal =>
        cases h
        exact ⟨rfl, rfl, hlegal⟩
      · cases h
    · rintro ⟨rfl, hop, hlegal⟩
      cases hop
      exact if_pos hlegal

/-- **A source of one instruction** is assembled to that instruction exactly when its operand is
read, legal for the mnemonic and fits the architecture. -/
theorem exists_assemble_iff {src t : Bytes} {m : Mnemonic}
    (h : Outline.ofSource src = .ok { items := [⟨1, m, .text t⟩], count := 1 }) :
    (∃ p, assemble src arch = .ok p ∧ p.instructions = #[i]) ↔
      i.mnemonic = m ∧ readOperand [] t = .ok i.operand ∧ i.isLegal = true ∧
        i.operand.fits arch = true := by
  constructor
  · rintro ⟨p, hp, hi⟩
    obtain ⟨o, ho, hp⟩ := Except.bind_eq_ok.1 hp
    cases h.symm.trans ho
    obtain ⟨is, his, hp⟩ := Except.bind_eq_ok.1 hp
    obtain ⟨ns, hns, hp⟩ := Except.bind_eq_ok.1 hp
    cases hns
    have hbuild := Except.mapError_eq_ok.1 hp
    cases Except.mapM_eq_ok.1 his with
    | @cons _ j _ js hitem hnil =>
      cases hnil
      rw [instructions_of_build hbuild] at hi
      cases hi
      obtain ⟨hm, hread, hlegal⟩ := instruction_eq_ok_iff.1 hitem
      exact ⟨hm, hread, exists_build_iff.1 ⟨p, hbuild, instructions_of_build hbuild⟩⟩
  · rintro ⟨hm, hread, hlegal, hfits⟩
    obtain ⟨p, hbuild, hp⟩ := exists_build_iff.2 ⟨hlegal, hfits⟩
    have hitem : Item.instruction [] ⟨1, m, .text t⟩ = .ok i :=
      instruction_eq_ok_iff.2 ⟨hm, hread, hlegal⟩
    refine ⟨p, Except.bind_eq_ok.2 ⟨_, h, ?_⟩, hp⟩
    refine Except.bind_eq_ok.2 ⟨[i], Except.mapM_eq_ok.2 (.cons hitem .nil), ?_⟩
    exact Except.bind_eq_ok.2 ⟨[], rfl, Except.mapError_eq_ok.2 hbuild⟩

end Assembly

end RegisterMachine
