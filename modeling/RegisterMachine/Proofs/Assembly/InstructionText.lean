import RegisterMachine.Proofs.Assembly.CutLiteral
import RegisterMachine.Proofs.Assembly.Line

/-!
# Instructions are read back

An instruction is written as the name of its mnemonic, and its operand behind a space. Every operand
that uses no address from 2^63 on and no value whose literal means another one
(`Operand.isReadable`) is read back from its text (`Assembly.readOperand_text`).

The assembler drops a comment before it reads a line, and takes for a comment what stands behind a
semicolon and outside of double quotes; it knows neither single quotes nor backslashes inside of
double quotes. So a line is read back exactly when no comment is found in it and the operand fits
the architecture (`Assembly.assemble_text`). A semicolon in a printed line stands between the quotes
of a literal, so a line that loses one is not read at all.
-/

namespace RegisterMachine

open Text (isVisible)

/-! ## Operands -/

namespace Operand

/-- Whether the text of the operand means the operand: addresses stay below 2^63, and so do those in
an immediate value, which holds neither floating point numbers nor heap references, and no
characters other than scalar values. -/
def isReadable : Operand → Bool
  | implicit | indirect _ => true
  | immediate v => v.isReadable
  | absolute a | static a => a.toNat < 2 ^ 63
  | index a i | property a i => a.toNat < 2 ^ 63 && i.toNat < 2 ^ 63

/-- How an immediate operand is written. -/
theorem text_immediate (v : Value) : (immediate v).text = 35 :: v.literal := rfl

/-- How an absolute operand is written. -/
theorem text_absolute (a : UInt64) : (absolute a).text = 36 :: Number.decimal a.toNat := rfl

/-- How a static operand is written. -/
theorem text_static (a : UInt64) : (static a).text = 33 :: Number.decimal a.toNat := rfl

/-- How an indexed operand is written. -/
theorem text_index (a i : UInt64) : (index a i).text =
    36 :: (Number.decimal a.toNat ++ 91 :: 36 :: (Number.decimal i.toNat ++ [93])) := by
  have hopen : utf8 "[$" = [91, 36] := rfl
  rw [text, hopen, List.append_assoc, List.append_assoc, List.append_assoc]
  rfl

/-- How a property operand is written. -/
theorem text_property (a k : UInt64) : (property a k).text =
    36 :: (Number.decimal a.toNat ++ 46 :: Number.decimal k.toNat) := by
  rw [text, List.append_assoc, List.append_assoc]
  rfl

/-- The text of an operand other than an immediate value has neither spaces nor semicolons. -/
theorem visible_of_mem_text {op : Operand} (h : ∀ v, op ≠ immediate v) :
    ∀ b ∈ op.text, isVisible b = true ∧ b ≠ 59 := by
  have hdecimal : ∀ n, ∀ b ∈ Number.decimal n, isVisible b = true ∧ b ≠ 59 := by
    intro n b hb
    have hdigit := Value.isWordByte_of_mem_decimal hb
    refine ⟨Value.visible_of_isWordByte hdigit, ?_⟩
    rintro rfl
    cases hdigit
  have hmark : ∀ b : UInt8, b ∈ [36, 33, 64, 91, 93, 46] → isVisible b = true ∧ b ≠ 59 := by
    decide +kernel
  cases op with
  | implicit => exact fun _ hb => nomatch hb
  | immediate v => exact absurd rfl (h v)
  | indirect r => cases r <;> decide +kernel
  | absolute a =>
    rw [text_absolute]
    simp only [List.forall_mem_cons]
    exact ⟨hmark 36 (by decide), hdecimal _⟩
  | static a =>
    rw [text_static]
    simp only [List.forall_mem_cons]
    exact ⟨hmark 33 (by decide), hdecimal _⟩
  | index a i =>
    rw [text_index]
    simp only [List.forall_mem_cons, List.forall_mem_append]
    exact ⟨hmark 36 (by decide), hdecimal _, hmark 91 (by decide), hmark 36 (by decide), hdecimal _,
      hmark 93 (by decide), fun _ h => nomatch h⟩
  | property a k =>
    rw [text_property]
    simp only [List.forall_mem_cons, List.forall_mem_append]
    exact ⟨hmark 36 (by decide), hdecimal _, hmark 46 (by decide), hdecimal _⟩

/-- There are no control characters in the text of an operand. -/
theorem le_toNat_of_mem_text {op : Operand} (h : op.isReadable = true) {b : UInt8}
    (hb : b ∈ op.text) : 32 ≤ b.toNat := by
  by_cases hv : ∃ v, op = immediate v
  · obtain ⟨v, rfl⟩ := hv
    rw [text_immediate] at hb
    rcases List.mem_cons.1 hb with rfl | hb
    · decide
    · exact Value.le_toNat_of_mem_literal (Value.isFloatless_of_isReadable _ h) b hb
  · have hvisible := (visible_of_mem_text (fun v hop => hv ⟨v, hop⟩) b hb).1
    exact Nat.le_of_succ_le (Text.isVisible_iff.1 hvisible).1

/-- The text of an operand is as it is when trimmed, and ends in a visible character. -/
theorem trim_text {op : Operand} (h : op.isReadable = true) :
    Text.trim op.text = op.text ∧ ∀ b ∈ op.text.getLast?, isVisible b = true := by
  by_cases hv : ∃ v, op = immediate v
  · obtain ⟨v, rfl⟩ := hv
    obtain ⟨s, b, hliteral, hb, _⟩ := Value.literal_ends (Value.isFloatless_of_isReadable _ h)
    rw [text_immediate, hliteral, ← List.cons_append]
    refine ⟨Text.trim_between rfl hb _, ?_⟩
    rw [← List.cons_append, List.getLast?_concat]
    rintro _ ⟨⟩
    exact hb
  · have hvisible := visible_of_mem_text fun v hop => hv ⟨v, hop⟩
    exact ⟨Text.trim_of_visible fun b hb => (hvisible b hb).1,
      fun b hb => (hvisible b (List.mem_of_getLast? hb)).1⟩

end Operand

namespace Assembly

/-- An address below 2^63 is read back from its decimal digits. -/
theorem readAddress_decimal {a : UInt64} (h : a.toNat < 2 ^ 63) :
    readAddress [] (Number.decimal a.toNat) = .ok a := by
  have hlabel : Labels.index? [] (Number.decimal a.toNat) = none := rfl
  rw [readAddress, hlabel]
  dsimp only
  rw [Number.readUnsigned_decimal a.toNat_lt]
  dsimp only
  rw [if_neg (Nat.not_le.2 h), UInt64.ofNat_toNat]

/-- A byte that is no digit is not in a number. -/
theorem not_mem_decimal {n : Nat} {b : UInt8} (hb : b.toNat < 48 ∨ 57 < b.toNat) :
    b ∉ Number.decimal n := by
  intro hmem
  have := Number.isDigit_of_mem_decimal hmem
  omega

section
variable {labels : Labels} {slot idx ordinal : Bytes}

/-- A slot without a bracket and without a dot is an address. -/
theorem readSlot_absolute (hslot : 91 ∉ slot ∧ 46 ∉ slot) (s : Bytes) :
    readSlot labels s slot = (readAddress labels slot).map .absolute := by
  rw [readSlot, Bytes.cut?_of_not_mem hslot.1, Bytes.cut?_of_not_mem hslot.2]

/-- A slot with an index in brackets is read part by part; the index may have a `$` before it. -/
theorem readSlot_index (hslot : 91 ∉ slot) (s : Bytes) :
    readSlot labels s (slot ++ 91 :: (idx ++ [93])) = (readAddress labels slot).bind fun a =>
      (readAddress labels (if idx.head? = some 36 then idx.drop 1 else idx)).map (.index a) := by
  have hlast : (slot ++ 91 :: (idx ++ [93])).getLast? = some 93 := by
    rw [← List.cons_append, ← List.append_assoc, List.getLast?_concat]
  rw [readSlot, Bytes.cut?_append hslot]
  dsimp only
  rw [if_neg (fun h => h hlast), List.dropLast_concat]
  rfl

/-- A slot with an ordinal behind a dot is read part by part. -/
theorem readSlot_property (hslot : 91 ∉ slot ∧ 46 ∉ slot) (hordinal : 91 ∉ ordinal) (s : Bytes) :
    readSlot labels s (slot ++ 46 :: ordinal) = (readAddress labels slot).bind fun a =>
      (readAddress labels ordinal).map (.property a) := by
  have hbracket : 91 ∉ slot ++ 46 :: ordinal := by simp [hslot.1, hordinal]
  rw [readSlot, Bytes.cut?_of_not_mem hbracket]
  dsimp only
  rw [Bytes.cut?_append hslot.2]
  rfl

end

/-- **An operand is read back from its text.** -/
theorem readOperand_text {op : Operand} (h : op.isReadable = true) :
    readOperand [] op.text = .ok op := by
  have hslot : ∀ {n}, 91 ∉ Number.decimal n ∧ 46 ∉ Number.decimal n :=
    ⟨not_mem_decimal (by decide), not_mem_decimal (by decide)⟩
  cases op with
  | implicit => rfl
  | indirect r => cases r <;> rfl
  | immediate v =>
    have hread := Literal.readLevels_literal h (Nat.lt_succ_self _)
    rw [Operand.text_immediate, readOperand,
      Value.trim_literal (Value.isFloatless_of_isReadable _ h), Literal.read, hread]
    rfl
  | absolute a =>
    rw [Operand.text_absolute, readOperand, readSlot_absolute hslot,
      readAddress_decimal (of_decide_eq_true h)]
    rfl
  | static a =>
    rw [Operand.text_static, readOperand, readAddress_decimal (of_decide_eq_true h)]
    rfl
  | index a i =>
    rw [Operand.isReadable, Bool.and_eq_true, decide_eq_true_eq, decide_eq_true_eq] at h
    rw [Operand.text_index, readOperand]
    have hread := @readSlot_index [] _ (36 :: Number.decimal i.toNat) (@hslot a.toNat).1
    rw [if_pos List.head?_cons, List.drop_one, List.tail_cons, readAddress_decimal h.1,
      readAddress_decimal h.2] at hread
    exact hread _
  | property a k =>
    rw [Operand.isReadable, Bool.and_eq_true, decide_eq_true_eq, decide_eq_true_eq] at h
    rw [Operand.text_property, readOperand, readSlot_property hslot hslot.1,
      readAddress_decimal h.1, readAddress_decimal h.2]
    rfl

end Assembly

/-! ## Lines -/

namespace Instruction

variable {i : Instruction}

/-- The text of an instruction is a name, or a name and the text of an operand with a space
between. -/
theorem text_cases (i : Instruction) : (i.operand = .implicit ∧ i.text = utf8 i.mnemonic.name) ∨
    ∃ c rest, i.operand.text = c :: rest ∧ i.text = utf8 i.mnemonic.name ++ 32 :: c :: rest := by
  obtain ⟨m, op⟩ := i
  have hoperand : ∀ t : Bytes, utf8 m.name ++ utf8 " " ++ t = utf8 m.name ++ 32 :: t := fun t => by
    have hspace : utf8 " " = [32] := rfl
    rw [hspace, List.append_assoc, List.singleton_append]
  cases op with
  | implicit => exact .inl ⟨rfl, rfl⟩
  | immediate v => exact .inr ⟨_, _, Operand.text_immediate v, hoperand _⟩
  | absolute a => exact .inr ⟨_, _, Operand.text_absolute a, hoperand _⟩
  | static a => exact .inr ⟨_, _, Operand.text_static a, hoperand _⟩
  | index a i =>
    exact .inr ⟨_, _, Operand.text_index a i, by rw [← Operand.text_index]; exact hoperand _⟩
  | property a k =>
    exact .inr ⟨_, _, Operand.text_property a k, by rw [← Operand.text_property]; exact hoperand _⟩
  | indirect r => exact .inr ⟨_, _, rfl, hoperand _⟩

/-- There are no control characters in the text of an instruction. -/
theorem le_toNat_of_mem_text (h : i.operand.isReadable = true) {b : UInt8} (hb : b ∈ i.text) :
    32 ≤ b.toNat := by
  have hname : ∀ b ∈ utf8 i.mnemonic.name, 32 ≤ b.toNat := fun b hb =>
    Nat.le_of_succ_le (Text.isVisible_iff.1 (Mnemonic.visible_of_mem_name b hb)).1
  rcases i.text_cases with ⟨_, htext⟩ | ⟨c, rest, hoperand, htext⟩
  · exact hname b (htext ▸ hb)
  · rw [htext, ← hoperand] at hb
    rcases List.mem_append.1 hb with hb | hb
    · exact hname b hb
    rcases List.mem_cons.1 hb with rfl | hb
    · decide
    · exact Operand.le_toNat_of_mem_text h hb

/-- The text of an instruction is as it is when trimmed. -/
theorem trim_text (h : i.operand.isReadable = true) : Text.trim i.text = i.text := by
  rcases i.text_cases with ⟨_, htext⟩ | ⟨c, rest, hoperand, htext⟩
  · rw [htext]
    exact Text.trim_of_visible Mnemonic.visible_of_mem_name
  · have hlast := (Operand.trim_text h).2
    obtain ⟨s, b, hs⟩ : ∃ s b, c :: rest = s ++ [b] := by
      rcases List.eq_nil_or_concat (c :: rest) with h | ⟨s, b, h⟩
      · cases h
      · exact ⟨s, b, by rw [h, List.concat_eq_append]⟩
    obtain ⟨n, name, hname⟩ := List.exists_cons_of_ne_nil i.mnemonic.name_ne_nil
    have hn : isVisible n = true := Mnemonic.visible_of_mem_name n (hname ▸ List.mem_cons_self)
    have hb : isVisible b = true := hlast b (by rw [hoperand, hs, List.getLast?_concat]; rfl)
    rw [htext, hs, hname, ← List.cons_append, ← List.append_assoc]
    exact Text.trim_between hn hb _

end Instruction

namespace Assembly

variable {arch : Arch} {i : Instruction}

/-- The text of an instruction is the only line of its source. -/
theorem lines_text (h : i.operand.isReadable = true) (hlen : i.text.length < Text.lineLimit) :
    Text.lines Text.lineLimit i.text = ⟨[i.text], false⟩ := by
  refine Text.lines_of_not_mem ?_ (fun hb => ?_) (fun hb => ?_) hlen
  · rcases i.text_cases with ⟨_, htext⟩ | ⟨c, rest, _, htext⟩
    · rw [htext]
      exact i.mnemonic.name_ne_nil
    · simp [htext]
  · exact absurd (Instruction.le_toNat_of_mem_text h hb) (by decide)
  · exact absurd (Instruction.le_toNat_of_mem_text h hb) (by decide)

/-- A line in which no comment is found has the instruction in its outline. -/
theorem ofSource_text (h : i.operand.isReadable = true) (hlen : i.text.length < Text.lineLimit)
    (hcomment : beforeComment false i.text = i.text) :
    Outline.ofSource i.text =
      .ok { items := [⟨1, i.mnemonic, .text i.operand.text⟩], count := 1 } := by
  have hlines := lines_text h hlen
  have hstrip : stripComment i.text = i.text := by
    rw [stripComment, hcomment, Instruction.trim_text h]
  rcases i.text_cases with ⟨himplicit, htext⟩ | ⟨c, rest, hoperand, htext⟩
  · rw [himplicit]
    exact Outline.ofSource_name hlines (hstrip.trans htext)
  · have htrim := (Operand.trim_text h).1
    rw [hoperand] at htrim ⊢
    have houtline := Outline.ofSource_operand hlines (hstrip.trans htext)
    rwa [htrim] at houtline

/-- A semicolon in the text of an instruction stands inside of quotes. -/
theorem exists_of_text_eq {pre post : Bytes} (h : i.operand.isReadable = true)
    (htext : i.text = pre ++ 59 :: post) :
    ∃ cut, pre = utf8 i.mnemonic.name ++ 32 :: 35 :: cut ∧ Literal.IsCutShort cut := by
  have hname : (59 : UInt8) ∉ utf8 i.mnemonic.name := Mnemonic.not_mem_name (.inr (by decide))
  rcases i.text_cases with ⟨_, hi⟩ | ⟨c, rest, hoperand, hi⟩
  · refine absurd ?_ hname
    rw [← hi, htext]
    exact List.mem_append_right _ List.mem_cons_self
  rw [hi, ← hoperand] at htext
  obtain ⟨pre₁, rfl, hrest⟩ := exists_eq_of_not_mem_left hname htext
  have hspace : [32] ++ i.operand.text = pre₁ ++ 59 :: post := hrest
  obtain ⟨pre₂, rfl, hpre₂⟩ := exists_eq_of_not_mem_left (by decide) hspace
  by_cases hv : ∃ v, i.operand = .immediate v
  · obtain ⟨v, hv⟩ := hv
    rw [hv] at h hpre₂
    have hmark : [35] ++ v.literal = pre₂ ++ 59 :: post := hpre₂
    obtain ⟨cut, rfl, hliteral⟩ := exists_eq_of_not_mem_left (by decide) hmark
    exact ⟨cut, rfl, Literal.isCutShort_of_literal h hliteral⟩
  · have hmem : 59 ∈ i.operand.text := by
      rw [hpre₂]
      exact List.mem_append_right _ List.mem_cons_self
    exact absurd rfl (Operand.visible_of_mem_text (fun v hop => hv ⟨v, hop⟩) 59 hmem).2

/-- An immediate value whose literal is cut short is not read. -/
theorem readOperand_ne_ok {cut : Bytes} (h : Literal.IsCutShort cut) (op : Operand) :
    readOperand [] (Text.trim (35 :: cut)) ≠ .ok op := by
  obtain ⟨cut', htrim, hcut'⟩ := h.trim_append (s := [35]) (by rintro _ ⟨⟩; rfl)
  rw [List.singleton_append, List.singleton_append] at htrim
  rw [htrim, readOperand]
  intro hread
  obtain ⟨v, hv, _⟩ := Except.map_eq_ok.1 hread
  exact Literal.readLevels_ne_ok hcut'.trim v (Except.mapError_eq_ok.1 hv)

/-- **An instruction is read back from its text exactly when every semicolon in it has an odd number
of double quotes before it and its operand fits the architecture.** -/
theorem assemble_text (hlegal : i.isLegal = true) (h : i.operand.isReadable = true)
    (hlen : i.text.length < Text.lineLimit) :
    (∃ p, assemble i.text arch = .ok p ∧ p.instructions = #[i]) ↔
      SemicolonsQuoted i.text ∧ i.operand.fits arch = true := by
  rw [← beforeComment_eq_self_iff]
  rcases beforeComment_cases false i.text with hcomment | ⟨rest, hcomment⟩
  · rw [exists_assemble_iff (ofSource_text h hlen hcomment)]
    exact ⟨fun h => ⟨hcomment, h.2.2.2⟩, fun hfits => ⟨rfl, readOperand_text h, hlegal, hfits.2⟩⟩
  · obtain ⟨cut, hbefore, hcut⟩ := exists_of_text_eq h hcomment
    obtain ⟨n, name, hname⟩ := List.exists_cons_of_ne_nil i.mnemonic.name_ne_nil
    have hn : isVisible n = true := Mnemonic.visible_of_mem_name n (hname ▸ List.mem_cons_self)
    obtain ⟨cut', htrim, hcut'⟩ := hcut.trim_append (s := utf8 i.mnemonic.name ++ [32, 35])
      (by rw [hname]; rintro b ⟨⟩; exact hn)
    have hstrip : stripComment i.text = utf8 i.mnemonic.name ++ 32 :: 35 :: cut' := by
      rw [List.append_assoc, List.append_assoc] at htrim
      rw [stripComment, hbefore]
      exact htrim
    rw [exists_assemble_iff (Outline.ofSource_operand (lines_text h hlen) hstrip)]
    constructor
    · rintro ⟨_, hread, _⟩
      exact absurd hread (readOperand_ne_ok hcut' _)
    · rintro ⟨hno, _⟩
      rw [hno] at hcomment
      have hlength := congrArg List.length hcomment
      rw [List.length_append, List.length_cons] at hlength
      omega

/-- An array of a negative number, a text with a semicolon and quotes, and a single quote. -/
def arraySample : Instruction :=
  ⟨.load .a, .immediate (.array [.int .w8 (-3), .string (utf8 "a; \"b\""), .char 39])⟩

/-- A semicolon between single quotes. -/
def semicolonSample : Instruction := ⟨.load .a, .immediate (.char 59)⟩

/-- `arraySample` is read back, and `semicolonSample` is not: its text `LDA #(char)';'` is cut at
the semicolon. -/
theorem assemble_text_samples :
    (∃ p, assemble arraySample.text .b16 = .ok p ∧ p.instructions = #[arraySample]) ∧
      ¬∃ p, assemble semicolonSample.text .b64 = .ok p ∧ p.instructions = #[semicolonSample] := by
  have hquoted : SemicolonsQuoted arraySample.text :=
    beforeComment_eq_self_iff.1 (by decide +kernel)
  have htext : semicolonSample.text = utf8 "LDA #(char)'" ++ 59 :: [39] := by decide +kernel
  have hopen : ¬SemicolonsQuoted semicolonSample.text := fun h => absurd (h _ _ htext) (by decide)
  constructor
  · exact (assemble_text (by decide) (by decide +kernel) (by decide +kernel)).2
      ⟨hquoted, by decide +kernel⟩
  · intro h
    exact hopen ((assemble_text (by decide) (by decide +kernel) (by decide +kernel)).1 h).1

/-- The line is cut, and what is left is refused. -/
example : assemble semicolonSample.text .b64 =
    .error (.line 1 (.operand (.literal (.notAChar (40 :: (utf8 "char" ++ [41, 39])))))) := by
  decide +kernel

end Assembly

end RegisterMachine
