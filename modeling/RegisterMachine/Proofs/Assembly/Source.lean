import RegisterMachine.Assembly.Source
import RegisterMachine.Proofs.Assembly.Literal
import RegisterMachine.Proofs.Codec.Rereading

/-!
# Assembled programs are read back

Lines have a limit (`Text.lineLimit`), so what the first pass notes of them is short, and of a
well-formed source it is well-formed: `Outline.Sound` is kept by every line
(`Outline.sound_addLine`) and so holds of the whole outline (`Outline.sound_ofSource`). A program
that is assembled from a sound outline has its parts in order (`composed_of_assemble`). The
assembler has none of the limits of the reader of program files, so `deserialize_assembled` is as
far as reading back goes: the file of an assembled program gives the program exactly when it is
within these limits.
-/

namespace RegisterMachine.Assembly

/-! ## Lines without comments -/

/-- A comment starts at a semicolon. -/
theorem beforeComment_cases (quoted : Bool) (s : Bytes) :
    beforeComment quoted s = s ∨ ∃ rest, s = beforeComment quoted s ++ 59 :: rest := by
  induction s generalizing quoted with
  | nil => exact .inl rfl
  | cons c cs ih =>
    rw [beforeComment]
    split
    · rcases ih (!quoted) with h | ⟨rest, h⟩
      · exact .inl (by rw [h])
      · exact .inr ⟨rest, by rw [List.cons_append, ← h]⟩
    split
    · next h =>
      exact .inr ⟨cs, by rw [h.1]; rfl⟩
    · rcases ih quoted with h | ⟨rest, h⟩
      · exact .inl (by rw [h])
      · exact .inr ⟨rest, by rw [List.cons_append, ← h]⟩

/-- There is no comment without a semicolon. -/
theorem beforeComment_of_not_mem {s : Bytes} (h : 59 ∉ s) : beforeComment false s = s := by
  refine (beforeComment_cases false s).resolve_right fun ⟨rest, hs⟩ => h ?_
  rw [hs]
  exact List.mem_append_right _ List.mem_cons_self

/-- Every semicolon has an odd number of double quotes before it. -/
def SemicolonsQuoted (s : Bytes) : Prop := ∀ pre post, s = pre ++ 59 :: post → pre.count 34 % 2 = 1

/-- There is no comment exactly when every semicolon stands behind an odd number of double quotes,
counted with the one that is open at the start. -/
theorem beforeComment_eq_self {quoted : Bool} {s : Bytes} : beforeComment quoted s = s ↔
    ∀ pre post, s = pre ++ 59 :: post → (pre.count 34 + quoted.toNat) % 2 = 1 := by
  induction s generalizing quoted with
  | nil => simp [beforeComment]
  | cons c cs ih =>
    -- a semicolon of the line is its first byte, or one of the rest
    have hcases : (∀ pre post,
        c :: cs = pre ++ 59 :: post → (pre.count 34 + quoted.toNat) % 2 = 1) ↔
        (c = 59 → quoted = true) ∧
          ∀ pre post, cs = pre ++ 59 :: post → ((c :: pre).count 34 + quoted.toNat) % 2 = 1 := by
      constructor
      · intro h
        refine ⟨fun hc => ?_, fun pre post hcs => h (c :: pre) post (by rw [hcs]; rfl)⟩
        have hfirst := h [] cs (by rw [hc]; rfl)
        cases quoted with
        | true => rfl
        | false => cases hfirst
      · rintro ⟨hfirst, hrest⟩ pre post heq
        cases pre with
        | nil =>
          cases heq
          rw [hfirst rfl]
          rfl
        | cons c' pre =>
          cases heq
          exact hrest pre post rfl
    rw [hcases, beforeComment]
    split
    · next hquote =>
      have hparity : ∀ n, (n + 1 + quoted.toNat) % 2 = (n + (!quoted).toNat) % 2 := by
        intro n
        cases quoted with
        | true => exact Nat.add_mod_right n 2
        | false => rfl
      rw [List.cons.injEq, and_iff_right rfl, ih, and_iff_right (by rintro rfl; cases hquote),
        hquote]
      simp only [List.count_cons_self, hparity]
    · next hquote =>
      split
      · next hcut =>
        obtain ⟨rfl, hquoted⟩ := hcut
        refine ⟨nofun, fun h => ?_⟩
        rw [h.1 rfl] at hquoted
        cases hquoted
      · next hcut =>
        have hfirst : c = 59 → quoted = true := by
          rintro rfl
          simpa using hcut
        rw [List.cons.injEq, and_iff_right rfl, ih, and_iff_right hfirst]
        simp only [List.count_cons_of_ne hquote]

/-- Nothing is taken off a text as a comment exactly if all its semicolons are quoted. -/
theorem beforeComment_eq_self_iff {s : Bytes} : beforeComment false s = s ↔ SemicolonsQuoted s :=
  beforeComment_eq_self
/-- Taking off a comment makes no line longer. -/
theorem length_stripComment_le (s : Bytes) : (stripComment s).length ≤ s.length := by
  have htrim := Text.length_trim_le (beforeComment false s)
  refine Nat.le_trans htrim ?_
  rcases beforeComment_cases false s with h | ⟨rest, h⟩
  · exact Nat.le_of_eq (congrArg List.length h)
  · have hlen := congrArg List.length h
    rw [List.length_append] at hlen
    omega

/-- Taking off a comment leaves UTF-8. -/
theorem isUtf8_stripComment {s : Bytes} (hs : Text.isUtf8 s = true) :
    Text.isUtf8 (stripComment s) = true := by
  refine Text.isUtf8_trim ?_
  rcases beforeComment_cases false s with h | ⟨rest, h⟩
  · rwa [h]
  · rw [h, Text.isUtf8_append_ascii (by decide), Bool.and_eq_true] at hs
    exact hs.1

/-! ## The first pass -/

namespace Outline

/-- What the first pass notes: operands are short, and the names of native functions are such as the
words of the source are. -/
structure Sound (ok : Bytes → Prop) (o : Outline) : Prop where
  items : ∀ i ∈ o.items, ∀ s, i.source = .text s → s.length < Text.lineLimit
  natives : ∀ n ∈ o.natives, ok n.name ∧ ok n.module

variable {ok : Bytes → Prop} {o o' : Outline}

/-- Soundness looks at instructions and native calls only. -/
theorem Sound.of_eq (ho : o.Sound ok) (hitems : o'.items = o.items)
    (hnatives : o'.natives = o.natives) : o'.Sound ok :=
  ⟨hitems ▸ ho.items, hnatives ▸ ho.natives⟩

/-- Adding a label keeps an outline sound. -/
theorem sound_addLabel {name : Bytes} (ho : o.Sound ok) (h : o.addLabel name = .ok o') :
    o'.Sound ok := by
  unfold addLabel at h
  split at h
  · cases h
  · cases h
    exact ho.of_eq rfl rfl

/-- Opening a function keeps an outline sound. -/
theorem sound_openFunction {line : Nat} {name hash : Bytes} (ho : o.Sound ok)
    (h : o.openFunction line name hash = .ok o') : o'.Sound ok := by
  unfold openFunction at h
  split at h
  · cases h
  split at h
  · cases h
  · obtain ⟨o₁, hlabel, rfl⟩ := Except.map_eq_ok.1 h
    have ho₁ := sound_addLabel ho hlabel
    refine ⟨fun i hi s hs => ?_, ho₁.natives⟩
    rcases List.mem_cons.1 hi with rfl | hi
    · cases hs
    rcases List.mem_cons.1 hi with rfl | hi
    · cases hs
    · exact ho₁.items i hi s hs

/-- Closing a function keeps an outline sound. -/
theorem sound_closeFunction (ho : o.Sound ok) (h : o.closeFunction = .ok o') : o'.Sound ok := by
  unfold closeFunction at h
  split at h
  · cases h
  · cases h
    exact ho.of_eq rfl rfl

/-- **A line keeps the outline sound** when it is short. -/
theorem sound_addLine {line : Nat} {text : Bytes} (ho : o.Sound ok)
    (hlen : text.length < Text.lineLimit) (hwords : ∀ w ∈ Text.words text, ok w)
    (h : o.addLine line text = .ok o') : o'.Sound ok := by
  unfold addLine at h
  split at h
  · exact sound_addLabel ho h
  split at h
  · cases h
    exact ho
  · next first args hsplit =>
    rw [hsplit] at hwords
    by_cases hfn : first = utf8 ".fn"
    · rw [if_pos hfn] at h
      split at h
      · exact sound_openFunction ho h
      · cases h
    rw [if_neg hfn] at h
    by_cases hend : first = utf8 ".end"
    · rw [if_pos hend] at h
      exact sound_closeFunction ho h
    rw [if_neg hend] at h
    by_cases hentry : first = utf8 ".entry"
    · rw [if_pos hentry] at h
      split at h
      · cases h
        exact ho.of_eq rfl rfl
      · cases h
    rw [if_neg hentry] at h
    by_cases hnative : first = utf8 ".native"
    · rw [if_pos hnative] at h
      split at h
      · next label module hash name =>
        split at h
        · cases h
        · cases h
          have hname := hwords name (by simp)
          have hmodule := hwords module (by simp)
          exact ⟨ho.items, List.forall_mem_cons.2 ⟨⟨hname, hmodule⟩, ho.natives⟩⟩
      · cases h
    rw [if_neg hnative] at h
    split at h
    · cases h
    split at h
    · cases h
    · cases h
      refine ⟨List.forall_mem_cons.2 ⟨fun s hs => ?_, ho.items⟩, ho.natives⟩
      cases hs
      exact Nat.lt_of_le_of_lt (Text.length_headAndTail_le text) hlen

/-- **All lines keep the outline sound** when they are short. -/
theorem sound_addLines {line : Nat} {ls : List Bytes} (ho : o.Sound ok)
    (hls : ∀ l ∈ ls, l.length < Text.lineLimit ∧ ∀ w ∈ Text.words (stripComment l), ok w)
    (h : o.addLines line ls = .ok o') : o'.Sound ok := by
  induction ls generalizing o line with
  | nil => cases h; exact ho
  | cons l ls ih =>
    obtain ⟨⟨hlen, hwords⟩, hls⟩ := List.forall_mem_cons.1 hls
    have hstrip := Nat.lt_of_le_of_lt (length_stripComment_le l) hlen
    unfold addLines at h
    dsimp only at h
    split at h
    · exact ih ho hls h
    split at h
    · cases h
    · next hline => exact ih (sound_addLine ho hstrip hwords hline) hls h

/-- The outline of a source is sound for what its words are. -/
theorem sound_of_words {src : Bytes}
    (hwords : ∀ l ∈ (Text.lines Text.lineLimit src).lines, ∀ w ∈ Text.words (stripComment l), ok w)
    (h : ofSource src = .ok o) : o.Sound ok := by
  unfold ofSource at h
  dsimp only at h
  split at h
  · cases h
  · next hlines =>
    split at h
    · cases h
    split at h
    · cases h
    · cases h
      have hempty : Sound ok {} := ⟨by simp, by simp⟩
      exact sound_addLines hempty (fun l hl => ⟨Text.length_lt_of_mem_lines hl, hwords l hl⟩) hlines

/-- **The outline of a well-formed source is sound.** -/
theorem sound_ofSource {src : Bytes} (hsrc : Text.isUtf8 src = true) (h : ofSource src = .ok o) :
    o.Sound (Text.isUtf8 · = true) :=
  sound_of_words (fun _ hl _ => Text.isUtf8_of_mem_words
    (isUtf8_stripComment (Text.isUtf8_of_mem_lines hsrc hl))) h

/-- Operands are short in every outline. -/
theorem length_lt_of_ofSource {src : Bytes} (h : ofSource src = .ok o) :
    ∀ i ∈ o.items, ∀ s, i.source = .text s → s.length < Text.lineLimit := by
  have hsound : o.Sound fun _ => True := sound_of_words (fun _ _ _ _ => trivial) h
  exact hsound.items

end Outline

/-! ## The second pass -/

variable {labels : Labels}

/-- An instruction whose operand is short has lengths that fit. -/
theorem lengthsFit_of_instruction {i : Item} {ins : Instruction}
    (hi : ∀ s, i.source = .text s → s.length < Text.lineLimit)
    (h : i.instruction labels = .ok ins) : ins.operand.lengthsFit = true := by
  have hop : ∀ op, i.operand labels = .ok op → op.lengthsFit = true := by
    intro op hop
    unfold Item.operand at hop
    split at hop
    · next s hs =>
      have hlen := hi s hs
      rw [Text.lineLimit] at hlen
      exact lengthsFit_of_readOperand (by omega) (Except.mapError_eq_ok.1 hop)
    · cases hop
      rfl
    · split at hop
      · cases hop
        rfl
      · cases hop
  unfold Item.instruction at h
  split at h
  · cases h
  · next op hread =>
    dsimp only at h
    split at h
    · cases h
      exact hop op hread
    · cases h

/-- A native call has the names of its directive. -/
theorem names_of_call {n : NativeLine} {call : NativeCall} (h : n.call labels = .ok call) :
    call.name = n.name ∧ call.module = n.module := by
  unfold NativeLine.call at h
  split at h
  · cases h
    exact ⟨rfl, rfl⟩
  · cases h

/-- What an assembled program is made of. Only the offsets of its instructions depend on the
architecture. -/
theorem assemble_eq_ok {src : Bytes} {arch : Arch} {p : Program} (h : assemble src arch = .ok p) :
    ∃ o instructions natives code offsets, Outline.ofSource src = .ok o ∧
      o.items.reverse.mapM (Item.instruction o.labels) = .ok instructions ∧
      o.natives.reverse.mapM (NativeLine.call o.labels) = .ok natives ∧
      Instruction.encodeAll arch instructions = .ok (code, offsets) ∧ p.validate = .ok () ∧
      p = { arch
            mainExists := o.entryPoint?.isSome
            entry := o.entryPoint?.getD ⟨0, 0, 0⟩
            instructions := instructions.toArray
            offsets := offsets.toArray
            natives := Program.sortNatives natives } := by
  obtain ⟨o, ho, h⟩ := Except.bind_eq_ok.1 h
  obtain ⟨instructions, hinstructions, h⟩ := Except.bind_eq_ok.1 h
  obtain ⟨natives, hnatives, h⟩ := Except.bind_eq_ok.1 h
  replace h := Except.mapError_eq_ok.1 h
  unfold Program.build at h
  split at h
  · cases h
  · next code offsets hcode =>
    dsimp only at h
    split at h
    · cases h
    · next hvalid =>
      cases h
      exact ⟨o, instructions, natives, code, offsets, ho, hinstructions, hnatives, hcode,
        hvalid, rfl⟩

/-- The lengths in assembled instructions fit. -/
theorem lengthsFit_of_outline {src : Bytes} {o : Outline} {instructions : List Instruction}
    (ho : Outline.ofSource src = .ok o)
    (h : o.items.reverse.mapM (Item.instruction o.labels) = .ok instructions) :
    ∀ ins ∈ instructions, ins.operand.lengthsFit = true := by
  intro ins hins
  obtain ⟨i, hi, hread⟩ := Except.exists_of_mem_mapM h hins
  exact lengthsFit_of_instruction (Outline.length_lt_of_ofSource ho i (List.mem_reverse.1 hi)) hread

/-- **An assembled program has its parts in order.** -/
theorem composed_of_assemble {src : Bytes} {arch : Arch} {p : Program}
    (hsrc : Text.isUtf8 src = true) (h : assemble src arch = .ok p) : p.Composed := by
  obtain ⟨o, instructions, natives, code, offsets, ho, hinstructions, hnatives, hcode,
    hvalid, rfl⟩ :=
    assemble_eq_ok h
  obtain ⟨hsorted, hgiven⟩ := Program.sortNatives_sorted natives
  refine ⟨hvalid, fun ins hins => ?_, ⟨code, hcode⟩, hsorted, fun call hcall => ?_⟩
  · exact lengthsFit_of_outline ho hinstructions ins (List.mem_toArray.1 hins)
  · obtain ⟨n, hn, hread⟩ := Except.exists_of_mem_mapM hnatives (hgiven call hcall)
    obtain ⟨hname, hmodule⟩ := names_of_call hread
    rw [hname, hmodule]
    exact (Outline.sound_ofSource hsrc ho).natives n (List.mem_reverse.1 hn)

/-- **What the assembler writes is read back up to the limits of the reader.** From the file of an
assembled program the program is read exactly when its arrays nest at most `Value.maxDepth` deep, it
has no more native calls than the reader of the trailer accepts, and the trailer's size fits its
four bytes; the assembler and the writer know none of the three. -/
theorem deserialize_assembled {src data : Bytes} {arch : Arch} {p : Program}
    (hsrc : Text.isUtf8 src = true) (hp : assemble src arch = .ok p)
    (hdata : p.serialize = .ok data) : Program.deserialize data = .ok p ↔ p.WithinLimits :=
  Program.deserialize_serialize_iff (composed_of_assemble hsrc hp) hdata

/-- Nothing but the assembled program is read from its file, whatever the source. -/
theorem eq_of_deserialize_assembled {src data : Bytes} {arch : Arch} {p q : Program}
    (hp : assemble src arch = .ok p) (hdata : p.serialize = .ok data)
    (hq : Program.deserialize data = .ok q) : q = p := by
  obtain ⟨o, instructions, natives, code, offsets, ho, hinstructions, hnatives, hcode,
    hvalid, rfl⟩ :=
    assemble_eq_ok hp
  have hlengths := lengthsFit_of_outline ho hinstructions
  exact Program.eq_of_deserialize hvalid (fun i hi => hlengths i (List.mem_toArray.1 hi))
    ⟨code, hcode⟩ (Program.sortNatives_sorted natives).1 hdata hq

/-- A source of `Program.fileSample`. -/
def sourceSample : Bytes :=
  utf8 ".fn main 7\nLDX #(array)[(str)\"hi\", (array)[(bool)true]] ; nested\n"
    ++ utf8 "print:\nCALLN print\nRET\n.end\n.native print std 9 print\n"

/-- `sourceSample` is assembled to `Program.fileSample`, which is read back from its file. -/
theorem deserialize_assembled_sourceSample :
    assemble sourceSample .b16 = .ok Program.fileSample ∧
      ∃ data, Program.fileSample.serialize = .ok data ∧
        Program.deserialize data = .ok Program.fileSample := by
  have hascii : Text.isUtf8 sourceSample = true := Text.isUtf8_of_ascii (by decide +kernel)
  have hassemble : assemble sourceSample .b16 = .ok Program.fileSample := by decide +kernel
  have hlimits : Program.fileSample.WithinLimits := ⟨by decide, by decide, by decide⟩
  exact ⟨hassemble, _, rfl, (deserialize_assembled hascii hassemble rfl).2 hlimits⟩

end RegisterMachine.Assembly
