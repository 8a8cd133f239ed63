import RegisterMachine.Proofs.Assembly.Functions
import RegisterMachine.Proofs.Assembly.InstructionText
import RegisterMachine.Proofs.Assembly.IntegerLiterals

/-!
# What names mean

A name is defined by a label line or as the name of a function (`Assembly.definedName?`), and means
the number of instructions before its definition. The first pass notes that number when it comes to
the line (`Outline.labels_of_definedName?`) and keeps it (`Outline.Changes.index?_of_not_end`),
unless the name is the one that the `.end` of a function gives to the end of the function: that is
noted without a look at what is there already. Operands name labels at several places
(`Assembly.NamedAt`, `Literal.integer?`), and in the program they have the number there that the
first pass arrived at (`Assembly.names_resolve`).
-/

namespace RegisterMachine.Assembly

/-! ## Definitions -/

/-- The lines of a source without comments. -/
def sourceLines (src : Bytes) : List Bytes := (Text.lines Text.lineLimit src).lines.map stripComment

/-- The name that a line defines. -/
def definedName? (text : Bytes) : Option Bytes :=
  (labelOf? text).or <| match lineKind text with
    | .function name _ => some name
    | _ => none

/-- How many instructions stand before a line of a source. -/
def indexOfLine (src : Bytes) (l : Nat) : Nat := codeLength ((lineKinds src).take l)

/-- No line stands behind the end of the code. -/
theorem indexOfLine_le (src : Bytes) (l : Nat) :
    indexOfLine src l ≤ codeLength (lineKinds src) := by
  conv_rhs => rw [← List.take_append_drop l (lineKinds src), codeLength_append]
  exact Nat.le_add_right _ _

/-! ## The first pass -/

namespace Outline

variable {o o' : Outline} {ks : List LineKind} {name text : Bytes} {k line : Nat}

/-- A line that is not empty is taken into account between the lines before it and those after
it. -/
theorem exists_addLine_of_addLines {ls : List Bytes} {l : Nat} {s : Bytes}
    (h : o.addLines line ls = .ok o') (hs : ls[l]? = some s) (hne : stripComment s ≠ []) :
    ∃ o₁ o₂ n, o.addLines line (ls.take l) = .ok o₁ ∧ o₁.addLine n (stripComment s) = .ok o₂ ∧
      o₂.addLines (n + 1) (ls.drop (l + 1)) = .ok o' := by
  induction ls generalizing o line l with
  | nil => cases hs
  | cons s' ls ih =>
    rw [addLines] at h
    cases l with
    | zero =>
      cases hs
      rw [if_neg (by rwa [List.isEmpty_iff])] at h
      split at h
      · cases h
      · next hline => exact ⟨o, _, line, rfl, hline, h⟩
    | succ l =>
      rw [List.take_succ_cons, addLines, List.drop_succ_cons]
      split at h
      · next hempty =>
        rw [if_pos hempty]
        exact ih h hs
      · next hfull =>
        rw [if_neg hfull]
        split at h
        · cases h
        · exact ih h hs

/-- A line that defines a name notes how many instructions there are so far. -/
theorem labels_of_definedName? (h : o.addLine line text = .ok o')
    (hname : definedName? text = some name) :
    o.labels.index? name = none ∧ o'.labels = (name, o.count) :: o.labels := by
  unfold definedName? at hname
  cases hlabel : labelOf? text with
  | some name' =>
    rw [hlabel] at hname
    cases hname
    rw [addLine, hlabel] at h
    obtain ⟨hnew, rfl⟩ := addLabel_eq_ok h
    exact ⟨hnew, rfl⟩
  | none =>
    rw [hlabel, Option.none_or] at hname
    have hchange := change_of_addLine h
    split at hname
    · next hkind =>
      cases hname
      rw [hkind] at hchange
      cases hchange with
      | function hnew => exact ⟨hnew, rfl⟩
    · cases hname

/-- A line with an instruction notes the text of its operand. -/
theorem items_of_instruction (h : o.addLine line text = .ok o')
    (hkind : lineKind text = .instruction) :
    ∃ m, o'.items = ⟨line, m, .text (Text.headAndTail text).2⟩ :: o.items := by
  unfold addLine at h
  unfold lineKind at hkind
  split at hkind
  · cases hkind
  next hlabel =>
  rw [Option.not_isSome_iff_eq_none.1 hlabel] at h
  dsimp only at h
  split at hkind
  · cases hkind
  next first args hwords =>
  rw [hwords] at h
  dsimp only at h
  by_cases hfn : first = utf8 ".fn"
  · rw [if_pos hfn] at hkind
    split at hkind
    · split at hkind <;> cases hkind
    · cases hkind
  rw [if_neg hfn] at h hkind
  by_cases hend : first = utf8 ".end"
  · rw [if_pos hend] at hkind
    cases hkind
  rw [if_neg hend] at h hkind
  by_cases hentry : first = utf8 ".entry"
  · rw [if_pos hentry] at hkind
    split at hkind <;> cases hkind
  rw [if_neg hentry] at h hkind
  split at hkind
  · next hparse =>
    have hnative : first ≠ utf8 ".native" := by
      rintro rfl
      exact absurd hparse (by decide +kernel)
    rw [if_neg hnative] at h
    split at h
    · cases h
    split at h
    · cases h
    · next m _ =>
      cases h
      exact ⟨m, rfl⟩
  · cases hkind

/-- Names stay known. -/
theorem Changes.index?_ne_none (h : o.Changes ks o') (hname : o.labels.index? name ≠ none) :
    o'.labels.index? name ≠ none := by
  induction h with
  | nil => exact hname
  | cons hone _ ih =>
    refine ih ?_
    cases hone with
    | nothing | native | entry | instruction => exact hname
    | label | function | stop =>
      rw [index?_cons]
      split
      · exact nofun
      · exact hname

/-- **A name keeps what it means** as long as no function whose end has that name ends. -/
theorem Changes.index?_of_not_end (h : o.Changes ks o') (hname : o.labels.index? name = some k)
    (hends : ∀ x ∈ o'.closed, endLabel x.name ≠ name) : o'.labels.index? name = some k := by
  induction h with
  | nil => exact hname
  | cons hone hrest ih =>
    refine ih ?_ hends
    cases hone with
    | nothing | native | entry | instruction => exact hname
    | label hnew | function hnew =>
      rw [index?_cons_of_new hnew (by simp [hname]), hname]
    | stop hopened =>
      have hne := hends _ (hrest.closed_subset List.mem_cons_self)
      rw [index?_cons, if_neg (Ne.symm hne), hname]

/-- Every function is started by a line. -/
theorem Changes.functions_from (h : o.Changes ks o') {f : OpenFunction} (hf : f ∈ o'.functions) :
    f ∈ o.functions ∨ .function f.name f.hash ∈ ks := by
  induction h with
  | nil => exact .inl hf
  | cons hone _ ih =>
    rcases ih hf with hf | hf
    · cases hone with
      | nothing | label | native | entry | instruction => exact .inl hf
      | function =>
        rcases List.mem_cons.1 hf with rfl | hf
        · exact .inr List.mem_cons_self
        · exact .inl hf
      | stop hopened =>
        refine .inl ?_
        rw [functions, hopened]
        exact List.perm_middle.mem_iff.1 hf
    · exact .inr (List.mem_cons_of_mem _ hf)

/-- Instructions stay where they are. -/
theorem Changes.items_suffix (h : o.Changes ks o') : o.items <:+ o'.items := by
  induction h with
  | nil => exact List.suffix_refl _
  | cons hone _ ih =>
    refine List.IsSuffix.trans ?_ ih
    cases hone with
    | nothing | label | native | entry | stop => exact List.suffix_refl _
    | instruction => exact List.suffix_cons _ _
    | function => exact (List.suffix_cons _ _).trans (List.suffix_cons _ _)

end Outline

/-! ## Operands that name labels -/

/-- Where an operand holds an address. -/
inductive Place where
  | slot | static | indexed | index | owner | ordinal
  deriving DecidableEq

/-- The address that an operand holds at a place. -/
def addressAt? : Place → Operand → Option UInt64
  | .slot, .absolute a | .static, .static a | .indexed, .index a _ | .index, .index _ a
  | .owner, .property a _ | .ordinal, .property _ a => some a
  | _, _ => none

/-- The text of an operand has a name where the operand holds an address. A dollar sign goes with
the text up to the first bracket, or else up to the first dot. -/
inductive NamedAt (name : Bytes) : Place → Bytes → Prop
  | bare : isName name = true → NamedAt name .slot name
  | slot : 91 ∉ name → 46 ∉ name → NamedAt name .slot (36 :: name)
  | static : NamedAt name .static (33 :: name)
  | indexed {idx : Bytes} : 91 ∉ name → NamedAt name .indexed (36 :: (name ++ 91 :: (idx ++ [93])))
  | index {slot : Bytes} : 91 ∉ slot → name.head? ≠ some 36 →
      NamedAt name .index (36 :: (slot ++ 91 :: (name ++ [93])))
  | dollarIndex {slot : Bytes} : 91 ∉ slot →
      NamedAt name .index (36 :: (slot ++ 91 :: (36 :: name ++ [93])))
  | owner {ordinal : Bytes} : 91 ∉ name → 46 ∉ name → 91 ∉ ordinal →
      NamedAt name .owner (36 :: (name ++ 46 :: ordinal))
  | ordinal {slot : Bytes} : 91 ∉ slot → 46 ∉ slot → 91 ∉ name →
      NamedAt name .ordinal (36 :: (slot ++ 46 :: name))

section
variable {labels : Labels} {s name : Bytes} {k : Nat} {op : Operand} {place : Place}

/-- No name starts with the mark of another kind of operand. -/
theorem isName_cons_mark {b : UInt8} (hb : b = 33 ∨ b = 35 ∨ b = 36 ∨ b = 64) (s : Bytes) :
    isName (b :: s) = false := by
  have hstarts : isName.starts (.scalar b.toNat) = false := by
    rcases hb with rfl | rfl | rfl | rfl <;> rfl
  have hascii : b.toNat < 0x80 := by rcases hb with rfl | rfl | rfl | rfl <;> decide
  rw [isName, Text.glyphs_cons_ascii hascii]
  dsimp only
  rw [hstarts, Bool.false_and]

/-- A name alone is read as an address. -/
theorem readOperand_name (h : isName s = true) :
    readOperand labels s = (readAddress labels s).map .absolute := by
  have hmark : ∀ {b r}, (b = 33 ∨ b = 35 ∨ b = 36 ∨ b = 64) → s = b :: r → False := by
    rintro b r hb rfl
    rw [isName_cons_mark hb] at h
    cases h
  unfold readOperand
  split
  · rw [isName, Text.glyphs_nil] at h
    cases h
  · exact (hmark (by decide) rfl).elim
  · exact (hmark (by decide) rfl).elim
  · exact (hmark (by decide) rfl).elim
  · exact (hmark (by decide) rfl).elim
  · exact if_pos h

/-- **A label is read as its index** wherever an operand names it. -/
theorem addressAt?_of_namedAt (hnamed : NamedAt name place s) (hlabel : labels.index? name = some k)
    (h : readOperand labels s = .ok op) : addressAt? place op = some (UInt64.ofNat k) := by
  have hread : readAddress labels name = .ok (UInt64.ofNat k) := by rw [readAddress, hlabel]
  cases hnamed with
  | bare hname =>
    rw [readOperand_name hname, hread] at h
    cases h
    rfl
  | slot h91 h46 =>
    rw [readOperand, readSlot_absolute ⟨h91, h46⟩, hread] at h
    cases h
    rfl
  | static =>
    rw [readOperand, hread] at h
    cases h
    rfl
  | indexed h91 =>
    rw [readOperand, readSlot_index h91, hread] at h
    obtain ⟨_, _, rfl⟩ := Except.map_eq_ok.1 h
    rfl
  | index h91 hhead =>
    rw [readOperand, readSlot_index h91, if_neg hhead, hread] at h
    obtain ⟨_, _, h⟩ := Except.bind_eq_ok.1 h
    cases h
    rfl
  | dollarIndex h91 =>
    rw [readOperand, readSlot_index h91, if_pos List.head?_cons, List.drop_one, List.tail_cons,
      hread] at h
    obtain ⟨_, _, h⟩ := Except.bind_eq_ok.1 h
    cases h
    rfl
  | owner h91 h46 hordinal =>
    rw [readOperand, readSlot_property ⟨h91, h46⟩ hordinal, hread] at h
    obtain ⟨_, _, rfl⟩ := Except.map_eq_ok.1 h
    rfl
  | ordinal h91 h46 hname =>
    rw [readOperand, readSlot_property ⟨h91, h46⟩ hname, hread] at h
    obtain ⟨_, _, h⟩ := Except.bind_eq_ok.1 h
    cases h
    rfl

end

/-! ## The program -/

variable {src : Bytes} {arch : Arch} {p : Program} {o : Outline} {name text : Bytes} {j k l : Nat}

/-- No name is defined by an empty line. -/
theorem ne_nil_of_definedName? (h : definedName? text = some name) : text ≠ [] := by
  rintro rfl
  have hnil : definedName? [] = none := by decide +kernel
  cases hnil.symm.trans h

/-- What the first pass does at a line that is not empty. -/
theorem exists_addLine (ho : Outline.ofSource src = .ok o)
    (hline : (sourceLines src)[l]? = some text) (hne : text ≠ []) :
    ∃ o₁ o₂ n, Outline.Changes {} ((lineKinds src).take l) o₁ ∧ o₁.addLine n text = .ok o₂ ∧
      o₂.Changes ((lineKinds src).drop (l + 1)) o := by
  rw [sourceLines, List.getElem?_map] at hline
  obtain ⟨s, hs, rfl⟩ := Option.map_eq_some_iff.1 hline
  obtain ⟨o₁, o₂, n, hbefore, hadd, hafter⟩ :=
    Outline.exists_addLine_of_addLines (Outline.ofSource_eq_ok ho).1 hs hne
  rw [lineKinds, ← List.map_take, ← List.map_drop]
  exact ⟨o₁, o₂, n, Outline.changes_of_addLines hbefore, hadd, Outline.changes_of_addLines hafter⟩

/-- The number that the first pass has arrived at. -/
theorem count_eq_indexOfLine (h : Outline.Changes {} ((lineKinds src).take l) o) :
    o.count = indexOfLine src l :=
  h.count.trans (Nat.zero_add _)

/-- **What a name means in the end.** -/
theorem index?_of_definedName? (ho : Outline.ofSource src = .ok o)
    (hline : (sourceLines src)[j]? = some text) (hname : definedName? text = some name) :
    ∃ k, o.labels.index? name = some k ∧ k ≤ codeLength (lineKinds src) ∧
      ((∀ f hash, .function f hash ∈ lineKinds src → endLabel f ≠ name) → k = indexOfLine src j) ∧
      ∀ before f hash after, lineKinds src = before ++ .function f hash :: after →
        endLabel f = name →
        ∃ body, bodyOf 0 after = some body ∧
          k = codeLength (before ++ .function f hash :: body) := by
  obtain ⟨hchanges, hopened⟩ := Outline.changes_of_ofSource ho
  have hlaid := Outline.Laid.empty.changes hchanges
  have hcount : o.count = codeLength (lineKinds src) := hchanges.count.trans (Nat.zero_add _)
  -- A function of the source is closed where the matching `.end` stands, and that is its label in
  -- the end.
  have hclosed : ∀ {before f hash after}, lineKinds src = before ++ .function f hash :: after →
      ∃ body, bodyOf 0 after = some body ∧
        ⟨⟨f, hash, codeLength before⟩, codeLength (before ++ .function f hash :: body)⟩ ∈
          o.closed := by
    intro before f hash after hsplit
    obtain ⟨body, hbody, hmem⟩ := Outline.exists_closed (hsplit ▸ hchanges) hopened
    exact ⟨body, hbody, by rwa [codeLength_append, codeLength_cons]⟩
  obtain ⟨o₁, o₂, n, hbefore, hadd, hafter⟩ :=
    exists_addLine ho hline (ne_nil_of_definedName? hname)
  obtain ⟨_, hlabels⟩ := Outline.labels_of_definedName? hadd hname
  have hdefined : o₂.labels.index? name = some o₁.count := by
    rw [hlabels, Outline.index?_cons, if_pos rfl]
  by_cases hends : ∀ x ∈ o.closed, endLabel x.name ≠ name
  · rw [count_eq_indexOfLine hbefore] at hdefined
    refine ⟨_, hafter.index?_of_not_end hdefined hends, indexOfLine_le src j, fun _ => rfl, ?_⟩
    intro before f hash after hsplit hname
    obtain ⟨body, _, hmem⟩ := hclosed hsplit
    exact absurd hname (hends _ hmem)
  · simp only [not_forall, not_not] at hends
    obtain ⟨x, hx, hname⟩ := hends
    obtain ⟨hstop, _, hle⟩ := hlaid.stop x hx
    rw [hname] at hstop
    refine ⟨x.stop, hstop, hcount ▸ hle, fun hno => ?_, ?_⟩
    · rcases hchanges.functions_from (Outline.mem_functions_of_closed hx) with hnone | hline
      · cases hnone
      · exact absurd hname (hno _ _ hline)
    · rintro before f hash after hsplit rfl
      obtain ⟨body, hbody, hmem⟩ := hclosed hsplit
      exact ⟨body, hbody, Option.some.inj (hstop.symm.trans (hlaid.stop _ hmem).1)⟩

/-- No line defines a name that a line before it defines. -/
theorem not_defined_before {text' : Bytes} (ho : Outline.ofSource src = .ok o) (hlt : j < l)
    (hline : (sourceLines src)[j]? = some text) (hname : definedName? text = some name)
    (hline' : (sourceLines src)[l]? = some text') : definedName? text' ≠ some name := by
  intro hname'
  rw [sourceLines, List.getElem?_map] at hline hline'
  obtain ⟨s, hs, rfl⟩ := Option.map_eq_some_iff.1 hline
  obtain ⟨s', hs', rfl⟩ := Option.map_eq_some_iff.1 hline'
  obtain ⟨o₁, o₂, n, hbefore, hadd, _⟩ :=
    Outline.exists_addLine_of_addLines (Outline.ofSource_eq_ok ho).1
    hs' (ne_nil_of_definedName? hname')
  have htake : ((Text.lines Text.lineLimit src).lines.take l)[j]? = some s := by
    rwa [List.getElem?_take_of_lt hlt]
  obtain ⟨o₃, o₄, n', _, hadd', hbetween⟩ := Outline.exists_addLine_of_addLines hbefore htake
    (ne_nil_of_definedName? hname)
  have hknown : o₄.labels.index? name ≠ none := by
    rw [(Outline.labels_of_definedName? hadd' hname).2, Outline.index?_cons, if_pos rfl]
    exact nofun
  exact (Outline.changes_of_addLines hbetween).index?_ne_none hknown
    (Outline.labels_of_definedName? hadd hname').1

/-- An instruction is where its line stands, and has the operand that its line says. -/
theorem instruction_of_line (hp : assemble src arch = .ok p)
    (hline : (sourceLines src)[l]? = some text) (hkind : lineKind text = .instruction) :
    ∃ o i, Outline.ofSource src = .ok o ∧
      p.instructions[indexOfLine src l]? = some i ∧
      readOperand o.labels (Text.headAndTail text).2 = .ok i.operand := by
  obtain ⟨o, is, natives, code, offsets, ho, his, _, _, _, rfl⟩ := assemble_eq_ok hp
  have hne : text ≠ [] := by
    rintro rfl
    cases lineKind_nil.symm.trans hkind
  obtain ⟨o₁, o₂, n, hbefore, hadd, hafter⟩ := exists_addLine ho hline hne
  obtain ⟨m, hitems⟩ := Outline.items_of_instruction hadd hkind
  have hlaid := Outline.Laid.empty.changes hbefore
  have hitem : o.items.reverse[indexOfLine src l]? =
      some ⟨n, m, .text (Text.headAndTail text).2⟩ := by
    obtain ⟨later, hlater⟩ := hafter.items_suffix
    rw [← hlater, hitems, ← count_eq_indexOfLine hbefore, ← hlaid.count]
    simp
  have hread := forall₂_getElem? (Except.mapM_eq_ok.1 his) (indexOfLine src l)
  rw [hitem] at hread
  generalize hi : is[indexOfLine src l]? = i at hread
  cases hread with
  | some h => exact ⟨o, _, ho, by simpa using hi, (instruction_eq_ok_iff.1 h).2.1⟩

/-- **Names mean one index throughout a source.** Where a source that is assembled defines a name,
no other line defines it, and there is one number that every operand with the name has in the
program, in the instruction of its line: where an address stands, and as the body of an integer
literal at any depth in arrays, there cut to the declared width. The number is that of the
instructions before the definition, unless the source has a function whose end has the name, and
then it is the index where that function ends. The length of a source is a 64-bit number with a
sign. -/
theorem names_resolve (hp : assemble src arch = .ok p) (hsrc : src.length < 2 ^ 63)
    (hline : (sourceLines src)[j]? = some text) (hname : definedName? text = some name) :
    (∀ j' text', (sourceLines src)[j']? = some text' → definedName? text' = some name → j' = j) ∧
    ∃ k, ((∀ f hash, .function f hash ∈ lineKinds src → endLabel f ≠ name) →
      k = indexOfLine src j) ∧
      (∀ before f hash after, lineKinds src = before ++ .function f hash :: after →
        endLabel f = name →
        ∃ body, bodyOf 0 after = some body ∧ k = codeLength (before ++ .function f hash :: body)) ∧
      ∀ l text', (sourceLines src)[l]? = some text' → lineKind text' = .instruction →
        ∃ i, p.instructions[indexOfLine src l]? = some i ∧
          (∀ place, NamedAt name place (Text.headAndTail text').2 →
            ∃ a, addressAt? place i.operand = some a ∧ a.toNat = k) ∧
          ∀ s path part w, (Text.headAndTail text').2 = 35 :: s →
            Literal.partAt? (Text.trim s) path = some part →
              Literal.integer? part = some (w, name) →
            ∃ v b, i.operand = .immediate v ∧ v.partAt? path = some (.int w b) ∧
              (b.toInt = k ↔ k < 2 ^ (w.bits - 1)) := by
  obtain ⟨o, _, _, _, _, ho, _⟩ := assemble_eq_ok hp
  obtain ⟨k, hk, hle, hplain, hend⟩ := index?_of_definedName? ho hline hname
  have hsmall : k < 2 ^ 63 := by
    have := codeLength_lineKinds_le src
    omega
  refine ⟨fun j' text' hline' hname' => ?_, k, hplain, hend, fun l text' hline' hkind => ?_⟩
  · rcases Nat.lt_trichotomy j' j with hlt | heq | hlt
    · exact absurd hname (not_defined_before ho hlt hline' hname' hline)
    · exact heq
    · exact absurd hname' (not_defined_before ho hlt hline hname hline')
  · obtain ⟨o', i, ho', hi, hread⟩ := instruction_of_line hp hline' hkind
    cases ho.symm.trans ho'
    refine ⟨i, hi, fun place hnamed => ?_, fun s path part w htext hpart hint => ?_⟩
    · refine ⟨_, addressAt?_of_namedAt hnamed hk hread, ?_⟩
      rw [UInt64.toNat_ofNat']
      omega
    · rw [htext] at hread
      obtain ⟨v, hv, hliteral⟩ := readOperand_immediate.1 hread
      obtain ⟨n, hn, ⟨k', hk', rfl⟩ | ⟨hnone, _⟩⟩ :=
        Literal.exists_int_of_readLevels hliteral hpart hint
      · cases hk.symm.trans hk'
        exact ⟨v, _, hv, hn, IntWidth.toInt_ofInt_eq_iff.trans IntWidth.inRange_natCast⟩
      · cases hk.symm.trans hnone

/-- A label that is named within a function before its definition, and one with the name of the end
of that function. -/
def namesSample : Bytes :=
  utf8 ".fn main 1\nf.end:\n.fn f 2\nLDA #(array)[(int8)skip]\n.end\nJMP f.end\nskip:\nRET\n.end\n"

/-- The first label has the index of its definition, the second one the index where the function
ends, which is not where it is defined. -/
theorem names_resolve_namesSample : ∃ p, assemble namesSample .b64 = .ok p ∧
    (∃ i v b, p.instructions[4]? = some i ∧ i.operand = .immediate v ∧
      v.partAt? [0] = some (.int .w8 b) ∧ b.toInt = 6) ∧
    ∃ i a, p.instructions[5]? = some i ∧ addressAt? .slot i.operand = some a ∧ a.toNat = 5 := by
  obtain ⟨p, hp⟩ : ∃ p, assemble namesSample .b64 = .ok p := by
    have hsome : (assemble namesSample .b64).toOption.isSome = true := by decide +kernel
    cases hassemble : assemble namesSample .b64 with
    | error e =>
      rw [hassemble] at hsome
      cases hsome
    | ok p => exact ⟨p, rfl⟩
  have hsize : namesSample.length < 2 ^ 63 := by decide +kernel
  have hlines : sourceLines namesSample = [utf8 ".fn main 1", utf8 "f.end:", utf8 ".fn f 2",
      utf8 "LDA #(array)[(int8)skip]", utf8 ".end", utf8 "JMP f.end", utf8 "skip:", utf8 "RET",
      utf8 ".end"] := by
    decide +kernel
  have hkinds : lineKinds namesSample = [.function (utf8 "main") 1, .other] ++
      .function (utf8 "f") 2 :: [.instruction, .stop, .instruction, .other, .instruction,
        .stop] := by
    decide +kernel
  have hindex : ∀ l, indexOfLine namesSample l = codeLength (List.take l (lineKinds namesSample)) :=
    fun _ => rfl
  rw [hkinds] at hindex
  have hskip : definedName? (utf8 "skip:") = some (utf8 "skip") := by decide +kernel
  obtain ⟨_, k, hk, _, hskips⟩ := names_resolve hp hsize (by rw [hlines]; rfl : _[6]? = _) hskip
  obtain rfl : k = 6 := by
    rw [hindex] at hk
    refine hk fun f hash hmem => ?_
    simp only [hkinds, List.cons_append, List.nil_append, List.mem_cons, reduceCtorEq,
      LineKind.function.injEq, false_or, or_false, List.not_mem_nil] at hmem
    obtain ⟨rfl, _⟩ | ⟨rfl, _⟩ := hmem <;> decide +kernel
  have hend : definedName? (utf8 "f.end:") = some (utf8 "f.end") := by decide +kernel
  obtain ⟨_, k, _, hk, hends⟩ := names_resolve hp hsize (by rw [hlines]; rfl : _[1]? = _) hend
  obtain ⟨body, hbody, rfl⟩ := hk _ _ _ _ hkinds rfl
  cases hbody
  have hload : (Text.headAndTail (utf8 "LDA #(array)[(int8)skip]")).2 =
      35 :: utf8 "(array)[(int8)skip]" := by
    decide +kernel
  have hpart : Literal.partAt? (Text.trim (utf8 "(array)[(int8)skip]")) [0] =
      some (utf8 "(int8)skip") := by
    decide +kernel
  have hjump : (Text.headAndTail (utf8 "JMP f.end")).2 = utf8 "f.end" := by decide +kernel
  obtain ⟨i, hi, _, hint⟩ := hskips 3 _ (by rw [hlines]; rfl) (by decide +kernel)
  obtain ⟨j, hj, hplace, _⟩ := hends 5 _ (by rw [hlines]; rfl) (by decide +kernel)
  obtain ⟨v, b, hv, hb, hvalue⟩ := hint _ [0] _ .w8 hload hpart (by decide +kernel)
  obtain ⟨a, ha, haddress⟩ := hplace .slot (hjump ▸ .bare (by decide +kernel))
  rw [hindex] at hi hj
  exact ⟨p, hp, ⟨i, v, b, hi, hv, hb, hvalue.2 (by decide)⟩, j, a, hj, ha, haddress⟩

end RegisterMachine.Assembly
