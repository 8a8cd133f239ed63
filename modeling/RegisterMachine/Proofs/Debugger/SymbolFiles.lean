import RegisterMachine.Proofs.Debugger.SymbolLines
import RegisterMachine.Proofs.Fallible

/-!
# Debug files say what was printed

The lines of a debug file that are not blank are module lines, the line that ends them, and header
lines (`Symbols.SaidBy`); the reader accepts these and nothing else (`Symbols.parse_eq_ok_iff`), and
otherwise it reports the first line that does not fit where it stands (`parseModules_eq_error`).
Symbols are printed with spaces around their fields, with blank lines anywhere and with either kind
of line end (`Symbols.PrintsAs`). What is printed so says the symbols, and `symbols_parsed` gets
them back.
-/

namespace RegisterMachine.Debugger

variable {line text x : Bytes} {before ls : List Bytes} {n i : Nat}

/-! ## Lines where they stand -/

/-- The line may stand behind the line that ends the modules. -/
def FitsHeaders (line : Bytes) : Prop := isBlank line = true ∨ ∃ h, IsHeaderLine line h

/-- The line may stand where the line that ends the modules did not come yet. -/
def FitsModules (line : Bytes) : Prop :=
  isBlank line = true ∨ line = moduleEnd ∨ ∃ m, IsModuleLine line m

/-- The line may stand behind the lines before it. -/
def Fits (before : List Bytes) (line : Bytes) : Prop :=
  if moduleEnd ∈ before then FitsHeaders line else FitsModules line

/-- Every line may stand where it is. -/
def AllFit (ls : List Bytes) : Prop :=
  ∀ before line after, ls = before ++ line :: after → Fits before line

/-- The line behind the first `i` ones is the first that may not stand where it is. -/
def FirstMisfit (ls : List Bytes) (i : Nat) : Prop :=
  ∃ before line after, ls = before ++ line :: after ∧ before.length = i ∧ AllFit before ∧
    ¬Fits before line

/-- The first line of a text has to be one of modules. -/
theorem fits_nil : Fits [] line ↔ FitsModules line := by
  rw [Fits, if_neg List.not_mem_nil]

/-- Behind the line that ends the modules, a line has to be one of headers. -/
theorem fits_moduleEnd_cons : Fits (moduleEnd :: before) line ↔ FitsHeaders line := by
  rw [Fits, if_pos List.mem_cons_self]

/-- Behind any other line, what has to follow is what had to before. -/
theorem fits_cons_of_ne (hx : x ≠ moduleEnd) : Fits (x :: before) line ↔ Fits before line := by
  simp only [Fits, List.mem_cons, Ne.symm hx, false_or]

/-- A text without lines fits. -/
theorem AllFit.nil : AllFit [] := fun before _ _ h => by cases before <;> cases h

/-- Lines fit exactly if the first does and each of the others does behind those before it. -/
theorem allFit_cons_iff : AllFit (x :: ls) ↔
    FitsModules x ∧ ∀ before line after, ls = before ++ line :: after →
      Fits (x :: before) line := by
  constructor
  · intro h
    refine ⟨fits_nil.1 (h [] x ls rfl), fun before line after heq => ?_⟩
    exact h (x :: before) line after (by rw [heq, List.cons_append])
  · rintro ⟨hx, h⟩ before line after heq
    cases before with
    | nil =>
      obtain ⟨rfl, _⟩ := List.cons.inj heq
      exact fits_nil.2 hx
    | cons y before =>
      obtain ⟨rfl, htail⟩ := List.cons.inj heq
      exact h before line after htail

/-- Lines fit if the first is one of modules and the others fit. -/
theorem AllFit.cons (hne : x ≠ moduleEnd) (hx : FitsModules x) (h : AllFit ls) : AllFit (x :: ls) :=
  allFit_cons_iff.2 ⟨hx, fun before line after heq =>
    (fits_cons_of_ne hne).2 (h before line after heq)⟩

/-- Headers fit behind the end of the modules. -/
theorem allFit_moduleEnd_cons (h : ∀ line ∈ ls, FitsHeaders line) : AllFit (moduleEnd :: ls) := by
  refine allFit_cons_iff.2 ⟨.inr (.inl rfl),
    fun before line after heq => fits_moduleEnd_cons.2 (h line ?_)⟩
  rw [heq]
  exact List.mem_append_right _ List.mem_cons_self

/-- A first line that is none of modules is the first misfit. -/
theorem FirstMisfit.here (h : ¬FitsModules x) : FirstMisfit (x :: ls) 0 :=
  ⟨[], x, ls, rfl, rfl, .nil, mt fits_nil.1 h⟩

/-- Behind a line of modules, the first misfit is that of the other lines. -/
theorem FirstMisfit.cons (hne : x ≠ moduleEnd) (hx : FitsModules x) (h : FirstMisfit ls i) :
    FirstMisfit (x :: ls) (i + 1) := by
  obtain ⟨before, line, after, rfl, rfl, hfit, hnot⟩ := h
  exact ⟨x :: before, line, after, rfl, rfl, hfit.cons hne hx, mt (fits_cons_of_ne hne).1 hnot⟩

/-- A line with a visible character is not blank. -/
theorem isBlank_of_mem {b : UInt8} (hb : Text.isVisible b = true) (h : b ∈ line) :
    isBlank line = false := by
  rw [isBlank, List.isEmpty_eq_false_iff]
  exact List.ne_nil_of_mem (Text.mem_trim hb h)

/-- A blank line does not end the modules. -/
theorem ne_moduleEnd_of_isBlank (h : isBlank x = true) : x ≠ moduleEnd := by
  rintro rfl
  rw [isBlank_of_mem (b := 45) (by decide) (by decide)] at h
  cases h

/-- There is an `F` in the line of a module. -/
theorem IsModuleLine.mem {m : ModuleInfo} (h : IsModuleLine line m) : 70 ∈ line := by
  obtain ⟨info, path, _, _, hcut, _⟩ := h
  rw [hcut.eq]
  exact List.mem_append_right _ (List.mem_append_left _ (by decide))

/-- The line of a module does not end the modules. -/
theorem IsModuleLine.ne_moduleEnd {m : ModuleInfo} (h : IsModuleLine line m) :
    line ≠ moduleEnd := by
  rintro rfl
  exact absurd h.mem (by decide)

/-- There is an `F` in the line of a header. -/
theorem IsHeaderLine.mem {h : Header} (hline : IsHeaderLine line h) : 70 ∈ line := by
  obtain ⟨_, _, _, _, _, _, _, _, _, _, _, hsplit, _⟩ := hline
  cases hsplit with
  | cut hcut _ =>
    rw [hcut.eq]
    exact List.mem_append_right _ (List.mem_append_left _ (by decide))

/-- There is no space in the mark between fields. -/
theorem space_not_mem_fieldMark : 32 ∉ fieldMark := by decide

/-- There is no space in the mark behind the name of a module. -/
theorem space_not_mem_moduleMark : 32 ∉ moduleMark := by decide

/-! ## The reader of lines -/

/-- The lines say what the symbols are: module lines, the line that ends them, and header lines,
where blank lines do not count. -/
def Symbols.SaidBy (s : Symbols) (ls : List Bytes) : Prop :=
  ∃ ms hs, ls.filter (!isBlank ·) = ms ++ moduleEnd :: hs ∧
    List.Forall₂ IsModuleLine ms s.modules ∧ List.Forall₂ IsHeaderLine hs s.headers

/-- A blank line is left out. -/
theorem filter_of_isBlank (h : isBlank x = true) :
    (x :: ls).filter (!isBlank ·) = ls.filter (!isBlank ·) :=
  List.filter_cons_of_neg (by simp [h])

/-- A line that is not blank is kept. -/
theorem filter_of_not_isBlank (h : ¬isBlank x = true) :
    (x :: ls).filter (!isBlank ·) = x :: ls.filter (!isBlank ·) :=
  List.filter_cons_of_pos (by simp [h])

/-- **Headers are read exactly if every line that is not blank is one.** -/
theorem parseHeaders_eq_ok_iff {hs : List Header} :
    parseHeaders n ls = .ok hs ↔ List.Forall₂ IsHeaderLine (ls.filter (!isBlank ·)) hs := by
  induction ls generalizing n hs with
  | nil =>
    rw [parseHeaders, List.filter_nil, List.forall₂_nil_left_iff, Except.ok.injEq]
    exact eq_comm
  | cons x ls ih =>
    rw [parseHeaders]
    split
    · next hblank => rw [filter_of_isBlank hblank, ih]
    · next hblank =>
      rw [filter_of_not_isBlank hblank, List.forall₂_cons_left_iff]
      split
      · next hparse =>
        exact iff_of_false nofun fun ⟨h, _, hline, _⟩ =>
          Header.parse?_eq_none_iff.1 hparse ⟨h, hline⟩
      · next h hparse =>
        rw [Except.map_eq_ok]
        constructor
        · rintro ⟨hs, hrest, rfl⟩
          exact ⟨h, hs, Header.parse?_eq_some_iff.1 hparse, ih.1 hrest, rfl⟩
        · rintro ⟨h', hs, hline, hrest, rfl⟩
          cases hparse.symm.trans (Header.parse?_eq_some_iff.2 hline)
          exact ⟨hs, ih.2 hrest, rfl⟩

/-- If headers are not read, a line is not one, and the first such line is reported. -/
theorem parseHeaders_eq_error {e : SymbolError} (h : parseHeaders n ls = .error e) :
    ∃ i, FirstMisfit (moduleEnd :: ls) (i + 1) ∧ e = .broken (n + i) := by
  suffices ∃ before line after, ls = before ++ line :: after ∧ (∀ line ∈ before, FitsHeaders line) ∧
      ¬FitsHeaders line ∧ e = .broken (n + before.length) by
    obtain ⟨before, line, after, rfl, hbefore, hnot, he⟩ := this
    exact ⟨before.length, ⟨moduleEnd :: before, line, after, rfl, rfl,
      allFit_moduleEnd_cons hbefore, mt fits_moduleEnd_cons.1 hnot⟩, he⟩
  induction ls generalizing n with
  | nil => cases h
  | cons x ls ih =>
    -- A line that fits comes before what is found behind it.
    have hstep (hx : FitsHeaders x) (h : parseHeaders (n + 1) ls = .error e) :
        ∃ before line after, x :: ls = before ++ line :: after ∧
          (∀ line ∈ before, FitsHeaders line) ∧
          ¬FitsHeaders line ∧ e = .broken (n + before.length) := by
      obtain ⟨before, line, after, rfl, hbefore, hnot, rfl⟩ := ih h
      refine ⟨x :: before, line, after, rfl, List.forall_mem_cons.2 ⟨hx, hbefore⟩, hnot, ?_⟩
      rw [List.length_cons, Nat.add_right_comm, Nat.add_assoc]
    rw [parseHeaders] at h
    split at h
    · next hblank => exact hstep (.inl hblank) h
    · next hblank =>
      split at h
      · next hparse =>
        cases h
        refine ⟨[], x, ls, rfl, List.forall_mem_nil _, ?_, rfl⟩
        exact fun h => h.elim hblank (Header.parse?_eq_none_iff.1 hparse)
      · next h' hparse =>
        exact hstep (.inr ⟨h', Header.parse?_eq_some_iff.1 hparse⟩) (Except.map_eq_error.1 h)

/-- Blank lines say nothing. -/
theorem saidBy_of_isBlank {s : Symbols} (h : isBlank x = true) :
    s.SaidBy (x :: ls) ↔ s.SaidBy ls := by
  rw [Symbols.SaidBy, Symbols.SaidBy, filter_of_isBlank h]

/-- Behind the line that ends the modules there are only headers. -/
theorem saidBy_moduleEnd_cons {s : Symbols} : s.SaidBy (moduleEnd :: ls) ↔
    s.modules = [] ∧ List.Forall₂ IsHeaderLine (ls.filter (!isBlank ·)) s.headers := by
  have hblank : ¬isBlank moduleEnd = true := fun h => ne_moduleEnd_of_isBlank h rfl
  rw [Symbols.SaidBy, filter_of_not_isBlank hblank]
  constructor
  · rintro ⟨ms, hs, hfilter, hms, hhs⟩
    cases ms with
    | nil =>
      obtain ⟨_, rfl⟩ := List.cons.inj hfilter
      exact ⟨List.forall₂_nil_left_iff.1 hms, hhs⟩
    | cons y ms =>
      obtain ⟨m, _, hm, _⟩ := List.forall₂_cons_left_iff.1 hms
      exact absurd (List.cons.inj hfilter).1.symm hm.ne_moduleEnd
  · rintro ⟨hms, hhs⟩
    exact ⟨[], _, rfl, hms ▸ .nil, hhs⟩

/-- Before it, a line that is not blank is one of the modules. -/
theorem saidBy_cons {s : Symbols} (hblank : ¬isBlank x = true) (hne : x ≠ moduleEnd) :
    s.SaidBy (x :: ls) ↔
    ∃ m ms, IsModuleLine x m ∧ Symbols.SaidBy { s with modules := ms } ls ∧
      s.modules = m :: ms := by
  rw [Symbols.SaidBy, filter_of_not_isBlank hblank]
  constructor
  · rintro ⟨lines, hs, hfilter, hms, hhs⟩
    cases lines with
    | nil => exact absurd (List.cons.inj hfilter).1 hne
    | cons y lines =>
      obtain ⟨rfl, hrest⟩ := List.cons.inj hfilter
      obtain ⟨m, ms, hm, hms, heq⟩ := List.forall₂_cons_left_iff.1 hms
      exact ⟨m, ms, hm, ⟨lines, hs, hrest, hms, hhs⟩, heq⟩
  · rintro ⟨m, ms, hm, ⟨lines, hs, hfilter, hms, hhs⟩, heq⟩
    exact ⟨x :: lines, hs, by rw [hfilter, List.cons_append], heq ▸ .cons hm hms, hhs⟩

/-- **The reader of lines** accepts lines that say what the symbols are. -/
theorem parseModules_eq_ok_iff {s : Symbols} : parseModules n ls = .ok (s, true) ↔ s.SaidBy ls := by
  induction ls generalizing n s with
  | nil =>
    refine iff_of_false nofun ?_
    rintro ⟨ms, hs, hfilter, _⟩
    cases ms <;> cases hfilter
  | cons x ls ih =>
    rw [parseModules]
    split
    · next hblank => rw [saidBy_of_isBlank hblank, ih]
    · next hblank =>
      split
      · next heq =>
        subst heq
        rw [saidBy_moduleEnd_cons, Except.map_eq_ok]
        obtain ⟨modules, headers⟩ := s
        constructor
        · rintro ⟨hs, hrest, ⟨⟩⟩
          exact ⟨rfl, parseHeaders_eq_ok_iff.1 hrest⟩
        · rintro ⟨rfl, hhs⟩
          exact ⟨headers, parseHeaders_eq_ok_iff.2 hhs, rfl⟩
      · next hne =>
        rw [saidBy_cons hblank hne]
        split
        · next hparse =>
          exact iff_of_false nofun fun ⟨m, _, hm, _⟩ =>
            ModuleInfo.parse?_eq_none_iff.1 hparse ⟨m, hm⟩
        · next m hparse =>
          rw [Except.map_eq_ok]
          obtain ⟨modules, headers⟩ := s
          constructor
          · rintro ⟨⟨s, ended⟩, hrest, heq⟩
            cases heq
            exact ⟨m, s.modules, ModuleInfo.parse?_eq_some_iff.1 hparse, ih.1 hrest, rfl⟩
          · rintro ⟨m', ms, hm, hrest, heq⟩
            cases heq
            cases hparse.symm.trans (ModuleInfo.parse?_eq_some_iff.2 hm)
            exact ⟨({ modules := ms, headers }, true), ih.2 hrest, rfl⟩

/-- **Where the reader fails**, it reports the first line that may not stand where it is. -/
theorem parseModules_eq_error {e : SymbolError} (h : parseModules n ls = .error e) :
    ∃ i, FirstMisfit ls i ∧ e = .broken (n + i) := by
  induction ls generalizing n with
  | nil => cases h
  | cons x ls ih =>
    have hstep (hne : x ≠ moduleEnd) (hx : FitsModules x) (h : parseModules (n + 1) ls = .error e) :
        ∃ i, FirstMisfit (x :: ls) i ∧ e = .broken (n + i) := by
      obtain ⟨i, hmisfit, rfl⟩ := ih h
      exact ⟨i + 1, hmisfit.cons hne hx, by rw [Nat.add_right_comm, Nat.add_assoc]⟩
    rw [parseModules] at h
    split at h
    · next hblank => exact hstep (ne_moduleEnd_of_isBlank hblank) (.inl hblank) h
    · next hblank =>
      split at h
      · next heq =>
        subst heq
        obtain ⟨i, hmisfit, rfl⟩ := parseHeaders_eq_error (Except.map_eq_error.1 h)
        exact ⟨i + 1, hmisfit, by rw [Nat.add_right_comm, Nat.add_assoc]⟩
      · next hne =>
        split at h
        · next hparse =>
          cases h
          refine ⟨0, .here ?_, rfl⟩
          rintro (h | h | h)
          · exact hblank h
          · exact hne h
          · exact ModuleInfo.parse?_eq_none_iff.1 hparse h
        · next m hparse =>
          exact hstep hne (.inr (.inr ⟨m, ModuleInfo.parse?_eq_some_iff.1 hparse⟩))
            (Except.map_eq_error.1 h)

/-- Where the line that ends the modules is missing, all lines fit. -/
theorem allFit_of_parseModules {s : Symbols} (h : parseModules n ls = .ok (s, false)) :
    AllFit ls ∧ moduleEnd ∉ ls := by
  induction ls generalizing n s with
  | nil => exact ⟨.nil, List.not_mem_nil⟩
  | cons x ls ih =>
    have hstep {s : Symbols} (hne : x ≠ moduleEnd) (hx : FitsModules x)
        (h : parseModules (n + 1) ls = .ok (s, false)) : AllFit (x :: ls) ∧ moduleEnd ∉ x :: ls :=
      ⟨(ih h).1.cons hne hx, List.not_mem_cons_of_ne_of_not_mem hne.symm (ih h).2⟩
    rw [parseModules] at h
    split at h
    · next hblank => exact hstep (ne_moduleEnd_of_isBlank hblank) (.inl hblank) h
    · next hblank =>
      split at h
      · obtain ⟨_, _, heq⟩ := Except.map_eq_ok.1 h
        cases heq
      · next hne =>
        split at h
        · cases h
        · next m hparse =>
          obtain ⟨⟨s, ended⟩, hrest, heq⟩ := Except.map_eq_ok.1 h
          cases heq
          exact hstep hne (.inr (.inr ⟨m, ModuleInfo.parse?_eq_some_iff.1 hparse⟩)) hrest

/-- The lines of a file that are short enough decide what it is read as. -/
theorem Symbols.parse_of_linesOf (h : LinesOf text ls) (hls : ∀ line ∈ ls, IsLine line)
    (hshort : ∀ part ∈ Bytes.splitOn 10 text, part.length < symbolLineLimit) :
    Symbols.parse text = (parseModules 1 ls).bind fun (s, ended) =>
      if ended then .ok s else .error (.broken ls.length) := by
  obtain ⟨hlines, hoverlong⟩ := lines_of_linesOf h hls hshort
  have hlength := congrArg List.length hlines
  rw [List.length_map] at hlength
  simp only [Symbols.parse, hlines, hoverlong, hlength]
  cases parseModules 1 ls <;> rfl

/-- **A file is read as symbols** when its lines say them. -/
theorem Symbols.parse_eq_ok_iff {s : Symbols} (h : LinesOf text ls) (hls : ∀ line ∈ ls, IsLine line)
    (hshort : ∀ part ∈ Bytes.splitOn 10 text, part.length < symbolLineLimit) :
    Symbols.parse text = .ok s ↔ s.SaidBy ls := by
  rw [Symbols.parse_of_linesOf h hls hshort, ← parseModules_eq_ok_iff (n := 1)]
  constructor
  · intro hparse
    obtain ⟨⟨s', ended⟩, hmodules, hend⟩ := Except.bind_eq_ok.1 hparse
    cases ended <;> cases hend
    exact hmodules
  · intro hmodules
    rw [hmodules]
    rfl

/-! ## Printing -/

/-- The text may be a name or a path: it is trimmed, and it holds no newline and no mark. -/
structure IsField (field : Bytes) : Prop where
  trimmed : Text.trim field = field
  noNewline : 10 ∉ field
  noModuleMark : ¬moduleMark <:+: field
  noFieldMark : ¬fieldMark <:+: field

/-- The name and the path may be printed. A path that is a dash would be read as no path. -/
structure ModuleInfo.Printable (m : ModuleInfo) : Prop where
  name : IsField m.name
  path : IsField m.path
  path_ne : m.path ≠ [45]

/-- The line is the module, with any spaces around its fields and a dash for an empty path. -/
def ModuleInfo.PrintsAs (m : ModuleInfo) (line : Bytes) : Prop :=
  ∃ name hash path, Text.Padded m.name name ∧ Text.Padded (Number.decimal m.hash.toNat) hash ∧
    Text.Padded (if m.path = [] then [45] else m.path) path ∧
    line = name ++ (utf8 " E-E " ++ (hash ++ (utf8 " F:F " ++ path)))

/-- The signed numbers of a header. -/
def Header.positions (h : Header) : List Int :=
  [h.start, h.stop, h.range.startLine, h.range.startColumn, h.range.endLine, h.range.endColumn]

/-- The names may be printed, and the signed numbers are not negative and fit 64 bits. -/
structure Header.Printable (h : Header) : Prop where
  module : IsField h.module
  name : IsField h.name
  positions : ∀ i ∈ h.positions, 0 ≤ i ∧ i < 2 ^ 63

/-- The fields of a header in the order in which they are printed. -/
def Header.fields (h : Header) : List Bytes :=
  [Number.decimal h.start.toNat, Number.decimal h.stop.toNat, h.module,
    Number.decimal h.moduleHash.toNat, h.name, Number.decimal h.range.startLine.toNat,
    Number.decimal h.range.startColumn.toNat,
    Number.decimal h.range.endLine.toNat, Number.decimal h.range.endColumn.toNat,
    Number.decimal h.hash.toNat, Number.decimal h.kind.number]

/-- The line is the header, with any spaces around its fields. -/
def Header.PrintsAs (h : Header) (line : Bytes) : Prop :=
  ∃ texts, List.Forall₂ Text.Padded h.fields texts ∧ line = Bytes.join (utf8 " F:F ") texts

/-- Blank lines are put between, before and behind lines. -/
inductive WithBlanks : List Bytes → List Bytes → Prop
  | nil : WithBlanks [] []
  | blank {line : Bytes} {lines ls : List Bytes} : IsLine line → isBlank line = true →
      WithBlanks lines ls → WithBlanks lines (line :: ls)
  | line {lines ls : List Bytes} (line : Bytes) : WithBlanks lines ls →
      WithBlanks (line :: lines) (line :: ls)

/-- Every module and every header may be printed. -/
structure Symbols.Printable (s : Symbols) : Prop where
  modules : ∀ m ∈ s.modules, m.Printable
  headers : ∀ h ∈ s.headers, h.Printable

/-- The text is a debug file that was printed for the symbols: a line for each module, the line that
ends them and a line for each header, with any blank lines, and with any number of carriage returns
at the ends. -/
def Symbols.PrintsAs (s : Symbols) (text : Bytes) : Prop :=
  ∃ ms hs ls, List.Forall₂ ModuleInfo.PrintsAs s.modules ms ∧
    List.Forall₂ Header.PrintsAs s.headers hs ∧
    WithBlanks (ms ++ moduleEnd :: hs) ls ∧ LinesOf text ls

/-- A field is part of a line. -/
theorem IsField.isLine {field : Bytes} (h : IsField field) : IsLine field :=
  isLine_of_trim h.noNewline h.trimmed

/-- A visible text without marks is a field. -/
theorem isField_of_visible {field : Bytes} (h : field.all Text.isVisible = true)
    (hmodule : ¬moduleMark <:+: field) (hfield : ¬fieldMark <:+: field) : IsField field :=
  have hvisible := List.all_eq_true.1 h
  ⟨Text.trim_of_visible hvisible, fun hmem => absurd (hvisible 10 hmem) (by decide), hmodule,
    hfield⟩

/-- The dash that stands for an empty path is a field. -/
theorem isField_dash : IsField [45] := isField_of_visible (by decide) (by decide) (by decide)

/-- No mark is made of digits. -/
theorem isField_decimal (n : Nat) : IsField (Number.decimal n) := by
  have hdigits : ∀ b ∈ Number.decimal n, 48 ≤ b.toNat ∧ b.toNat ≤ 57 :=
    fun _ => Number.isDigit_of_mem_decimal
  refine isField_of_visible (List.all_eq_true.2 fun b hb => ?_) (fun h => ?_) (fun h => ?_)
  · have := hdigits b hb
    exact Text.isVisible_iff.2 (by omega)
  · exact absurd (hdigits 69 (h.subset (by decide))) (by decide)
  · exact absurd (hdigits 70 (h.subset (by decide))) (by decide)

/-- The path of a module, or the dash in its place, is a field. -/
theorem ModuleInfo.Printable.isField {m : ModuleInfo} (hm : m.Printable) :
    IsField (if m.path = [] then [45] else m.path) := by
  split
  · exact isField_dash
  · exact hm.path

/-- The fields of a header are fields. -/
theorem Header.Printable.isField {h : Header} (hh : h.Printable) :
    ∀ field ∈ h.fields, IsField field := by
  simp only [Header.fields, List.forall_mem_cons, isField_decimal, hh.module, hh.name, true_and]
  exact List.forall_mem_nil _

/-- What a module is printed as is a line. -/
theorem ModuleInfo.PrintsAs.isLine {m : ModuleInfo} (h : m.PrintsAs line) (hm : m.Printable) :
    IsLine line := by
  obtain ⟨name, hash, path, hname, hhash, hpath, rfl⟩ := h
  have hhashLine := (isField_decimal _).isLine.padded hhash
  have hpathLine := hm.isField.isLine.padded hpath
  have hmarks : IsLine (utf8 " E-E ") ∧ IsLine (utf8 " F:F ") :=
    ⟨isLine_of_not_mem (by decide) (by decide), isLine_of_not_mem (by decide) (by decide)⟩
  exact (hm.name.isLine.padded hname).append <| hmarks.1.append <| hhashLine.append <|
    hmarks.2.append hpathLine

/-- **A printed module line** says the module. -/
theorem ModuleInfo.PrintsAs.isModuleLine {m : ModuleInfo} (h : m.PrintsAs line) (hm : m.Printable) :
    IsModuleLine line m := by
  obtain ⟨name, hash, path, hname, hhash, hpath, rfl⟩ := h
  have hinfo : ¬fieldMark <:+: name ++ 32 :: (moduleMark ++ 32 :: hash) := by
    intro h
    rcases Bytes.infix_append_cons fieldMark_ne_nil space_not_mem_fieldMark h with h | h
    · exact hname.not_infix fieldMark_ne_nil space_not_mem_fieldMark hm.name.noFieldMark h
    rcases Bytes.infix_append_cons fieldMark_ne_nil space_not_mem_fieldMark h with h | h
    · exact absurd h (by decide)
    · exact hhash.not_infix fieldMark_ne_nil space_not_mem_fieldMark
        (isField_decimal _).noFieldMark h
  have hmodule : ¬moduleMark <:+: name :=
    hname.not_infix moduleMark_ne_nil space_not_mem_moduleMark hm.name.noModuleMark
  have hfirst := Bytes.cutsAt_of_not_infix space_not_mem_fieldMark hinfo (32 :: path)
  have hsecond := Bytes.cutsAt_of_not_infix space_not_mem_moduleMark hmodule (32 :: hash ++ [32])
  have hpathTrim : Text.trim (32 :: path) = if m.path = [] then [45] else m.path := by
    rw [hpath.space_cons.trim, hm.isField.trimmed]
  refine ⟨name ++ 32 :: (moduleMark ++ 32 :: hash) ++ [32], 32 :: path, name ++ [32],
    32 :: hash ++ [32], ?_, ?_, ?_, isNumber_of_padded hhash.space_cons.append_space, ?_⟩
  · have hmarks : utf8 " E-E " = 32 :: (moduleMark ++ [32]) ∧
        utf8 " F:F " = 32 :: (fieldMark ++ [32]) := ⟨rfl, rfl⟩
    simpa [hmarks.1, hmarks.2] using hfirst
  · simpa using hsecond
  · rw [hname.append_space.trim, hm.name.trimmed]
  · rw [hpathTrim]
    split
    · next hnil => rw [if_pos rfl, hnil]
    · rw [if_neg hm.path_ne]

/-- What a header is printed as is a line. -/
theorem Header.PrintsAs.isLine {h : Header} (hprint : h.PrintsAs line) (hh : h.Printable) :
    IsLine line := by
  obtain ⟨texts, htexts, rfl⟩ := hprint
  refine isLine_join (isLine_of_not_mem (by decide) (by decide)) fun text htext => ?_
  obtain ⟨field, hfield, hpadded⟩ := exists_of_mem_forall₂ htexts.flip htext
  exact (hh.isField field hfield).isLine.padded hpadded

/-- **A printed header line** says the header. -/
theorem Header.PrintsAs.isHeaderLine {h : Header} (hprint : h.PrintsAs line) (hh : h.Printable) :
    IsHeaderLine line h := by
  obtain ⟨texts, htexts, rfl⟩ := hprint
  obtain ⟨parts, hsplit, hparts⟩ :=
    Text.exists_splitsAt_join fieldMark_ne_nil space_not_mem_fieldMark
    (List.cons_ne_nil _ _) (fun field hfield => (hh.isField field hfield).noFieldMark) htexts
  obtain ⟨hstart, hstop, hline₀, hcolumn₀, hline₁, hcolumn₁⟩ : (0 ≤ h.start ∧ h.start < 2 ^ 63) ∧
      (0 ≤ h.stop ∧ h.stop < 2 ^ 63) ∧ (0 ≤ h.range.startLine ∧ h.range.startLine < 2 ^ 63) ∧
      (0 ≤ h.range.startColumn ∧ h.range.startColumn < 2 ^ 63) ∧
      (0 ≤ h.range.endLine ∧ h.range.endLine < 2 ^ 63) ∧
      0 ≤ h.range.endColumn ∧ h.range.endColumn < 2 ^ 63 := by
    simpa [Header.positions] using hh.positions
  have hkind : (UInt64.ofNat h.kind.number).toNat = h.kind.number :=
    UInt64.toNat_ofNat_of_lt' (Nat.lt_trans h.kind.number_lt (by decide))
  match parts, hparts with
  | _, .cons p₀ (.cons p₁ (.cons p₂
    (.cons p₃ (.cons p₄ (.cons p₅ (.cons p₆ (.cons p₇ (.cons p₈ (.cons p₉
      (.cons p₁₀ .nil)))))))))) =>
    exact ⟨_, _, _, _, _, _, _, _, _, _, _, hsplit, isPosition_of_padded hstart.1 hstart.2 p₀,
      isPosition_of_padded hstop.1 hstop.2 p₁, by
        rw [p₂.trim, hh.module.trimmed], isNumber_of_padded p₃,
      by rw [p₄.trim, hh.name.trimmed], isPosition_of_padded hline₀.1 hline₀.2 p₅,
      isPosition_of_padded hcolumn₀.1 hcolumn₀.2 p₆, isPosition_of_padded hline₁.1 hline₁.2 p₇,
      isPosition_of_padded hcolumn₁.1 hcolumn₁.2 p₈, isNumber_of_padded p₉,
      UInt64.ofNat h.kind.number, isNumber_of_padded (hkind.symm ▸ p₁₀), hkind⟩

/-- Blank lines between lines are lines. -/
theorem WithBlanks.isLine {lines : List Bytes} (h : WithBlanks lines ls)
    (hlines : ∀ line ∈ lines, IsLine line) : ∀ line ∈ ls, IsLine line := by
  induction h with
  | nil => exact hlines
  | blank hline _ _ ih => exact List.forall_mem_cons.2 ⟨hline, ih hlines⟩
  | line _ _ ih =>
    obtain ⟨hline, hlines⟩ := List.forall_mem_cons.1 hlines
    exact List.forall_mem_cons.2 ⟨hline, ih hlines⟩

/-- Leaving out the blank lines gives the lines back. -/
theorem WithBlanks.filter_eq {lines : List Bytes} (h : WithBlanks lines ls)
    (hlines : ∀ line ∈ lines, ¬isBlank line = true) : ls.filter (!isBlank ·) = lines := by
  induction h with
  | nil => rfl
  | blank _ hblank _ ih => rw [filter_of_isBlank hblank, ih hlines]
  | line _ _ ih =>
    obtain ⟨hline, hlines⟩ := List.forall_mem_cons.1 hlines
    rw [filter_of_not_isBlank hline, ih hlines]

/-- The lines of a printed file say the symbols. -/
theorem Symbols.PrintsAs.exists_saidBy {s : Symbols} (h : s.PrintsAs text) (hs : s.Printable) :
    ∃ ls, LinesOf text ls ∧ (∀ line ∈ ls, IsLine line) ∧ s.SaidBy ls := by
  obtain ⟨ms, hs', ls, hms, hhs, hblanks, hlines⟩ := h
  have hmodules : List.Forall₂ (fun m line => IsLine line ∧ IsModuleLine line m) s.modules ms :=
    forall₂_imp_of_mem hms fun m hm line h =>
      ⟨h.isLine (hs.modules m hm), h.isModuleLine (hs.modules m hm)⟩
  have hheaders : List.Forall₂ (fun h line => IsLine line ∧ IsHeaderLine line h) s.headers hs' :=
    forall₂_imp_of_mem hhs fun h hh line hp =>
      ⟨hp.isLine (hs.headers h hh), hp.isHeaderLine (hs.headers h hh)⟩
  have hparts : ∀ line ∈ ms ++ moduleEnd :: hs', IsLine line ∧ ¬isBlank line = true := by
    intro line hline
    rw [List.mem_append, List.mem_cons] at hline
    rcases hline with hline | rfl | hline
    · obtain ⟨m, _, hm⟩ := exists_of_mem_forall₂ hmodules.flip hline
      exact ⟨hm.1, Bool.eq_false_iff.1 (isBlank_of_mem (by decide) hm.2.mem)⟩
    · exact ⟨isLine_of_not_mem (by decide) (by decide), fun h => ne_moduleEnd_of_isBlank h rfl⟩
    · obtain ⟨h, _, hh⟩ := exists_of_mem_forall₂ hheaders.flip hline
      exact ⟨hh.1, Bool.eq_false_iff.1 (isBlank_of_mem (by decide) hh.2.mem)⟩
  refine ⟨ls, hlines, hblanks.isLine fun line hline => (hparts line hline).1, ms, hs',
    hblanks.filter_eq fun line hline => (hparts line hline).2, ?_, ?_⟩
  · exact (hmodules.imp fun _ _ h => h.2).flip
  · exact (hheaders.imp fun _ _ h => h.2).flip

/-- **A debug file is parsed to what it says.** What was printed for symbols is parsed to these
symbols. A text is parsed to the symbols that its lines say, and where parsing fails, it reports the
first line, counted from one, that may not stand where it is, or the number of lines when all of
them fit and the one that ends the modules is missing. -/
theorem symbols_parsed (hshort : ∀ part ∈ Bytes.splitOn 10 text, part.length < symbolLineLimit) :
    (∀ s : Symbols, s.Printable → s.PrintsAs text → Symbols.parse text = .ok s) ∧
    ∃ ls, LinesOf text ls ∧ (∀ line ∈ ls, IsLine line) ∧
      (∀ s, Symbols.parse text = .ok s ↔ s.SaidBy ls) ∧ ∀ e, Symbols.parse text = .error e →
        (∃ i, FirstMisfit ls i ∧ e = .broken (i + 1)) ∨
        (AllFit ls ∧ moduleEnd ∉ ls ∧ e = .broken ls.length) := by
  constructor
  · intro s hs hprint
    obtain ⟨ls, hlines, hls, hsaid⟩ := hprint.exists_saidBy hs
    exact (Symbols.parse_eq_ok_iff hlines hls hshort).2 hsaid
  · obtain ⟨ls, hlines, hls⟩ := exists_linesOf text
    refine ⟨ls, hlines, hls, fun s => Symbols.parse_eq_ok_iff hlines hls hshort, fun e he => ?_⟩
    rw [Symbols.parse_of_linesOf hlines hls hshort] at he
    rcases Except.bind_eq_error.1 he with herror | ⟨⟨s, ended⟩, hparse, herror⟩
    · obtain ⟨i, hmisfit, rfl⟩ := parseModules_eq_error herror
      exact .inl ⟨i, hmisfit, by rw [Nat.add_comm]⟩
    · cases ended with
      | true => cases herror
      | false =>
        obtain ⟨hfit, hnot⟩ := allFit_of_parseModules hparse
        cases herror
        exact .inr ⟨hfit, hnot, rfl⟩

/-- A module without a path and a function in it. -/
def mainSymbols : Symbols where
  modules := [⟨utf8 "main", 7, []⟩]
  headers := [⟨.function, 9, utf8 "main", 7, utf8 "run", 0, 4, ⟨1, 0, 3, 1⟩⟩]

/-- The line of the only module. -/
def mainModuleLine : Bytes := utf8 "main E-E  7 F:F -"

/-- The line of the only header, a function. -/
def mainHeaderLine : Bytes :=
  utf8 "0 F:F 4 F:F main F:F 7 F:F run F:F 1 F:F 0 F:F 3 F:F 1 F:F 9 F:F 5"

/-- The symbols with a blank line and with both kinds of line ends. -/
def mainFile : Bytes := mainModuleLine ++ utf8 "\r\n \n---\n" ++ mainHeaderLine

/-- The third line is neither of a module nor the one that ends the modules. -/
def strayFile : Bytes := mainModuleLine ++ utf8 "\n\nmain\n---\n"

/-- The symbols can be printed. -/
theorem printable_mainSymbols : mainSymbols.Printable := by
  have hmain : IsField (utf8 "main") := isField_of_visible (by decide) (by decide) (by decide)
  have hrun : IsField (utf8 "run") := isField_of_visible (by decide) (by decide) (by decide)
  have hempty : IsField [] := isField_of_visible (by decide) (by decide) (by decide)
  exact ⟨List.forall_mem_singleton.2 ⟨hmain, hempty, by decide⟩,
    List.forall_mem_singleton.2 ⟨hmain, hrun, by decide⟩⟩

/-- The file is a print of the symbols. -/
theorem mainSymbols_printsAs : mainSymbols.PrintsAs mainFile := by
  have hmodule : ModuleInfo.PrintsAs ⟨utf8 "main", 7, []⟩ mainModuleLine :=
    ⟨utf8 "main", utf8 " 7", [45], .refl _, ⟨1, 0, by decide⟩, .refl _, by decide⟩
  have hheader : Header.PrintsAs ⟨.function, 9, utf8 "main", 7, utf8 "run", 0, 4, ⟨1, 0, 3, 1⟩⟩
      mainHeaderLine :=
    ⟨_, List.forall₂_same.2 fun field _ => .refl field, by decide⟩
  have hlines : LinesOf mainFile [mainModuleLine, [32], moduleEnd, mainHeaderLine] := by
    have hfile : mainFile = mainModuleLine ++ List.replicate 1 13 ++ 10 ::
        ([32] ++ List.replicate 0 13 ++ 10 ::
        (moduleEnd ++ List.replicate 0 13 ++ 10 :: (mainHeaderLine ++ List.replicate 0 13))) := by
          decide
    rw [hfile]
    exact .cons 1 (.cons 0 (.cons 0 (.last (by decide))))
  exact ⟨[mainModuleLine], [mainHeaderLine], _, .cons hmodule .nil, .cons hheader .nil,
    .line _ (.blank (isLine_of_not_mem (by decide) (by decide)) (by decide +kernel)
      (.line _ (.line _ .nil))), hlines⟩

/-- Both parts of the theorem at a printed file and at one with a misfit in its third line. -/
theorem symbols_parsed_mainFile : Symbols.parse mainFile = .ok mainSymbols ∧
    FirstMisfit [mainModuleLine, [], utf8 "main", moduleEnd] 2 := by
  refine ⟨(symbols_parsed (by decide)).1 mainSymbols printable_mainSymbols mainSymbols_printsAs, ?_⟩
  have hstray : LinesOf strayFile [mainModuleLine, [], utf8 "main", moduleEnd] := by
    have hfile : strayFile = mainModuleLine ++ List.replicate 0 13 ++ 10 ::
        ([] ++ List.replicate 0 13 ++ 10 ::
        (utf8 "main" ++ List.replicate 0 13 ++ 10 ::
          (moduleEnd ++ List.replicate 0 13 ++ 10 :: []))) := by decide
    rw [hfile]
    exact .cons 0 (.cons 0 (.cons 0 (.cons 0 .nil)))
  have hplain : ∀ line ∈ [mainModuleLine, [], utf8 "main", moduleEnd], 10 ∉ line ∧ 13 ∉ line := by
    decide
  obtain ⟨ls, hlines, hls, _, herror⟩ := (@symbols_parsed strayFile (by decide)).2
  cases hlines.unique hls hstray fun line hline =>
    isLine_of_not_mem (hplain line hline).1 (hplain line hline).2
  rcases herror (.broken 3) (by decide +kernel) with ⟨i, hmisfit, hi⟩ | ⟨_, hnot, _⟩
  · cases hi
    exact hmisfit
  · exact absurd (by decide) hnot

end RegisterMachine.Debugger
