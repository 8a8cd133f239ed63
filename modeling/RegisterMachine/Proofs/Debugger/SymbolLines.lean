import RegisterMachine.Debugger.Symbols
import RegisterMachine.Proofs.Number.Decimal
import RegisterMachine.Proofs.Number.Numerals
import RegisterMachine.Proofs.Text.Separators

/-!
# The lines of a debug file

A text is a list of lines with their ends (`LinesOf`), a newline with any number of carriage returns
before it, and it is one such list only (`exists_linesOf`, `LinesOf.unique`). What a line says is
given by a grammar apart from the reader: a module line is cut at the first `F:F` and, before it, at
the first `E-E` (`IsModuleLine`), and a header line is split into eleven fields at every `F:F`
(`IsHeaderLine`). The readers of the two kinds of lines accept what the grammar says and nothing
else (`ModuleInfo.parse?_eq_some_iff`, `Header.parse?_eq_some_iff`).
-/

namespace RegisterMachine.Debugger

open Bytes (CutsAt SplitsAt)

/-! ## Lines and their ends -/

variable {line field text rest : Bytes} {ls : List Bytes}

/-- The bytes hold no newline, and no carriage return stands last. -/
structure IsLine (line : Bytes) : Prop where
  newline : 10 ∉ line
  ending : line.getLast? ≠ some 13

/-- The text consists of the lines, each with any number of carriage returns and a newline behind
it. Behind the last line the newline may be missing, but then that line or its carriage returns are
there. -/
inductive LinesOf : Bytes → List Bytes → Prop
  | nil : LinesOf [] []
  | last {line : Bytes} {n : Nat} : line ++ List.replicate n 13 ≠ [] →
      LinesOf (line ++ List.replicate n 13) [line]
  | cons {line rest : Bytes} {ls : List Bytes} (n : Nat) : LinesOf rest ls →
      LinesOf (line ++ List.replicate n 13 ++ 10 :: rest) (line :: ls)

/-- Nothing is a line. -/
theorem IsLine.nil : IsLine [] := ⟨List.not_mem_nil, nofun⟩

/-- A line behind a line is a line. -/
theorem IsLine.append {a b : Bytes} (ha : IsLine a) (hb : IsLine b) : IsLine (a ++ b) := by
  refine ⟨fun h => (List.mem_append.1 h).elim ha.newline hb.newline, ?_⟩
  rw [List.getLast?_append]
  have hlast := hb.ending
  cases hc : b.getLast? with
  | none => exact ha.ending
  | some c => rwa [hc] at hlast

/-- Bytes other than the newline and the carriage return are a line. -/
theorem isLine_of_not_mem (hnewline : 10 ∉ line) (hreturn : 13 ∉ line) : IsLine line :=
  ⟨hnewline, fun hlast => hreturn (List.mem_of_getLast? hlast)⟩

/-- Lines joined by a line are one line. -/
theorem isLine_join {sep : Bytes} {parts : List Bytes} (hsep : IsLine sep)
    (h : ∀ part ∈ parts, IsLine part) : IsLine (Bytes.join sep parts) := by
  induction parts with
  | nil => exact .nil
  | cons part parts ih =>
    obtain ⟨hpart, hparts⟩ := List.forall_mem_cons.1 h
    cases parts with
    | nil => rwa [Bytes.join_singleton]
    | cons next parts =>
      rw [Bytes.join_cons_cons]
      exact hpart.append (hsep.append (ih hparts))

/-- Spaces around a line leave a line. -/
theorem IsLine.padded (h : IsLine field) (htext : Text.Padded field text) : IsLine text := by
  have hspaces : ∀ n, IsLine (List.replicate n 32) := fun n =>
    isLine_of_not_mem (fun h => absurd (List.eq_of_mem_replicate h) (by decide))
      fun h => absurd (List.eq_of_mem_replicate h) (by decide)
  obtain ⟨m, n, rfl⟩ := htext
  exact (hspaces m).append (h.append (hspaces n))

/-- A trimmed field ends in no carriage return. -/
theorem isLine_of_trim (hnewline : 10 ∉ field) (htrim : Text.trim field = field) :
    IsLine field := by
  refine ⟨hnewline, fun hlast => ?_⟩
  obtain ⟨init, rfl⟩ := List.getLast?_eq_some_iff.1 hlast
  have hle := Text.length_trim_le init
  rw [Text.trim_append_ascii (by decide) (by decide)] at htrim
  have hlength := congrArg List.length htrim
  rw [List.length_append, List.length_singleton] at hlength
  omega

/-- Carriage returns behind a text are dropped, and no others. -/
theorem dropReturns_append (h : line.getLast? ≠ some 13) (n : Nat) :
    dropReturns (line ++ List.replicate n 13) = line := by
  have hreturns : ∀ b ∈ List.replicate n (13 : UInt8), (b == 13) = true := fun b hb => by
    rw [List.eq_of_mem_replicate hb]
    rfl
  rw [dropReturns, List.reverse_append, List.reverse_replicate,
    List.dropWhile_append_of_pos hreturns]
  rw [← List.head?_reverse] at h
  cases hline : line.reverse with
  | nil => rw [List.dropWhile_nil, ← hline, List.reverse_reverse]
  | cons b bs =>
    have hb : ¬(b == 13) = true := fun hb => h <| by rw [hline, List.head?_cons, eq_of_beq hb]
    rw [List.dropWhile_cons, if_neg hb, ← hline, List.reverse_reverse]

/-- A line is left when the carriage returns behind it are dropped, one of them with the newline. -/
theorem dropReturns_chomp (h : IsLine line) (n : Nat) :
    dropReturns (Text.chomp (line ++ List.replicate n 13)) = line := by
  cases n with
  | zero =>
    have hchomp : Text.chomp line = line := (Text.chomp_cases line).resolve_right fun heq =>
      h.ending <| by rw [heq, List.getLast?_concat]
    rw [List.replicate_zero, List.append_nil, hchomp]
    have hdrop := dropReturns_append h.ending 0
    rwa [List.replicate_zero, List.append_nil] at hdrop
  | succ n =>
    rw [List.replicate_succ', ← List.append_assoc, Text.chomp_append_return]
    exact dropReturns_append h.ending n

/-- Every text without newlines is a line with carriage returns behind it. -/
theorem exists_isLine_append (h : 10 ∉ text) :
    ∃ line n, IsLine line ∧ text = line ++ List.replicate n 13 := by
  generalize hlength : text.length = n
  induction n generalizing text with
  | zero => exact ⟨[], 0, .nil, List.eq_nil_of_length_eq_zero hlength⟩
  | succ n ih =>
    by_cases hlast : text.getLast? = some 13
    · obtain ⟨init, rfl⟩ := List.getLast?_eq_some_iff.1 hlast
      rw [List.mem_append, not_or] at h
      rw [List.length_append, List.length_singleton] at hlength
      obtain ⟨line, n, hline, rfl⟩ := ih h.1 (Nat.succ.inj hlength)
      exact ⟨line, n + 1, hline, by rw [List.append_assoc, List.replicate_succ']⟩
    · exact ⟨text, 0, ⟨h, hlast⟩, (List.append_nil text).symm⟩

/-- **Every text is a list of lines.** -/
theorem exists_linesOf (text : Bytes) : ∃ ls, LinesOf text ls ∧ ∀ line ∈ ls, IsLine line := by
  generalize hlength : text.length = n
  induction n using Nat.strongRecOn generalizing text with
  | ind n ih =>
    by_cases h : 10 ∈ text
    · obtain ⟨part, rest, rfl, hpart⟩ := List.eq_append_cons_of_mem h
      rw [List.length_append, List.length_cons] at hlength
      obtain ⟨line, n, hline, rfl⟩ := exists_isLine_append hpart
      obtain ⟨ls, hrest, hls⟩ := ih rest.length (by omega) rest rfl
      exact ⟨line :: ls, .cons n hrest, List.forall_mem_cons.2 ⟨hline, hls⟩⟩
    · by_cases hne : text = []
      · exact ⟨[], hne ▸ .nil, fun _ h => nomatch h⟩
      · obtain ⟨line, n, hline, rfl⟩ := exists_isLine_append h
        exact ⟨[line], .last hne, List.forall_mem_singleton.2 hline⟩

/-- **The lines of a text that are short enough are read as they are.** -/
theorem lines_of_linesOf {limit : Nat} (h : LinesOf text ls) (hls : ∀ line ∈ ls, IsLine line)
    (hshort : ∀ part ∈ Bytes.splitOn 10 text, part.length < limit) :
    (Text.lines limit text).lines.map dropReturns = ls ∧ (Text.lines limit text).overlong =
      false := by
  have hreturns : ∀ {line} n, IsLine line → 10 ∉ line ++ List.replicate n 13 := fun _ hline hmem =>
    (List.mem_append.1 hmem).elim hline.newline fun h =>
      absurd (List.eq_of_mem_replicate h) (by decide)
  induction h with
  | nil => exact ⟨rfl, rfl⟩
  | @last line n hne =>
    have hline := hls line List.mem_cons_self
    have hnot := hreturns n hline
    rw [Bytes.splitOn_of_not_mem hnot, List.forall_mem_singleton] at hshort
    rw [Text.lines_of_no_newline hne hnot hshort, List.map_singleton, dropReturns_chomp hline]
    exact ⟨rfl, rfl⟩
  | cons n _ ih =>
    obtain ⟨hline, hls⟩ := List.forall_mem_cons.1 hls
    have hnot := hreturns n hline
    rw [Bytes.splitOn_append hnot, List.forall_mem_cons] at hshort
    obtain ⟨hlines, hoverlong⟩ := ih hls hshort.2
    rw [Text.lines_append_newline hnot hshort.1, List.map_cons, dropReturns_chomp hline]
    exact ⟨by rw [hlines], hoverlong⟩

/-- **A text is one list of lines only.** -/
theorem LinesOf.unique {ls' : List Bytes} (h : LinesOf text ls) (hls : ∀ line ∈ ls, IsLine line)
    (h' : LinesOf text ls') (hls' : ∀ line ∈ ls', IsLine line) : ls = ls' := by
  have hshort : ∀ part ∈ Bytes.splitOn 10 text, part.length < text.length + 1 := by
    intro part hpart
    obtain ⟨before, after, hsplit⟩ := List.append_of_mem hpart
    have hsum := Text.sum_length_splitOn_le 10 text
    rw [hsplit, List.map_append, List.sum_append, List.map_cons, List.sum_cons] at hsum
    omega
  rw [← (lines_of_linesOf h hls hshort).1, (lines_of_linesOf h' hls' hshort).1]

/-! ## Numbers in fields -/

/-- The field holds the decimal digits of a number of 64 bits, perhaps between white space. -/
structure IsNumber (field : Bytes) (n : UInt64) : Prop where
  ne_nil : Text.trim field ≠ []
  digits : ∀ c ∈ Text.trim field, Number.IsDigit 10 c
  value : n.toNat = Number.digitsValue 10 (Text.trim field)

/-- The field holds a number whose 64 bits stand for a signed number. -/
def IsPosition (field : Bytes) (i : Int) : Prop := ∃ n, IsNumber field n ∧ i = signed n

/-- **What is read as a number is what the grammar has as one.** -/
theorem readNumber?_eq_some_iff {n : UInt64} : readNumber? field = some n ↔ IsNumber field n := by
  have hread : readNumber? field = some n ↔
      ∃ m, Number.readUnsigned .ten 64 (Text.trim field) = .ok m ∧ UInt64.ofNat m = n := by
    rw [readNumber?]
    cases Number.readUnsigned .ten 64 (Text.trim field) <;> simp [Except.toOption]
  simp only [hread, Number.readUnsigned_ten_eq_ok_iff]
  constructor
  · rintro ⟨m, ⟨hne, hdigits, hm, hlt⟩, rfl⟩
    exact ⟨hne, hdigits, by rw [UInt64.toNat_ofNat_of_lt' hlt, hm]⟩
  · rintro ⟨hne, hdigits, hvalue⟩
    exact ⟨n.toNat, ⟨hne, hdigits, hvalue, n.toNat_lt⟩, UInt64.ofNat_toNat⟩

/-- The signed reading of a word is the integer modulo 2^64. -/
theorem signed_ofInt (i : Int) : signed (UInt64.ofInt i) = i.bmod (2 ^ 64) := by
  have hnonneg : 0 ≤ i % 2 ^ 64 := Int.emod_nonneg i (by decide)
  have hbits : signed (UInt64.ofInt i) = (BitVec.ofNat 64 (i % 2 ^ 64).toNat).toInt := rfl
  rw [hbits, BitVec.toInt_ofNat', Int.toNat_of_nonneg hnonneg]
  exact Int.emod_bmod i (2 ^ 64)

/-- **A decimal number between spaces is the number of its field.** -/
theorem isNumber_of_padded {n : UInt64} (h : Text.Padded (Number.decimal n.toNat) text) :
    IsNumber text n := by
  have hvisible : ∀ b ∈ Number.decimal n.toNat, Text.isVisible b = true := fun b hb => by
    have := Number.isDigit_of_mem_decimal hb
    exact Text.isVisible_iff.2 (by omega)
  rw [← readNumber?_eq_some_iff, readNumber?, h.trim, Text.trim_of_visible hvisible,
    Number.readUnsigned_decimal n.toNat_lt]
  exact congrArg some UInt64.ofNat_toNat

/-- A number with spaces around it is the position that it stands for. -/
theorem isPosition_of_padded {i : Int} (hnonneg : 0 ≤ i) (hlt : i < 2 ^ 63)
    (h : Text.Padded (Number.decimal i.toNat) text) : IsPosition text i := by
  have hnat : (UInt64.ofInt i).toNat = i.toNat := by
    rw [UInt64.ofInt, UInt64.toNat_ofNat', Int.emod_eq_of_lt hnonneg (by omega),
      Nat.mod_eq_of_lt (by omega)]
  refine ⟨UInt64.ofInt i, isNumber_of_padded (hnat ▸ h), ?_⟩
  rw [signed_ofInt, Int.bmod_eq_of_le (by omega) (by omega)]

/-! ## What lines say -/

/-- The number that stands for a kind. -/
def HeaderKind.number : HeaderKind → Nat
  | .variableDecl => 0
  | .setterCall => 1
  | .getterCall => 2
  | .classDecl => 3
  | .parameter => 4
  | .function => 5
  | .nativeFunction => 6
  | .condition => 7

/-- There are eight kinds of headers. -/
theorem HeaderKind.number_lt (k : HeaderKind) : k.number < 8 := by
  cases k <;> decide

/-- A number is read as the kind whose number it is. -/
theorem HeaderKind.ofNumber?_eq_some_iff {n : Nat} {k : HeaderKind} :
    ofNumber? n = some k ↔ n = k.number := by
  constructor
  · intro h
    have hn : n < 8 := (List.getElem?_eq_some_iff.1 h).1
    have hall : ∀ k, ∀ n < 8, ofNumber? n = some k → n = k.number := by
      intro k
      cases k <;> decide
    exact hall k n hn h
  · rintro rfl
    cases k <;> rfl

/-- The line holds a name, then `E-E` and a hash, then `F:F` and a path, where a single dash is no
path. -/
def IsModuleLine (line : Bytes) (m : ModuleInfo) : Prop :=
  ∃ info path name hash, CutsAt fieldMark line info path ∧ CutsAt moduleMark info name hash ∧
    m.name = Text.trim name ∧ IsNumber hash m.hash ∧
    m.path = if Text.trim path = [45] then [] else Text.trim path

/-- The line holds the eleven fields of a header, with `F:F` between them. -/
def IsHeaderLine (line : Bytes) (h : Header) : Prop :=
  ∃ start stop module moduleHash name line₀ column₀ line₁ column₁ hash kind,
    SplitsAt fieldMark line
      [start, stop, module, moduleHash, name, line₀, column₀, line₁, column₁, hash, kind] ∧
    IsPosition start h.start ∧ IsPosition stop h.stop ∧
    h.module = Text.trim module ∧ IsNumber moduleHash h.moduleHash ∧ h.name = Text.trim name ∧
    IsPosition line₀ h.range.startLine ∧ IsPosition column₀ h.range.startColumn ∧
    IsPosition line₁ h.range.endLine ∧ IsPosition column₁ h.range.endColumn ∧
    IsNumber hash h.hash ∧ ∃ n, IsNumber kind n ∧ n.toNat = h.kind.number

/-- The mark between fields is not empty. -/
theorem fieldMark_ne_nil : fieldMark ≠ [] := by decide

/-- The mark behind the name of a module is not empty. -/
theorem moduleMark_ne_nil : moduleMark ≠ [] := by decide

/-- **The reader of module lines** accepts what the grammar says. -/
theorem ModuleInfo.parse?_eq_some_iff {m : ModuleInfo} :
    parse? line = some m ↔ IsModuleLine line m := by
  simp only [parse?, Option.bind_eq_bind, Option.bind_eq_some_iff, Option.pure_def,
    Option.some.injEq, Prod.exists, Bytes.cutAt?_eq_some_iff fieldMark_ne_nil,
    Bytes.cutAt?_eq_some_iff moduleMark_ne_nil, readNumber?_eq_some_iff]
  constructor
  · rintro ⟨info, path, hinfo, name, hash, hname, n, hn, rfl⟩
    exact ⟨info, path, name, hash, hinfo, hname, rfl, hn, rfl⟩
  · obtain ⟨name', hash', path'⟩ := m
    rintro ⟨info, path, name, hash, hinfo, hname, rfl, hn, rfl⟩
    exact ⟨info, path, hinfo, name, hash, hname, hash', hn, rfl⟩

/-- A line is not read as a module exactly if it is none. -/
theorem ModuleInfo.parse?_eq_none_iff : parse? line = none ↔ ¬∃ m, IsModuleLine line m := by
  simp only [Option.eq_none_iff_forall_ne_some, ne_eq, parse?_eq_some_iff, not_exists]

/-- **The reader of header lines** accepts what the grammar says. -/
theorem Header.parse?_eq_some_iff {h : Header} : parse? line = some h ↔ IsHeaderLine line h := by
  constructor
  · intro hparse
    rw [parse?] at hparse
    split at hparse
    · next hsplit =>
      simp only [Option.bind_eq_bind, Option.bind_eq_some_iff, Option.pure_def, Option.some.injEq,
        readNumber?_eq_some_iff, HeaderKind.ofNumber?_eq_some_iff] at hparse
      obtain ⟨_, hstart, _, hstop, _, hmodule, _, hline₀, _, hcolumn₀, _, hline₁, _, hcolumn₁,
        _, hhash, n, hn, k, hk, rfl⟩ := hparse
      exact ⟨_, _, _, _, _, _, _, _, _, _, _, (Bytes.splitAt_eq_iff fieldMark_ne_nil).1 hsplit,
        ⟨_, hstart, rfl⟩, ⟨_, hstop, rfl⟩, rfl, hmodule, rfl, ⟨_, hline₀, rfl⟩, ⟨_, hcolumn₀, rfl⟩,
        ⟨_, hline₁, rfl⟩, ⟨_, hcolumn₁, rfl⟩, hhash, n, hn, hk⟩
    · cases hparse
  · obtain ⟨kind, hash, module, moduleHash, name, start, stop, line₀, column₀, line₁, column₁⟩ := h
    rintro ⟨_, _, _, _, _, _, _, _, _, _, _, hsplit, ⟨_, hstart, rfl⟩, ⟨_, hstop, rfl⟩,
      rfl, hmodule, rfl, ⟨_, hline₀, rfl⟩, ⟨_, hcolumn₀, rfl⟩, ⟨_, hline₁, rfl⟩, ⟨_, hcolumn₁, rfl⟩,
      hhash, n, hn, hk⟩
    rw [parse?, (Bytes.splitAt_eq_iff fieldMark_ne_nil).2 hsplit]
    simp only [Option.bind_eq_bind, Option.bind_eq_some_iff, Option.pure_def, Option.some.injEq,
      readNumber?_eq_some_iff, HeaderKind.ofNumber?_eq_some_iff]
    exact ⟨_, hstart, _, hstop, _, hmodule, _, hline₀, _, hcolumn₀, _, hline₁, _, hcolumn₁,
      _, hhash, n, hn, _, hk, rfl⟩

/-- A line is not read as a header exactly if it is none. -/
theorem Header.parse?_eq_none_iff : parse? line = none ↔ ¬∃ h, IsHeaderLine line h := by
  simp only [Option.eq_none_iff_forall_ne_some, ne_eq, parse?_eq_some_iff, not_exists]

end RegisterMachine.Debugger
