import RegisterMachine.Proofs.Text.Utf8
import RegisterMachine.Text.Words

/-!
# Parts of a text

What trimming and splitting take from a text is no longer than the text, and well-formed when the
text is: `trim`, `headAndTail` and `words` keep some of its glyphs, `Bytes.splitOn`, `chomp` and
`lines` cut it at bytes below 128.
-/

namespace RegisterMachine

/-- Splitting either finds nothing to split at, or gives the part up to the first separator and then
the parts of what follows it. -/
theorem Bytes.splitOn_cases (sep : UInt8) (s : Bytes) :
    splitOn sep s = [s] ∨
      ∃ part rest, s = part ++ sep :: rest ∧ splitOn sep s = part :: splitOn sep rest := by
  induction s with
  | nil => exact .inl rfl
  | cons b s ih =>
    by_cases hb : b = sep
    · refine .inr ⟨[], s, by rw [hb]; rfl, ?_⟩
      rw [splitOn, List.foldr_cons, if_pos hb]
      rfl
    · have hstep : ∀ p ps, splitOn sep s = p :: ps → splitOn sep (b :: s) = (b :: p) :: ps := by
        intro p ps h
        rw [splitOn] at h
        rw [splitOn, List.foldr_cons, if_neg hb, h]
      rcases ih with h | ⟨part, rest, hs, h⟩
      · exact .inl (hstep _ _ h)
      · exact .inr ⟨b :: part, rest, by rw [hs]; rfl, hstep _ _ h⟩

/-- Splitting gives at least one part. -/
theorem Bytes.splitOn_ne_nil (sep : UInt8) (s : Bytes) : splitOn sep s ≠ [] := by
  rcases splitOn_cases sep s with h | ⟨part, rest, _, h⟩
  · exact h ▸ List.cons_ne_nil _ _
  · exact h ▸ List.cons_ne_nil _ _

/-- A text without the separator is its only part. -/
theorem Bytes.splitOn_of_not_mem {sep : UInt8} {s : Bytes} (h : sep ∉ s) : splitOn sep s = [s] := by
  refine (splitOn_cases sep s).resolve_right fun ⟨part, rest, hs, _⟩ => h ?_
  rw [hs]
  exact List.mem_append_right _ List.mem_cons_self

/-- What stands before the first separator is the first part. -/
theorem Bytes.splitOn_append {sep : UInt8} {s : Bytes} (h : sep ∉ s) (rest : Bytes) :
    splitOn sep (s ++ sep :: rest) = s :: splitOn sep rest := by
  induction s with
  | nil => rw [List.nil_append, splitOn, List.foldr_cons, if_pos rfl, splitOn]
  | cons b s ih =>
    rw [List.mem_cons, not_or] at h
    have htail := ih h.2
    rw [splitOn] at htail
    rw [splitOn, List.cons_append, List.foldr_cons, htail, if_neg (Ne.symm h.1)]

namespace Text

/-! ## Glyphs that are left out -/

/-- Fewer glyphs take fewer bytes. -/
theorem length_ofGlyphs_le {gs hs : List Glyph} (h : gs.Sublist hs) :
    (ofGlyphs gs).length ≤ (ofGlyphs hs).length := by
  induction h with
  | slnil => exact Nat.le_refl _
  | cons g _ ih =>
    rw [ofGlyphs, ofGlyphs, List.flatMap_cons, List.length_append]
    exact Nat.le_trans ih (Nat.le_add_left _ _)
  | cons_cons g _ ih =>
    rw [ofGlyphs, ofGlyphs, List.flatMap_cons, List.flatMap_cons, List.length_append,
      List.length_append]
    exact Nat.add_le_add_left ih _

/-- Some of the glyphs of a well-formed text make a well-formed text. -/
theorem isUtf8_ofGlyphs_of_subset {s : Bytes} {gs : List Glyph} (hs : isUtf8 s = true)
    (h : ∀ g ∈ gs, g ∈ glyphs s) : isUtf8 (ofGlyphs gs) = true :=
  isUtf8_ofGlyphs fun g hg => isUtf8_iff.1 hs g (h g hg)

/-- Trimming takes some of the glyphs, in order. -/
theorem exists_trim_eq (s : Bytes) : ∃ gs, trim s = ofGlyphs gs ∧ gs.Sublist (glyphs s) := by
  refine ⟨_, rfl, ?_⟩
  have hback := (List.dropWhile_sublist Glyph.isSpace
    (l := ((glyphs s).dropWhile Glyph.isSpace).reverse)).reverse
  rw [List.reverse_reverse] at hback
  exact hback.trans (List.dropWhile_sublist _)

/-- Trimming makes no text longer. -/
theorem length_trim_le (s : Bytes) : (trim s).length ≤ s.length := by
  obtain ⟨gs, hgs, hsub⟩ := exists_trim_eq s
  have hle := length_ofGlyphs_le hsub
  rwa [ofGlyphs_glyphs, ← hgs] at hle

/-- Trimming leaves UTF-8. -/
theorem isUtf8_trim {s : Bytes} (h : isUtf8 s = true) : isUtf8 (trim s) = true := by
  obtain ⟨gs, hgs, hsub⟩ := exists_trim_eq s
  rw [hgs]
  exact isUtf8_ofGlyphs_of_subset h fun g hg => hsub.subset hg

/-- A text that neither starts nor ends with white space is as it is when trimmed. -/
theorem trim_eq_self {s : Bytes} (hfirst : ∀ g ∈ (glyphs s).head?, g.isSpace = false)
    (hlast : ∀ g ∈ (glyphs s).getLast?, g.isSpace = false) : trim s = s := by
  have hkeep : ∀ gs : List Glyph, (∀ g ∈ gs.head?, g.isSpace = false) →
      gs.dropWhile Glyph.isSpace = gs := by
    intro gs hgs
    cases gs with
    | nil => rfl
    | cons g gs => simp [hgs g rfl]
  rw [← List.head?_reverse] at hlast
  rw [trim, hkeep _ hfirst, hkeep _ hlast, List.reverse_reverse, ofGlyphs_glyphs]

/-- There is nothing to trim in an empty text. -/
theorem trim_nil : trim [] = [] := by
  rw [trim, glyphs_nil]
  rfl

/-- A space in front is trimmed. -/
theorem trim_space_cons (s : Bytes) : trim (32 :: s) = trim s := by
  rw [trim, glyphs_cons_ascii (by decide), List.dropWhile_cons_of_pos (by decide), trim]

/-- What follows the first word is no longer than the text. -/
theorem length_headAndTail_le (s : Bytes) : (headAndTail s).2.length ≤ s.length := by
  have hle := length_ofGlyphs_le (List.dropWhile_sublist (!Glyph.isSpace ·) (l := glyphs s))
  rw [ofGlyphs_glyphs] at hle
  exact Nat.le_trans (length_trim_le _) hle

/-! ## Visible characters -/

/-- An ASCII character that is neither white space nor a control. -/
def isVisible (b : UInt8) : Bool := 33 ≤ b.toNat && b.toNat ≤ 126

/-- The visible bytes are those of ASCII that are neither control codes nor the blank. -/
theorem isVisible_iff {b : UInt8} : isVisible b = true ↔ 33 ≤ b.toNat ∧ b.toNat ≤ 126 := by
  rw [isVisible, Bool.and_eq_true, decide_eq_true_eq, decide_eq_true_eq]

/-- Visible bytes are ASCII characters other than white space. -/
theorem lt_of_isVisible {b : UInt8} (h : isVisible b = true) :
    b.toNat < 0x80 ∧ (Glyph.scalar b.toNat).isSpace = false := by
  have hb := isVisible_iff.1 h
  refine ⟨by omega, ?_⟩
  simp [Glyph.isSpace, isSpace]
  omega

/-- There is no white space in a visible text. -/
theorem not_isSpace_of_visible {s : Bytes} (h : ∀ b ∈ s, isVisible b = true) :
    ∀ g ∈ glyphs s, g.isSpace = false := by
  rw [glyphs_of_ascii fun b hb => (lt_of_isVisible (h b hb)).1]
  intro g hg
  obtain ⟨b, hb, rfl⟩ := List.mem_map.1 hg
  exact (lt_of_isVisible (h b hb)).2

/-- There is nothing to trim in a visible text. -/
theorem trim_of_visible {s : Bytes} (h : ∀ b ∈ s, isVisible b = true) : trim s = s :=
  trim_eq_self (fun g hg => not_isSpace_of_visible h g (List.mem_of_head? hg))
    fun g hg => not_isSpace_of_visible h g (List.mem_of_getLast? hg)

/-- A text between visible characters is as it is when trimmed. -/
theorem trim_between {a b : UInt8} (ha : isVisible a = true) (hb : isVisible b = true) (s : Bytes) :
    trim (a :: (s ++ [b])) = a :: (s ++ [b]) := by
  obtain ⟨hafirst, haspace⟩ := lt_of_isVisible ha
  obtain ⟨hblast, hbspace⟩ := lt_of_isVisible hb
  refine trim_eq_self ?_ ?_
  · rw [glyphs_cons_ascii hafirst]
    rintro _ ⟨⟩
    exact haspace
  · rw [← List.cons_append, glyphs_append_ascii hblast, glyphs_nil, List.getLast?_concat]
    rintro _ ⟨⟩
    exact hbspace

/-- What stands up to a visible character stays when a text is trimmed that begins with one. -/
theorem exists_trim_eq_append {s : Bytes} {q : UInt8}
    (hfirst : ∀ b ∈ (s ++ [q]).head?, isVisible b = true) (hq : isVisible q = true) (body : Bytes) :
    ∃ body' rest, body = body' ++ rest ∧ trim (s ++ q :: body) = s ++ q :: body' := by
  obtain ⟨hlt, hspace⟩ := lt_of_isVisible hq
  have hhead : (glyphs (s ++ q :: body)).dropWhile Glyph.isSpace =
      glyphs s ++ .scalar q.toNat :: glyphs body := by
    rw [glyphs_append_ascii hlt]
    cases s with
    | nil =>
      rw [glyphs_nil, List.nil_append,
        List.dropWhile_cons_of_neg (by rw [hspace]; exact Bool.false_ne_true)]
    | cons b s =>
      obtain ⟨hb, hspace⟩ := lt_of_isVisible (hfirst b rfl)
      rw [glyphs_cons_ascii hb, List.cons_append,
        List.dropWhile_cons_of_neg (by rw [hspace]; exact Bool.false_ne_true)]
  have hback : (glyphs s ++ .scalar q.toNat :: glyphs body).reverse.dropWhile Glyph.isSpace =
      (glyphs body).reverse.dropWhile Glyph.isSpace ++ .scalar q.toNat :: (glyphs s).reverse := by
    have hstop : (Glyph.scalar q.toNat :: (glyphs s).reverse).dropWhile Glyph.isSpace =
        .scalar q.toNat :: (glyphs s).reverse :=
      List.dropWhile_cons_of_neg (by rw [hspace]; exact Bool.false_ne_true)
    rw [List.reverse_append, List.reverse_cons, List.append_assoc, List.singleton_append,
      List.dropWhile_append, hstop]
    split
    · next hempty => rw [List.isEmpty_iff.1 hempty, List.nil_append]
    · rfl
  refine ⟨ofGlyphs ((glyphs body).reverse.dropWhile Glyph.isSpace).reverse,
    ofGlyphs ((glyphs body).reverse.takeWhile Glyph.isSpace).reverse, ?_, ?_⟩
  · have hparts := congrArg List.reverse
      (List.takeWhile_append_dropWhile (p := Glyph.isSpace) (l := (glyphs body).reverse))
    rw [List.reverse_append, List.reverse_reverse] at hparts
    rw [ofGlyphs, ofGlyphs, ← List.flatMap_append, hparts]
    exact (ofGlyphs_glyphs body).symm
  · rw [trim, hhead, hback, List.reverse_append, List.reverse_cons, List.reverse_reverse,
      List.append_assoc, List.singleton_append, ofGlyphs, List.flatMap_append, List.flatMap_cons]
    have hs := ofGlyphs_glyphs s
    rw [ofGlyphs] at hs
    have hq' : (Glyph.scalar q.toNat).bytes = [q] := by
      rw [Glyph.bytes, encodeScalar, if_pos hlt, UInt8.ofNat_toNat]
    rw [hs, hq']
    rfl

/-! ## Words -/

/-- The runs of a text are made of its glyphs, in order. -/
theorem sublist_of_mem_runs {gs : List Glyph} {run : List Glyph} {runs : List (List Glyph)}
    (h : gs.foldr wordsStep ([], []) = (run, runs)) :
    run.Sublist gs ∧ ∀ r ∈ runs, r.Sublist gs := by
  induction gs generalizing run runs with
  | nil => cases h; exact ⟨.slnil, fun _ hr => nomatch hr⟩
  | cons x gs ih =>
    obtain ⟨run', runs', hgs⟩ : ∃ run' runs', gs.foldr wordsStep ([], []) = (run', runs') :=
      ⟨_, _, rfl⟩
    obtain ⟨hrun, hruns⟩ := ih hgs
    rw [List.foldr_cons, hgs, wordsStep] at h
    split at h
    · cases h
      refine ⟨List.nil_sublist _, fun r hr => ?_⟩
      rw [wordsStep.closeRun] at hr
      split at hr
      · exact (hruns r hr).cons x
      · rcases List.mem_cons.1 hr with rfl | hr
        · exact hrun.cons x
        · exact (hruns r hr).cons x
    · cases h
      exact ⟨hrun.cons_cons x, fun r hr => (hruns r hr).cons x⟩

/-- A word has some of the glyphs of its text, in order. -/
theorem exists_of_mem_words {s w : Bytes} (hw : w ∈ words s) :
    ∃ gs, w = ofGlyphs gs ∧ gs.Sublist (glyphs s) := by
  obtain ⟨run, runs, hgs⟩ : ∃ run runs, (glyphs s).foldr wordsStep ([], []) = (run, runs) :=
    ⟨_, _, rfl⟩
  obtain ⟨hrun, hruns⟩ := sublist_of_mem_runs hgs
  rw [words, hgs] at hw
  obtain ⟨gs, hmem, rfl⟩ := List.mem_map.1 hw
  refine ⟨gs, rfl, ?_⟩
  rw [wordsStep.closeRun] at hmem
  split at hmem
  · exact hruns gs hmem
  · rcases List.mem_cons.1 hmem with rfl | hmem
    · exact hrun
    · exact hruns gs hmem

/-- No word is longer than its text. -/
theorem length_le_of_mem_words {s w : Bytes} (hw : w ∈ words s) : w.length ≤ s.length := by
  obtain ⟨gs, rfl, hsub⟩ := exists_of_mem_words hw
  have hle := length_ofGlyphs_le hsub
  rwa [ofGlyphs_glyphs] at hle

/-- Glyphs without white space come before the run that reaches the front. -/
theorem foldr_wordsStep_of_not_isSpace {gs : List Glyph} (h : ∀ g ∈ gs, g.isSpace = false)
    (run : List Glyph) (runs : List (List Glyph)) :
    gs.foldr wordsStep (run, runs) = (gs ++ run, runs) := by
  induction gs with
  | nil => rfl
  | cons g gs ih =>
    obtain ⟨hg, hgs⟩ := List.forall_mem_cons.1 h
    rw [List.foldr_cons, ih hgs, wordsStep, hg, if_neg Bool.false_ne_true]
    rfl

/-- The run of a text that is not empty counts as a word. -/
theorem closeRun_glyphs {s : Bytes} (h : s ≠ []) (runs : List (List Glyph)) :
    wordsStep.closeRun (glyphs s) runs = glyphs s :: runs := by
  obtain ⟨b, s, rfl⟩ := List.exists_cons_of_ne_nil h
  rw [glyphs_cons]
  rfl

/-- The first word of a text before a space. -/
theorem words_append_space {s : Bytes} (hne : s ≠ []) (h : ∀ b ∈ s, isVisible b = true)
    (rest : Bytes) : words (s ++ 32 :: rest) = s :: words rest := by
  obtain ⟨run, runs, hrest⟩ : ∃ run runs, (glyphs rest).foldr wordsStep ([], []) = (run, runs) :=
    ⟨_, _, rfl⟩
  have hspace : wordsStep (.scalar (32 : UInt8).toNat) (run, runs) =
      ([], wordsStep.closeRun run runs) := rfl
  rw [words, words, glyphs_append_ascii (by decide), List.foldr_append, List.foldr_cons,
    hrest, hspace, foldr_wordsStep_of_not_isSpace (not_isSpace_of_visible h), List.append_nil]
  dsimp only
  rw [closeRun_glyphs hne, List.map_cons, ofGlyphs_glyphs]

/-- A text of visible characters is one word. -/
theorem words_of_visible {s : Bytes} (hne : s ≠ []) (h : ∀ b ∈ s, isVisible b = true) :
    words s = [s] := by
  rw [words, foldr_wordsStep_of_not_isSpace (not_isSpace_of_visible h), List.append_nil]
  dsimp only
  rw [closeRun_glyphs hne, List.map_cons, ofGlyphs_glyphs, List.map_nil]

/-- What follows the first word, trimmed. -/
theorem headAndTail_append_space {s : Bytes} (h : ∀ b ∈ s, isVisible b = true) (rest : Bytes) :
    (headAndTail (s ++ 32 :: rest)).2 = trim rest := by
  have hkeep : ∀ g ∈ glyphs s, (!g.isSpace) = true := fun g hg => by
    rw [not_isSpace_of_visible h g hg]
    rfl
  have hdrop : (glyphs (s ++ 32 :: rest)).dropWhile (!·.isSpace) =
      .scalar (32 : UInt8).toNat :: glyphs rest := by
    rw [glyphs_append_ascii (by decide), List.dropWhile_append_of_pos hkeep]
    rfl
  have htail : (headAndTail (s ++ 32 :: rest)).2 = trim (32 :: ofGlyphs (glyphs rest)) := by
    rw [headAndTail, firstWord, hdrop]
    rfl
  rw [htail, ofGlyphs_glyphs, trim_space_cons]

/-- Nothing follows the only word. -/
theorem headAndTail_of_visible {s : Bytes} (h : ∀ b ∈ s, isVisible b = true) :
    (headAndTail s).2 = [] := by
  have hkeep : ∀ g ∈ glyphs s, (!g.isSpace) = true := fun g hg => by
    rw [not_isSpace_of_visible h g hg]
    rfl
  have hdrop : (glyphs s ++ []).dropWhile (!Glyph.isSpace ·) = [] :=
    List.dropWhile_append_of_pos hkeep
  rw [List.append_nil] at hdrop
  rw [headAndTail, firstWord, hdrop]
  exact trim_nil

/-- The words of a well-formed text are well-formed. -/
theorem isUtf8_of_mem_words {s w : Bytes} (hs : isUtf8 s = true) (hw : w ∈ words s) :
    isUtf8 w = true := by
  obtain ⟨gs, rfl, hsub⟩ := exists_of_mem_words hw
  exact isUtf8_ofGlyphs_of_subset hs fun _ hg => hsub.subset hg

/-! ## Lines -/

/-- The parts of a text around a byte are no longer than the text, all together. -/
theorem sum_length_splitOn_le (sep : UInt8) (s : Bytes) :
    ((Bytes.splitOn sep s).map List.length).sum ≤ s.length := by
  generalize hn : s.length = n
  induction n using Nat.strongRecOn generalizing s with
  | ind n ih =>
    rcases Bytes.splitOn_cases sep s with h | ⟨first, rest, rfl, h⟩
    · simp [h, hn]
    · have hrest := ih rest.length (by rw [← hn]; simp; omega) rest rfl
      rw [List.length_append, List.length_cons] at hn
      rw [h, List.map_cons, List.sum_cons]
      omega

/-- The parts of a well-formed text around a byte below 128 are well-formed. -/
theorem isUtf8_of_mem_splitOn {sep : UInt8} (hsep : sep.toNat < 0x80) {s part : Bytes}
    (hs : isUtf8 s = true) (hpart : part ∈ Bytes.splitOn sep s) : isUtf8 part = true := by
  generalize hn : s.length = n
  induction n using Nat.strongRecOn generalizing s with
  | ind n ih =>
    rcases Bytes.splitOn_cases sep s with h | ⟨first, rest, rfl, h⟩
    · rw [h, List.mem_singleton] at hpart
      rwa [hpart]
    · rw [isUtf8_append_ascii hsep, Bool.and_eq_true] at hs
      rw [h] at hpart
      rcases List.mem_cons.1 hpart with rfl | hpart
      · exact hs.1
      · refine ih rest.length ?_ hs.2 hpart rfl
        rw [← hn, List.length_append, List.length_cons]
        omega

/-- A line that ends in a carriage return loses it, and no other line changes. -/
theorem chomp_cases (line : Bytes) : chomp line = line ∨ line = chomp line ++ [13] := by
  rw [chomp]
  split
  · next rest h =>
    refine .inr ?_
    have := congrArg List.reverse h
    rwa [List.reverse_reverse, List.reverse_cons] at this
  · exact .inl rfl

/-- Taking off a carriage return makes no line longer. -/
theorem length_chomp_le (line : Bytes) : (chomp line).length ≤ line.length := by
  rcases chomp_cases line with h | h
  · exact Nat.le_of_eq (congrArg List.length h)
  · have hlen := congrArg List.length h
    rw [List.length_append] at hlen
    omega

/-- Taking off a carriage return leaves UTF-8. -/
theorem isUtf8_chomp {line : Bytes} (h : isUtf8 line = true) : isUtf8 (chomp line) = true := by
  rcases chomp_cases line with hline | hline
  · rwa [hline]
  · rw [hline, isUtf8_append_ascii (by decide), Bool.and_eq_true] at h
    exact h.1

/-- Every line is a part of the text, perhaps without a carriage return, and shorter than the
limit. -/
theorem exists_of_mem_lines {limit : Nat} {s line : Bytes} (h : line ∈ (lines limit s).lines) :
    ∃ part ∈ Bytes.splitOn 10 s, line = chomp part ∧ part.length < limit := by
  obtain ⟨part, hpart, rfl⟩ := List.mem_map.1 h
  have hlen := List.all_eq_true.1 List.all_takeWhile part hpart
  refine ⟨part, ?_, rfl, of_decide_eq_true hlen⟩
  have hmem := (List.takeWhile_sublist _).subset hpart
  split at hmem
  · exact (List.dropLast_sublist _).subset hmem
  · exact hmem

/-- Lines are shorter than the limit. -/
theorem length_lt_of_mem_lines {limit : Nat} {s line : Bytes} (h : line ∈ (lines limit s).lines) :
    line.length < limit := by
  obtain ⟨part, _, rfl, hlen⟩ := exists_of_mem_lines h
  exact Nat.lt_of_le_of_lt (length_chomp_le part) hlen

/-- The lines of a text in UTF-8 are UTF-8. -/
theorem isUtf8_of_mem_lines {limit : Nat} {s line : Bytes} (hs : isUtf8 s = true)
    (h : line ∈ (lines limit s).lines) : isUtf8 line = true := by
  obtain ⟨part, hpart, rfl, _⟩ := exists_of_mem_lines h
  exact isUtf8_chomp (isUtf8_of_mem_splitOn (by decide) hs hpart)

/-- There is nothing to take off a line without carriage returns. -/
theorem chomp_eq_self {s : Bytes} (h : 13 ∉ s) : chomp s = s := by
  refine (chomp_cases s).resolve_right fun hs => h ?_
  rw [hs]
  exact List.mem_append_right _ List.mem_cons_self

/-- A carriage return at the end of a line is taken off. -/
theorem chomp_append_return (s : Bytes) : chomp (s ++ [13]) = s := by
  rw [chomp, List.reverse_append, List.reverse_singleton, List.singleton_append]
  exact List.reverse_reverse s

/-- A line that ends in a newline comes before the lines behind it. -/
theorem lines_append_newline {limit : Nat} {line : Bytes} (hnewline : 10 ∉ line)
    (hlen : line.length < limit) (rest : Bytes) : lines limit (line ++ 10 :: rest) =
      ⟨chomp line :: (lines limit rest).lines, (lines limit rest).overlong⟩ := by
  have hfirst : decide (line.length < limit) = true := decide_eq_true hlen
  obtain ⟨part, parts, hsplit⟩ := List.exists_cons_of_ne_nil (Bytes.splitOn_ne_nil 10 rest)
  simp only [lines, Bytes.splitOn_append hnewline, hsplit, List.getLast?_cons_cons]
  split
  · simp [hfirst]
  · simp [hfirst]

/-- A text without newlines is its only line. -/
theorem lines_of_no_newline {limit : Nat} {s : Bytes} (hne : s ≠ []) (hnewline : 10 ∉ s)
    (hlen : s.length < limit) : lines limit s = ⟨[chomp s], false⟩ := by
  simp [lines, Bytes.splitOn_of_not_mem hnewline, hlen, hne]

/-- A text without newlines and carriage returns is its only line. -/
theorem lines_of_not_mem {limit : Nat} {s : Bytes} (hne : s ≠ []) (hnewline : 10 ∉ s)
    (hreturn : 13 ∉ s) (hlen : s.length < limit) : lines limit s = ⟨[s], false⟩ := by
  rw [lines_of_no_newline hne hnewline hlen, chomp_eq_self hreturn]

end Text

end RegisterMachine
