import Mathlib.Algebra.Group.Int.Defs
import Mathlib.Algebra.Group.Nat.Defs
import RegisterMachine.Text.Utf8

/-!
# Glyphs and the bytes that they are read from

Reading a byte string into glyphs and writing the glyphs again gives the byte string
(`ofGlyphs_glyphs`), and glyphs that are scalar values are read back from what they write
(`glyphs_ofGlyphs`). A byte below 128 is a character by itself wherever it stands, so a text can be
taken apart there: `glyphs_append_ascii`, and `isUtf8_append_ascii` for well-formedness. A text of
such bytes alone has a glyph for each (`glyphs_of_ascii`). The code points of any byte string are
scalar values, which are read back from what they write (`runes_ofRunes`).
-/

namespace RegisterMachine.Text

/-- The glyph stands for a scalar value. -/
def Glyph.isScalar : Glyph → Bool
  | scalar c => Text.isScalar c
  | stray _ => false

/-- A byte is the one with its value. -/
theorem ofNat_eq_of_eq_toNat {n : Nat} {b : UInt8} (h : n = b.toNat) : UInt8.ofNat n = b := by
  rw [h, UInt8.ofNat_toNat]

/-! ## One glyph -/

/-- What is read at the start of a byte string is the written form of a scalar value. -/
theorem encodeScalar_of_scalarAt? {b : UInt8} {rest : Bytes} {c k : Nat}
    (h : scalarAt? b rest = some (c, k)) :
    isScalar c = true ∧ encodeScalar c = b :: rest.take k ∧ k ≤ rest.length := by
  have hb := b.toNat_lt
  unfold scalarAt? at h
  dsimp only at h
  split at h
  · next hn =>
    cases h
    refine ⟨by simp [isScalar]; omega, ?_, Nat.zero_le _⟩
    rw [encodeScalar, if_pos hn, UInt8.ofNat_toNat, List.take_zero]
  split at h
  · next hn =>
    obtain _ | ⟨x, rest⟩ := rest
    · cases h
    simp only [Option.ite_none_right_eq_some, Option.some.injEq, Prod.mk.injEq, isContinuation,
      Bool.and_eq_true, decide_eq_true_eq] at h
    obtain ⟨hx, hc, rfl⟩ := h
    refine ⟨by simp [isScalar]; omega, ?_, by simp⟩
    rw [encodeScalar, if_neg (by omega), if_pos (by omega),
      ofNat_eq_of_eq_toNat (b := b) (by omega), ofNat_eq_of_eq_toNat (b := x) (by omega)]
    rfl
  split at h
  · next hn =>
    obtain _ | ⟨x, _ | ⟨y, rest⟩⟩ := rest
    · cases h
    · cases h
    simp only [Option.ite_none_right_eq_some, Option.some.injEq, Prod.mk.injEq, isContinuation,
      Bool.and_eq_true, decide_eq_true_eq] at h
    obtain ⟨⟨⟨⟨hx, hy⟩, hlow⟩, hscalar⟩, hc, rfl⟩ := h
    rw [hc] at hscalar hlow
    refine ⟨hscalar, ?_, by simp⟩
    rw [encodeScalar, if_neg (by omega), if_neg (by omega), if_pos (by omega),
      ofNat_eq_of_eq_toNat (b := b) (by omega), ofNat_eq_of_eq_toNat (b := x) (by omega),
      ofNat_eq_of_eq_toNat (b := y) (by omega)]
    rfl
  split at h
  · next hn =>
    obtain _ | ⟨x, _ | ⟨y, _ | ⟨z, rest⟩⟩⟩ := rest
    · cases h
    · cases h
    · cases h
    simp only [Option.ite_none_right_eq_some, Option.some.injEq, Prod.mk.injEq, isContinuation,
      Bool.and_eq_true, decide_eq_true_eq] at h
    obtain ⟨⟨⟨⟨⟨hx, hy⟩, hz⟩, hlow⟩, hscalar⟩, hc, rfl⟩ := h
    rw [hc] at hscalar hlow
    refine ⟨hscalar, ?_, by simp⟩
    rw [encodeScalar, if_neg (by omega), if_neg (by omega), if_neg (by omega),
      ofNat_eq_of_eq_toNat (b := b) (by omega), ofNat_eq_of_eq_toNat (b := x) (by omega),
      ofNat_eq_of_eq_toNat (b := y) (by omega), ofNat_eq_of_eq_toNat (b := z) (by omega)]
    rfl
  · cases h

/-- A glyph and the bytes after it make up the byte string that it was read from. -/
theorem bytes_nextGlyph (b : UInt8) (rest : Bytes) :
    (nextGlyph b rest).1.bytes ++ (nextGlyph b rest).2 = b :: rest := by
  rw [nextGlyph]
  cases h : scalarAt? b rest with
  | none => rfl
  | some ck =>
    obtain ⟨_, hbytes, _⟩ := encodeScalar_of_scalarAt? h
    dsimp only [Glyph.bytes]
    rw [hbytes, List.cons_append, List.take_append_drop]

/-- The written form of a scalar value is read as that value, whatever follows. -/
theorem glyphs_encodeScalar_append {c : Nat} (h : isScalar c = true) (rest : Bytes) :
    glyphs (encodeScalar c ++ rest) = .scalar c :: glyphs rest := by
  suffices hnext : ∃ b bs, encodeScalar c = b :: bs ∧ scalarAt? b (bs ++ rest) =
      some (c, bs.length) by
    obtain ⟨b, bs, hbytes, hread⟩ := hnext
    rw [hbytes, List.cons_append, glyphs_cons, nextGlyph, hread]
    dsimp only
    rw [List.drop_left]
  simp only [isScalar, Bool.or_eq_true, Bool.and_eq_true, decide_eq_true_eq] at h
  rw [encodeScalar]
  split
  · next h1 =>
    refine ⟨_, _, rfl, ?_⟩
    simp only [scalarAt?, UInt8.toNat_ofNat']
    rw [if_pos (by omega)]
    simp only [List.length_nil, Option.some.injEq, Prod.mk.injEq, and_true]
    omega
  split
  · next h1 h2 =>
    refine ⟨_, _, rfl, ?_⟩
    simp only [scalarAt?, UInt8.toNat_ofNat', List.cons_append, List.nil_append, isContinuation]
    rw [if_neg (by omega), if_pos (by omega), if_pos (by simp; omega)]
    simp only [List.length_cons, List.length_nil, Option.some.injEq, Prod.mk.injEq, and_true]
    omega
  split
  · next h1 h2 h3 =>
    refine ⟨_, _, rfl, ?_⟩
    have hc : (224 + c / 4096) % 2 ^ 8 - 224 = c / 4096 := by omega
    have hx : (128 + c / 64 % 64) % 2 ^ 8 - 128 = c / 64 % 64 := by omega
    have hy : (128 + c % 64) % 2 ^ 8 - 128 = c % 64 := by omega
    have hsum : c / 4096 * 4096 + c / 64 % 64 * 64 + c % 64 = c := by omega
    simp only [scalarAt?, UInt8.toNat_ofNat', List.cons_append, List.nil_append, isContinuation,
      hc, hx, hy, hsum]
    rw [if_neg (by omega), if_neg (by omega), if_pos (by omega), if_pos (by simp [isScalar]; omega)]
    rfl
  · next h1 h2 h3 =>
    refine ⟨_, _, rfl, ?_⟩
    have hc : (240 + c / 262144) % 2 ^ 8 - 240 = c / 262144 := by omega
    have hx : (128 + c / 4096 % 64) % 2 ^ 8 - 128 = c / 4096 % 64 := by omega
    have hy : (128 + c / 64 % 64) % 2 ^ 8 - 128 = c / 64 % 64 := by omega
    have hz : (128 + c % 64) % 2 ^ 8 - 128 = c % 64 := by omega
    have hsum : c / 262144 * 262144 + c / 4096 % 64 * 4096 + c / 64 % 64 * 64 + c % 64 = c := by
      omega
    simp only [scalarAt?, UInt8.toNat_ofNat', List.cons_append, List.nil_append, isContinuation,
      hc, hx, hy, hz, hsum]
    rw [if_neg (by omega), if_neg (by omega), if_neg (by omega), if_pos (by omega),
      if_pos (by simp [isScalar]; omega)]
    rfl

/-! ## All glyphs of a text -/

/-- What holds of the empty text, and of a text when it holds behind the first glyph, holds of
all. -/
@[elab_as_elim]
theorem glyphs_induction {motive : Bytes → Prop} (nil : motive [])
    (cons : ∀ b rest, motive (nextGlyph b rest).2 → motive (b :: rest)) : ∀ s, motive s
  | [] => nil
  | b :: rest =>
    have := length_nextGlyph b rest
    cons b rest (glyphs_induction nil cons (nextGlyph b rest).2)
termination_by s => s.length

/-- **A byte string is what its glyphs write.** -/
theorem ofGlyphs_glyphs (s : Bytes) : ofGlyphs (glyphs s) = s := by
  induction s using glyphs_induction with
  | nil => rw [glyphs_nil]; rfl
  | cons b rest ih =>
    have hbytes := bytes_nextGlyph b rest
    rw [glyphs_cons, ofGlyphs, List.flatMap_cons]
    rw [ofGlyphs] at ih
    rw [ih, hbytes]

/-- **Scalar values are read back from what they write.** -/
theorem glyphs_ofGlyphs {gs : List Glyph} (h : ∀ g ∈ gs, g.isScalar = true) :
    glyphs (ofGlyphs gs) = gs := by
  induction gs with
  | nil => exact glyphs_nil
  | cons g gs ih =>
    have hg := h g List.mem_cons_self
    cases g with
    | stray b => cases hg
    | scalar c =>
      have htail := ih fun g' hg' => h g' (List.mem_cons_of_mem _ hg')
      rw [ofGlyphs] at htail
      rw [ofGlyphs, List.flatMap_cons, Glyph.bytes, glyphs_encodeScalar_append hg, htail]

/-- A text is well-formed when all its glyphs are scalar values. -/
theorem isUtf8_iff {s : Bytes} : isUtf8 s = true ↔ ∀ g ∈ glyphs s, g.isScalar = true := by
  rw [isUtf8, List.all_eq_true]
  induction s using glyphs_induction with
  | nil => simp
  | cons b rest ih =>
    rw [glyphs_cons, List.forall_mem_cons, List.forall_mem_cons, ih]
    refine and_congr ?_ Iff.rfl
    rw [nextGlyph]
    cases h : scalarAt? b rest with
    | none => exact Iff.rfl
    | some ck => simp [Glyph.isScalar, (encodeScalar_of_scalarAt? h).1]

/-- Scalar values are written as UTF-8. -/
theorem isUtf8_ofGlyphs {gs : List Glyph} (h : ∀ g ∈ gs, g.isScalar = true) :
    isUtf8 (ofGlyphs gs) = true := by
  rw [isUtf8_iff, glyphs_ofGlyphs h]
  exact h

/-! ## Texts with a byte below 128 in them -/

section
variable {b : UInt8} (hb : b.toNat < 0x80)
include hb

/-- No sequence goes across a byte below 128. -/
theorem scalarAt?_append_ascii (a : UInt8) (s rest : Bytes) :
    scalarAt? a (s ++ b :: rest) = scalarAt? a s := by
  have hstop : isContinuation b = false := by simp [isContinuation]; omega
  obtain _ | ⟨x, _ | ⟨y, _ | ⟨z, s⟩⟩⟩ := s
  · cases rest with
    | nil => simp [scalarAt?, hstop]
    | cons r rest => cases rest <;> simp [scalarAt?, hstop]
  · cases rest <;> simp [scalarAt?, hstop]
  · simp [scalarAt?, hstop]
  · simp [scalarAt?]

/-- **A byte below 128 is a character by itself.** -/
theorem glyphs_append_ascii (s rest : Bytes) :
    glyphs (s ++ b :: rest) = glyphs s ++ .scalar b.toNat :: glyphs rest := by
  induction s using glyphs_induction with
  | nil =>
    have hnext : nextGlyph b rest = (.scalar b.toNat, rest) := by simp [nextGlyph, scalarAt?, hb]
    rw [List.nil_append, glyphs_cons, hnext, glyphs_nil, List.nil_append]
  | cons a s ih =>
    have hnext : nextGlyph a (s ++ b :: rest) =
        ((nextGlyph a s).1, (nextGlyph a s).2 ++ b :: rest) := by
      rw [nextGlyph, scalarAt?_append_ascii hb, nextGlyph]
      cases h : scalarAt? a s with
      | none => rfl
      | some ck =>
        dsimp only
        rw [List.drop_append_of_le_length (encodeScalar_of_scalarAt? h).2.2]
    rw [List.cons_append, glyphs_cons, hnext, ih, glyphs_cons, List.cons_append]

/-- A text is well-formed when both of its parts around a byte below 128 are. -/
theorem isUtf8_append_ascii (s rest : Bytes) :
    isUtf8 (s ++ b :: rest) = (isUtf8 s && isUtf8 rest) := by
  rw [isUtf8, glyphs_append_ascii hb, List.all_append, List.all_cons, Bool.true_and]
  rfl

end

/-- A byte below 128 in front is the first glyph. -/
theorem glyphs_cons_ascii {b : UInt8} (hb : b.toNat < 0x80) (s : Bytes) :
    glyphs (b :: s) = .scalar b.toNat :: glyphs s := by
  rw [← List.nil_append (b :: s), glyphs_append_ascii hb, glyphs_nil, List.nil_append]

/-- A text of bytes below 128 has a glyph for each. -/
theorem glyphs_of_ascii {s : Bytes} (h : ∀ b ∈ s, b.toNat < 0x80) :
    glyphs s = s.map fun b => .scalar b.toNat := by
  induction s with
  | nil => exact glyphs_nil
  | cons b s ih =>
    obtain ⟨hb, hs⟩ := List.forall_mem_cons.1 h
    rw [glyphs_cons_ascii hb, ih hs, List.map_cons]

/-- ASCII is UTF-8. -/
theorem isUtf8_of_ascii {s : Bytes} (h : ∀ b ∈ s, b.toNat < 0x80) : isUtf8 s = true := by
  rw [isUtf8, glyphs_of_ascii h, List.all_map]
  exact List.all_eq_true.2 fun _ _ => rfl

/-! ## Code points -/

/-- Whatever the bytes, the code points that they are read as are scalar values. -/
theorem isScalar_of_mem_runes {s : Bytes} {c : Nat} (h : c ∈ runes s) : isScalar c = true := by
  obtain ⟨g, hg, rfl⟩ := List.mem_map.1 h
  clear h
  induction s using glyphs_induction with
  | nil =>
    rw [glyphs_nil] at hg
    cases hg
  | cons b rest ih =>
    rw [glyphs_cons] at hg
    rcases List.mem_cons.1 hg with rfl | hg
    · rw [nextGlyph]
      cases hread : scalarAt? b rest with
      | none => rfl
      | some ck => exact (encodeScalar_of_scalarAt? hread).1
    · exact ih hg

/-- **Code points are read back from what they write**, when they are scalar values. -/
theorem runes_ofRunes {cs : List Nat} (h : ∀ c ∈ cs, isScalar c = true) :
    runes (ofRunes cs) = cs := by
  induction cs with
  | nil => rw [ofRunes, List.flatMap_nil, runes, glyphs_nil, List.map_nil]
  | cons c cs ih =>
    obtain ⟨hc, hcs⟩ := List.forall_mem_cons.1 h
    have htail := ih hcs
    rw [runes, ofRunes] at htail
    rw [ofRunes, List.flatMap_cons, encodeRune, if_pos hc, runes, glyphs_encodeScalar_append hc,
      List.map_cons, htail, Glyph.code]

end RegisterMachine.Text
