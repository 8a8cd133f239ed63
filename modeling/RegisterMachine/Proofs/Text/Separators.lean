import Mathlib.Data.List.Forall2
import RegisterMachine.Proofs.Assembly.Splitting
import RegisterMachine.Proofs.Text.Words

/-!
# Texts with separators

A text is cut at the first occurrence of a separator (`Bytes.CutsAt`), and split at one after the
other from the left (`Bytes.SplitsAt`). Fields that are written between spaces, with a separator
that holds no space, are got back by cutting and by splitting: no occurrence goes across a space
(`Bytes.prefix_append_cons`), so the only separators are those between the fields, and trimming
takes off the spaces (`Text.Padded.trim`).
-/

namespace RegisterMachine

namespace Bytes

variable {sep s l r : Bytes}

/-! ## The first occurrence -/

/-- The text is cut at the first occurrence of the separator. -/
structure CutsAt (sep s l r : Bytes) : Prop where
  eq : s = l ++ (sep ++ r)
  first : ∀ l' r', s = l' ++ (sep ++ r') → l.length ≤ l'.length

/-- **Cutting a text** finds the first occurrence. -/
theorem cutAt?_eq_some_iff (hsep : sep ≠ []) : cutAt? sep s = some (l, r) ↔ CutsAt sep s l r := by
  induction s generalizing l with
  | nil =>
    rw [cutAt?, if_neg (by simpa using hsep)]
    refine iff_of_false (Option.some_ne_none _).symm fun h => ?_
    exact hsep (List.append_eq_nil_iff.1 (List.append_eq_nil_iff.1 h.eq.symm).2).1
  | cons b bs ih =>
    rw [cutAt?]
    split
    · next hprefix =>
      obtain ⟨r', hr'⟩ := List.isPrefixOf_iff_prefix.1 hprefix
      rw [← hr', List.drop_left]
      constructor
      · rintro ⟨⟩
        exact ⟨rfl, fun _ _ _ => Nat.zero_le _⟩
      · intro h
        obtain rfl := List.eq_nil_of_length_eq_zero (Nat.le_zero.1 (h.first [] r' rfl))
        rw [List.append_cancel_left h.eq]
    · next hprefix =>
      have hprefix : ¬sep <+: b :: bs := fun h => hprefix (List.isPrefixOf_iff_prefix.2 h)
      rw [Option.map_eq_some_iff]
      constructor
      · rintro ⟨⟨l, r⟩, hcut, ⟨⟩⟩
        obtain ⟨heq, hfirst⟩ := ih.1 hcut
        refine ⟨by rw [heq, List.cons_append], fun l' r' h => ?_⟩
        cases l' with
        | nil => exact absurd ⟨r', h.symm⟩ hprefix
        | cons c l' => exact Nat.succ_le_succ (hfirst l' r' (List.cons.inj h).2)
      · rintro ⟨heq, hfirst⟩
        cases l with
        | nil => exact absurd ⟨r, heq.symm⟩ hprefix
        | cons c l =>
          obtain ⟨rfl, hbs⟩ := List.cons.inj heq
          refine ⟨(l, r), ih.2 ⟨hbs, fun l' r' h => ?_⟩, rfl⟩
          exact Nat.le_of_succ_le_succ (hfirst (b :: l') r' (by rw [h, List.cons_append]))

/-- A text is not cut exactly if the separator does not occur in it. -/
theorem cutAt?_eq_none_iff (hsep : sep ≠ []) : cutAt? sep s = none ↔ ¬sep <:+: s := by
  induction s with
  | nil =>
    rw [cutAt?, if_neg (by simpa using hsep)]
    exact iff_of_true rfl fun h => hsep (List.infix_nil.1 h)
  | cons b bs ih =>
    rw [cutAt?, List.infix_cons_iff, ← List.isPrefixOf_iff_prefix]
    split
    · next hprefix => exact iff_of_false (Option.some_ne_none _) fun h => h (.inl hprefix)
    · next hprefix => rw [Option.map_eq_none_iff, ih, or_iff_right hprefix]

/-! ## All occurrences -/

/-- The parts of a text between the separators, which are found from the left. -/
inductive SplitsAt (sep : Bytes) : Bytes → List Bytes → Prop
  | last {s : Bytes} : ¬sep <:+: s → SplitsAt sep s [s]
  | cut {s l r : Bytes} {parts : List Bytes} : CutsAt sep s l r → SplitsAt sep r parts →
      SplitsAt sep s (l :: parts)

/-- A text that is not cut is its only part. -/
theorem splitAt_of_none (hsep : sep ≠ []) (h : cutAt? sep s = none) : splitAt sep s = [s] := by
  rw [splitAt, dif_neg hsep]
  split
  · rfl
  · next hcut =>
    rw [h] at hcut
    cases hcut

/-- A text that is cut has its left side as its first part. -/
theorem splitAt_of_some (hsep : sep ≠ []) (h : cutAt? sep s = some (l, r)) :
    splitAt sep s = l :: splitAt sep r := by
  rw [splitAt, dif_neg hsep]
  split
  · next hcut =>
    rw [h] at hcut
    cases hcut
  · next hcut =>
    rw [h] at hcut
    cases hcut
    rfl

/-- **Splitting a text** finds the parts between the separators. -/
theorem splitAt_eq_iff (hsep : sep ≠ []) {parts : List Bytes} :
    splitAt sep s = parts ↔ SplitsAt sep s parts := by
  constructor
  · rintro rfl
    generalize hn : s.length = n
    induction n using Nat.strongRecOn generalizing s with
    | ind n ih =>
      cases hcut : cutAt? sep s with
      | none =>
        rw [splitAt_of_none hsep hcut]
        exact .last ((cutAt?_eq_none_iff hsep).1 hcut)
      | some lr =>
        rw [splitAt_of_some hsep hcut]
        exact .cut ((cutAt?_eq_some_iff hsep).1 hcut)
          (ih _ (hn ▸ length_lt_of_cutAt? hsep hcut) rfl)
  · intro h
    induction h with
    | last hnot => exact splitAt_of_none hsep ((cutAt?_eq_none_iff hsep).2 hnot)
    | cut hcut _ ih => rw [splitAt_of_some hsep ((cutAt?_eq_some_iff hsep).2 hcut), ih]

/-! ## Separators without spaces -/

variable {x : UInt8} {a b : Bytes}

/-- A separator that begins before a byte that is not in it ends before that byte. -/
theorem prefix_append_cons (hx : x ∉ sep) (h : sep <+: a ++ x :: b) : sep <+: a := by
  obtain ⟨q, hq⟩ := h
  rcases List.append_eq_append_iff.1 hq with ⟨c, ha, _⟩ | ⟨c, hsep, hc⟩
  · exact ⟨c, ha.symm⟩
  · cases c with
    | nil => exact ⟨[], by rw [hsep, List.append_nil, List.append_nil]⟩
    | cons y c =>
      obtain ⟨rfl, _⟩ := List.cons.inj hc
      exact absurd (hsep ▸ List.mem_append_right a List.mem_cons_self) hx

/-- A separator that occurs around a byte which is not part of it occurs on one side. -/
theorem infix_append_cons (hsep : sep ≠ []) (hx : x ∉ sep) (h : sep <:+: a ++ x :: b) :
    sep <:+: a ∨ sep <:+: b := by
  induction a with
  | nil =>
    rcases List.infix_cons_iff.1 h with h | h
    · exact absurd (List.prefix_nil.1 (prefix_append_cons (a := []) hx h)) hsep
    · exact .inr h
  | cons y a ih =>
    rcases List.infix_cons_iff.1 h with h | h
    · exact .inl <| List.IsPrefix.isInfix <| prefix_append_cons (a := y :: a) hx h
    · exact (ih h).imp_left fun h => List.infix_cons_iff.2 (.inr h)

/-- **A separator behind a byte that is not in it** is the first one when none stands before the
byte. -/
theorem cutsAt_of_not_infix (hx : x ∉ sep) (h : ¬sep <:+: a) (r : Bytes) :
    CutsAt sep (a ++ x :: (sep ++ r)) (a ++ [x]) r := by
  refine ⟨by rw [List.append_assoc, List.singleton_append], fun l' r' heq => ?_⟩
  refine Nat.le_of_not_lt fun hlt => ?_
  rw [List.length_append, List.length_singleton] at hlt
  obtain ⟨c, rfl⟩ : l' <+: a :=
    List.prefix_of_prefix_length_le ⟨_, heq.symm⟩ (List.prefix_append a _) (Nat.le_of_lt_succ hlt)
  rw [List.append_assoc] at heq
  have hprefix : sep <+: c := prefix_append_cons hx ⟨r', (List.append_cancel_left heq).symm⟩
  exact h <| List.IsInfix.trans (List.IsPrefix.isInfix hprefix) <|
    List.IsSuffix.isInfix (List.suffix_append l' c)

end Bytes

namespace Text

/-! ## Spaces around fields -/

/-- The text is the field with any number of spaces before and after it. -/
def Padded (field text : Bytes) : Prop :=
  ∃ m n, text = List.replicate m 32 ++ (field ++ List.replicate n 32)

variable {field text sep : Bytes}

/-- A field without spaces around it. -/
theorem Padded.refl (s : Bytes) : Padded s s := ⟨0, 0, (List.append_nil s).symm⟩

/-- A space may be added in front of a field. -/
theorem Padded.space_cons (h : Padded field text) : Padded field (32 :: text) := by
  obtain ⟨m, n, rfl⟩ := h
  exact ⟨m + 1, n, rfl⟩

/-- A space may be added behind a field. -/
theorem Padded.append_space (h : Padded field text) : Padded field (text ++ [32]) := by
  obtain ⟨m, n, rfl⟩ := h
  exact ⟨m, n + 1, by rw [List.append_assoc, List.append_assoc, List.replicate_succ']⟩

/-- White space at the end is trimmed. -/
theorem trim_append_ascii {b : UInt8} (hb : b.toNat < 0x80)
    (hspace : (Glyph.scalar b.toNat).isSpace = true) (s : Bytes) : trim (s ++ [b]) = trim s := by
  rw [trim, trim, glyphs_append_ascii hb, glyphs_nil, List.dropWhile_append]
  split
  · next h =>
    rw [List.isEmpty_iff.1 h, List.dropWhile_cons_of_pos hspace]
    rfl
  · rw [List.reverse_append, List.reverse_singleton, List.singleton_append,
      List.dropWhile_cons_of_pos hspace]

/-- A visible character stays when a text is trimmed. -/
theorem mem_trim {b : UInt8} (hb : isVisible b = true) {s : Bytes} (h : b ∈ s) : b ∈ trim s := by
  obtain ⟨hlt, hspace⟩ := lt_of_isVisible hb
  have hkeep : ∀ {gs : List Glyph},
      .scalar b.toNat ∈ gs → .scalar b.toNat ∈ gs.dropWhile Glyph.isSpace := by
    intro gs hmem
    rw [← List.takeWhile_append_dropWhile (p := Glyph.isSpace) (l := gs)] at hmem
    refine (List.mem_append.1 hmem).resolve_left fun htake => ?_
    rw [List.all_eq_true.1 List.all_takeWhile _ htake] at hspace
    cases hspace
  have hglyph : .scalar b.toNat ∈ glyphs s := by
    obtain ⟨l, r, rfl⟩ := List.append_of_mem h
    rw [glyphs_append_ascii hlt]
    exact List.mem_append_right _ List.mem_cons_self
  have hbytes : (Glyph.scalar b.toNat).bytes = [b] := by
    rw [Glyph.bytes, encodeScalar, if_pos hlt, UInt8.ofNat_toNat]
  rw [trim, ofGlyphs]
  refine List.mem_flatMap.2 ⟨.scalar b.toNat, ?_, hbytes ▸ List.mem_singleton_self b⟩
  exact List.mem_reverse.2 (hkeep (List.mem_reverse.2 (hkeep hglyph)))

/-- **Spaces around a field are trimmed.** -/
theorem Padded.trim (h : Padded field text) : Text.trim text = Text.trim field := by
  obtain ⟨m, n, rfl⟩ := h
  induction m with
  | zero =>
    rw [List.replicate_zero, List.nil_append]
    induction n with
    | zero => rw [List.replicate_zero, List.append_nil]
    | succ n ih =>
      rw [List.replicate_succ', ← List.append_assoc, trim_append_ascii (by decide) (by decide), ih]
  | succ m ih => rw [List.replicate_succ, List.cons_append, trim_space_cons, ih]

/-- A separator without spaces that is not in a field is not in the field with spaces around it. -/
theorem Padded.not_infix (h : Padded field text) (hsep : sep ≠ []) (hspace : 32 ∉ sep)
    (hfield : ¬sep <:+: field) : ¬sep <:+: text := by
  obtain ⟨m, n, rfl⟩ := h
  induction m with
  | zero =>
    rw [List.replicate_zero, List.nil_append]
    induction n with
    | zero => rwa [List.replicate_zero, List.append_nil]
    | succ n ih =>
      intro h
      rw [List.replicate_succ', ← List.append_assoc] at h
      exact (Bytes.infix_append_cons hsep hspace h).elim ih fun h => hsep (List.infix_nil.1 h)
  | succ m ih =>
    intro h
    have hcons : sep <:+: [] ++ 32 :: (List.replicate m 32 ++ (field ++ List.replicate n 32)) := h
    exact (Bytes.infix_append_cons hsep hspace hcons).elim (fun h => hsep (List.infix_nil.1 h)) ih

/-- **Fields that are joined by a separator between spaces** are got back by splitting, with spaces
around them. -/
theorem exists_splitsAt_join (hsep : sep ≠ []) (hspace : 32 ∉ sep) {fields texts : List Bytes}
    (hne : fields ≠ []) (hfields : ∀ field ∈ fields, ¬sep <:+: field)
    (h : List.Forall₂ Padded fields texts) :
    ∃ parts, Bytes.SplitsAt sep (Bytes.join (32 :: (sep ++ [32])) texts) parts ∧
      List.Forall₂ Padded fields parts := by
  induction fields generalizing texts with
  | nil => exact absurd rfl hne
  | cons field fields ih =>
    obtain ⟨hfield, hfields⟩ := List.forall_mem_cons.1 hfields
    cases h with
    | @cons _ text _ texts htext htexts =>
      have hnot : ¬sep <:+: text := htext.not_infix hsep hspace hfield
      cases htexts with
      | nil =>
        rw [Bytes.join_singleton]
        exact ⟨[text], .last hnot, .cons htext .nil⟩
      | @cons second next fields texts hnext htexts =>
        -- The space behind the separator becomes one of the next field.
        obtain ⟨parts, hsplit, hparts⟩ :=
          ih (List.cons_ne_nil _ _) hfields (.cons hnext.space_cons htexts)
        have hjoin : Bytes.join (32 :: (sep ++ [32])) (text :: next :: texts) =
            text ++ 32 :: (sep ++ Bytes.join (32 :: (sep ++ [32])) ((32 :: next) :: texts)) := by
          cases texts with
          | nil => simp [Bytes.join_cons_cons, Bytes.join_singleton]
          | cons => simp [Bytes.join_cons_cons]
        rw [hjoin]
        exact ⟨(text ++ [32]) :: parts, .cut (Bytes.cutsAt_of_not_infix hspace hnot _) hsplit,
          .cons htext.append_space hparts⟩

end Text

end RegisterMachine
