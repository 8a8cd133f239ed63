import RegisterMachine.Proofs.Assembly.LiteralText

/-!
# Literals that are cut short

A literal holds a semicolon only between quotes. What stands before it (`Literal.IsCutShort`) ends
in a quoted text that is not closed, perhaps inside of brackets that are not closed
(`Literal.isCutShort_of_literal`). Splitting and trimming keep it that way, so no reader takes it
for a literal (`Literal.readLevels_ne_ok`).
-/

namespace RegisterMachine

open Text (isVisible isQuoteMark IsQuoted quoteState)

/-- In two readings of a text one of which has a separator, the separator is in the first or in the
second part of the other. -/
theorem append_eq_append_cons {α : Type} {a : α} {s t pre post : List α}
    (h : s ++ t = pre ++ a :: post) :
    (∃ post', s = pre ++ a :: post') ∨ ∃ pre', pre = s ++ pre' ∧ t = pre' ++ a :: post := by
  rcases List.append_eq_append_iff.1 h with ⟨pre', hpre, ht⟩ | ⟨c, hs, hc⟩
  · exact .inr ⟨pre', hpre, ht⟩
  · cases c with
    | nil => exact .inr ⟨[], by rw [hs, List.append_nil, List.append_nil], hc.symm⟩
    | cons a' c =>
      rw [List.cons_append, List.cons.injEq] at hc
      obtain ⟨rfl, _⟩ := hc
      exact .inl ⟨c, hs⟩

/-- A separator that the second part of a text has not is in the first part. -/
theorem exists_eq_of_not_mem_right {α : Type} {a : α} {s t pre post : List α} (ht : a ∉ t)
    (h : s ++ t = pre ++ a :: post) : ∃ post', s = pre ++ a :: post' := by
  refine (append_eq_append_cons h).resolve_right fun ⟨pre', _, heq⟩ => ht ?_
  rw [heq]
  exact List.mem_append_right _ List.mem_cons_self

/-- A separator that the first part of a text has not is in the second part. -/
theorem exists_eq_of_not_mem_left {α : Type} {a : α} {s t pre post : List α} (hs : a ∉ s)
    (h : s ++ t = pre ++ a :: post) : ∃ pre', pre = s ++ pre' ∧ t = pre' ++ a :: post := by
  refine (append_eq_append_cons h).resolve_left fun ⟨post', heq⟩ => hs ?_
  rw [heq]
  exact List.mem_append_right _ List.mem_cons_self

/-- Neither of the quotes is a space. -/
theorem Text.isQuoteMark.isVisible {q : UInt8} (hq : isQuoteMark q) : isVisible q = true := by
  rcases hq with rfl | rfl <;> rfl

namespace Literal

/-- What a literal starts with up to an opening quote `q`, when it is cut short behind that
quote. -/
inductive CutHead (q : UInt8) : Bytes → Prop
  | string : q = 34 → CutHead q (40 :: (utf8 "string" ++ [41]))
  | char : q = 39 → CutHead q (40 :: (utf8 "char" ++ [41]))
  | array {es : List Value} {head : Bytes} : (∀ e ∈ es, e.isReadable = true) → CutHead q head →
      CutHead q (40 :: (utf8 "array" ++ 41 :: 91 :: (es.flatMap (·.literal ++ utf8 ", ") ++ head)))

/-- A literal that is cut short inside of quotes. -/
def IsCutShort (s : Bytes) : Prop :=
  ∃ q head body, s = head ++ q :: body ∧ CutHead q head ∧ (quoteState q false body).isSome = true

namespace CutHead

variable {q : UInt8} {head : Bytes}

/-- What a head cut short opened was a quote mark. -/
theorem isQuoteMark (h : CutHead q head) : isQuoteMark q := by
  induction h with
  | string hq => exact .inl hq
  | char hq => exact .inr hq
  | array _ _ ih => exact ih

/-- A head that is cut short starts with a parenthesis. -/
theorem eq_cons (h : CutHead q head) : ∃ s, head = 40 :: s := by
  cases h with
  | string _ => exact ⟨_, rfl⟩
  | char _ => exact ⟨_, rfl⟩
  | array _ _ => exact ⟨_, rfl⟩

/-- The elements of an array before the last one are passed inside its brackets. -/
theorem passed_flatMap_literal {es : List Value} (hes : ∀ e ∈ es, e.isReadable = true) :
    Passed 1 (es.flatMap (·.literal ++ utf8 ", ")) := by
  induction es with
  | nil => exact Passed.nil
  | cons e es ih =>
    obtain ⟨he, hes⟩ := List.forall_mem_cons.1 hes
    have hseparator : Passed 1 (utf8 ", ") :=
      Passed.comma.append (Passed.of_plain (by decide +kernel))
    rw [List.flatMap_cons]
    have hliteral := passed_literal (Value.isFloatless_of_isReadable e he)
    exact ((hliteral.mono (Nat.zero_le 1)).append hseparator).append (ih hes)

/-- Splitting takes a literal that is cut short to the end of the part. -/
theorem last (h : CutHead q head) {body : Bytes} (hbody : (quoteState q false body).isSome = true) :
    Last 0 (head ++ q :: body) := by
  have hquoted : Last 0 (q :: body) := last_of_unclosed h.isQuoteMark hbody
  induction h with
  | string _ => exact (Passed.of_plain (by decide +kernel)).append_last hquoted
  | char _ => exact (Passed.of_plain (by decide +kernel)).append_last hquoted
  | @array es head hes _ ih =>
    have hname : Passed 0 (40 :: (utf8 "array" ++ [41])) := Passed.of_plain (by decide +kernel)
    have hinner := (passed_flatMap_literal hes).append_last (ih.mono (Nat.zero_le 1))
    have hlast := hname.append_last hinner.bracket
    simpa using hlast

end CutHead

/-- A literal that is cut short still is when it is trimmed, with a text in front or alone. -/
theorem IsCutShort.trim_append {s t : Bytes} (h : IsCutShort t)
    (hs : ∀ b ∈ s.head?, isVisible b = true) :
    ∃ t', Text.trim (s ++ t) = s ++ t' ∧ IsCutShort t' := by
  obtain ⟨q, head, body, rfl, hhead, hbody⟩ := h
  have hfirst : ∀ b ∈ (s ++ head ++ [q]).head?, isVisible b = true := by
    obtain ⟨head', rfl⟩ := hhead.eq_cons
    cases s with
    | nil =>
      rintro _ ⟨⟩
      rfl
    | cons c s => exact hs
  obtain ⟨body', rest, rfl, htrim⟩ :=
    Text.exists_trim_eq_append hfirst hhead.isQuoteMark.isVisible body
  rw [List.append_assoc, List.append_assoc] at htrim
  exact ⟨_, htrim, q, head, body', rfl, hhead, Text.isSome_quoteState_of_append hbody⟩

/-- A literal that is cut short still is when it is trimmed. -/
theorem IsCutShort.trim {t : Bytes} (h : IsCutShort t) : IsCutShort (Text.trim t) := by
  obtain ⟨t', htrim, ht'⟩ := h.trim_append (s := []) (fun _ hb => nomatch hb)
  rw [List.nil_append, List.nil_append] at htrim
  rwa [htrim]

/-! ## Where a literal is cut short -/

/-- Between quotes stands what is not closed before a semicolon. -/
theorem exists_of_isQuoted {q : UInt8} (hq : isQuoteMark q) {pre post : Bytes}
    (h : IsQuoted q (pre ++ 59 :: post)) :
    ∃ body, pre = q :: body ∧ (quoteState q false body).isSome = true := by
  obtain ⟨inner, heq, hinner, _⟩ := h
  have hne : q ≠ 59 := by rcases hq with rfl | rfl <;> decide
  cases pre with
  | nil => exact absurd (List.cons.inj heq).1.symm hne
  | cons c body =>
    rw [List.cons_append, List.cons.injEq] at heq
    obtain ⟨rfl, heq⟩ := heq
    obtain ⟨post', rfl⟩ := exists_eq_of_not_mem_right
      (fun hmem => hne (List.mem_singleton.1 hmem).symm) heq.symm
    exact ⟨body, rfl, Text.isSome_quoteState_of_append (by rw [hinner]; rfl)⟩

/-- What stands before a semicolon among the elements of an array. -/
theorem exists_of_join_eq {es : List Value} {pre post : Bytes}
    (h : Bytes.join (utf8 ", ") (es.map Value.literal) = pre ++ 59 :: post) :
    ∃ (es' : List Value) (e : Value) (pre' post' : Bytes),
      (∀ d ∈ es', d ∈ es) ∧ e ∈ es ∧ e.literal = pre' ++ 59 :: post' ∧
      pre = es'.flatMap (·.literal ++ utf8 ", ") ++ pre' := by
  induction es generalizing pre with
  | nil => exact absurd h.symm (by simp [Bytes.join])
  | cons e es ih =>
    cases es with
    | nil =>
      rw [List.map_singleton, Bytes.join_singleton] at h
      exact ⟨[], e, pre, post, by simp, List.mem_cons_self, h, rfl⟩
    | cons e' es =>
      rw [List.map_cons, List.map_cons, Bytes.join_cons_cons, ← List.map_cons] at h
      rcases append_eq_append_cons h with ⟨post', he⟩ | ⟨pre₁, hpre, h⟩
      · exact ⟨[], e, pre, post', by simp, List.mem_cons_self, he, rfl⟩
      · obtain ⟨pre₂, hpre₁, h⟩ := exists_eq_of_not_mem_left (by decide) h
        obtain ⟨es', d, pre', post', hes', hd, hliteral, hpre₂⟩ := ih h
        refine ⟨e :: es', d, pre', post', ?_, List.mem_cons_of_mem e hd, hliteral, ?_⟩
        · exact List.forall_mem_cons.2 ⟨List.mem_cons_self,
            fun d hd => List.mem_cons_of_mem e (hes' d hd)⟩
        · rw [hpre, hpre₁, hpre₂, List.flatMap_cons, List.append_assoc, List.append_assoc]

/-- **A literal holds a semicolon only where it is cut short inside of quotes.** -/
theorem isCutShort_of_literal {v : Value} (hv : v.isReadable = true) {pre post : Bytes}
    (h : v.literal = pre ++ 59 :: post) : IsCutShort pre := by
  have hfloatless := Value.isFloatless_of_isReadable v hv
  induction v, hfloatless using Value.floatless_induction generalizing pre post with
  | scalar v _ type body hscalar =>
    have hsplit : (40 :: (type ++ [41])) ++ body = pre ++ 59 :: post := by
      rw [← h, hscalar.literal]
      simp
    have htype : (59 : UInt8) ∉ 40 :: (type ++ [41]) := by
      have hword : (59 : UInt8) ∉ type := fun hmem => by cases hscalar.type_word 59 hmem
      simp [hword]
    obtain ⟨pre', rfl, hbody⟩ := exists_eq_of_not_mem_left htype hsplit
    rcases hscalar.body_cases with hword | ⟨rfl, hquoted⟩ | ⟨rfl, hquoted⟩
    · have hmem : (59 : UInt8) ∈ body := by
        rw [hbody]
        exact List.mem_append_right _ List.mem_cons_self
      cases hword 59 hmem
    · rw [hbody] at hquoted
      obtain ⟨inner, rfl, hinner⟩ := exists_of_isQuoted (.inl rfl) hquoted
      exact ⟨34, _, inner, rfl, .string rfl, hinner⟩
    · rw [hbody] at hquoted
      obtain ⟨inner, rfl, hinner⟩ := exists_of_isQuoted (.inr rfl) hquoted
      exact ⟨39, _, inner, rfl, .char rfl, hinner⟩
  | array es _ ih =>
    have hes := Value.isReadableAll_iff.1 hv
    have hsplit : (40 :: (utf8 "array" ++ [41, 91])) ++
        (Bytes.join (utf8 ", ") (es.map Value.literal) ++ [93]) = pre ++ 59 :: post := by
      rw [← h, Value.literal_array]
      simp
    obtain ⟨pre', rfl, hinner⟩ := exists_eq_of_not_mem_left (by decide) hsplit
    obtain ⟨post', hjoin⟩ := exists_eq_of_not_mem_right (by decide) hinner
    obtain ⟨es', e, pre'', post'', hes', he, hliteral, rfl⟩ := exists_of_join_eq hjoin
    obtain ⟨q, head, body, rfl, hhead, hbody⟩ :=
      ih e (Value.isFloatless_of_isReadable e (hes e he)) he (hes e he) hliteral
    refine ⟨q, _, body, ?_, .array (fun d hd => hes d (hes' d hd)) hhead, hbody⟩
    simp

/-! ## Reading a literal that is cut short -/

/-- A text between quotes that is not closed is not read, trimmed or not. -/
theorem unquote?_of_unclosed {q : UInt8} (hq : isQuoteMark q) {body : Bytes}
    (h : (quoteState q false body).isSome = true) :
    Text.unquote? (Text.trim (q :: body)) = none := by
  have hvisible := hq.isVisible
  obtain ⟨body', rest, rfl, htrim⟩ := Text.exists_trim_eq_append (s := [])
    (by rintro b ⟨⟩; exact hvisible) hvisible body
  rw [List.nil_append, List.nil_append] at htrim
  rw [htrim, Option.eq_none_iff_forall_ne_some]
  intro t ht
  have hopen := Text.isSome_quoteState_of_append h
  rw [Text.quoteState_of_unquote? hq ht] at hopen
  cases hopen

/-- Inside of brackets a literal that is cut short stays one, whatever is taken from its end. -/
theorem exists_of_bracketed? {s body inner : Bytes} {q : UInt8} (hq : isQuoteMark q)
    (h : bracketed? (91 :: (s ++ q :: body)) = some inner) :
    ∃ body' rest, body = body' ++ rest ∧ inner = s ++ q :: body' := by
  rw [bracketed?] at h
  split at h
  · next hlast =>
    rcases List.eq_nil_or_concat body with rfl | ⟨body, b, rfl⟩
    · rw [List.getLast?_concat] at hlast
      cases hlast
      rcases hq with h | h <;> cases h
    · rw [List.concat_eq_append, ← List.cons_append, ← List.append_assoc, List.dropLast_concat] at h
      exact ⟨body, [b], List.concat_eq_append, (Option.some.inj h).symm⟩
  · cases h

/-- Inside of brackets a literal that is cut short stays one, before and behind which the text is
trimmed. -/
theorem exists_trim_of_bracketed? {s body inner : Bytes} {q : UInt8} (hq : isQuoteMark q)
    (hs : ∀ b ∈ (s ++ [q]).head?, isVisible b = true)
    (hbody : (quoteState q false body).isSome = true)
    (h : bracketed? (Text.trim (91 :: (s ++ q :: body))) = some inner) :
    ∃ body', Text.trim inner = s ++ q :: body' ∧ (quoteState q false body').isSome = true := by
  have hvisible := hq.isVisible
  obtain ⟨body₁, rest₁, rfl, htrim⟩ :=
    Text.exists_trim_eq_append (s := 91 :: s) (by rintro b ⟨⟩; rfl)
    hvisible body
  rw [← List.cons_append, htrim, List.cons_append] at h
  obtain ⟨body₂, rest₂, rfl, rfl⟩ := exists_of_bracketed? hq h
  obtain ⟨body₃, rest₃, rfl, htrim⟩ := Text.exists_trim_eq_append hs hvisible body₂
  exact ⟨body₃, htrim, Text.isSome_quoteState_of_append (Text.isSome_quoteState_of_append
    (Text.isSome_quoteState_of_append hbody))⟩

/-- A list of literals is not read when the last one is not. -/
theorem mapM_splitTop_ne_ok {read : Bytes → Except LiteralError Value} {es : List Value}
    {last : Bytes} (hes : ∀ e ∈ es, e.isReadable = true) (hlast : Last 0 last)
    (hread : ∀ v, read (Text.trim last) ≠ .ok v) (vs : List Value) :
    ((splitTop (Bytes.join (utf8 ", ") (es.map Value.literal ++ [last]))).mapM fun part =>
      read (Text.trim part)) ≠ .ok vs := by
  intro h
  have hparts : ∀ s ∈ es.map Value.literal, Passed 0 s :=
    List.forall_mem_map.2 fun e he => passed_literal (Value.isFloatless_of_isReadable e (hes e he))
  have hmem : Text.trim last ∈
      (splitTop (Bytes.join (utf8 ", ") (es.map Value.literal ++ [last]))).map Text.trim := by
    rw [map_trim_splitTop_join hparts hlast]
    exact List.mem_map_of_mem (List.mem_append_right _ List.mem_cons_self)
  obtain ⟨part, hpart, htrim⟩ := List.mem_map.1 hmem
  obtain ⟨v, hv⟩ := exists_of_mem_forall₂ (Except.mapM_eq_ok.1 h) hpart
  rw [htrim] at hv
  exact hread v hv.2

/-- **A literal that is cut short is not read.** -/
theorem readLevels_ne_ok {labels : Labels} {levels : Nat} {s : Bytes} (h : IsCutShort s)
    (v : Value) : readLevels labels levels s ≠ .ok v := by
  induction levels generalizing s v with
  | zero => exact nofun
  | succ levels ih =>
    obtain ⟨q, head, body, rfl, hhead, hbody⟩ := h
    have hunquoted := unquote?_of_unclosed hhead.isQuoteMark hbody
    cases hhead with
    | string _ =>
      rw [List.cons_append, List.append_assoc, List.singleton_append,
        readLevels_scalar (by decide) (by decide), Value.readScalar_string, hunquoted]
      exact nofun
    | char _ =>
      rw [List.cons_append, List.append_assoc, List.singleton_append,
        readLevels_scalar (by decide) (by decide), Value.readScalar_char, hunquoted]
      exact nofun
    | @array es head hes hhead =>
      have hsplit : splitType (40 ::
          (utf8 "array" ++ 41 :: 91 :: (es.flatMap (·.literal ++ utf8 ", ") ++ head))
            ++ q :: body) = .ok (utf8 "array",
            Text.trim (91 :: (es.flatMap (·.literal ++ utf8 ", ") ++ head ++ q :: body))) := by
        rw [List.cons_append, List.append_assoc, List.cons_append, splitType_cons (by decide)]
        rfl
      rw [readLevels_array hsplit]
      cases hinner : bracketed?
        (Text.trim (91 :: (es.flatMap (·.literal ++ utf8 ", ") ++ head ++ q :: body))) with
      | none => exact nofun
      | some inner =>
        obtain ⟨s, hs⟩ := hhead.eq_cons
        obtain ⟨s', hs'⟩ :=
          flatMap_literal_append (fun e he => Value.isFloatless_of_isReadable e (hes e he)) s
        obtain ⟨body', htrim, hopen⟩ := exists_trim_of_bracketed? hhead.isQuoteMark
          (by rw [hs, hs']; rintro b ⟨⟩; rfl) hbody hinner
        have hjoin : es.flatMap (·.literal ++ utf8 ", ") ++ head ++ q :: body' =
            Bytes.join (utf8 ", ") (es.map Value.literal ++ [head ++ q :: body']) := by
          rw [Bytes.join_append_singleton, List.flatMap_map, List.append_assoc]
        have hne : (es.flatMap (·.literal ++ utf8 ", ") ++ head ++ q :: body').isEmpty = false := by
          simp
        dsimp only
        rw [htrim, hne, if_neg Bool.false_ne_true, hjoin]
        intro h
        obtain ⟨vs, hvs, _⟩ := Except.map_eq_ok.1 h
        have hcut : IsCutShort (head ++ q :: body') := ⟨q, head, body', rfl, hhead, hopen⟩
        exact mapM_splitTop_ne_ok hes (hhead.last hopen) (fun v => ih hcut.trim v) vs hvs

end Literal

end RegisterMachine
