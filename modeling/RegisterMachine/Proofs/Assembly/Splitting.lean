import RegisterMachine.Proofs.Text.Quoted
import RegisterMachine.Proofs.Text.Words
import RegisterMachine.Value.Literal

/-!
# Splitting at commas

Splitting goes past a text (`Passed`) when it is at the same depth and outside quotes behind it as
before. It goes past words, past quoted texts (`Passed.of_isQuoted`, by `splitFrom_quoted`), and
past brackets around what it goes past when it is one level deeper (`Passed.brackets`), where commas
do not count. So a list of such texts comes apart at the commas between them (`splitFrom_join`),
even when the last one only takes what is left (`Last`), as a quoted text does that is not closed.
-/

namespace RegisterMachine

/-! ## Joined texts -/

namespace Bytes

/-- Joining puts the separator behind the first part. -/
theorem join_cons_cons (sep a b : Bytes) (rest : List Bytes) :
    join sep (a :: b :: rest) = a ++ (sep ++ join sep (b :: rest)) := by
  simp [join, List.intersperse]

/-- One part is joined to itself. -/
theorem join_singleton (sep a : Bytes) : join sep [a] = a := by
  simp [join, List.intersperse]

/-- The last part comes after all others and their separators. -/
theorem join_append_singleton (sep last : Bytes) (parts : List Bytes) :
    join sep (parts ++ [last]) = parts.flatMap (· ++ sep) ++ last := by
  induction parts with
  | nil => rw [List.nil_append, join_singleton, List.flatMap_nil, List.nil_append]
  | cons a parts ih =>
    rw [List.flatMap_cons, List.append_assoc, ← ih]
    cases parts with
    | nil => rw [List.singleton_append, join_cons_cons, List.nil_append, List.append_assoc]
    | cons b parts =>
      rw [List.cons_append, List.cons_append, join_cons_cons, List.append_assoc, ← List.cons_append]

/-- What stands in joined parts comes from the separator or from a part. -/
theorem mem_of_mem_join {sep : Bytes} {parts : List Bytes} {b : UInt8} (h : b ∈ join sep parts) :
    b ∈ sep ∨ ∃ part ∈ parts, b ∈ part := by
  induction parts with
  | nil => cases h
  | cons a parts ih =>
    cases parts with
    | nil => exact .inr ⟨a, List.mem_cons_self, by rwa [join_singleton] at h⟩
    | cons a' parts =>
      rw [join_cons_cons, List.mem_append, List.mem_append] at h
      rcases h with h | h | h
      · exact .inr ⟨a, List.mem_cons_self, h⟩
      · exact .inl h
      · exact (ih h).imp_right fun ⟨part, hpart, hb⟩ => ⟨part, List.mem_cons_of_mem _ hpart, hb⟩

/-- A part is no longer than the whole. -/
theorem length_le_join {sep part : Bytes} {parts : List Bytes} (h : part ∈ parts) :
    part.length ≤ (join sep parts).length := by
  induction parts with
  | nil => cases h
  | cons a parts ih =>
    cases parts with
    | nil =>
      obtain rfl := List.mem_singleton.1 h
      exact Nat.le_of_eq (congrArg List.length (join_singleton sep part)).symm
    | cons a' parts =>
      rw [join_cons_cons, List.length_append, List.length_append]
      rcases List.mem_cons.1 h with rfl | h
      · omega
      · have := ih h
        omega

end Bytes

namespace Literal

open Text (quoteState isQuoteMark IsQuoted)

/-! ## What splitting goes past -/

/-- Splitting at depth `least` or more takes the text into the part being read. -/
def Passed (least : Nat) (s : Bytes) : Prop :=
  ∀ (part : Bytes) (depth : Int), (least : Int) ≤ depth → ∀ rest,
    splitFrom ⟨part, depth, none, false⟩ (s ++ rest) =
      splitFrom ⟨s.reverse ++ part, depth, none, false⟩ rest

/-- Splitting at depth `least` or more takes the text, and nothing else, to the end of the part
being read. -/
def Last (least : Nat) (s : Bytes) : Prop :=
  ∀ (part : Bytes) (depth : Int), (least : Int) ≤ depth →
    splitFrom ⟨part, depth, none, false⟩ s = [part.reverse ++ s]

namespace Passed

variable {least : Nat} {s t : Bytes}

/-- Splitting goes past an empty text. -/
theorem nil : Passed least [] := fun _ _ _ _ => rfl

/-- Splitting goes past two texts one after the other. -/
theorem append (hs : Passed least s) (ht : Passed least t) : Passed least (s ++ t) := by
  intro part depth hdepth rest
  rw [List.append_assoc, hs part depth hdepth, ht _ depth hdepth, List.reverse_append,
    List.append_assoc]

/-- What splitting goes past at one depth, it goes past at every greater depth. -/
theorem mono {least' : Nat} (hs : Passed least s) (h : least ≤ least') : Passed least' s :=
  fun part depth hdepth => hs part depth (Int.le_trans (Int.ofNat_le.2 h) hdepth)

/-- What is passed comes before the last text. -/
theorem append_last (hs : Passed least s) (ht : Last least t) : Last least (s ++ t) := by
  intro part depth hdepth
  rw [hs part depth hdepth, ht _ depth hdepth, List.reverse_append, List.reverse_reverse,
    List.append_assoc]

/-- A text that splitting goes past may stand last. -/
theorem last (hs : Passed least s) : Last least s := by
  intro part depth hdepth
  have h := hs part depth hdepth []
  rwa [List.append_nil, splitFrom, List.reverse_append, List.reverse_reverse] at h

/-- A byte that has no meaning for splitting is passed. -/
theorem of_plain (h : ∀ b ∈ s, b ≠ 34 ∧ b ≠ 39 ∧ b ≠ 91 ∧ b ≠ 93 ∧ b ≠ 44) : Passed least s := by
  induction s with
  | nil => exact nil
  | cons b s ih =>
    obtain ⟨⟨h34, h39, h91, h93, h44⟩, hs⟩ := List.forall_mem_cons.1 h
    intro part depth hdepth rest
    have hquote : ¬(b = 34 ∨ b = 39) := not_or.2 ⟨h34, h39⟩
    rw [List.cons_append, splitFrom]
    dsimp only
    rw [if_neg Bool.false_ne_true, if_neg hquote, if_neg h91, if_neg h93, if_neg fun h => h44 h.1,
      ih hs _ depth hdepth, List.reverse_cons, List.append_assoc]
    rfl

/-- A comma is passed inside brackets. -/
theorem comma : Passed 1 [44] := by
  intro part depth hdepth rest
  have hne : ¬((44 : UInt8) = 44 ∧ depth = 0) := by omega
  rw [List.singleton_append, splitFrom]
  dsimp only
  rw [if_neg Bool.false_ne_true, if_neg (by decide), if_neg (by decide), if_neg (by decide),
    if_neg hne]
  rfl

/-- An opening bracket leads one level deeper. -/
theorem splitFrom_open (part : Bytes) (depth : Int) (rest : Bytes) :
    splitFrom ⟨part, depth, none, false⟩ (91 :: rest) =
      splitFrom ⟨91 :: part, depth + 1, none, false⟩ rest := by
  rw [splitFrom]
  dsimp only
  rw [if_neg Bool.false_ne_true, if_neg (by decide), if_pos rfl]

/-- A closing bracket leads one level up. -/
theorem splitFrom_close (part : Bytes) (depth : Int) (rest : Bytes) :
    splitFrom ⟨part, depth, none, false⟩ (93 :: rest) =
      splitFrom ⟨93 :: part, depth - 1, none, false⟩ rest := by
  rw [splitFrom]
  dsimp only
  rw [if_neg Bool.false_ne_true, if_neg (by decide), if_neg (by decide), if_pos rfl]

/-- Brackets around a text are passed when the text is passed one level deeper. -/
theorem brackets (hs : Passed 1 s) : Passed 0 (91 :: (s ++ [93])) := by
  intro part depth hdepth rest
  rw [List.cons_append, splitFrom_open, List.append_assoc,
    hs _ (depth + 1) (Int.add_le_add_right hdepth 1), List.singleton_append, splitFrom_close,
    Int.add_sub_cancel]
  simp

end Passed

/-- What may stand last at one depth may stand last at every greater depth. -/
theorem Last.mono {least least' : Nat} {s : Bytes} (hs : Last least s) (h : least ≤ least') :
    Last least' s :=
  fun part depth hdepth => hs part depth (Int.le_trans (Int.ofNat_le.2 h) hdepth)

/-- An opening bracket comes before a text that is the last one a level deeper. -/
theorem Last.bracket {s : Bytes} (hs : Last 1 s) : Last 0 (91 :: s) := by
  intro part depth hdepth
  rw [Passed.splitFrom_open, hs _ (depth + 1) (Int.add_le_add_right hdepth 1), List.reverse_cons,
    List.append_assoc]
  rfl

/-! ## Quoted texts -/

variable {q : UInt8}

/-- Inside quotes splitting takes everything into the part being read. -/
theorem splitFrom_quoted (depth : Int) {w w' : Bool} {s : Bytes} (h : quoteState q w s = some w')
    (part rest : Bytes) : splitFrom ⟨part, depth, some q, w⟩ (s ++ rest) =
      splitFrom ⟨s.reverse ++ part, depth, some q, w'⟩ rest := by
  induction s generalizing w part with
  | nil => cases h; rfl
  | cons c s ih =>
    rw [List.cons_append, List.reverse_cons, List.append_assoc, List.singleton_append, splitFrom]
    dsimp only
    cases w with
    | true =>
      rw [if_pos rfl]
      exact ih h (c :: part)
    | false =>
      rw [quoteState] at h
      rw [if_neg Bool.false_ne_true]
      split at h
      · next hc =>
        rw [if_pos hc]
        exact ih h (c :: part)
      · next hc =>
        split at h
        · cases h
        · next hq =>
          rw [if_neg hc, if_neg hq]
          exact ih h (c :: part)

/-- A quote mark opens a quoted part. -/
theorem splitFrom_quoteMark (hq : isQuoteMark q) (part : Bytes) (depth : Int) (rest : Bytes) :
    splitFrom ⟨part, depth, none, false⟩ (q :: rest) =
      splitFrom ⟨q :: part, depth, some q, false⟩ rest := by
  rw [splitFrom]
  dsimp only
  rw [if_neg Bool.false_ne_true]
  exact if_pos hq

/-- **A quoted text is passed.** -/
theorem Passed.of_isQuoted {least : Nat} (hq : isQuoteMark q) {s : Bytes} (h : IsQuoted q s) :
    Passed least s := by
  obtain ⟨body, rfl, hbody, _⟩ := h
  intro part depth _ rest
  have hback : q ≠ 92 := by rcases hq with rfl | rfl <;> decide
  rw [List.cons_append, splitFrom_quoteMark hq, List.append_assoc, splitFrom_quoted depth hbody,
    List.singleton_append, splitFrom]
  dsimp only
  rw [if_neg Bool.false_ne_true, if_neg hback, if_pos rfl]
  simp

/-- **A quoted text that is not closed takes what is left.** -/
theorem last_of_unclosed {least : Nat} (hq : isQuoteMark q) {body : Bytes}
    (h : (quoteState q false body).isSome = true) : Last least (q :: body) := by
  obtain ⟨w, hw⟩ := Option.isSome_iff_exists.1 h
  intro part depth _
  have hread := splitFrom_quoted depth hw (q :: part) []
  rw [List.append_nil] at hread
  rw [splitFrom_quoteMark hq, hread, splitFrom, List.reverse_append, List.reverse_reverse,
    List.reverse_cons, List.append_assoc]
  rfl

/-! ## Lists -/

/-- Elements are separated by a comma and a blank. -/
theorem utf8_separator : utf8 ", " = [44] ++ [32] := rfl

/-- **Texts with commas between them come apart there**, every part but the first with its space. -/
theorem splitFrom_join {parts : List Bytes} {last : Bytes} (h : ∀ s ∈ parts, Passed 0 s)
    (hlast : Last 0 last) (part : Bytes) : ∃ first rest, parts ++ [last] = first :: rest ∧
      splitFrom ⟨part, 0, none, false⟩ (Bytes.join (utf8 ", ") (parts ++ [last])) =
        (part.reverse ++ first) :: rest.map (32 :: ·) := by
  induction parts generalizing part with
  | nil =>
    refine ⟨last, [], rfl, ?_⟩
    rw [List.nil_append, Bytes.join_singleton, hlast part 0 (Int.le_refl 0), List.map_nil]
  | cons s parts ih =>
    obtain ⟨hs, hparts⟩ := List.forall_mem_cons.1 h
    obtain ⟨first, rest, hfirst, hsplit⟩ := ih hparts [32]
    refine ⟨s, first :: rest, by rw [List.cons_append, hfirst], ?_⟩
    have hpassed : Passed 0 [32] := Passed.of_plain (by decide +kernel)
    have hspace := hpassed [] 0 (Int.le_refl 0) (Bytes.join (utf8 ", ") (first :: rest))
    rw [List.append_nil, List.reverse_singleton] at hspace
    rw [hfirst] at hsplit
    rw [List.cons_append, hfirst, Bytes.join_cons_cons, hs part 0 (Int.le_refl 0), utf8_separator,
      List.append_assoc, List.singleton_append, splitFrom]
    dsimp only
    rw [if_neg Bool.false_ne_true, if_neg (by decide), if_neg (by decide), if_neg (by decide),
      if_pos ⟨rfl, rfl⟩, ← utf8_separator, hspace, hsplit, List.reverse_append,
      List.reverse_reverse, List.map_cons]
    rfl

/-- Trimmed, the parts between the commas are the texts themselves. -/
theorem map_trim_splitTop_join {parts : List Bytes} {last : Bytes} (h : ∀ s ∈ parts, Passed 0 s)
    (hlast : Last 0 last) :
    (splitTop (Bytes.join (utf8 ", ") (parts ++ [last]))).map Text.trim =
      (parts ++ [last]).map Text.trim := by
  obtain ⟨first, rest, hfirst, hsplit⟩ := splitFrom_join h hlast []
  rw [splitTop, hsplit, hfirst, List.reverse_nil, List.nil_append, List.map_cons, List.map_cons,
    List.map_map]
  exact congrArg _ (List.map_congr_left fun s _ => Text.trim_space_cons s)

/-- Inside brackets a list of texts is passed when each of them is. -/
theorem Passed.join {parts : List Bytes} (h : ∀ s ∈ parts, Passed 0 s) :
    Passed 1 (Bytes.join (utf8 ", ") parts) := by
  induction parts with
  | nil => exact nil
  | cons a parts ih =>
    obtain ⟨ha, hparts⟩ := List.forall_mem_cons.1 h
    cases parts with
    | nil => rw [Bytes.join_singleton]; exact ha.mono (Nat.zero_le 1)
    | cons b parts =>
      rw [Bytes.join_cons_cons, utf8_separator]
      exact (ha.mono (Nat.zero_le 1)).append
        ((comma.append (of_plain (by decide +kernel))).append (ih hparts))

end Literal

end RegisterMachine
