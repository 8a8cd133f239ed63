import Mathlib.Algebra.Group.Int.Defs
import Mathlib.Algebra.Group.Nat.Defs
import Mathlib.Data.Nat.Digits.Defs
import RegisterMachine.Number.Integer

/-!
# The numerals that are read

Numerals are given by a grammar (`Unsigned`, `Numeral`): digits in groups that single underscores
separate (`Grouped`), behind an optional sign and a base mark, with the number that the digits stand
for in positional notation. The readers that take the base from the text accept the numerals whose
number is in range, and no other text, and give that number: `readUnsigned_eq_ok_iff` and
`readSigned_eq_ok_iff`. So a text is a numeral for at most one number (`Numeral.unique`).
-/

namespace RegisterMachine.Number

/-! ## The grammar -/

/-- A digit of the base. -/
def IsDigit (base : Nat) (c : UInt8) : Prop := ∃ d, digit? c = some d ∧ d < base

/-- Digits of the base, with single underscores between them. -/
inductive Grouped (base : Nat) : Bytes → Prop
  | last {c : UInt8} : IsDigit base c → Grouped base [c]
  | digit {c : UInt8} {s : Bytes} : IsDigit base c → Grouped base s → Grouped base (c :: s)
  | underscore {c : UInt8} {s : Bytes} : IsDigit base c → Grouped base s →
      Grouped base (c :: 95 :: s)

/-- The number that the digits in a text stand for. -/
def digitsValue (base : Nat) (s : Bytes) : Nat := Nat.ofDigits base (s.filterMap digit?).reverse

/-- The base that a letter behind a zero asks for. -/
def markedBase? (c : UInt8) : Option Nat :=
  match Bytes.lower c with
  | 98 => some 2
  | 111 => some 8
  | 120 => some 16
  | _ => none

/-- The numerals without a sign. A leading zero is a base mark, alone or with a letter. -/
inductive Unsigned : Bytes → Nat → Prop
  | decimal {s : Bytes} : s.head? ≠ some 48 → Grouped 10 s → Unsigned s (digitsValue 10 s)
  | octal {s : Bytes} : Grouped 8 (48 :: s) → Unsigned (48 :: s) (digitsValue 8 s)
  | marked {c : UInt8} {base : Nat} {s : Bytes} : markedBase? c = some base → Grouped base s →
      Unsigned (48 :: c :: s) (digitsValue base s)
  | separated {c : UInt8} {base : Nat} {s : Bytes} : markedBase? c = some base → Grouped base s →
      Unsigned (48 :: c :: 95 :: s) (digitsValue base s)

/-- The numerals with an optional sign. -/
inductive Numeral : Bytes → Int → Prop
  | unsigned {s : Bytes} {n : Nat} : Unsigned s n → Numeral s n
  | plus {s : Bytes} {n : Nat} : Unsigned s n → Numeral (43 :: s) n
  | minus {s : Bytes} {n : Nat} : Unsigned s n → Numeral (45 :: s) (-n)

variable {base max bits n m : Nat} {s : Bytes} {c : UInt8}

/-! ## Digits -/

/-- Digits are no underscores. -/
theorem IsDigit.ne_underscore (hc : IsDigit base c) : c ≠ 95 := by
  rintro rfl
  obtain ⟨d, hd, _⟩ := hc
  cases hd

/-- Zero is a digit of every base. -/
theorem isDigit_zero (h : 0 < base) : IsDigit base 48 := ⟨0, rfl, h⟩

/-- The letters behind a zero that mark a base. -/
theorem markedBase?_cases (h : markedBase? c = some base) :
    (Bytes.lower c = 98 ∧ base = 2 ∨ Bytes.lower c = 111 ∧ base = 8 ∨ Bytes.lower c = 120 ∧
      base = 16) := by
  unfold markedBase? at h
  split at h <;> simp_all

/-- The digits of a numeral count as such where underscores are checked. -/
theorem followed_of_isDigit {hex : Bool} (hbase : base ≤ 10 ∨ base ≤ 16 ∧ hex = true)
    (hc : IsDigit base c) :
    (Bytes.isDigit c || (hex && 97 ≤ (Bytes.lower c).toNat && (Bytes.lower c).toNat ≤ 102)) =
      true := by
  obtain ⟨d, hd, hlt⟩ := hc
  simp only [Bytes.isDigit, Bool.or_eq_true, Bool.and_eq_true, decide_eq_true_eq]
  unfold digit? at hd
  dsimp only at hd
  split at hd
  · next h => exact .inl h
  split at hd
  · next h =>
    cases hd
    have hlower : Bytes.lower c = c := if_neg (by omega)
    rw [hlower]
    exact .inr ⟨⟨(hbase.resolve_left (by omega)).2, h.1⟩, by omega⟩
  split at hd
  · next h =>
    cases hd
    have hlower : (Bytes.lower c).toNat = c.toNat + 32 := by
      have hstep : (32 : UInt8).toNat = 32 := rfl
      rw [Bytes.lower, if_pos h, UInt8.toNat_add, hstep]
      exact Nat.mod_eq_of_lt (by omega)
    rw [hlower]
    exact .inr ⟨⟨(hbase.resolve_left (by omega)).2, by omega⟩, by omega⟩
  · cases hd

/-- **Reading digits** adds the number that they stand for behind the number so far. -/
theorem readDigits_eq_ok_iff (hn : n ≤ max) :
    readDigits base max true n s = .ok m ↔ (∀ c ∈ s, c = 95 ∨ IsDigit base c) ∧
      m = n * base ^ (s.filterMap digit?).length + digitsValue base s ∧ m ≤ max := by
  induction s generalizing n with
  | nil =>
    rw [readDigits, Except.ok.injEq]
    simp only [List.not_mem_nil, false_imp_iff, implies_true, true_and, List.filterMap_nil,
      List.length_nil, pow_zero, Nat.mul_one, digitsValue, List.reverse_nil, Nat.ofDigits_nil,
      Nat.add_zero]
    exact ⟨fun h => ⟨h.symm, h ▸ hn⟩, fun h => h.1.symm⟩
  | cons c s ih =>
    rw [readDigits, List.forall_mem_cons, digitsValue]
    by_cases hc : c = 95
    · subst hc
      have hskip : List.filterMap digit? (95 :: s) = s.filterMap digit? :=
        List.filterMap_cons_none rfl
      rw [hskip, if_pos (by rfl), ih hn]
      simp [digitsValue]
    rw [if_neg (by simpa using hc), or_iff_right hc]
    cases hd : digit? c with
    | none => exact iff_of_false nofun fun h => by simp [IsDigit, hd] at h
    | some d =>
      dsimp only
      rw [List.filterMap_cons_some hd, List.length_cons, Nat.ofDigits_reverse_cons]
      by_cases hlt : d < base
      · rw [if_neg (Nat.not_le.2 hlt)]
        have hdigit : IsDigit base c := ⟨d, hd, hlt⟩
        have hvalue : n * base ^ ((s.filterMap digit?).length + 1) +
            (Nat.ofDigits base (s.filterMap digit?).reverse + base ^ (s.filterMap digit?).length *
              d) =
            (n * base + d) * base ^ (s.filterMap digit?).length + digitsValue base s := by
          rw [digitsValue, Nat.pow_succ]
          ring
        rw [hvalue]
        by_cases hmax : max < n * base + d
        · have hpos : 0 < base ^ (s.filterMap digit?).length := Nat.pow_pos (Nat.zero_lt_of_lt hlt)
          have hle := Nat.le_mul_of_pos_right (n * base + d) hpos
          rw [if_pos hmax]
          exact iff_of_false nofun fun h => by omega
        · rw [if_neg hmax, ih (Nat.not_lt.1 hmax), and_iff_right hdigit]
      · rw [if_pos (Nat.not_lt.1 hlt)]
        refine iff_of_false nofun fun h => ?_
        obtain ⟨⟨⟨d', hd', hlt'⟩, _⟩, _⟩ := h
        cases hd.symm.trans hd'
        exact hlt hlt'

/-! ## Underscores -/

/-- Groups of digits have nothing but digits and underscores. -/
theorem Grouped.plain (h : Grouped base s) : ∀ c ∈ s, c = 95 ∨ IsDigit base c := by
  induction h with
  | last hc => exact List.forall_mem_singleton.2 (.inr hc)
  | digit hc _ ih => exact List.forall_mem_cons.2 ⟨.inr hc, ih⟩
  | underscore hc _ ih =>
    exact List.forall_mem_cons.2 ⟨.inr hc, List.forall_mem_cons.2 ⟨.inl rfl, ih⟩⟩

/-- Groups of digits do not start with an underscore. -/
theorem not_grouped_underscore : ¬Grouped base (95 :: s) := by
  rintro (h | ⟨h, _⟩ | ⟨h, _⟩) <;> exact h.ne_underscore rfl

/-- Groups of digits are not empty. -/
theorem not_grouped_nil : ¬Grouped base [] := nofun

/-- A digit goes before more digits, with an underscore or without one. -/
theorem grouped_cons_cons_iff {a : UInt8} (hc : IsDigit base c) (ha : IsDigit base a) :
    Grouped base (c :: a :: s) ↔ Grouped base (a :: s) := by
  constructor
  · rintro (_ | ⟨_, h⟩ | ⟨_, h⟩)
    · exact h
    · exact absurd rfl ha.ne_underscore
  · exact .digit hc

/-- An underscore behind a digit goes before groups of digits. -/
theorem grouped_cons_underscore_iff (hc : IsDigit base c) :
    Grouped base (c :: 95 :: s) ↔ Grouped base s := by
  constructor
  · rintro (_ | ⟨_, h⟩ | ⟨_, h⟩)
    · exact absurd h not_grouped_underscore
    · exact h
  · exact .underscore hc

/-- The underscore rule, behind a digit and behind an underscore. -/
theorem underscoresFollow_iff {hex : Bool} (hbase : base ≤ 10 ∨ base ≤ 16 ∧ hex = true)
    (hs : ∀ c ∈ s, c = 95 ∨ IsDigit base c) :
    (∀ c, IsDigit base c → (underscoresFollow hex .digit s = true ↔ Grouped base (c :: s))) ∧
      (underscoresFollow hex .underscore s = true ↔ Grouped base s) := by
  induction s with
  | nil =>
    exact ⟨fun c hc => iff_of_true rfl (.last hc), iff_of_false Bool.false_ne_true not_grouped_nil⟩
  | cons a s ih =>
    obtain ⟨ha, hs⟩ := List.forall_mem_cons.1 hs
    obtain ⟨ihdigit, ihunderscore⟩ := ih hs
    rcases ha with rfl | ha
    · refine ⟨fun c hc => ?_, iff_of_false ?_ not_grouped_underscore⟩
      · rw [grouped_cons_underscore_iff hc, ← ihunderscore]
        cases hex <;> rfl
      · cases hex <;> exact Bool.false_ne_true
    · have hfollow : ∀ spot, underscoresFollow hex spot (a :: s) =
          underscoresFollow hex .digit s := by
        intro spot
        rw [underscoresFollow, if_pos (followed_of_isDigit hbase ha)]
      rw [hfollow, hfollow]
      exact ⟨fun c hc => (ihdigit a ha).trans (grouped_cons_cons_iff hc ha).symm, ihdigit a ha⟩

/-- Digits without underscores are a group. -/
theorem grouped_of_forall_isDigit (hc : IsDigit base c) (hs : ∀ a ∈ s, IsDigit base a) :
    Grouped base (c :: s) := by
  induction s generalizing c with
  | nil => exact .last hc
  | cons a s ih =>
    obtain ⟨ha, hs⟩ := List.forall_mem_cons.1 hs
    exact .digit hc (ih ha hs)

/-- What is left to check behind a digit, as the reader checks it. -/
theorem grouped_cons_iff {hex : Bool} (hbase : base ≤ 10 ∨ base ≤ 16 ∧ hex = true)
    (hc : IsDigit base c) : Grouped base (c :: s) ↔ (∀ a ∈ s, a = 95 ∨ IsDigit base a) ∧
      (95 ∈ s → underscoresFollow hex .digit s = true) := by
  constructor
  · intro h
    have hs := (List.forall_mem_cons.1 h.plain).2
    exact ⟨hs, fun _ => ((underscoresFollow_iff hbase hs).1 c hc).2 h⟩
  · rintro ⟨hs, hfollow⟩
    by_cases hmem : 95 ∈ s
    · exact ((underscoresFollow_iff hbase hs).1 c hc).1 (hfollow hmem)
    · exact grouped_of_forall_isDigit hc fun a ha => (hs a ha).resolve_left fun h => hmem (h ▸ ha)

/-! ## Numerals without a sign -/

/-- What the reader asks of a text: digits and underscores behind the base mark, and then the
underscore rule for the whole. -/
theorem readUnsigned_eq_ok_iff_splitMark (hs : s ≠ []) :
    readUnsigned .byMark bits s = .ok n ↔
      ((∀ c ∈ (splitMark s).2, c = 95 ∨ IsDigit (splitMark s).1 c) ∧
        (95 ∈ (splitMark s).2 → underscoresSeparate s = true)) ∧
      n = digitsValue (splitMark s).1 (splitMark s).2 ∧ n < 2 ^ bits := by
  have hempty : s.isEmpty = false := by simpa using hs
  have hread : ∀ m, readDigits (splitMark s).1 (2 ^ bits - 1) true 0 (splitMark s).2 = .ok m ↔ _ :=
    fun m => readDigits_eq_ok_iff (Nat.zero_le _)
  have hle : ∀ m, m ≤ 2 ^ bits - 1 ↔ m < 2 ^ bits := fun m => by
    have := Nat.two_pow_pos bits
    omega
  simp only [Nat.zero_mul, Nat.zero_add, hle] at hread
  rw [readUnsigned, hempty, if_neg Bool.false_ne_true]
  dsimp only
  cases hdigits : readDigits (splitMark s).1 (2 ^ bits - 1) true 0 (splitMark s).2 with
  | error e =>
    refine iff_of_false nofun fun h => ?_
    have := (hread n).2 ⟨h.1.1, h.2⟩
    rw [hdigits] at this
    cases this
  | ok m =>
    obtain ⟨hplain, rfl, hlt⟩ := (hread m).1 hdigits
    rw [and_iff_right hplain]
    dsimp only
    split
    · next hbad =>
      rw [Bool.and_eq_true, List.contains_iff_mem, Bool.not_eq_true'] at hbad
      refine iff_of_false nofun fun h => ?_
      rw [h.1 hbad.1] at hbad
      cases hbad.2
    · next hgood =>
      rw [Bool.and_eq_true, List.contains_iff_mem, Bool.not_eq_true'] at hgood
      have hsep : 95 ∈ (splitMark s).2 → underscoresSeparate s = true := fun hmem =>
        Bool.not_eq_false _ ▸ fun hno => hgood ⟨hmem, hno⟩
      rw [Except.ok.injEq, and_iff_right hsep]
      exact ⟨fun h => ⟨h.symm, h ▸ hlt⟩, fun h => h.1.symm⟩

/-- A letter that marks a base is no octal digit. -/
theorem not_plain_of_markedBase? (hc : markedBase? c = some base) : ¬(c = 95 ∨ IsDigit 8 c) := by
  rintro (rfl | hdigit)
  · cases hc
  · obtain ⟨d, hd, hlt⟩ := hdigit
    unfold digit? at hd
    dsimp only at hd
    have hlow : Bytes.lower c = c → 97 ≤ c.toNat := by
      intro heq
      rcases markedBase?_cases hc with ⟨h, _⟩ | ⟨h, _⟩ | ⟨h, _⟩ <;> rw [← heq, h] <;> decide
    split at hd
    · have := hlow (if_neg (by omega))
      omega
    split at hd
    · cases hd
      omega
    split at hd
    · cases hd
      omega
    · cases hd

/-- A decimal numeral has no base mark. -/
theorem unsigned_decimal_iff (hs : s.head? ≠ some 48) :
    Unsigned s n ↔ Grouped 10 s ∧ n = digitsValue 10 s := by
  constructor
  · rintro (⟨_, h⟩ | _ | _ | _)
    · exact ⟨h, rfl⟩
    · exact absurd rfl hs
    · exact absurd rfl hs
    · exact absurd rfl hs
  · rintro ⟨h, rfl⟩
    exact .decimal hs h

/-- A number behind a zero without a letter is octal. -/
theorem unsigned_octal_iff (hs : ∀ c, s.head? = some c → markedBase? c = none) :
    Unsigned (48 :: s) n ↔ Grouped 8 (48 :: s) ∧ n = digitsValue 8 s := by
  constructor
  · rintro (⟨h, _⟩ | h | ⟨hc, _⟩ | ⟨hc, _⟩)
    · exact absurd rfl h
    · exact ⟨h, rfl⟩
    · rw [hs _ rfl] at hc
      cases hc
    · rw [hs _ rfl] at hc
      cases hc
  · rintro ⟨h, rfl⟩
    exact .octal h

/-- Behind a letter that marks a base come digits and underscores as they would behind a digit. -/
theorem unsigned_marked_iff (hc : markedBase? c = some base) :
    Unsigned (48 :: c :: s) n ↔ (s ≠ [] ∧ Grouped base (48 :: s)) ∧ n = digitsValue base s := by
  have hzero : IsDigit base 48 :=
    isDigit_zero (by rcases markedBase?_cases hc with h | h | h <;> omega)
  constructor
  · rintro (⟨h, _⟩ | h | ⟨hc', h⟩ | ⟨hc', h⟩)
    · exact absurd rfl h
    · exact absurd (h.plain c (by simp)) (not_plain_of_markedBase? hc)
    · cases hc.symm.trans hc'
      exact ⟨⟨fun hnil => not_grouped_nil (hnil ▸ h), .digit hzero h⟩, rfl⟩
    · cases hc.symm.trans hc'
      exact ⟨⟨List.cons_ne_nil _ _, .underscore hzero h⟩, rfl⟩
  · rintro ⟨⟨hne, _ | ⟨_, h⟩ | ⟨_, h⟩⟩, rfl⟩
    · exact absurd rfl hne
    · exact .marked hc h
    · exact .separated hc h

/-- A text that does not start with a zero is decimal. -/
theorem splitMark_decimal (hs : s.head? ≠ some 48) : splitMark s = (10, s) := by
  unfold splitMark
  split
  · exact absurd rfl hs
  · exact absurd rfl hs
  · rfl

/-- A zero without a letter is the mark of octal numerals. -/
theorem splitMark_octal (hs : ∀ c, s.head? = some c → markedBase? c = none) :
    splitMark (48 :: s) = (8, s) := by
  unfold splitMark
  split
  · next c d r heq =>
    cases heq
    have hc := hs c rfl
    unfold markedBase? at hc
    dsimp only
    split at hc <;> simp_all
  · next heq =>
    cases heq
    rfl
  · next h => exact absurd rfl (h _)

/-- A zero with a letter is the mark of the base that the letter asks for. -/
theorem splitMark_marked (hc : markedBase? c = some base) (hs : s ≠ []) :
    splitMark (48 :: c :: s) = (base, s) := by
  obtain ⟨d, s, rfl⟩ := List.exists_cons_of_ne_nil hs
  rcases markedBase?_cases hc with ⟨hl, rfl⟩ | ⟨hl, rfl⟩ | ⟨hl, rfl⟩ <;> simp [splitMark, hl]

/-- In decimal numerals, underscores follow digits. -/
theorem underscoresSeparate_decimal (hc : IsDigit 10 c) (hne : c ≠ 48) :
    underscoresSeparate (c :: s) = underscoresFollow false .digit s := by
  have hsign : ∀ sign : UInt8, digit? sign = none → c ≠ sign := by
    rintro sign hsign rfl
    obtain ⟨d, hd, _⟩ := hc
    rw [hsign] at hd
    cases hd
  have hplus := hsign 43 rfl
  have hminus := hsign 45 rfl
  have hfollow : underscoresFollow false .start (c :: s) = underscoresFollow false .digit s := by
    rw [underscoresFollow, if_pos (followed_of_isDigit (.inl (Nat.le_refl 10)) hc)]
  simp [underscoresSeparate, hplus, hminus, hne, hfollow]

/-- In octal numerals, underscores follow digits, the first zero included. -/
theorem underscoresSeparate_octal (hs : ∀ c, s.head? = some c → markedBase? c = none) :
    underscoresSeparate (48 :: s) = underscoresFollow false .digit s := by
  have hfollow : underscoresFollow false .start (48 :: s) = underscoresFollow false .digit s := rfl
  cases s with
  | nil => exact hfollow
  | cons c s =>
    have hc := hs c rfl
    have hletter : ¬(Bytes.lower c = 98 ∨ Bytes.lower c = 111 ∨ Bytes.lower c = 120) := by
      rintro (h | h | h) <;> simp [markedBase?, h] at hc
    rw [← hfollow]
    exact if_neg hletter

/-- Behind a mark with a letter, underscores may follow at once. -/
theorem underscoresSeparate_marked (hc : markedBase? c = some base) :
    underscoresSeparate (48 :: c :: s) = underscoresFollow (base == 16) .digit s := by
  rcases markedBase?_cases hc with ⟨hl, rfl⟩ | ⟨hl, rfl⟩ | ⟨hl, rfl⟩ <;> simp [underscoresSeparate,
    hl]

/-- The grammar, told by the parts that the reader cuts a text into. -/
theorem unsigned_iff_splitMark (hs : s ≠ []) :
    Unsigned s n ↔ ((∀ c ∈ (splitMark s).2, c = 95 ∨ IsDigit (splitMark s).1 c) ∧
      (95 ∈ (splitMark s).2 → underscoresSeparate s = true)) ∧
      n = digitsValue (splitMark s).1 (splitMark s).2 := by
  by_cases hzero : s.head? = some 48
  · obtain ⟨s, rfl⟩ := List.head?_eq_some_iff.1 hzero
    by_cases hoctal : ∀ c, s.head? = some c → markedBase? c = none
    · rw [splitMark_octal hoctal, unsigned_octal_iff hoctal, underscoresSeparate_octal hoctal]
      rw [grouped_cons_iff (.inl (by decide)) (isDigit_zero (by decide))]
    · simp only [not_forall] at hoctal
      obtain ⟨c, hhead, hmark⟩ := hoctal
      obtain ⟨base, hc⟩ := Option.ne_none_iff_exists'.1 hmark
      obtain ⟨s, rfl⟩ := List.head?_eq_some_iff.1 hhead
      rw [unsigned_marked_iff hc]
      by_cases hs : s = []
      · subst hs
        have hmark : splitMark [48, c] = (8, [c]) := rfl
        rw [hmark]
        exact iff_of_false (fun h => h.1.1 rfl) fun h =>
          not_plain_of_markedBase? hc (h.1.1 c List.mem_cons_self)
      · have hbase : base ≤ 10 ∨ base ≤ 16 ∧ (base == 16) = true := by
          rcases markedBase?_cases hc with ⟨_, rfl⟩ | ⟨_, rfl⟩ | ⟨_, rfl⟩ <;> decide
        rw [splitMark_marked hc hs, and_iff_right hs, underscoresSeparate_marked hc,
          grouped_cons_iff hbase
            (isDigit_zero (by rcases markedBase?_cases hc with h | h | h <;> omega))]
  · rw [splitMark_decimal hzero, unsigned_decimal_iff hzero]
    refine and_congr_left fun _ => ?_
    obtain ⟨c, s, rfl⟩ := List.exists_cons_of_ne_nil hs
    have hne : c ≠ 48 := fun h => hzero (h ▸ rfl)
    rw [List.forall_mem_cons]
    rcases em (c = 95) with rfl | hc
    · exact iff_of_false not_grouped_underscore fun h => by cases h.2 List.mem_cons_self
    · rw [or_iff_right hc, List.mem_cons, or_iff_right (Ne.symm hc), and_assoc]
      by_cases hdigit : IsDigit 10 c
      · rw [and_iff_right hdigit, underscoresSeparate_decimal hdigit hne,
          grouped_cons_iff (.inl (by decide)) hdigit]
      · exact iff_of_false (fun h => hdigit ((h.plain c List.mem_cons_self).resolve_left hc))
          fun h => hdigit h.1

/-- **The numerals without a sign are read**, those whose number fits, and nothing else. -/
theorem readUnsigned_eq_ok_iff :
    readUnsigned .byMark bits s = .ok n ↔ Unsigned s n ∧ n < 2 ^ bits := by
  by_cases hs : s = []
  · subst hs
    exact iff_of_false nofun fun h => not_grouped_nil ((unsigned_decimal_iff (by simp)).1 h.1).1
  · rw [readUnsigned_eq_ok_iff_splitMark hs, unsigned_iff_splitMark hs,
      and_assoc (c := n < 2 ^ bits)]

/-- A text without a sign is a numeral for one number only. -/
theorem Unsigned.unique (hn : Unsigned s n) (hm : Unsigned s m) : n = m := by
  have hread : ∀ {k}, Unsigned s k → k ≤ n + m → readUnsigned .byMark (n + m) s = .ok k :=
    fun hk hle =>
    readUnsigned_eq_ok_iff.2 ⟨hk, Nat.lt_of_le_of_lt hle Nat.lt_two_pow_self⟩
  exact Except.ok.inj ((hread hn (by omega)).symm.trans (hread hm (by omega)))

/-! ## Numerals with a sign -/

/-- A numeral without a sign starts with a digit. -/
theorem Unsigned.digit?_head (h : Unsigned (c :: s) n) : digit? c ≠ none := by
  cases h with
  | decimal _ h =>
    rintro hd
    cases h with
    | last hc | digit hc | underscore hc =>
      obtain ⟨d, hd', _⟩ := hc
      cases hd.symm.trans hd'
  | octal | marked | separated => exact nofun

variable {i j : Int}

/-- A numeral with a plus sign is one without a sign. -/
theorem numeral_plus_iff : Numeral (43 :: s) i ↔ ∃ n : Nat, Unsigned s n ∧ i = n := by
  constructor
  · rintro (h | h)
    · exact absurd rfl h.digit?_head
    · exact ⟨_, h, rfl⟩
  · rintro ⟨n, h, rfl⟩
    exact .plus h

/-- A numeral with a minus sign is the negative of one without a sign. -/
theorem numeral_minus_iff : Numeral (45 :: s) i ↔ ∃ n : Nat, Unsigned s n ∧ i = -n := by
  constructor
  · rintro (h | _ | h)
    · exact absurd rfl h.digit?_head
    · exact ⟨_, h, rfl⟩
  · rintro ⟨n, h, rfl⟩
    exact .minus h

/-- A numeral without a sign stands for a natural number. -/
theorem numeral_unsigned_iff (hplus : ∀ r, s ≠ 43 :: r) (hminus : ∀ r, s ≠ 45 :: r) :
    Numeral s i ↔ ∃ n : Nat, Unsigned s n ∧ i = n := by
  constructor
  · rintro (h | _ | _)
    · exact ⟨_, h, rfl⟩
    · exact absurd rfl (hplus _)
    · exact absurd rfl (hminus _)
  · rintro ⟨n, h, rfl⟩
    exact .unsigned h

/-- **The numerals are read**, those whose number fits 64 bits, and nothing else. -/
theorem readSigned_eq_ok_iff :
    readSigned .byMark s = .ok i ↔ Numeral s i ∧ -2 ^ 63 ≤ i ∧ i < 2 ^ 63 := by
  unfold readSigned
  split
  next negative digits hsign =>
  have hnumeral : Numeral s i ↔ ∃ n : Nat, Unsigned digits n ∧ i = if negative then -(n : Int)
      else n := by
    split at hsign <;> cases hsign
    · exact numeral_plus_iff
    · exact numeral_minus_iff
    · next hplus hminus => exact numeral_unsigned_iff hplus hminus
  rw [hnumeral]
  cases hread : readUnsigned .byMark 64 digits with
  | error e =>
    refine iff_of_false nofun ?_
    rintro ⟨⟨n, hn, hi⟩, hlow, hhigh⟩
    have hlt : n < 2 ^ 64 := by split at hi <;> omega
    cases hread.symm.trans (readUnsigned_eq_ok_iff.2 ⟨hn, hlt⟩)
  | ok n =>
    have hn := (readUnsigned_eq_ok_iff.1 hread).1
    have hunique : (∃ m : Nat, Unsigned digits m ∧ i = if negative then -(m : Int) else m) ↔
        i = if negative then -(n : Int) else n :=
      ⟨fun ⟨m, hm, h⟩ => hn.unique hm ▸ h, fun h => ⟨n, hn, h⟩⟩
    rw [hunique]
    dsimp only
    cases negative with
    | true =>
      simp only [if_true]
      split
      · exact iff_of_false nofun fun h => by omega
      · rw [Except.ok.injEq]
        omega
    | false =>
      simp only [Bool.false_eq_true, if_false]
      split
      · exact iff_of_false nofun fun h => by omega
      · rw [Except.ok.injEq]
        omega

/-- **A text is a numeral for one number only.** -/
theorem Numeral.unique (hi : Numeral s i) (hj : Numeral s j) : i = j := by
  cases hi with
  | unsigned hn =>
    cases hj with
    | unsigned hm => rw [hn.unique hm]
    | plus | minus => exact absurd rfl hn.digit?_head
  | plus hn =>
    obtain ⟨m, hm, rfl⟩ := numeral_plus_iff.1 hj
    rw [hn.unique hm]
  | minus hn =>
    obtain ⟨m, hm, rfl⟩ := numeral_minus_iff.1 hj
    rw [hn.unique hm]

/-- A numeral in base 16 with an underscore behind its mark. -/
example : Numeral (utf8 "-0x_80") (-128) := (readSigned_eq_ok_iff.1 rfl).1

/-! ## Decimal digits alone -/

/-- Where underscores have no meaning, digits are read as where there are none. -/
theorem readDigits_strict_iff :
    readDigits base max false n s = .ok m ↔ readDigits base max true n s = .ok m ∧ 95 ∉ s := by
  induction s generalizing n with
  | nil => exact (and_iff_left List.not_mem_nil).symm
  | cons c s ih =>
    rw [readDigits, readDigits, Bool.false_and, if_neg Bool.false_ne_true, List.mem_cons, not_or]
    by_cases hc : c = 95
    · subst hc
      exact iff_of_false nofun fun h => h.2.1 rfl
    rw [Bool.true_and, if_neg (by simpa using hc)]
    cases digit? c with
    | none => exact iff_of_false nofun fun h => nomatch h.1
    | some d =>
      dsimp only
      split
      · exact iff_of_false nofun fun h => nomatch h.1
      split
      · exact iff_of_false nofun fun h => nomatch h.1
      · rw [ih, and_iff_right (Ne.symm hc)]

/-- **The reader of decimal numbers** accepts digits whose number is in range. -/
theorem readUnsigned_ten_eq_ok_iff : readUnsigned .ten bits s = .ok n ↔
    s ≠ [] ∧ (∀ c ∈ s, IsDigit 10 c) ∧ n = digitsValue 10 s ∧ n < 2 ^ bits := by
  have hmax : n ≤ 2 ^ bits - 1 ↔ n < 2 ^ bits := by
    have := Nat.two_pow_pos bits
    omega
  have hdigits : ((∀ c ∈ s, c = 95 ∨ IsDigit 10 c) ∧ 95 ∉ s) ↔ ∀ c ∈ s, IsDigit 10 c := by
    constructor
    · rintro ⟨h, hnot⟩ c hc
      exact (h c hc).resolve_left fun heq => hnot (heq ▸ hc)
    · exact fun h => ⟨fun c hc => .inr (h c hc), fun hmem => (h 95 hmem).ne_underscore rfl⟩
  cases s with
  | nil => exact iff_of_false nofun fun h => h.1 rfl
  | cons c s =>
    rw [readUnsigned, List.isEmpty_cons, if_neg Bool.false_ne_true,
      and_iff_right (List.cons_ne_nil c s)]
    rw [readDigits_strict_iff, readDigits_eq_ok_iff (Nat.zero_le _), ← hdigits, hmax,
      Nat.zero_mul, Nat.zero_add]
    exact ⟨fun h => ⟨⟨h.1.1, h.2⟩, h.1.2⟩, fun h => ⟨⟨h.1.1, h.2⟩, h.1.2⟩⟩

end RegisterMachine.Number
