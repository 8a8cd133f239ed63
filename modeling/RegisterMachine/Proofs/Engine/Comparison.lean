import RegisterMachine.Proofs.Engine.IntegerArithmetic

/-!
# Comparisons are those of the numbers

Integral values of all widths are compared with each other by their numbers, and so are characters:
bringing two values to a common type loses nothing (`Arithmetic.pair?_of_integral`). Other values
have no order, and are equal when they are the same (`Arithmetic.equal_of_not_alike`). Floating
point numbers apart, the six comparisons therefore go together: exchanging the operands exchanges
above and below, and two values are unequal when they are not equal, where a comparison that cannot
be made has no converse that can (`Arithmetic.comparison_laws`).
-/

namespace RegisterMachine

namespace Comparison

/-- The comparison that says the same of the operands in exchanged order. -/
def converse : Comparison → Comparison
  | eq => eq
  | ne => ne
  | gt => lt
  | lt => gt
  | ge => le
  | le => ge

/-- What a comparison says of two numbers. -/
def Holds : Comparison → Int → Int → Prop
  | eq, x, y => x = y
  | ne, x, y => x ≠ y
  | gt, x, y => x > y
  | lt, x, y => x < y
  | ge, x, y => x ≥ y
  | le, x, y => x ≤ y

/-- Whether a comparison holds of two integers can be computed. -/
instance : (op : Comparison) → (x y : Int) → Decidable (op.Holds x y)
  | eq, x, y => inferInstanceAs (Decidable (x = y))
  | ne, x, y => inferInstanceAs (Decidable (x ≠ y))
  | gt, x, y => inferInstanceAs (Decidable (x > y))
  | lt, x, y => inferInstanceAs (Decidable (x < y))
  | ge, x, y => inferInstanceAs (Decidable (x ≥ y))
  | le, x, y => inferInstanceAs (Decidable (x ≤ y))

/-- A comparison holds exactly if its converse holds the other way round. -/
theorem holds_converse {op : Comparison} {x y : Int} : op.converse.Holds y x ↔ op.Holds x y := by
  cases op with
  | eq | ne => simp only [converse, Holds, eq_comm, ne_eq]
  | gt | lt | ge | le => exact Iff.rfl

/-- Comparisons other than inequality are transitive. -/
theorem Holds.trans {op : Comparison} {x y z : Int} (hop : op ≠ .ne) (hxy : op.Holds x y)
    (hyz : op.Holds y z) : op.Holds x z := by
  cases op with
  | ne => exact absurd rfl hop
  | eq => exact Eq.trans hxy hyz
  | gt => exact Int.lt_trans hyz hxy
  | lt => exact Int.lt_trans hxy hyz
  | ge => exact Int.le_trans hyz hxy
  | le => exact Int.le_trans hxy hyz

end Comparison

namespace Arithmetic

/-- Both values are integral, or both are characters. -/
inductive Alike : Value → Value → Prop
  | integral {b c : Value} {T U : IntegerType} :
      IntegerType.ofValue? b = some T → IntegerType.ofValue? c = some U → Alike b c
  | chars (x y : UInt32) : Alike (.char x) (.char y)

variable {b c d : Value}

/-- Likeness goes both ways. -/
theorem Alike.symm (h : Alike b c) : Alike c b := by
  cases h with
  | integral hb hc => exact .integral hc hb
  | chars x y => exact .chars y x

/-- Likeness is transitive. -/
theorem Alike.trans (hbc : Alike b c) (hcd : Alike c d) : Alike b d := by
  cases hbc with
  | integral hb hc =>
    cases hcd with
    | integral _ hd => exact .integral hb hd
    | chars => cases hc
  | chars x y =>
    cases hcd with
    | integral hc => cases hc
    | chars _ z => exact .chars x z

/-! ## The order of numbers -/

/-- An ordering satisfies a comparison exactly if the comparison holds of the integers. -/
theorem satisfies_compare_iff {op : Comparison} {x y : Int} :
    satisfies op (compare x y) = true ↔ op.Holds x y := by
  cases op with
  | eq => exact beq_iff_eq.trans compare_eq_iff_eq
  | ne => exact bne_iff_ne.trans (not_congr compare_eq_iff_eq)
  | gt => exact beq_iff_eq.trans compare_gt_iff_gt
  | lt => exact beq_iff_eq.trans compare_lt_iff_lt
  | ge => exact bne_iff_ne.trans compare_ge_iff_ge
  | le => exact bne_iff_ne.trans compare_le_iff_le

/-- Natural numbers are compared as integers are. -/
theorem compare_natCast (m n : Nat) : compare (m : Int) (n : Int) = compare m n := by
  have h := (compare_iff m n).1 rfl
  rw [compare_iff]
  generalize compare m n = o at h ⊢
  cases o with
  | lt => exact Int.ofNat_lt.2 h
  | eq => exact congrArg Int.ofNat h
  | gt => exact Int.ofNat_lt.2 h

/-- **Bringing integral values to a common type loses nothing**, so they compare as their
numbers. -/
theorem pair?_of_integral {T U : IntegerType} (hb : IntegerType.ofValue? b = some T)
    (hc : IntegerType.ofValue? c = some U) :
    ∃ p, pair? b c = some p ∧ p.order = some (compare b.toInt c.toInt) := by
  have hleft := (IntegerType.contains_toInt hb).common U
  have hright := (IntegerType.contains_toInt hc).common T
  have hints : ∀ {w : IntWidth}, (IntegerType.int w).Contains b.toInt →
      (IntegerType.int w).Contains c.toInt →
      (NumberPair.ofInts w b.toInt c.toInt).order = some (compare b.toInt c.toInt) := by
    intro w hx hy
    have hkept : ∀ {i}, (IntegerType.int w).Contains i → (BitVec.ofInt w.bits i).toInt = i :=
      fun h => IntegerType.toInt_ofInt h
    rw [NumberPair.ofInts, NumberPair.order, hkept hx, hkept hy]
  rw [IntegerType.common_comm] at hright
  cases b with
  | int w x =>
    cases hb
    cases c with
    | int w' y => cases hc; exact ⟨_, rfl, hints hleft hright⟩
    | byte y => cases hc; exact ⟨_, rfl, hints hleft hright⟩
    | _ => cases hc
  | byte x =>
    cases hb
    cases c with
    | int w y =>
      cases hc
      rw [IntegerType.common_comm] at hleft hright
      exact ⟨_, rfl, hints hleft hright⟩
    | byte y =>
      cases hc
      exact ⟨_, rfl, congrArg some (compare_natCast _ _).symm⟩
    | _ => cases hc
  | _ => cases hb

/-- Of values other than floating point numbers, only integral ones have a common type. -/
theorem pair?_of_not_alike (hb : b.kind ≠ .float ∧ b.kind ≠ .double)
    (hc : c.kind ≠ .float ∧ c.kind ≠ .double) (h : ¬Alike b c) : pair? b c = none := by
  unfold pair?
  split
  · exact absurd (.integral rfl rfl) h
  · exact absurd (.integral rfl rfl) h
  · exact absurd (.integral rfl rfl) h
  · exact absurd (.integral rfl rfl) h
  · exact absurd rfl hb.1
  · exact absurd rfl hb.2
  · exact absurd rfl hb.1
  · exact absurd rfl hb.2
  · rfl

/-- Alike values are ordered as the numbers they stand for. -/
theorem order_of_alike (op : Comparison) (h : Alike b c) :
    order op b c = .ok (some (compare b.toInt c.toInt)) := by
  cases h with
  | chars x y => rfl
  | integral hb hc =>
    obtain ⟨p, hpair, horder⟩ := pair?_of_integral hb hc
    rw [order, hpair]
    · exact congrArg Except.ok horder
    · rintro x y rfl rfl
      cases hb

/-- Values that are not alike are not ordered, floats apart. -/
theorem order_of_not_alike (op : Comparison) (hb : b.kind ≠ .float ∧ b.kind ≠ .double)
    (hc : c.kind ≠ .float ∧ c.kind ≠ .double) (h : ¬Alike b c) :
    order op b c = .error (.ofValues (.compare op) [b, c]) := by
  rw [order, pair?_of_not_alike hb hc h]
  rintro x y rfl rfl
  exact h (.chars x y)

/-! ## Equality -/

/-- A character is known by its number. -/
theorem toInt_char_inj {x y : UInt32} : (Value.char x).toInt = (Value.char y).toInt ↔ x = y := by
  refine ⟨fun h => ?_, fun h => h ▸ rfl⟩
  rw [← UInt32.toUInt32_toInt32 x, ← UInt32.toUInt32_toInt32 y, Int32.toInt_inj.1 h]

/-- Alike values are equal exactly if they stand for the same number. -/
theorem equal_of_alike (op : Comparison) (h : Alike b c) :
    equal op b c = .ok (decide (b.toInt = c.toInt)) := by
  have horder := order_of_alike op h
  cases h with
  | chars x y =>
    have hsame : Value.char x = .char y ↔ (Value.char x).toInt = (Value.char y).toInt := by
      rw [Value.char.injEq, toInt_char_inj]
    exact congrArg Except.ok (decide_eq_decide.2 hsame)
  | @integral b c T U hb hc =>
    have hnumeric : ∀ {v : Value} {T}, IntegerType.ofValue? v = some T →
        isNothing v = false ∧ v.kind.isNumeric = true := by
      intro v T hv
      cases v with
      | int | byte => exact ⟨rfl, rfl⟩
      | _ => cases hv
    rw [equal, (hnumeric hb).1, (hnumeric hc).1, (hnumeric hb).2, (hnumeric hc).2, horder]
    refine congrArg Except.ok (Bool.eq_iff_iff.2 ?_)
    rw [decide_eq_true_iff, beq_iff_eq, Option.some.injEq, compare_eq_iff_eq]

/-- **Values without an order** are equal when they are the same, and other kinds than void and null
cannot be compared with each other. -/
theorem equal_of_not_alike (op : Comparison) (hb : b.kind ≠ .float ∧ b.kind ≠ .double)
    (hc : c.kind ≠ .float ∧ c.kind ≠ .double) (h : ¬Alike b c) :
    equal op b c =
      if isNothing b || isNothing c then .ok (b.kind == c.kind)
      else if b.kind ≠ c.kind then .error (.ofValues (.compare op) [b, c])
      else .ok (decide (b = c)) := by
  have hintegral : ∀ {v : Value}, v.kind ≠ .float ∧ v.kind ≠ .double → v.kind.isNumeric = true →
      ∃ T, IntegerType.ofValue? v = some T := by
    intro v hv hnumeric
    cases v with
    | int | byte => exact ⟨_, rfl⟩
    | float => exact absurd rfl hv.1
    | double => exact absurd rfl hv.2
    | _ => cases hnumeric
  have hnumeric : (b.kind.isNumeric && c.kind.isNumeric) = false := by
    rw [Bool.eq_false_iff, ne_eq, Bool.and_eq_true]
    rintro ⟨hbn, hcn⟩
    obtain ⟨T, hT⟩ := hintegral hb hbn
    obtain ⟨U, hU⟩ := hintegral hc hcn
    exact h (.integral hT hU)
  rw [equal, hnumeric, if_neg Bool.false_ne_true]

/-! ## The six comparisons -/

/-- Comparisons by size ask for the order. -/
theorem compareValues_of_ordering {op : Comparison} (heq : op ≠ .eq) (hne : op ≠ .ne) :
    compareValues op b c = (order op b c).map fun o => o.elim false (satisfies op) := by
  rw [compareValues]
  · refine congrArg (Except.map · _) (funext fun o => ?_)
    cases o <;> rfl
  · exact heq
  · exact hne

/-- Values that are not alike are not compared by size, floats apart. -/
theorem compareValues_ne_ok {op : Comparison} {r : Bool} (heq : op ≠ .eq) (hne : op ≠ .ne)
    (hb : b.kind ≠ .float ∧ b.kind ≠ .double) (hc : c.kind ≠ .float ∧ c.kind ≠ .double)
    (h : ¬Alike b c) : compareValues op b c ≠ .ok r := by
  rw [compareValues_of_ordering heq hne, order_of_not_alike op hb hc h]
  exact nofun

/-- **Comparing two numbers or two characters** never fails and says what is true of the numbers. -/
theorem compareValues_of_alike (op : Comparison) (h : Alike b c) :
    compareValues op b c = .ok (decide (op.Holds b.toInt c.toInt)) := by
  by_cases heq : op = .eq
  · subst heq
    exact equal_of_alike .eq h
  by_cases hne : op = .ne
  · subst hne
    rw [compareValues, equal_of_alike .ne h]
    exact congrArg Except.ok (decide_not).symm
  · rw [compareValues_of_ordering heq hne, order_of_alike op h]
    exact congrArg Except.ok (Bool.eq_iff_iff.2
      (satisfies_compare_iff.trans decide_eq_true_iff.symm))

/-- A comparison fails for the types of its operands. -/
theorem compareValues_eq_error {op : Comparison} {f : Fault} (h : compareValues op b c = .error f) :
    f = .ofValues (.compare op) [b, c] := by
  have horder : ∀ {f}, order op b c = .error f → f = .ofValues (.compare op) [b, c] := by
    intro f hf
    unfold order at hf
    split at hf
    · cases hf
    split at hf
    · cases hf
    · cases hf
      rfl
  have hequal : ∀ {f}, equal op b c = .error f → f = .ofValues (.compare op) [b, c] := by
    intro f hf
    unfold equal at hf
    split at hf
    · cases hf
    split at hf
    · exact horder (Except.map_eq_error.1 hf)
    split at hf
    · cases hf
      rfl
    · cases hf
  cases op with
  | eq => exact hequal h
  | ne => exact hequal (Except.map_eq_error.1 h)
  | gt | lt | ge | le => exact horder (Except.map_eq_error.1 h)

/-- What equality says does not depend on the comparison that asks; only the fault names it. -/
theorem equal_eq_ok_iff (op op' : Comparison) {r : Bool} :
    equal op b c = .ok r ↔ equal op' b c = .ok r := by
  have horder : ∀ {o}, order op b c = .ok o ↔ order op' b c = .ok o := by
    intro o
    unfold order
    split
    · exact Iff.rfl
    split
    · exact Iff.rfl
    · exact iff_of_false nofun nofun
  unfold equal
  split
  · exact Iff.rfl
  split
  · simp only [Except.map_eq_ok, horder]
  split
  · exact iff_of_false nofun nofun
  · exact Iff.rfl

/-- **Two values are unequal** when they are not equal, and cannot be compared for the one if not
for the other. -/
theorem compareValues_ne_iff {r : Bool} :
    compareValues .ne b c = .ok r ↔ compareValues .eq b c = .ok !r := by
  rw [compareValues, compareValues, Except.map_eq_ok, ← equal_eq_ok_iff .ne .eq]
  constructor
  · rintro ⟨r, h, rfl⟩
    rwa [Bool.not_not]
  · exact fun h => ⟨!r, h, Bool.not_not r⟩

/-- Equality of values that are not alike goes both ways, floats apart. -/
theorem equal_comm_of_not_alike (op : Comparison) {r : Bool}
    (hb : b.kind ≠ .float ∧ b.kind ≠ .double) (hc : c.kind ≠ .float ∧ c.kind ≠ .double)
    (h : ¬Alike b c) : equal op b c = .ok r ↔ equal op c b = .ok r := by
  rw [equal_of_not_alike op hb hc h, equal_of_not_alike op hc hb fun h' => h h'.symm, Bool.or_comm,
    BEq.comm (a := b.kind)]
  split
  · exact Iff.rfl
  · simp only [ne_comm (a := b.kind), eq_comm (a := b)]
    split
    · exact iff_of_false nofun nofun
    · exact Iff.rfl

/-- **A comparison and its converse** say the same, or neither can be made. -/
theorem compareValues_converse (op : Comparison) {r : Bool}
    (hb : b.kind ≠ .float ∧ b.kind ≠ .double) (hc : c.kind ≠ .float ∧ c.kind ≠ .double) :
    compareValues op b c = .ok r ↔ compareValues op.converse c b = .ok r := by
  by_cases h : Alike b c
  · rw [compareValues_of_alike op h, compareValues_of_alike op.converse h.symm]
    simp only [Comparison.holds_converse]
  cases op with
  | eq => exact equal_comm_of_not_alike .eq hb hc h
  | ne =>
    rw [Comparison.converse, compareValues_ne_iff, compareValues_ne_iff]
    exact equal_comm_of_not_alike .eq hb hc h
  | gt | lt | ge | le =>
    exact iff_of_false (compareValues_ne_ok nofun nofun hb hc h)
      (compareValues_ne_ok nofun nofun hc hb fun h' => h h'.symm)

/-- **The six comparisons go together.** Of two values that are no floating point numbers, `ne`
denies what `eq` says, each comparison says what its converse says of the operands exchanged (`eq`
and `ne` are their own converses), and what the one cannot compare the other cannot either; a fault
names the comparison and the types of the operands. Two integral values of any widths, and two
characters, are compared without fail and as their numbers are; so the comparisons but `ne` are
transitive across widths and kinds, equal values are above and below the same ones, and to be at
most is to be below or equal. -/
theorem comparison_laws (hb : b.kind ≠ .float ∧ b.kind ≠ .double)
    (hc : c.kind ≠ .float ∧ c.kind ≠ .double) :
    (∀ r, compareValues .ne b c = .ok r ↔ compareValues .eq b c = .ok !r) ∧
    (∀ op r, compareValues op b c = .ok r ↔ compareValues op.converse c b = .ok r) ∧
    (∀ op f, compareValues op b c = .error f → f = .ofValues (.compare op) [b, c]) ∧
    (Alike b c →
      (∀ op, compareValues op b c = .ok (decide (op.Holds b.toInt c.toInt))) ∧
      (compareValues .le b c = .ok true ↔
        compareValues .lt b c = .ok true ∨ compareValues .eq b c = .ok true) ∧
      ∀ d, Alike c d →
        (∀ op, op ≠ .ne → compareValues op b c = .ok true → compareValues op c d = .ok true →
          compareValues op b d = .ok true) ∧
        (compareValues .eq b c = .ok true → ∀ op,
          compareValues op b d = compareValues op c d)) := by
  refine ⟨fun r => compareValues_ne_iff, fun op r => compareValues_converse op hb hc,
    fun op f => compareValues_eq_error, fun hbc => ?_⟩
  have hholds : ∀ {v w op}, Alike v w →
      (compareValues op v w = .ok true ↔ op.Holds v.toInt w.toInt) := by
    intro v w op h
    rw [compareValues_of_alike op h, Except.ok.injEq, decide_eq_true_iff]
  refine ⟨fun op => compareValues_of_alike op hbc, ?_,
    fun d hcd => ⟨fun op hop hone htwo => ?_, ?_⟩⟩
  · simp only [hholds hbc]
    exact Int.le_iff_lt_or_eq
  · rw [hholds hbc] at hone
    rw [hholds hcd] at htwo
    exact (hholds (hbc.trans hcd)).2 (hone.trans hop htwo)
  · intro heq op
    have hsame : b.toInt = c.toInt := (hholds hbc).1 heq
    rw [compareValues_of_alike op (hbc.trans hcd), compareValues_of_alike op hcd, hsame]

/-- The 8-bit -1 is below the byte 255, and that is below the 64-bit 256, so that the first is below
the last. -/
theorem comparison_laws_mixedWidths :
    compareValues .gt (.byte 255) (.ofInt .w8 (-1)) = .ok true ∧
      compareValues .lt (.ofInt .w8 (-1)) (.ofInt .w64 256) = .ok true := by
  obtain ⟨_, hconverse, _, hnumbers⟩ :=
    comparison_laws (b := .ofInt .w8 (-1)) (c := .byte 255) (by decide) (by decide)
  obtain ⟨hholds, _, htransitive⟩ := hnumbers (.integral rfl rfl)
  have hbelow : compareValues .lt (.ofInt .w8 (-1)) (.byte 255) = .ok true := hholds .lt
  refine ⟨(hconverse .lt true).1 hbelow, ?_⟩
  exact (htransitive (.ofInt .w64 256) (.integral rfl rfl)).1 .lt nofun hbelow rfl

end Arithmetic

end RegisterMachine
