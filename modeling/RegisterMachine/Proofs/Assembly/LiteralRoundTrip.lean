import RegisterMachine.Proofs.Assembly.LiteralText

/-!
# Which values their literals mean

Floating point numbers apart, a value is read back from its literal unless one of the values that
literals cannot mean stands in it: `Value.literal_roundtrip_iff`. The tests `Value.isFloatless` and
`Value.isReadable` go through arrays as the reader does. Here they are told by the values that stand
in a value at some depth (`Value.Occurs`).
-/

namespace RegisterMachine

namespace Value

/-- A value stands in itself, and in an array when it stands in one of the elements. -/
inductive Occurs (w : Value) : Value → Prop
  | here : Occurs w w
  | elem {e : Value} {es : List Value} : e ∈ es → Occurs w e → Occurs w (array es)

/-- The values that literals cannot mean. A reference into the heap has no literal, an address is
read as a signed number, and a character that is no Unicode scalar value is written as another
one. -/
inductive Unreadable : Value → Prop
  | heapRef (r : Ref) : Unreadable (heapRef r)
  | function {n : UInt64} : 2 ^ 63 ≤ n.toNat → Unreadable (function n)
  | stackRef {n : UInt64} : 2 ^ 63 ≤ n.toNat → Unreadable (stackRef n)
  | char {c : UInt32} : ¬c.toNat.isValidChar → Unreadable (char c)

/-! ## Values at any depth -/

/-- What occurs in an array is the array or occurs in one of its elements. -/
theorem occurs_array_iff {w : Value} {es : List Value} :
    Occurs w (array es) ↔ w = array es ∨ ∃ e ∈ es, Occurs w e := by
  constructor
  · rintro (_ | ⟨he, hw⟩)
    · exact .inl rfl
    · exact .inr ⟨_, he, hw⟩
  · rintro (rfl | ⟨e, he, hw⟩)
    · exact .here
    · exact .elem he hw

/-- Nothing but the value itself occurs in a value that is no array. -/
theorem occurs_iff_eq {v w : Value} (hk : v.kind ≠ .array) : Occurs w v ↔ w = v := by
  constructor
  · rintro (_ | _)
    · rfl
    · exact absurd rfl hk
  · rintro rfl
    exact .here

/-- **A test that goes through arrays** is passed when everything that stands in the value is as it
asks of values other than arrays. -/
theorem test_iff_forall_occurs {test : Value → Bool} {P : Value → Prop}
    (harray : ∀ es, P (array es)) (htest : ∀ es, test (array es) = true ↔ ∀ e ∈ es, test e = true)
    (hscalar : ∀ v : Value, v.kind ≠ .array → (test v = true ↔ P v)) (v : Value) :
    test v = true ↔ ∀ w, Occurs w v → P w := by
  induction v using array_induction with
  | scalar v hk =>
    simp only [occurs_iff_eq hk, forall_eq]
    exact hscalar v hk
  | array es ih =>
    simp only [occurs_array_iff, or_imp, forall_and, forall_eq, harray, true_and]
    rw [htest]
    constructor
    · rintro h w ⟨e, he, hw⟩
      exact (ih e he).1 (h e he) w hw
    · intro h e he
      exact (ih e he).2 fun w hw => h w ⟨e, he, hw⟩

/-- A value is without floats exactly if none occurs in it. -/
theorem isFloatless_iff {v : Value} :
    v.isFloatless = true ↔ ∀ w, Occurs w v → w.kind ≠ .float ∧ w.kind ≠ .double := by
  refine test_iff_forall_occurs (fun _ => by simp [kind]) (fun _ => isFloatlessAll_iff)
    (fun v hk => ?_) v
  cases v with
  | array => exact absurd rfl hk
  | _ => simp [isFloatless, kind]

/-- Scalar values are the characters that Lean knows. -/
theorem isScalar_iff_isValidChar {c : Nat} : Text.isScalar c = true ↔ c.isValidChar := by
  simp only [Text.isScalar, Nat.isValidChar, Bool.or_eq_true, Bool.and_eq_true, decide_eq_true_eq]
  omega

/-- A function cannot be read back exactly if its index is no address. -/
theorem unreadable_function_iff {n : UInt64} : (function n).Unreadable ↔ 2 ^ 63 ≤ n.toNat :=
  ⟨fun h => by cases h; assumption, .function⟩

/-- A reference to the stack cannot be read back exactly if it is no address. -/
theorem unreadable_stackRef_iff {n : UInt64} : (stackRef n).Unreadable ↔ 2 ^ 63 ≤ n.toNat :=
  ⟨fun h => by cases h; assumption, .stackRef⟩

/-- A character cannot be read back exactly if it is no scalar value. -/
theorem unreadable_char_iff {c : UInt32} : (char c).Unreadable ↔ ¬c.toNat.isValidChar :=
  ⟨fun h => by cases h; assumption, .char⟩

/-- What is not readable is a floating point number or cannot be meant by a literal. -/
theorem isReadable_iff {v : Value} : v.isReadable = true ↔
    ∀ w, Occurs w v → (w.kind ≠ .float ∧ w.kind ≠ .double) ∧ ¬w.Unreadable := by
  have hlt : ∀ {n : UInt64}, n.toNat < 2 ^ 63 ↔ ¬2 ^ 63 ≤ n.toNat := Nat.not_le.symm
  refine test_iff_forall_occurs (fun _ => ⟨by simp [kind], fun h => by cases h⟩)
    (fun _ => isReadableAll_iff) (fun v hk => ?_) v
  cases v with
  | array => exact absurd rfl hk
  | float | double => simp [isReadable, kind]
  | heapRef r => exact iff_of_false Bool.false_ne_true fun h => h.2 (.heapRef r)
  | function n =>
    rw [isReadable, decide_eq_true_eq, hlt, unreadable_function_iff]
    simp [kind]
  | stackRef n =>
    rw [isReadable, decide_eq_true_eq, hlt, unreadable_stackRef_iff]
    simp [kind]
  | char c =>
    rw [isReadable, isScalar_iff_isValidChar, unreadable_char_iff, not_not]
    simp [kind]
  | _ => exact iff_of_true rfl ⟨by simp [kind], fun h => by cases h⟩

/-! ## Reading a literal that stands alone -/

/-- **A value without floats is read back from its text exactly if it is readable.** -/
theorem ofLiteral_literal_iff {v : Value} (hv : v.isFloatless = true) :
    ofLiteral v.literal = .ok v ↔ v.isReadable = true := by
  rw [ofLiteral, trim_literal hv, Literal.read]
  exact Literal.readLevels_literal_iff hv (Nat.lt_succ_self _)

/-- **Literals mean the value they are written for, exactly.** A value in which no floating point
number stands at any depth is read back from its literal if and only if no heap reference, no
address from 2^63 on and no character other than a Unicode scalar value stands in it at any
depth. -/
theorem literal_roundtrip_iff {v : Value}
    (hfloats : ∀ w, Occurs w v → w.kind ≠ .float ∧ w.kind ≠ .double) :
    (∃ w, ofLiteral v.literal = .ok w ∧ w.beq v = true) ↔ ∀ w, Occurs w v → ¬w.Unreadable := by
  have hread : (∃ w, ofLiteral v.literal = .ok w ∧ w.beq v = true) ↔
      ofLiteral v.literal = .ok v := by
    constructor
    · rintro ⟨w, hw, heq⟩
      rwa [eq_of_beq w v heq] at hw
    · exact fun h => ⟨v, h, beq_refl v⟩
  rw [hread, ofLiteral_literal_iff (isFloatless_iff.2 hfloats), isReadable_iff]
  exact ⟨fun h w hw => (h w hw).2, fun h w hw => ⟨hfloats w hw, h w hw⟩⟩

/-- A text of brackets, commas, quotes, backslashes and a byte that is no UTF-8, beside a character
one array deeper. -/
def bracketSample (c : UInt32) : Value :=
  array [string (utf8 "],\"'[\\" ++ [255]), array [char c, null]]

/-- The sample is read back with the greatest scalar value in it, and not with a surrogate. -/
theorem bracketSample_roundtrip :
    (∃ w, ofLiteral (bracketSample 0x10FFFF).literal = .ok w ∧ w.beq (bracketSample 0x10FFFF) =
      true) ∧
      ¬∃ w, ofLiteral (bracketSample 0xD800).literal = .ok w ∧ w.beq (bracketSample 0xD800) =
        true := by
  have hchar : Occurs (char 0xD800) (bracketSample 0xD800) :=
    .elem (List.mem_cons_of_mem _ List.mem_cons_self) (.elem List.mem_cons_self .here)
  constructor
  · exact (literal_roundtrip_iff (isFloatless_iff.1 rfl)).2 fun w hw =>
      (isReadable_iff.1 rfl w hw).2
  · exact fun h => (literal_roundtrip_iff (isFloatless_iff.1 rfl)).1 h _ hchar (.char (by decide))

end Value

end RegisterMachine
