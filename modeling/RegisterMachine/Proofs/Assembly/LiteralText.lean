import RegisterMachine.Proofs.Assembly.Splitting
import RegisterMachine.Proofs.Fallible
import RegisterMachine.Proofs.Number.Decimal
import RegisterMachine.Proofs.Text.Words

/-!
# Literals are read back

`Value.literal` writes a value other than an array as a type name in parentheses and a body that is
a number, a name or a quoted text (`Value.IsScalarText`), and an array as the literals of its
elements in brackets. Splitting goes past the literals of the elements (`Literal.passed_literal`),
and trimming leaves them as they are (`Value.trim_literal`), floating point numbers apart
(`Value.isFloatless`). So what is read from a literal is the value it was written for exactly if
that value is one of those that literals can mean (`Value.isReadable`,
`Literal.readLevels_literal_iff`).
-/

namespace RegisterMachine

open Text (isVisible isQuoteMark IsQuoted quoteState)

namespace Bytes

/-- A text is cut at the first separator. -/
theorem cut?_append {sep : UInt8} {s : Bytes} (h : sep ∉ s) (t : Bytes) :
    cut? sep (s ++ sep :: t) = some (s, t) := by
  have hkeep : ∀ b ∈ s, (b != sep) = true := fun b hb => bne_iff_ne.2 fun he => h (he ▸ hb)
  rw [cut?, List.dropWhile_append_of_pos hkeep, List.takeWhile_append_of_pos hkeep]
  simp

/-- A text without the separator is not cut. -/
theorem cut?_of_not_mem {sep : UInt8} {s : Bytes} (h : sep ∉ s) : cut? sep s = none := by
  have hkeep : ∀ b ∈ s, (b != sep) = true := fun b hb => bne_iff_ne.2 fun he => h (he ▸ hb)
  have hdrop : (s ++ []).dropWhile (· != sep) = [] := List.dropWhile_append_of_pos hkeep
  rw [List.append_nil] at hdrop
  rw [cut?, hdrop]

end Bytes

namespace Value

/-! ## Literals -/

mutual

/-- Whether the literal of the value means that value: floating point numbers apart, all do but heap
references, addresses from 2^63 on, and characters that are no scalar values. -/
def isReadable : Value → Bool
  | float _ | double _ | heapRef _ => false
  | function n | stackRef n => n.toNat < 2 ^ 63
  | char c => Text.isScalar c.toNat
  | array es => isReadableAll es
  | int .. | byte _ | bool _ | string _ | void | null => true

/-- `isReadable` for all elements of an array. -/
def isReadableAll : List Value → Bool
  | [] => true
  | v :: vs => isReadable v && isReadableAll vs

end

/-- A list is readable exactly if all its values are. -/
theorem isReadableAll_iff {vs : List Value} :
    isReadableAll vs = true ↔ ∀ v ∈ vs, v.isReadable = true := by
  induction vs with
  | nil => simp [isReadableAll]
  | cons v vs ih => rw [isReadableAll, Bool.and_eq_true, ih, List.forall_mem_cons]

mutual

/-- Whether the value is free of floating point numbers. -/
def isFloatless : Value → Bool
  | float _ | double _ => false
  | array es => isFloatlessAll es
  | _ => true

/-- `isFloatless` for all elements of an array. -/
def isFloatlessAll : List Value → Bool
  | [] => true
  | v :: vs => isFloatless v && isFloatlessAll vs

end

/-- A list is without floats exactly if all its values are. -/
theorem isFloatlessAll_iff {vs : List Value} :
    isFloatlessAll vs = true ↔ ∀ v ∈ vs, v.isFloatless = true := by
  induction vs with
  | nil => simp [isFloatlessAll]
  | cons v vs ih => rw [isFloatlessAll, Bool.and_eq_true, ih, List.forall_mem_cons]

mutual

/-- Readable values are without floats. -/
theorem isFloatless_of_isReadable : (v : Value) → v.isReadable = true → v.isFloatless = true
  | array es, h => isFloatlessAll_of_isReadableAll es h
  | int .., _ | byte _, _ | bool _, _ | string _, _ | char _, _ | void, _ | null, _ | function _, _
  | stackRef _, _ => rfl

/-- Readable lists are without floats. -/
theorem isFloatlessAll_of_isReadableAll :
    (vs : List Value) → isReadableAll vs = true → isFloatlessAll vs = true
  | [], _ => rfl
  | v :: vs, h => by
    rw [isReadableAll, Bool.and_eq_true] at h
    rw [isFloatlessAll, isFloatless_of_isReadable v h.1, isFloatlessAll_of_isReadableAll vs h.2]
    rfl

end

/-- The texts of a list's elements are written one by one. -/
theorem literalAll_eq_map (vs : List Value) : literalAll vs = vs.map literal := by
  induction vs with
  | nil => rfl
  | cons v vs ih => rw [literalAll, ih, List.map_cons]

/-- The literal of an array. -/
theorem literal_array (es : List Value) : (array es).literal =
    40 :: (utf8 "array" ++ 41 :: 91 :: (Bytes.join (utf8 ", ") (es.map literal) ++ [93])) := by
  rw [← literalAll_eq_map]
  rfl

/-- Lower-case letters, digits, the underscore and the minus sign. -/
def isWordByte (b : UInt8) : Bool :=
  b == 45 || b == 95 || (48 ≤ b.toNat && b.toNat ≤ 57) || (97 ≤ b.toNat && b.toNat ≤ 122)

/-- A value other than an array has a type and a body as its literal, from which it is read back
when it is readable. -/
structure IsScalarText (v : Value) (type body : Bytes) : Prop where
  literal : v.literal = 40 :: (type ++ 41 :: body)
  type_word : ∀ b ∈ type, isWordByte b = true
  not_array : type ≠ utf8 "array"
  body_cases : (∀ b ∈ body, isWordByte b = true) ∨ type = utf8 "string" ∧ IsQuoted 34 body ∨
    type = utf8 "char" ∧ IsQuoted 39 body
  read : ∀ s, Literal.readScalar [] s type body = .ok v ↔ v.isReadable = true

/-- Decimal digits are word bytes. -/
theorem isWordByte_of_mem_decimal {n : Nat} {b : UInt8} (h : b ∈ Number.decimal n) :
    isWordByte b = true := by
  obtain ⟨hlow, hhigh⟩ := Number.isDigit_of_mem_decimal h
  simp [isWordByte, hlow, hhigh]

/-- The digits of an integer and its sign are word bytes. -/
theorem isWordByte_of_mem_decimalInt {i : Int} {b : UInt8} (h : b ∈ Number.decimalInt i) :
    isWordByte b = true := by
  cases i with
  | ofNat n => exact isWordByte_of_mem_decimal h
  | negSucc n =>
    rcases List.mem_cons.1 h with rfl | h
    · rfl
    · exact isWordByte_of_mem_decimal h

/-- An integer of at most 64 bits is read back. -/
theorem readInt_decimalInt {bits : Nat} (hbits : bits ≤ 64) {i : Int} (hlow : -2 ^ (bits - 1) ≤ i)
    (hhigh : i < 2 ^ (bits - 1)) (s : Bytes) :
    Literal.readInt [] s (Number.decimalInt i) bits = .ok i := by
  have hpow : (2 : Int) ^ (bits - 1) ≤ 2 ^ 63 := by
    exact_mod_cast Nat.pow_le_pow_right (by decide) (by omega : bits - 1 ≤ 63)
  have hread : Number.parseSigned .byMark (Number.decimalInt i) = .ok i :=
    Except.mapError_eq_ok.2 (Number.readSigned_decimalInt (by omega) (by omega))
  have hrange : ¬(i < -(2 ^ (bits - 1) : Int) ∨ (2 ^ (bits - 1) : Int) ≤ i) := by omega
  have hlabel : Labels.index? [] (Number.decimalInt i) = none := rfl
  rw [Literal.readInt, hlabel]
  dsimp only
  rw [hread]
  exact if_neg hrange

/-- A 64-bit number is the one with its value. -/
theorem ofInt_toNat (n : UInt64) : UInt64.ofInt n.toNat = n := by
  have hlt := n.toNat_lt
  have hmod : ((n.toNat : Int) % 2 ^ 64).toNat = n.toNat := by omega
  rw [UInt64.ofInt, hmod, UInt64.ofNat_toNat]

/-! ## Values other than arrays -/

/-- How the text of an integer is made up. -/
theorem isScalarText_int (w : IntWidth) (b : BitVec w.bits) :
    IsScalarText (int w b) (typeName (int w b)) (Number.decimalInt b.toInt) where
  literal := by cases w <;> rfl
  type_word := by cases w <;> exact List.all_eq_true.1 rfl
  not_array := by cases w <;> exact fun h => nomatch h
  body_cases := .inl fun _ => isWordByte_of_mem_decimalInt
  read s := by
    have hscalar : Literal.readScalar [] s (typeName (int w b)) (Number.decimalInt b.toInt) =
        (Literal.readInt [] s (Number.decimalInt b.toInt) w.bits).map (ofInt w) := by
      cases w <;> rfl
    have hbits : w.bits ≤ 64 := by cases w <;> decide
    have hvalue : ofInt w b.toInt = int w b := by rw [ofInt, BitVec.ofInt_toInt]
    rw [hscalar, readInt_decimalInt hbits (BitVec.le_toInt b) BitVec.toInt_lt]
    exact iff_of_true (congrArg Except.ok hvalue) rfl

/-- An address is read back when it fits 63 bits. -/
theorem readInt_decimal (n : UInt64) (s : Bytes) :
    Literal.readInt [] s (Number.decimal n.toNat) 64 = .ok n.toNat ∧ n.toNat < 2 ^ 63 ∨
      (∃ e, Literal.readInt [] s (Number.decimal n.toNat) 64 = .error e) ∧ ¬n.toNat < 2 ^ 63 := by
  have hlabel : Labels.index? [] (Number.decimal n.toNat) = none := rfl
  by_cases hn : n.toNat < 2 ^ 63
  · exact .inl ⟨readInt_decimalInt (i := n.toNat) (by decide) (by omega) (by omega) s, hn⟩
  · have hread : Number.parseSigned .byMark (Number.decimal n.toNat) =
        .error ⟨.int, Number.decimal n.toNat, .outOfRange⟩ := by
      rw [Number.parseSigned, Number.readSigned_decimal n.toNat_lt, if_neg hn]
      rfl
    refine .inr ⟨⟨.number s ⟨.int, Number.decimal n.toNat, .outOfRange⟩, ?_⟩, hn⟩
    rw [Literal.readInt, hlabel]
    dsimp only
    rw [hread]

/-- Functions and slots are addresses under a type of their own. -/
theorem isScalarText_address {make : UInt64 → Value} {type : Bytes} {n : UInt64}
    (hliteral : (make n).literal = 40 :: (type ++ 41 :: Number.decimal n.toNat))
    (htype : type.all isWordByte = true) (hne : type ≠ utf8 "array")
    (hscalar : ∀ s body, Literal.readScalar [] s type body =
      (Literal.readInt [] s body 64).map fun i => make (UInt64.ofInt i))
    (hreadable : (make n).isReadable = decide (n.toNat < 2 ^ 63)) :
    IsScalarText (make n) type (Number.decimal n.toNat) where
  literal := hliteral
  type_word := List.all_eq_true.1 htype
  not_array := hne
  body_cases := .inl fun _ => isWordByte_of_mem_decimal
  read s := by
    rw [hscalar, hreadable, decide_eq_true_eq]
    rcases readInt_decimal n s with ⟨hread, hn⟩ | ⟨⟨e, hread⟩, hn⟩
    · rw [hread, Except.map, ofInt_toNat]
      exact iff_of_true rfl hn
    · rw [hread]
      exact iff_of_false nofun hn

/-- How the text of a byte is made up. -/
theorem isScalarText_byte (b : UInt8) :
    IsScalarText (byte b) (utf8 "byte") (Number.decimal b.toNat) where
  literal := rfl
  type_word := List.all_eq_true.1 rfl
  not_array := by decide
  body_cases := .inl fun _ => isWordByte_of_mem_decimal
  read s := by
    have hread : Number.parseUnsigned .byMark 8 (Number.decimal b.toNat) = .ok b.toNat :=
      Except.mapError_eq_ok.2 (Number.readUnsigned_decimal b.toNat_lt)
    have hscalar : Literal.readScalar [] s (utf8 "byte") (Number.decimal b.toNat) =
        ((Number.parseUnsigned .byMark 8 (Number.decimal b.toNat)).mapError (.number s)).map
          (.byte <| UInt8.ofNat ·) := rfl
    rw [hscalar, hread]
    exact iff_of_true (congrArg (Except.ok <| byte ·) UInt8.ofNat_toNat) rfl

/-- Reading a text between double quotes. -/
theorem readScalar_string (labels : Labels) (s body : Bytes) :
    Literal.readScalar labels s (utf8 "string") body = match Text.unquote? body with
      | some t => .ok (string t)
      | none => .error (.notAString s) := rfl

/-- Reading a text between single quotes. -/
theorem readScalar_char (labels : Labels) (s body : Bytes) :
    Literal.readScalar labels s (utf8 "char") body = match (Text.unquote? body).map Text.runes with
      | some [c] => .ok (char (UInt32.ofNat c))
      | _ => .error (.notAChar s) := rfl

/-- How the text of a string is made up. -/
theorem isScalarText_string (t : Bytes) :
    IsScalarText (string t) (utf8 "string") (Text.quote t) where
  literal := rfl
  type_word := List.all_eq_true.1 rfl
  not_array := by decide
  body_cases := .inr (.inl ⟨rfl, Text.isQuoted_quote t⟩)
  read s := by
    rw [readScalar_string, Text.unquote?_quote]
    exact iff_of_true rfl rfl

/-- A character between single quotes is read, as U+FFFD when it is no scalar value. -/
theorem readScalar_quoteRune (s : Bytes) (c : Nat) :
    Literal.readScalar [] s (utf8 "char") (Text.quoteRune c) =
      .ok (char (UInt32.ofNat (if Text.isScalar c then c else Text.replacement))) := by
  have hscalar := Text.isScalar_shown c
  have hglyphs := Text.glyphs_encodeScalar_append hscalar []
  rw [List.append_nil, Text.glyphs_nil] at hglyphs
  have hrunes : Text.runes (Text.encodeRune c) =
      [if Text.isScalar c then c else Text.replacement] := by
    rw [Text.runes, Text.encodeRune, hglyphs]
    rfl
  rw [readScalar_char, Text.unquote?_quoteRune, Option.map_some, hrunes]

/-- How the text of a character is made up. -/
theorem isScalarText_char (c : UInt32) :
    IsScalarText (char c) (utf8 "char") (Text.quoteRune c.toNat) where
  literal := rfl
  type_word := List.all_eq_true.1 rfl
  not_array := by decide
  body_cases := .inr (.inr ⟨rfl, Text.isQuoted_quoteRune c.toNat⟩)
  read s := by
    rw [readScalar_quoteRune, isReadable]
    by_cases hc : Text.isScalar c.toNat = true
    · rw [if_pos hc, UInt32.ofNat_toNat]
      exact iff_of_true rfl hc
    · rw [if_neg hc]
      refine iff_of_false (fun h => hc ?_) hc
      cases h
      rfl

/-- No literal means a heap reference. -/
theorem isScalarText_heapRef (r : Ref) :
    IsScalarText (heapRef r) (utf8 "heap_ref") (Number.decimal r.toBits.toNat) where
  literal := rfl
  type_word := List.all_eq_true.1 rfl
  not_array := by decide
  body_cases := .inl fun _ => isWordByte_of_mem_decimal
  read s := iff_of_false (fun h => nomatch h) Bool.false_ne_true

/-- What is named by a word has that word as its literal, in parentheses or behind its type. -/
theorem isScalarText_word {v : Value} {type body : Bytes}
    (hliteral : v.literal = 40 :: (type ++ 41 :: body)) (htype : type.all isWordByte = true)
    (hne : type ≠ utf8 "array") (hbody : body.all isWordByte = true)
    (hread : ∀ s, Literal.readScalar [] s type body = .ok v ↔ v.isReadable = true) :
    IsScalarText v type body where
  literal := hliteral
  type_word := List.all_eq_true.1 htype
  not_array := hne
  body_cases := .inl (List.all_eq_true.1 hbody)
  read := hread

/-- **A value other than an array has a type and a body**, floating point numbers apart. -/
theorem exists_isScalarText {v : Value} (hv : v.isFloatless = true) (hk : v.kind ≠ .array) :
    ∃ type body, IsScalarText v type body := by
  cases v with
  | float | double => cases hv
  | array es => exact absurd rfl hk
  | int w b => exact ⟨_, _, isScalarText_int w b⟩
  | byte b => exact ⟨_, _, isScalarText_byte b⟩
  | string t => exact ⟨_, _, isScalarText_string t⟩
  | char c => exact ⟨_, _, isScalarText_char c⟩
  | bool b =>
    refine ⟨utf8 "bool", utf8 (if b then "true" else "false"), ?_⟩
    cases b with
    | false => exact isScalarText_word rfl rfl (by decide) rfl fun _ => iff_of_true rfl rfl
    | true => exact isScalarText_word rfl rfl (by decide) rfl fun _ => iff_of_true rfl rfl
  | void =>
    exact ⟨utf8 "void", [], isScalarText_word rfl rfl (by decide) rfl fun _ => iff_of_true rfl rfl⟩
  | null =>
    exact ⟨utf8 "null", [], isScalarText_word rfl rfl (by decide) rfl fun _ => iff_of_true rfl rfl⟩
  | function n =>
    exact ⟨utf8 "fn", _, isScalarText_address rfl rfl (by decide) (fun _ _ => rfl) rfl⟩
  | stackRef n =>
    exact ⟨utf8 "stack_ref", _, isScalarText_address rfl rfl (by decide) (fun _ _ => rfl) rfl⟩
  | heapRef r => exact ⟨utf8 "heap_ref", _, isScalarText_heapRef r⟩

/-- Induction on values: the elements of an array come before the array. -/
@[elab_as_elim]
theorem array_induction {motive : Value → Prop} (scalar : ∀ v : Value, v.kind ≠ .array → motive v)
    (array : ∀ es, (∀ e ∈ es, motive e) → motive (array es)) (v : Value) : motive v := by
  by_cases hk : v.kind = .array
  · cases v with
    | array es => exact array es fun e he => array_induction scalar array e
    | _ => cases hk
  · exact scalar v hk
termination_by sizeOf v
decreasing_by
  have hlt := List.sizeOf_lt_of_mem he
  rw [Value.array.sizeOf_spec]
  omega

/-- Induction on values without floating point numbers: a value other than an array comes as its
text. -/
@[elab_as_elim]
theorem floatless_induction {motive : (v : Value) → v.isFloatless = true → Prop}
    (scalar : ∀ v hv type body, IsScalarText v type body → motive v hv)
    (array : ∀ es (hes : isFloatlessAll es = true), (∀ e he, e ∈ es → motive e he) →
      motive (array es) hes)
    (v : Value) (hv : v.isFloatless = true) : motive v hv := by
  induction v using array_induction with
  | scalar v hk =>
    obtain ⟨type, body, h⟩ := exists_isScalarText hv hk
    exact scalar v hv type body h
  | array es ih => exact array es hv fun e he hmem => ih e hmem he

/-! ## The bytes of literals -/

/-- Word bytes are minus signs, underscores, digits and small letters. -/
theorem toNat_of_isWordByte {b : UInt8} (h : isWordByte b = true) :
    b.toNat = 45 ∨ b.toNat = 95 ∨ 48 ≤ b.toNat ∧ b.toNat ≤ 57 ∨ 97 ≤ b.toNat ∧ b.toNat ≤ 122 := by
  simp only [isWordByte, Bool.or_eq_true, Bool.and_eq_true, beq_iff_eq, decide_eq_true_eq] at h
  obtain ((rfl | rfl) | h) | h := h
  · exact .inl rfl
  · exact .inr (.inl rfl)
  · exact .inr (.inr (.inl h))
  · exact .inr (.inr (.inr h))

/-- Word bytes are visible. -/
theorem visible_of_isWordByte {b : UInt8} (h : isWordByte b = true) : isVisible b = true := by
  have hb := toNat_of_isWordByte h
  exact Text.isVisible_iff.2 (by omega)

namespace IsScalarText

variable {v : Value} {type body : Bytes}

/-- The body is as it is when trimmed. -/
theorem trim_body (h : IsScalarText v type body) : Text.trim body = body := by
  rcases h.body_cases with hword | ⟨_, inner, rfl, _⟩ | ⟨_, inner, rfl, _⟩
  · exact Text.trim_of_visible fun b hb => visible_of_isWordByte (hword b hb)
  · exact Text.trim_between rfl rfl inner
  · exact Text.trim_between rfl rfl inner

end IsScalarText

/-- A literal starts with a parenthesis and ends in a visible character other than a colon. -/
theorem literal_ends {v : Value} (hv : v.isFloatless = true) :
    ∃ s b, v.literal = 40 :: (s ++ [b]) ∧ isVisible b = true ∧ b ≠ 58 := by
  induction v, hv using floatless_induction with
  | array es _ =>
    refine ⟨utf8 "array" ++ 41 :: 91 :: Bytes.join (utf8 ", ") (es.map literal), 93, ?_,
      rfl, by decide⟩
    rw [literal_array, List.append_assoc]
    rfl
  | scalar v _ type body h =>
    rw [h.literal]
    have hquoted : ∀ q inner, body = q :: (inner ++ [q]) →
        40 :: (type ++ 41 :: body) = 40 :: ((type ++ 41 :: q :: inner) ++ [q]) := by
      rintro q inner rfl
      simp
    rcases h.body_cases with hword | ⟨_, inner, hbody, _⟩ | ⟨_, inner, hbody, _⟩
    · rcases List.eq_nil_or_concat body with rfl | ⟨body, b, rfl⟩
      · exact ⟨type, 41, rfl, rfl, by decide⟩
      · rw [List.concat_eq_append] at hword ⊢
        have hb := hword b (List.mem_append_right _ List.mem_cons_self)
        refine ⟨type ++ 41 :: body, b, by simp, visible_of_isWordByte hb, ?_⟩
        rintro rfl
        cases hb
    · exact ⟨_, 34, hquoted 34 inner hbody, rfl, by decide⟩
    · exact ⟨_, 39, hquoted 39 inner hbody, rfl, by decide⟩

/-- The text of a value has no white space at its ends. -/
theorem trim_literal {v : Value} (hv : v.isFloatless = true) : Text.trim v.literal = v.literal := by
  obtain ⟨s, b, hliteral, hb, _⟩ := literal_ends hv
  rw [hliteral]
  exact Text.trim_between rfl hb s

/-- There are no control characters in a literal. -/
theorem le_toNat_of_mem_literal {v : Value} (hv : v.isFloatless = true) :
    ∀ b ∈ v.literal, 32 ≤ b.toNat := by
  have hword : ∀ b, isWordByte b = true → 32 ≤ b.toNat := fun b hb =>
    Nat.le_of_succ_le (Text.isVisible_iff.1 (visible_of_isWordByte hb)).1
  induction v, hv using floatless_induction with
  | array es hes ih =>
    have hjoin : ∀ b ∈ Bytes.join (utf8 ", ") (es.map literal), 32 ≤ b.toNat := by
      intro b hb
      rcases Bytes.mem_of_mem_join hb with hb | ⟨part, hpart, hb⟩
      · have hsep : ∀ b ∈ utf8 ", ", 32 ≤ b.toNat := by decide +kernel
        exact hsep b hb
      · obtain ⟨e, he, rfl⟩ := List.mem_map.1 hpart
        exact ih e (isFloatlessAll_iff.1 hes e he) he b hb
    have hname : ∀ b ∈ utf8 "array", 32 ≤ b.toNat := by decide +kernel
    rw [literal_array]
    simp only [List.forall_mem_cons, List.forall_mem_append]
    exact ⟨by decide, hname, by decide, by decide, hjoin, by decide, fun _ h => nomatch h⟩
  | scalar v _ type body h =>
    have hquoted : ∀ q, isQuoteMark q → IsQuoted q body → ∀ b ∈ body, 32 ≤ b.toNat := by
      rintro q hq ⟨inner, rfl, _, hinner⟩
      have hmark : 32 ≤ q.toNat := by rcases hq with rfl | rfl <;> decide
      simp only [List.forall_mem_cons, List.forall_mem_append]
      exact ⟨hmark, hinner, hmark, fun _ h => nomatch h⟩
    have hbody : ∀ b ∈ body, 32 ≤ b.toNat := by
      rcases h.body_cases with hbody | ⟨_, hbody⟩ | ⟨_, hbody⟩
      · exact fun b hb => hword b (hbody b hb)
      · exact hquoted 34 (.inl rfl) hbody
      · exact hquoted 39 (.inr rfl) hbody
    rw [h.literal]
    simp only [List.forall_mem_cons, List.forall_mem_append]
    exact ⟨by decide, fun b hb => hword b (h.type_word b hb), by decide, hbody⟩

end Value

namespace Literal

open Value (isWordByte)

/-! ## Reading literals back -/

/-- A type name stands between parentheses. -/
theorem splitType_cons {type body : Bytes} (h : 41 ∉ type) :
    splitType (40 :: (type ++ 41 :: body)) = .ok (type, Text.trim body) := by
  rw [splitType, Bytes.cut?_append h]

/-- **Splitting goes past a literal.** -/
theorem passed_literal {v : Value} (hv : v.isFloatless = true) : Passed 0 v.literal := by
  have hword : ∀ b, isWordByte b = true → b ≠ 34 ∧ b ≠ 39 ∧ b ≠ 91 ∧ b ≠ 93 ∧ b ≠ 44 := by
    intro b hb
    refine ⟨?_, ?_, ?_, ?_, ?_⟩ <;> rintro rfl <;> cases hb
  induction v, hv using Value.floatless_induction with
  | array es hes ih =>
    have hes := Value.isFloatlessAll_iff.1 hes
    have hname : Passed 0 (40 :: (utf8 "array" ++ [41])) := Passed.of_plain (by decide +kernel)
    have hinner := (Passed.join (List.forall_mem_map.2 fun e he => ih e (hes e he) he)).brackets
    have h := hname.append hinner
    rw [List.cons_append, List.append_assoc, List.singleton_append] at h
    rw [Value.literal_array]
    exact h
  | scalar v _ type body h =>
    have htype : Passed 0 (40 :: (type ++ [41])) := by
      refine Passed.of_plain ?_
      simp only [List.forall_mem_cons, List.forall_mem_append]
      exact ⟨by decide, fun b hb => hword b (h.type_word b hb), by decide, fun _ hb => nomatch hb⟩
    have hbody : Passed 0 body := by
      rcases h.body_cases with hbody | ⟨_, hbody⟩ | ⟨_, hbody⟩
      · exact Passed.of_plain fun b hb => hword b (hbody b hb)
      · exact Passed.of_isQuoted (.inl rfl) hbody
      · exact Passed.of_isQuoted (.inr rfl) hbody
    have hliteral := htype.append hbody
    rw [List.cons_append, List.append_assoc, List.singleton_append, ← h.literal] at hliteral
    exact hliteral

/-- A text in parentheses that does not say `array` is read as a scalar. -/
theorem readLevels_scalar {labels : Labels} {levels : Nat} {type body : Bytes} (htype : 41 ∉ type)
    (hne : type ≠ utf8 "array") : readLevels labels (levels + 1) (40 :: (type ++ 41 :: body)) =
      readScalar labels (40 :: (type ++ 41 :: body)) type (Text.trim body) := by
  rw [readLevels, splitType_cons htype]
  exact if_neg hne

/-- Reading an array reads what stands between the commas in its brackets. -/
theorem readLevels_array {labels : Labels} {levels : Nat} {s body : Bytes}
    (h : splitType s = .ok (utf8 "array", body)) :
    readLevels labels (levels + 1) s = match bracketed? body with
      | none => .error (.notAnArray s)
      | some inner => if (Text.trim inner).isEmpty then .ok (.array [])
        else ((splitTop (Text.trim inner)).mapM fun part =>
          readLevels labels levels (Text.trim part)).map .array := by
  rw [readLevels, h]
  simp only [bind, Except.bind, if_true]
  cases bracketed? body with
  | none => rfl
  | some inner =>
    dsimp only
    split
    · rfl
    · rfl

/-- What stands before a text in brackets starts with a parenthesis when that text does. -/
theorem flatMap_literal_append {es : List Value} (hes : ∀ e ∈ es, e.isFloatless = true)
    (rest : Bytes) : ∃ s, es.flatMap (·.literal ++ utf8 ", ") ++ 40 :: rest = 40 :: s := by
  cases es with
  | nil => exact ⟨rest, rfl⟩
  | cons e es =>
    obtain ⟨s, b, he, _⟩ := Value.literal_ends (hes e List.mem_cons_self)
    rw [List.flatMap_cons, he]
    exact ⟨_, rfl⟩

/-- What stands in the brackets of an array with elements. -/
theorem join_literal (es : List Value) (last : Value) :
    Bytes.join (utf8 ", ") ((es ++ [last]).map Value.literal) =
      es.flatMap (·.literal ++ utf8 ", ") ++ last.literal := by
  rw [List.map_append, List.map_singleton, Bytes.join_append_singleton, List.flatMap_map]

/-- The texts of elements joined start with a parenthesis and end in something visible. -/
theorem join_literal_ends {es : List Value} {last : Value}
    (hes : ∀ e ∈ es ++ [last], e.isFloatless = true) :
    ∃ s b, Bytes.join (utf8 ", ") ((es ++ [last]).map Value.literal) = 40 :: (s ++ [b]) ∧
      isVisible b = true := by
  obtain ⟨s, b, hliteral, hb, _⟩ :=
    Value.literal_ends (hes last (List.mem_append_right _ List.mem_cons_self))
  obtain ⟨s', hs'⟩ := flatMap_literal_append (fun e he => hes e (List.mem_append_left _ he)) s
  refine ⟨s', b, ?_, hb⟩
  rw [join_literal, hliteral, ← List.cons_append, ← List.append_assoc, hs', List.cons_append]

/-- What stands in brackets is what was put there. -/
theorem bracketed?_brackets (s : Bytes) : bracketed? (91 :: (s ++ [93])) = some s := by
  simp [bracketed?]

/-- The elements of an array are read from the literals of its elements. -/
theorem mapM_splitTop_literal {labels : Labels} {levels : Nat} {es vs : List Value} {last : Value}
    (hes : ∀ e ∈ es ++ [last], e.isFloatless = true) :
    ((splitTop (Bytes.join (utf8 ", ") ((es ++ [last]).map Value.literal))).mapM
      fun part => readLevels labels levels (Text.trim part)) = .ok vs ↔
      List.Forall₂ (fun e v => readLevels labels levels e.literal = .ok v) (es ++ [last]) vs := by
  have hparts : ∀ s ∈ es.map Value.literal, Passed 0 s :=
    List.forall_mem_map.2 fun e he => passed_literal (hes e (List.mem_append_left _ he))
  have hlast := passed_literal (hes last (List.mem_append_right _ List.mem_cons_self))
  have htrim : (splitTop (Bytes.join (utf8 ", ") ((es ++ [last]).map Value.literal))).map
      Text.trim = (es ++ [last]).map Value.literal := by
    rw [List.map_append, List.map_singleton, map_trim_splitTop_join hparts hlast.last,
      ← List.map_singleton, ← List.map_append, List.map_map]
    exact List.map_congr_left fun e he => Value.trim_literal (hes e he)
  rw [Except.mapM_eq_ok]
  refine Iff.trans
    (List.forall₂_map_left_iff (R := fun s v => readLevels labels levels s = .ok v)).symm ?_
  rw [htrim, List.forall₂_map_left_iff]

/-- **The literal of a value without floating point numbers is read back** exactly if the value is
readable, when there are enough levels for its arrays. -/
theorem readLevels_literal_iff {v : Value} (hv : v.isFloatless = true) {levels : Nat}
    (h : v.literal.length < levels) :
    readLevels [] levels v.literal = .ok v ↔ v.isReadable = true := by
  obtain ⟨levels, rfl⟩ : ∃ m, levels = m + 1 := ⟨levels - 1, by omega⟩
  induction v, hv using Value.floatless_induction generalizing levels with
  | scalar v _ type body hscalar =>
    have htype : (41 : UInt8) ∉ type := fun hmem => by cases hscalar.type_word 41 hmem
    rw [hscalar.literal, readLevels_scalar htype hscalar.not_array, hscalar.trim_body]
    exact hscalar.read _
  | array es hes ih =>
    have hes := Value.isFloatlessAll_iff.1 hes
    have hlen : ∀ e ∈ es, e.literal.length < levels := by
      intro e he
      have hmem : e.literal ∈ es.map Value.literal := List.mem_map_of_mem he
      have hpart : e.literal.length ≤ (Bytes.join (utf8 ", ") (es.map Value.literal)).length :=
        Bytes.length_le_join hmem
      rw [Value.literal_array, List.length_cons, List.length_append, List.length_cons,
        List.length_cons, List.length_append] at h
      omega
    have helems : ∀ e ∈ es, readLevels [] levels e.literal = .ok e ↔ e.isReadable = true := by
      intro e he
      obtain ⟨m, rfl⟩ : ∃ m, levels = m + 1 := ⟨levels - 1, by have := hlen e he; omega⟩
      exact ih e (hes e he) he m (hlen e he)
    have hsplit : splitType (Value.array es).literal =
        .ok (utf8 "array", 91 :: (Bytes.join (utf8 ", ") (es.map Value.literal) ++ [93])) := by
      rw [Value.literal_array, splitType_cons (by decide), Text.trim_between rfl rfl]
    rw [readLevels_array hsplit, bracketed?_brackets]
    dsimp only
    rcases List.eq_nil_or_concat es with rfl | ⟨es, last, rfl⟩
    · have hempty : Text.trim (Bytes.join (utf8 ", ") []) = [] := Text.trim_nil
      rw [List.map_nil, hempty]
      exact iff_of_true rfl rfl
    · rw [List.concat_eq_append] at hes helems ⊢
      obtain ⟨s, b, hjoin, hb⟩ := join_literal_ends hes
      have htrim : Text.trim (Bytes.join (utf8 ", ") ((es ++ [last]).map Value.literal)) =
          Bytes.join (utf8 ", ") ((es ++ [last]).map Value.literal) := by
        rw [hjoin]
        exact Text.trim_between rfl hb s
      have hne : (Bytes.join (utf8 ", ") ((es ++ [last]).map Value.literal)).isEmpty = false := by
        rw [hjoin]
        rfl
      have hmap : ∀ x : Except LiteralError (List Value),
          x.map Value.array = .ok (.array (es ++ [last])) ↔ x = .ok (es ++ [last]) := by
        intro x
        rw [Except.map_eq_ok]
        exact ⟨fun ⟨vs, hx, hvs⟩ => Value.array.inj hvs ▸ hx, fun hx => ⟨_, hx, rfl⟩⟩
      rw [htrim, hne, if_neg Bool.false_ne_true, hmap, mapM_splitTop_literal hes, List.forall₂_same]
      exact (forall₂_congr helems).trans Value.isReadableAll_iff.symm

/-- The literal of a readable value is read back. -/
theorem readLevels_literal {v : Value} (hv : v.isReadable = true) {levels : Nat}
    (h : v.literal.length < levels) : readLevels [] levels v.literal = .ok v :=
  (readLevels_literal_iff (Value.isFloatless_of_isReadable v hv) h).2 hv

end Literal

end RegisterMachine
