import RegisterMachine.Instruction.Operand
import RegisterMachine.Proofs.Number.Decimal
import RegisterMachine.Proofs.Text.Quoted

/-!
# Texts that are well-formed

Texts that are put together from well-formed parts are well-formed (`isUtf8_append`), fixed texts
are (`isUtf8_utf8`), and so are the texts of numbers, references and values: a string is shown
between quotes, where stray bytes are escaped (`isUtf8_quote`). `Value.isUtf8_text` and
`Value.isUtf8_literal` go through the two forms in which values are shown.
-/

namespace RegisterMachine

namespace Text

/-! ## Parts -/

@[simp] theorem isUtf8_nil : isUtf8 [] = true := by rw [isUtf8, glyphs_nil]; rfl

/-- A well-formed text is read by itself. -/
theorem glyphs_append {s : Bytes} (hs : isUtf8 s = true) (t : Bytes) :
    glyphs (s ++ t) = glyphs s ++ glyphs t := by
  have hscalar := isUtf8_iff.1 hs
  rw [← ofGlyphs_glyphs s, glyphs_ofGlyphs hscalar]
  generalize glyphs s = gs at hscalar
  induction gs with
  | nil => rfl
  | cons g gs ih =>
    obtain ⟨hg, hgs⟩ := List.forall_mem_cons.1 hscalar
    cases g with
    | stray b => cases hg
    | scalar c =>
      have htail := ih hgs
      rw [ofGlyphs] at htail
      rw [ofGlyphs, List.flatMap_cons, Glyph.bytes, List.append_assoc,
        glyphs_encodeScalar_append hg, htail, List.cons_append]

/-- A well-formed text in front does not matter. -/
@[simp] theorem isUtf8_append_eq {s : Bytes} (hs : isUtf8 s = true) (t : Bytes) :
    isUtf8 (s ++ t) = isUtf8 t := by
  rw [isUtf8] at hs
  rw [isUtf8, glyphs_append hs, List.all_append, hs, Bool.true_and, isUtf8]

/-- What is put together from well-formed texts is well-formed. -/
theorem isUtf8_append {s t : Bytes} (hs : isUtf8 s = true) (ht : isUtf8 t = true) :
    isUtf8 (s ++ t) = true := (isUtf8_append_eq hs t).trans ht

/-- An ASCII byte is UTF-8. -/
theorem isUtf8_singleton {b : UInt8} (hb : b.toNat < 0x80) : isUtf8 [b] = true :=
  isUtf8_of_ascii (List.forall_mem_singleton.2 hb)

/-- An ASCII byte may be put in front of UTF-8. -/
theorem isUtf8_cons {b : UInt8} {s : Bytes} (hb : b.toNat < 0x80) (hs : isUtf8 s = true) :
    isUtf8 (b :: s) = true := isUtf8_append (isUtf8_singleton hb) hs

/-- Pieces of UTF-8 one behind the other are UTF-8. -/
theorem isUtf8_flatMap {α : Type} {f : α → Bytes} {xs : List α}
    (h : ∀ x ∈ xs, isUtf8 (f x) = true) : isUtf8 (xs.flatMap f) = true := by
  induction xs with
  | nil => exact isUtf8_nil
  | cons x xs ih =>
    rw [List.flatMap_cons]
    exact isUtf8_append (h x List.mem_cons_self) (ih fun y hy => h y (List.mem_cons_of_mem _ hy))

/-- Pieces of UTF-8 joined by UTF-8 are UTF-8. -/
theorem isUtf8_join {sep : Bytes} {parts : List Bytes} (hsep : isUtf8 sep = true)
    (h : ∀ p ∈ parts, isUtf8 p = true) : isUtf8 (Bytes.join sep parts) = true := by
  rw [Bytes.join]
  induction parts with
  | nil => exact isUtf8_nil
  | cons p parts ih =>
    obtain ⟨hp, hparts⟩ := List.forall_mem_cons.1 h
    cases parts with
    | nil => simpa using hp
    | cons q parts =>
      rw [List.intersperse_cons_cons, List.flatten_cons, List.flatten_cons]
      exact isUtf8_append hp (isUtf8_append hsep (ih hparts))

/-- A scalar value is written as UTF-8. -/
theorem isUtf8_encodeScalar {c : Nat} (h : isScalar c = true) : isUtf8 (encodeScalar c) = true := by
  rw [← List.append_nil (encodeScalar c), isUtf8, glyphs_encodeScalar_append h, glyphs_nil]
  rfl

/-- A repeated ASCII byte is UTF-8. -/
theorem isUtf8_replicate {b : UInt8} (hb : b.toNat < 0x80) (n : Nat) :
    isUtf8 (List.replicate n b) = true :=
  isUtf8_of_ascii fun _ hx => List.eq_of_mem_replicate hx ▸ hb

/-! ## Fixed texts -/

/-- A character is written as its scalar value. -/
theorem utf8EncodeChar_eq (c : Char) :
    String.utf8EncodeChar c = encodeScalar c.toNat ∧ isScalar c.toNat = true := by
  have hvalid : c.toNat < 0xD800 ∨ 0xDFFF < c.toNat ∧ c.toNat < 0x110000 := c.valid
  have hscalar : isScalar c.toNat = true := by simp [isScalar]; omega
  refine ⟨?_, hscalar⟩
  have hval : c.val.toNat = c.toNat := rfl
  rw [String.utf8EncodeChar, encodeScalar, hval]
  by_cases h1 : c.toNat < 0x80
  · rw [if_pos (by omega), if_pos h1]
  by_cases h2 : c.toNat < 0x800
  · rw [if_neg (by omega), if_pos (by omega), if_neg h1, if_pos h2, Nat.mod_eq_of_lt (by omega)]
    simp only [Nat.add_comm]
  by_cases h3 : c.toNat < 0x10000
  · rw [if_neg (by omega), if_neg (by omega), if_pos (by omega), if_neg h1, if_neg h2, if_pos h3,
      Nat.mod_eq_of_lt (a := c.toNat / 4096) (by omega)]
    simp only [Nat.add_comm]
  · rw [if_neg (by omega), if_neg (by omega), if_neg (by omega), if_neg h1, if_neg h2, if_neg h3,
      Nat.mod_eq_of_lt (a := c.toNat / 262144) (by omega)]
    simp only [Nat.add_comm]

/-- **Fixed texts are well-formed.** -/
@[simp] theorem isUtf8_utf8 (s : String) : isUtf8 (utf8 s) = true := by
  have hbytes : utf8 s = s.toList.flatMap String.utf8EncodeChar := by
    show s.toByteArray.data.toList = _
    rw [← String.utf8Encode_toList, List.utf8Encode, List.toList_data_toByteArray]
  rw [hbytes]
  refine isUtf8_flatMap fun c _ => ?_
  obtain ⟨hencode, hscalar⟩ := utf8EncodeChar_eq c
  rw [hencode]
  exact isUtf8_encodeScalar hscalar

/-! ## Quoted texts -/

/-- Hexadecimal digits are ASCII. -/
theorem toNat_hexDigit_lt : ∀ d < 16, (Bytes.hexDigit d).toNat < 0x80 := by decide

/-- Hexadecimal digits are UTF-8. -/
theorem isUtf8_hexDigits (n v : Nat) : isUtf8 (hexDigits n v) = true := by
  refine isUtf8_of_ascii fun b hb => ?_
  obtain ⟨d, hd, rfl⟩ := exists_of_mem_hexDigits hb
  exact toNat_hexDigit_lt d hd

/-- An escaped scalar value is UTF-8. -/
theorem isUtf8_escapeScalar {q c : Nat} (hq : q < 0x80) (hc : isScalar c = true) :
    isUtf8 (escapeScalar q c) = true := by
  have hletter : ∀ {l : UInt8}, controlLetter? c = some l → l.toNat < 0x80 := by
    intro l hl
    unfold controlLetter? at hl
    split at hl <;> cases hl <;> decide
  have hescape : ∀ {l : UInt8} {s : Bytes}, l.toNat < 0x80 → isUtf8 s = true →
      isUtf8 (92 :: l :: s) = true :=
    fun hl hs => isUtf8_cons (by decide) (isUtf8_cons hl hs)
  unfold escapeScalar
  split
  · next h =>
    refine hescape ?_ isUtf8_nil
    rw [UInt8.toNat_ofNat']
    omega
  · split
    · exact isUtf8_encodeScalar hc
    · split
      · next hl => exact hescape (hletter hl) isUtf8_nil
      · split
        · exact hescape (by decide) (isUtf8_hexDigits _ _)
        · split
          · exact hescape (by decide) (isUtf8_hexDigits _ _)
          · exact hescape (by decide) (isUtf8_hexDigits _ _)

/-- **A byte string between quotes is well-formed**, whatever its bytes are. -/
@[simp] theorem isUtf8_quote (s : Bytes) : isUtf8 (quote s) = true := by
  refine isUtf8_cons (by decide) (isUtf8_append (isUtf8_flatMap fun g hg => ?_) ?_)
  · cases g with
    | scalar c => exact isUtf8_escapeScalar (by decide) (isScalar_of_mem_glyphs hg)
    | stray b => exact isUtf8_cons (by decide) (isUtf8_cons (by decide) (isUtf8_hexDigits _ _))
  · exact isUtf8_singleton (by decide)

@[simp] theorem isUtf8_quoteRune (c : Nat) : isUtf8 (quoteRune c) = true := by
  have hscalar : isScalar (if isScalar c then c else replacement) = true := by
    split
    · assumption
    · rfl
  exact isUtf8_cons (by decide)
    (isUtf8_append (isUtf8_escapeScalar (by decide) hscalar) (isUtf8_singleton (by decide)))

end Text

/-! ## Numbers -/

namespace Number

open Text (isUtf8 isUtf8_append isUtf8_cons isUtf8_of_ascii isUtf8_replicate isUtf8_singleton)

@[simp] theorem isUtf8_decimal (n : Nat) : isUtf8 (decimal n) = true := by
  refine isUtf8_of_ascii fun b hb => ?_
  have hdigit := isDigit_of_mem_decimal hb
  omega

@[simp] theorem isUtf8_decimalInt (i : Int) : isUtf8 (decimalInt i) = true := by
  cases i with
  | ofNat n => exact isUtf8_decimal n
  | negSucc n => exact isUtf8_cons (by decide) (isUtf8_decimal _)

/-- UTF-8 filled up with an ASCII byte is UTF-8. -/
theorem isUtf8_padLeft {width : Nat} {fill : UInt8} {s : Bytes} (hfill : fill.toNat < 0x80)
    (hs : isUtf8 s = true) : isUtf8 (padLeft width fill s) = true :=
  isUtf8_append (isUtf8_replicate hfill _) hs

/-- Decimal digits are below ten. -/
theorem lt_of_mem_digitsOf {n d : Nat} (h : d ∈ digitsOf n) : d < 10 := by
  obtain ⟨c, hc, rfl⟩ := List.mem_map.1 h
  have hdigit := Nat.isDigit_of_mem_toDigits (by decide) (by decide) hc
  rw [Char.isDigit_iff_toNat] at hdigit
  have hnine : '9'.toNat = 57 := rfl
  omega

/-- The digits of a scaled number are below ten. -/
theorem lt_of_mem_ofScaled {n : Nat} {s : Int} {d : Nat}
    (h : d ∈ (DecimalDigits.ofScaled n s).digits) : d < 10 := by
  refine lt_of_mem_digitsOf (n := n) ?_
  have h := List.mem_reverse.1 h
  exact List.mem_reverse.1 ((List.dropWhile_sublist _).subset h)

/-- The digits of a shortest text are those of a number. -/
theorem exists_shortest_eq (f : Format) (m : Nat) (q : Int) :
    ∃ n s, shortest f m q = .ofScaled n s := by
  have hdigits : ∀ {i : Interval} {e : Int} {k : Nat} {d : DecimalDigits},
      i.withDigits? e k = some d → ∃ n s, d = .ofScaled n s := by
    intro i e k d hd
    unfold Interval.withDigits? at hd
    dsimp only at hd
    repeat' split at hd
    all_goals cases hd
    all_goals exact ⟨_, _, rfl⟩
  unfold shortest
  dsimp only
  cases hfind : (List.range 17).findSome? fun k =>
      (Interval.ofFloat f m q).withDigits?
        (leadingExponent (Interval.ofFloat f m q).value (Interval.ofFloat f m q).den) (k + 1) with
  | none => exact ⟨m, 0, rfl⟩
  | some d =>
    obtain ⟨k, _, hd⟩ := List.exists_of_findSome?_eq_some hfind
    exact hdigits hd

section
variable {ds : List Nat} (hds : ∀ d ∈ ds, d < 10)
include hds

/-- The text of digits is UTF-8. -/
theorem isUtf8_digitText : isUtf8 (digitText ds) = true := by
  refine isUtf8_of_ascii fun b hb => ?_
  obtain ⟨d, hd, rfl⟩ := List.mem_map.1 hb
  have := hds d hd
  rw [UInt8.toNat_ofNat']
  omega

/-- Digits with a decimal point are UTF-8. -/
theorem isUtf8_plain (point : Int) : isUtf8 (DecimalDigits.plain ⟨ds, point⟩) = true := by
  have htake : ∀ n, isUtf8 (digitText (ds.take n)) = true :=
    fun n => isUtf8_digitText fun d hd => hds d (List.mem_of_mem_take hd)
  have hdrop : ∀ n, isUtf8 (digitText (ds.drop n)) = true :=
    fun n => isUtf8_digitText fun d hd => hds d (List.mem_of_mem_drop hd)
  have hzeros : ∀ n, isUtf8 (List.replicate n 48) = true := isUtf8_replicate (by decide)
  unfold DecimalDigits.plain
  split
  · refine isUtf8_cons (by decide) (isUtf8_cons (by decide) ?_)
    exact isUtf8_append (hzeros _) (isUtf8_digitText hds)
  · dsimp only
    split
    · exact isUtf8_append (htake _) (hzeros _)
    · exact isUtf8_append (isUtf8_append (htake _) (hzeros _)) (isUtf8_cons (by decide) (hdrop _))

/-- Digits with an exponent are UTF-8. -/
theorem isUtf8_scientific (point : Int) : isUtf8 (DecimalDigits.scientific ⟨ds, point⟩) = true := by
  refine isUtf8_append ?_ (isUtf8_cons (by decide) (isUtf8_cons ?_ ?_))
  · cases ds with
    | nil => exact isUtf8_singleton (b := 48) (by decide)
    | cons d ds =>
      obtain ⟨hd, hds⟩ := List.forall_mem_cons.1 hds
      have hfirst : isUtf8 (digitText [d]) = true :=
        isUtf8_digitText (List.forall_mem_singleton.2 hd)
      cases ds with
      | nil => exact hfirst
      | cons d' ds => exact isUtf8_append hfirst (isUtf8_cons (by decide) (isUtf8_digitText hds))
  · split <;> decide
  · exact isUtf8_padLeft (by decide) (isUtf8_decimal _)

end

@[simp] theorem isUtf8_floatText (f : Format) (bits : Nat) : isUtf8 (floatText f bits) = true := by
  have hdigits : ∀ m q, isUtf8 (if (shortest f m q).point < -3 ∨ 7 ≤ (shortest f m q).point then
      (shortest f m q).scientific else (shortest f m q).plain) = true := by
    intro m q
    obtain ⟨n, s, hn⟩ := exists_shortest_eq f m q
    have hds : ∀ d ∈ (shortest f m q).digits, d < 10 := fun d hd => lt_of_mem_ofScaled (hn ▸ hd)
    split
    · exact isUtf8_scientific hds _
    · exact isUtf8_plain hds _
  have hmagnitude : ∀ m q, isUtf8 (if m = 0 then [48]
      else if (shortest f m q).point < -3 ∨
        7 ≤ (shortest f m q).point then (shortest f m q).scientific
        else (shortest f m q).plain) = true := by
    intro m q
    split
    · exact isUtf8_singleton (by decide)
    · exact hdigits m q
  unfold floatText
  split
  · exact Text.isUtf8_utf8 _
  · exact Text.isUtf8_utf8 _
  · dsimp only
    split
    · exact isUtf8_cons (by decide) (hmagnitude _ _)
    · exact hmagnitude _ _

end Number

/-! ## Values -/

open Text (isUtf8 isUtf8_append isUtf8_join isUtf8_utf8)

@[simp] theorem Ref.isUtf8_text (r : Ref) : isUtf8 r.text = true := by simp [text]

namespace Value

@[simp] theorem isUtf8_typeName (v : Value) : isUtf8 v.typeName = true := by
  unfold typeName
  split <;> simp

mutual

/-- **What values are shown as is well-formed.** -/
@[simp] theorem isUtf8_text : (v : Value) → isUtf8 v.text = true
  | int .. | float _ | double _ | byte _ | bool _ | string _ | char _ | void | null | function _
  | stackRef _ | heapRef _ => by simp [text]
  | array es => by
    have helems := isUtf8_join (isUtf8_utf8 ", ") (isUtf8_textAll es)
    rw [text]
    simp [helems]

/-- The texts of the elements of an array are UTF-8. -/
theorem isUtf8_textAll : (vs : List Value) → ∀ s ∈ textAll vs, isUtf8 s = true
  | [] => fun _ hs => nomatch hs
  | v :: vs => by
    rw [textAll]
    exact List.forall_mem_cons.2 ⟨isUtf8_text v, isUtf8_textAll vs⟩

end

/-- A type in parentheses and a body. -/
theorem isUtf8_typed (type : String) {body : Bytes} (hbody : isUtf8 body = true) :
    isUtf8 (utf8 "(" ++ utf8 type ++ utf8 ")" ++ body) = true := by simp [hbody]

mutual

/-- **Literals are well-formed.** -/
@[simp] theorem isUtf8_literal : (v : Value) → isUtf8 v.literal = true
  | int .w64 b => isUtf8_append (isUtf8_utf8 "(int)") (Number.isUtf8_decimalInt b.toInt)
  | int .w8 b | int .w16 b | int .w32 b => by
    refine isUtf8_append (isUtf8_append (isUtf8_append ?_ ?_) ?_) (Number.isUtf8_decimalInt b.toInt)
    all_goals simp
  | float _ | double _ | byte _ | bool _ | string _ | char _ => isUtf8_typed _ (isUtf8_text _)
  | void | null => isUtf8_utf8 _
  | function _ | stackRef _ | heapRef _ => isUtf8_append (isUtf8_utf8 _) (Number.isUtf8_decimal _)
  | array es => by
    have helems := isUtf8_join (isUtf8_utf8 ", ") (isUtf8_literalAll es)
    exact isUtf8_append (isUtf8_append (isUtf8_utf8 _) helems) (isUtf8_utf8 _)

/-- The literals of the elements of an array are UTF-8. -/
theorem isUtf8_literalAll : (vs : List Value) → ∀ s ∈ literalAll vs, isUtf8 s = true
  | [] => fun _ hs => nomatch hs
  | v :: vs => by
    rw [literalAll]
    exact List.forall_mem_cons.2 ⟨isUtf8_literal v, isUtf8_literalAll vs⟩

end

end Value

@[simp] theorem Operand.isUtf8_text (op : Operand) : isUtf8 op.text = true := by
  cases op <;> simp [text]

end RegisterMachine
