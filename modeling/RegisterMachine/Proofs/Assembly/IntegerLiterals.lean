import RegisterMachine.Assembly.Operand
import RegisterMachine.Proofs.Assembly.LiteralText
import RegisterMachine.Proofs.Number.Numerals

/-!
# Integers in literals

An integer literal is a type of integers and a body, and it stands in an immediate operand alone or
at some depth in arrays. Literals and values have parts at the same paths of element indices
(`Literal.partAt?`, `Value.partAt?`), and reading goes part by part
(`Literal.exists_part_of_readLevels`), so what an integer literal means is settled where it stands.
A body that names a label means the index of the label, which is cut to the type without a check;
any other body has to be a numeral whose number is in the range of the type, and means that number
(`Literal.readInt_eq_ok_iff`).
-/

namespace RegisterMachine

/-- The integers of a width. -/
def IntWidth.InRange (w : IntWidth) (i : Int) : Prop := -2 ^ (w.bits - 1) ≤ i ∧ i < 2 ^ (w.bits - 1)

/-- The value at a path of element indices. -/
def Value.partAt? (v : Value) : List Nat → Option Value
  | [] => some v
  | i :: path =>
    match v with
    | .array es => es[i]?.bind (Value.partAt? · path)
    | _ => none

namespace Literal

open Number (Numeral)

/-- The literals of the elements, for the literal of an array. -/
def elements? (s : Bytes) : Option (List Bytes) :=
  match splitType s with
  | .error _ => none
  | .ok (type, body) =>
    if type = utf8 "array" then
      (bracketed? body).map fun inner =>
        if (Text.trim inner).isEmpty then [] else (splitTop (Text.trim inner)).map Text.trim
    else none

/-- The literal at a path of element indices. -/
def partAt? (s : Bytes) : List Nat → Option Bytes
  | [] => some s
  | i :: path => (elements? s).bind fun es => es[i]?.bind (partAt? · path)

/-- The width that a type of integers declares. -/
def declaredWidth? (type : Bytes) : Option IntWidth :=
  if type = utf8 "int" ∨ type = utf8 "int64" then some .w64
  else if type = utf8 "int8" then some .w8
  else if type = utf8 "int16" then some .w16
  else if type = utf8 "int32" then some .w32
  else none

/-- The declared width and the body of an integer literal. -/
def integer? (s : Bytes) : Option (IntWidth × Bytes) :=
  match splitType s with
  | .error _ => none
  | .ok (type, body) => (declaredWidth? type).map fun w => (w, body)

variable {labels : Labels} {levels : Nat} {s part body : Bytes} {v : Value} {w : IntWidth} {i : Int}

/-! ## Parts -/

/-- Reading an array reads the literals of its elements. -/
theorem readLevels_of_elements? {es : List Bytes} (h : elements? s = some es) :
    readLevels labels (levels + 1) s = (es.mapM (readLevels labels levels)).map .array := by
  unfold elements? at h
  split at h
  · cases h
  · next type body hsplit =>
    obtain ⟨rfl, h⟩ := Option.ite_none_right_eq_some.1 h
    obtain ⟨inner, hinner, rfl⟩ := Option.map_eq_some_iff.1 h
    rw [readLevels_array hsplit, hinner]
    dsimp only
    split
    · rfl
    · rw [List.mapM_map]
      rfl

/-- **Reading goes part by part.** The value that a literal means has at every path of the literal
the value that the literal there means. -/
theorem exists_part_of_readLevels {path : List Nat} (h : readLevels labels levels s = .ok v)
    (hpart : partAt? s path = some part) :
    ∃ w m, v.partAt? path = some w ∧ readLevels labels m part = .ok w := by
  induction path generalizing levels s v with
  | nil =>
    cases hpart
    exact ⟨v, levels, rfl, h⟩
  | cons i path ih =>
    cases levels with
    | zero => cases h
    | succ levels =>
      obtain ⟨es, hes, hpart⟩ := Option.bind_eq_some_iff.1 hpart
      obtain ⟨e, he, hpart⟩ := Option.bind_eq_some_iff.1 hpart
      rw [readLevels_of_elements? hes] at h
      obtain ⟨vs, hvs, rfl⟩ := Except.map_eq_ok.1 h
      have hget := forall₂_getElem? (Except.mapM_eq_ok.1 hvs) i
      rw [he] at hget
      cases hvi : vs[i]? with
      | none =>
        rw [hvi] at hget
        cases hget
      | some u =>
        rw [hvi] at hget
        cases hget with
        | some hu =>
          obtain ⟨w, m, hw, hread⟩ := ih hu hpart
          exact ⟨w, m, by rw [Value.partAt?, hvi, Option.bind_some, hw], hread⟩

/-! ## Integers -/

/-- The types of integers. -/
theorem declaredWidth?_cases {type : Bytes} (h : declaredWidth? type = some w) :
    (type = utf8 "int" ∨ type = utf8 "int64") ∧ w = .w64 ∨ type = utf8 "int8" ∧ w = .w8 ∨
      type = utf8 "int16" ∧ w = .w16 ∨ type = utf8 "int32" ∧ w = .w32 := by
  unfold declaredWidth? at h
  split at h
  · next htype => exact .inl ⟨htype, (Option.some.inj h).symm⟩
  split at h
  · next htype => exact .inr (.inl ⟨htype, (Option.some.inj h).symm⟩)
  split at h
  · next htype => exact .inr (.inr (.inl ⟨htype, (Option.some.inj h).symm⟩))
  split at h
  · next htype => exact .inr (.inr (.inr ⟨htype, (Option.some.inj h).symm⟩))
  · cases h

/-- The types of integers are none of arrays. -/
theorem ne_array_of_declaredWidth? {type : Bytes} (h : declaredWidth? type = some w) :
    type ≠ utf8 "array" := by
  rintro rfl
  cases h

/-- A type of integers is read as such. -/
theorem readScalar_of_declaredWidth? {type : Bytes} (h : declaredWidth? type = some w) :
    readScalar labels s type body = (readInt labels s body w.bits).map (Value.ofInt w) := by
  obtain ⟨rfl | rfl, rfl⟩ | ⟨rfl, rfl⟩ | ⟨rfl, rfl⟩ | ⟨rfl, rfl⟩ := declaredWidth?_cases h <;> rfl

/-- Reading an integer literal cuts what its body means to the declared width. -/
theorem readLevels_integer (h : integer? s = some (w, body)) :
    readLevels labels (levels + 1) s = (readInt labels s body w.bits).map (Value.ofInt w) := by
  unfold integer? at h
  split at h
  · cases h
  · next type body' hsplit =>
    obtain ⟨w', hw, heq⟩ := Option.map_eq_some_iff.1 h
    cases heq
    rw [readLevels, hsplit, ← readScalar_of_declaredWidth? hw]
    exact if_neg (ne_array_of_declaredWidth? hw)

/-- **What a body means.** The index of a label is taken as it is; a number has to be in range. -/
theorem readInt_eq_ok_iff : readInt labels s body w.bits = .ok i ↔
    (∃ k, labels.index? body = some k ∧ i = k) ∨
      labels.index? body = none ∧ Numeral body i ∧ w.InRange i := by
  rw [readInt]
  cases labels.index? body with
  | some k =>
    dsimp only
    rw [Except.ok.injEq]
    simp [eq_comm]
  | none =>
    have hwide : w.InRange i → -2 ^ 63 ≤ i ∧ i < 2 ^ 63 := by
      intro h
      cases w <;> simp only [IntWidth.InRange, IntWidth.bits] at h <;> omega
    have hnumeral : Number.parseSigned .byMark body = .ok i ↔
        Numeral body i ∧ -2 ^ 63 ≤ i ∧ i < 2 ^ 63 :=
      Except.mapError_eq_ok.trans Number.readSigned_eq_ok_iff
    simp only [reduceCtorEq, false_and, exists_false, false_or, true_and]
    cases hread : Number.parseSigned .byMark body with
    | error e =>
      simp only [reduceCtorEq, false_iff, not_and]
      intro hi hrange
      cases hread.symm.trans (hnumeral.2 ⟨hi, hwide hrange⟩)
    | ok n =>
      have hn : Numeral body n := (Number.readSigned_eq_ok_iff.1 (Except.mapError_eq_ok.1 hread)).1
      dsimp only
      split
      · next hout =>
        simp only [reduceCtorEq, false_iff, not_and]
        rintro hi ⟨hlow, hhigh⟩
        obtain rfl := hn.unique hi
        omega
      · next hin =>
        rw [Except.ok.injEq]
        constructor
        · rintro rfl
          exact ⟨hn, by omega, by omega⟩
        · rintro ⟨hi, _⟩
          exact hn.unique hi

/-- **An integer literal is read where it stands**, at every path. -/
theorem exists_int_of_readLevels {path : List Nat} (h : readLevels labels levels s = .ok v)
    (hpart : partAt? s path = some part) (hint : integer? part = some (w, body)) :
    ∃ i, v.partAt? path = some (.ofInt w i) ∧
      ((∃ k, labels.index? body = some k ∧ i = k) ∨
        labels.index? body = none ∧ Numeral body i ∧ w.InRange i) := by
  obtain ⟨u, m, hu, hread⟩ := exists_part_of_readLevels h hpart
  cases m with
  | zero => cases hread
  | succ m =>
    rw [readLevels_integer hint] at hread
    obtain ⟨i, hi, rfl⟩ := Except.map_eq_ok.1 hread
    exact ⟨i, hu, readInt_eq_ok_iff.1 hi⟩

end Literal

/-! ## The bits of an integer -/

namespace IntWidth

variable {w : IntWidth} {i : Int}

/-- Cutting to a width keeps the integers of that width, and no others. -/
theorem toInt_ofInt_eq_iff : (BitVec.ofInt w.bits i).toInt = i ↔ w.InRange i := by
  constructor
  · intro h
    rw [InRange, ← h]
    exact ⟨BitVec.le_toInt _, BitVec.toInt_lt⟩
  · rintro ⟨hlow, hhigh⟩
    rw [BitVec.toInt_ofInt]
    refine Int.bmod_eq_of_le ?_ ?_ <;> cases w <;> simp only [bits] at * <;> omega

/-- A natural number is in the range of a type exactly if it is below half of the type's size. -/
theorem inRange_natCast {k : Nat} : w.InRange k ↔ k < 2 ^ (w.bits - 1) := by
  cases w <;> simp only [InRange, bits] <;> omega

end IntWidth

namespace Assembly

open Literal (partAt? integer?)
open Number (Numeral)

variable {labels : Labels}

/-- An operand behind a `#` is an immediate one with the literal that is read there. -/
theorem readOperand_immediate {s : Bytes} {op : Operand} : readOperand labels (35 :: s) = .ok op ↔
    ∃ v, op = .immediate v ∧ Literal.read labels (Text.trim s) = .ok v := by
  rw [readOperand, Except.map_eq_ok]
  exact ⟨fun ⟨v, hv, h⟩ => ⟨v, h.symm, Except.mapError_eq_ok.1 hv⟩,
    fun ⟨v, h, hv⟩ => ⟨v, Except.mapError_eq_ok.2 hv, h.symm⟩⟩

/-- **Integer literals mean what is written, and labels their index cut to the type.** Consider the
literal of an immediate operand, with any label table, and an integer literal in it, alone or at any
depth in arrays. If the operand is accepted, then its value has at the same place an integer of the
declared width. A body that names no label is a numeral for exactly that integer. For a label, the
integer is the index when the index is in the range of the width, and the wrapped index otherwise. A
body that is neither a label nor a numeral in range is refused. -/
theorem immediate_integers (labels : Labels) (s : Bytes) :
    (∀ op, readOperand labels (35 :: s) = .ok op → ∃ v, op = .immediate v ∧
      ∀ path part w body, partAt? (Text.trim s) path = some part → integer? part = some (w, body) →
        ∃ b : BitVec w.bits, v.partAt? path = some (.int w b) ∧
          (labels.index? body = none → Numeral body b.toInt) ∧
          ∀ k, labels.index? body = some k →
            b.toInt = (k : Int).bmod (2 ^ w.bits) ∧ (b.toInt = k ↔ k < 2 ^ (w.bits - 1))) ∧
    (∀ path part w body, partAt? (Text.trim s) path = some part → integer? part = some (w, body) →
      labels.index? body = none → (∀ i, Numeral body i → ¬w.InRange i) →
        ∃ e, readOperand labels (35 :: s) = .error e) ∧
    ∀ w body, integer? (Text.trim s) = some (w, body) →
      ((∃ op, readOperand labels (35 :: s) = .ok op) ↔
        (∃ k, labels.index? body = some k) ∨ ∃ i, Numeral body i ∧ w.InRange i) := by
  refine ⟨fun op hop => ?_, fun path part w body hpart hint hlabel hnumber => ?_,
    fun w body hint => ?_⟩
  · obtain ⟨v, rfl, hread⟩ := readOperand_immediate.1 hop
    refine ⟨v, rfl, fun path part w body hpart hint => ?_⟩
    obtain ⟨i, hi, hbody⟩ := Literal.exists_int_of_readLevels hread hpart hint
    refine ⟨_, hi, fun hlabel => ?_, fun k hk => ⟨?_, ?_⟩⟩
    · rcases hbody with ⟨k, hk, _⟩ | ⟨_, hnumeral, hrange⟩
      · cases hlabel.symm.trans hk
      · rwa [IntWidth.toInt_ofInt_eq_iff.2 hrange]
    · rcases hbody with ⟨k', hk', rfl⟩ | ⟨hlabel, _⟩
      · cases hk.symm.trans hk'
        exact BitVec.toInt_ofInt _
      · cases hlabel.symm.trans hk
    · rcases hbody with ⟨k', hk', rfl⟩ | ⟨hlabel, _⟩
      · cases hk.symm.trans hk'
        rw [IntWidth.toInt_ofInt_eq_iff, IntWidth.inRange_natCast]
      · cases hlabel.symm.trans hk
  · cases hop : readOperand labels (35 :: s) with
    | error e => exact ⟨e, rfl⟩
    | ok op =>
      obtain ⟨v, rfl, hread⟩ := readOperand_immediate.1 hop
      obtain ⟨i, _, ⟨k, hk, _⟩ | ⟨_, hnumeral, hrange⟩⟩ :=
        Literal.exists_int_of_readLevels hread hpart hint
      · cases hlabel.symm.trans hk
      · exact absurd hrange (hnumber i hnumeral)
  · have hread : (∃ op, readOperand labels (35 :: s) = .ok op) ↔
        ∃ i, Literal.readInt labels (Text.trim s) body w.bits = .ok i := by
      simp only [readOperand_immediate, Literal.read, Literal.readLevels_integer hint,
        Except.map_eq_ok]
      exact ⟨fun ⟨_, _, _, i, hi, _⟩ => ⟨i, hi⟩, fun ⟨i, hi⟩ => ⟨_, _, rfl, i, hi, rfl⟩⟩
    rw [hread]
    simp only [Literal.readInt_eq_ok_iff]
    cases labels.index? body with
    | none => simp
    | some k => simp

/-- An array of a number and a label. -/
def cutSample : Bytes := utf8 "(array)[(int16)-0x_80, (int8)l]"

/-- The number is kept; the index 128 of the label is not, since it takes more than eight bits. -/
theorem immediate_integers_cutSample :
    ∃ v, readOperand [(utf8 "l", 128)] (35 :: cutSample) = .ok (.immediate v) ∧
    (∃ b, v.partAt? [0] = some (.int .w16 b) ∧ Numeral (utf8 "-0x_80") b.toInt) ∧
    ∃ b, v.partAt? [1] = some (.int .w8 b) ∧ b.toInt ≠ 128 := by
  have hop : readOperand [(utf8 "l", 128)] (35 :: cutSample) =
      .ok (.immediate (.array [.int .w16 (-128), .int .w8 (-128)])) := by decide +kernel
  obtain ⟨v, hv, hparts⟩ := (immediate_integers [(utf8 "l", 128)] cutSample).1 _ hop
  rw [hv] at hop
  obtain ⟨b, hb, hnumeral, _⟩ :=
    hparts [0] (utf8 "(int16)-0x_80") .w16 (utf8 "-0x_80") (by decide +kernel)
    (by decide +kernel)
  obtain ⟨b', hb', _, hlabel⟩ :=
    hparts [1] (utf8 "(int8)l") .w8 (utf8 "l") (by decide +kernel) (by decide +kernel)
  refine ⟨v, hop, ⟨b, hb, hnumeral rfl⟩, b', hb', fun heq => ?_⟩
  exact absurd ((hlabel 128 rfl).2.1 heq) (by decide)

end Assembly

end RegisterMachine
