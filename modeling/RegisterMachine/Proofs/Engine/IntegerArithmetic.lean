import Mathlib.Data.Int.ModEq
import Mathlib.Tactic.Ring
import RegisterMachine.Engine.Arithmetic
import RegisterMachine.Proofs.Fallible

/-!
# Arithmetic of integers is exact modulo the width

Integers of every width, and bytes, are computed with as 64-bit integers, which wrap, and the result
is cut to its type once (`arith`). An operation on 64-bit integers gives what it gives over the
integers modulo 2^64 (`onInts_eq`), also when products overflow while squaring and multiplying
(`toInt_timesPower`) and for the quotient of the least integer and -1. Cutting to a type depends on
the number modulo 2^64 only (`IntegerType.ofInt_bmod`), so the result is that over the integers, cut
to its type: `arith_of_integers`.
-/

namespace RegisterMachine.Arithmetic

/-! ## Types of integers -/

/-- The types of integral values. -/
inductive IntegerType where
  | byte
  | int (width : IntWidth)
  deriving DecidableEq

namespace IntegerType

/-- The type of a value, when it is integral. -/
def ofValue? : Value → Option IntegerType
  | .int w _ => some (int w)
  | .byte _ => some byte
  | _ => none

/-- The type of the result for operands of two types: a byte for bytes, an integer of the larger
width otherwise, a byte counting as 16 bits. -/
def common : IntegerType → IntegerType → IntegerType
  | byte, byte => byte
  | byte, int w | int w, byte => int (w.max .w16)
  | int w, int w' => int (w.max w')

/-- The width of a type in bits. -/
def bits : IntegerType → Nat
  | byte => 8
  | int w => w.bits

/-- The least number of the type. -/
def least : IntegerType → Int
  | byte => 0
  | int w => -2 ^ (w.bits - 1)

/-- Whether a number is one of the 2^bits numbers of the type. -/
def Contains (T : IntegerType) (i : Int) : Prop := T.least ≤ i ∧ i < T.least + 2 ^ T.bits

/-- A number cut to the type. -/
def ofInt : IntegerType → Int → Value
  | byte, i => .byte (UInt8.ofInt i)
  | int w, i => .ofInt w i

variable {T U : IntegerType} {i j : Int}

/-- A byte holds the numbers below 2^8. -/
theorem contains_byte_iff : byte.Contains i ↔ 0 ≤ i ∧ i < 2 ^ 8 := by
  rw [Contains, least, bits, Int.zero_add]

/-- An integer type holds the numbers of its width in two's complement. -/
theorem contains_int_iff {w : IntWidth} :
    (int w).Contains i ↔ -2 ^ (w.bits - 1) ≤ i ∧ i < 2 ^ (w.bits - 1) := by
  have hpow : (2 : Int) ^ w.bits = 2 ^ (w.bits - 1) + 2 ^ (w.bits - 1) := by cases w <;> rfl
  rw [Contains, least, bits, hpow]
  omega

/-- The number of a value is one of its type. -/
theorem contains_toInt {v : Value} (h : ofValue? v = some T) : T.Contains v.toInt := by
  cases v with
  | int w b =>
    cases h
    exact contains_int_iff.2 ⟨BitVec.le_toInt b, BitVec.toInt_lt⟩
  | byte b =>
    cases h
    have hb : (Value.byte b).toInt = b.toNat := rfl
    have := b.toNat_lt
    rw [hb]
    exact contains_byte_iff.2 (by omega)
  | _ => cases h

/-- Two types have the same common type either way round. -/
theorem common_comm (T U : IntegerType) : T.common U = U.common T := by
  have hmax : ∀ w w' : IntWidth, w.max w' = w'.max w := by
    intro w w'
    cases w <;> cases w' <;> rfl
  cases T with
  | byte => cases U <;> rfl
  | int w =>
    cases U with
    | byte => rfl
    | int w' => exact congrArg int (hmax w w')

/-- Every number of a width is one of a larger width. -/
theorem Contains.max {w : IntWidth} (h : (int w).Contains i) (w' : IntWidth) :
    (int (w.max w')).Contains i := by
  have hbits : w.bits ≤ (w.max w').bits := by
    rw [IntWidth.max]
    split
    · omega
    · exact le_rfl
  have hpow : (2 : Int) ^ (w.bits - 1) ≤ 2 ^ ((w.max w').bits - 1) := by
    exact_mod_cast Nat.pow_le_pow_right (by decide) (Nat.sub_le_sub_right hbits 1)
  rw [contains_int_iff] at h ⊢
  omega

/-- Widening loses nothing. -/
theorem Contains.common (h : T.Contains i) (U : IntegerType) : (T.common U).Contains i := by
  cases T with
  | byte =>
    rw [contains_byte_iff] at h
    cases U with
    | byte => exact contains_byte_iff.2 h
    | int w =>
      have hwide : (int .w16).Contains i := by
        rw [contains_int_iff, IntWidth.bits]
        omega
      have hmax : w.max .w16 = IntWidth.max .w16 w := by cases w <;> rfl
      rw [common, hmax]
      exact hwide.max w
  | int w => cases U <;> exact h.max _

/-- Two numbers of the type that agree modulo 2^bits are the same. -/
theorem Contains.eq_of_modEq (hi : T.Contains i) (hj : T.Contains j) (h : i ≡ j [ZMOD 2 ^ T.bits]) :
    i = j := by
  obtain ⟨hi₁, hi₂⟩ := hi
  obtain ⟨hj₁, hj₂⟩ := hj
  have hshift : (i - T.least) % 2 ^ T.bits = (j - T.least) % 2 ^ T.bits := h.sub_right T.least
  rw [Int.emod_eq_of_lt (by omega) (by omega), Int.emod_eq_of_lt (by omega) (by omega)] at hshift
  omega

/-! ## Cutting to a type -/

/-- Reducing an integer to a symmetric range keeps its residue. -/
theorem bmod_modEq (i : Int) (n : Nat) : i.bmod (2 ^ n) ≡ i [ZMOD 2 ^ n] := by
  have h := @Int.bmod_emod i (2 ^ n)
  push_cast at h
  exact h

/-- An integer cut to a byte. -/
theorem toInt_ofInt_byte (i : Int) : (byte.ofInt i).toInt = i % 2 ^ 8 := by
  have hnonneg := Int.emod_nonneg i (show (2 ^ 8 : Int) ≠ 0 by decide)
  have hlt := Int.emod_lt_of_pos i (show (0 : Int) < 2 ^ 8 by decide)
  have htoNat : (UInt8.ofInt i).toNat = (i % 2 ^ 8).toNat := by
    rw [UInt8.ofInt, UInt8.toNat_ofNat']
    exact Nat.mod_eq_of_lt (by omega)
  rw [ofInt, Value.toInt, htoNat, Int.toNat_of_nonneg hnonneg]

/-- An integer cut to an integer type. -/
theorem toInt_ofInt_int (w : IntWidth) (i : Int) : ((int w).ofInt i).toInt = i.bmod (2 ^ w.bits) :=
  BitVec.toInt_ofInt i

/-- What is cut to a type is of this type. -/
theorem ofValue?_ofInt (T : IntegerType) (i : Int) : ofValue? (T.ofInt i) = some T := by
  cases T <;> rfl

/-- Cutting to a type keeps the residue modulo the type's size. -/
theorem toInt_ofInt_modEq (T : IntegerType) (i : Int) :
    (T.ofInt i).toInt ≡ i [ZMOD 2 ^ T.bits] := by
  cases T with
  | byte =>
    rw [toInt_ofInt_byte]
    exact Int.mod_modEq i _
  | int w =>
    rw [toInt_ofInt_int]
    exact bmod_modEq i w.bits

/-- A number of the type is kept. -/
theorem toInt_ofInt (h : T.Contains i) : (T.ofInt i).toInt = i :=
  (contains_toInt (ofValue?_ofInt T i)).eq_of_modEq h (toInt_ofInt_modEq T i)

/-- A value of a type is determined by its number. -/
theorem ofInt_inj_of_toInt (h : (T.ofInt i).toInt = (T.ofInt j).toInt) : T.ofInt i = T.ofInt j := by
  cases T with
  | byte => exact congrArg Value.byte (UInt8.toNat_inj.1 (Int.ofNat.inj h))
  | int w => exact congrArg (Value.int w) (BitVec.eq_of_toInt_eq h)

/-- No type is wider than 64 bits. -/
theorem bits_le (T : IntegerType) : T.bits ≤ 64 := by
  cases T with
  | byte => decide
  | int w => cases w <;> decide

/-- Cutting to a type after wrapping at 64 bits is cutting to it. -/
theorem ofInt_bmod (T : IntegerType) (i : Int) : T.ofInt (i.bmod (2 ^ 64)) = T.ofInt i := by
  have hdvd : (2 : Int) ^ T.bits ∣ 2 ^ 64 := pow_dvd_pow 2 T.bits_le
  have hwrap : i.bmod (2 ^ 64) ≡ i [ZMOD 2 ^ T.bits] := (bmod_modEq i 64).of_dvd hdvd
  refine ofInt_inj_of_toInt ?_
  refine (contains_toInt (ofValue?_ofInt T _)).eq_of_modEq (contains_toInt (ofValue?_ofInt T _)) ?_
  exact ((toInt_ofInt_modEq T _).trans hwrap).trans (toInt_ofInt_modEq T i).symm

end IntegerType

/-! ## Operations on 64-bit integers -/

/-- The result of an operation over the integers. A quotient is truncated toward zero, and the
remainder has the sign of the dividend. -/
def exactResult (op : ArithOp) (x y : Int) : Int :=
  match op with
  | .add => x + y
  | .sub => x - y
  | .mul => x * y
  | .div => x.tdiv y
  | .mod => x.tmod y
  | .exp => x ^ y.toNat

/-- Why an operation on integers is refused, if it is. -/
def refusal? (op : ArithOp) (x y : Int) : Option Fault :=
  match op with
  | .div => if y = 0 then some (.divisionByZero x false) else none
  | .mod => if y = 0 then some (.divisionByZero x true) else none
  | .exp => if y < 0 then some (.negativeExponent y) else none
  | .add | .sub | .mul => none

/-- What an operation gives that is computed over the integers and then cut to a type. -/
def exactly (op : ArithOp) (T : IntegerType) (x y : Int) : Except Fault Value :=
  match refusal? op x y with
  | some f => .error f
  | none => .ok (T.ofInt (exactResult op x y))

/-- The product of 64-bit integers is the product of their numbers modulo 2^64. -/
theorem toInt_mul_modEq (x y : Int64) : (x * y).toInt ≡ x.toInt * y.toInt [ZMOD 2 ^ 64] := by
  rw [Int64.toInt_mul]
  exact IntegerType.bmod_modEq _ 64

/-- **Squaring and multiplying gives the power** modulo 2^64, whatever overflows on the way: the
product of what has been multiplied so far and the power that is left stays the same. -/
theorem toInt_timesPower (r x : Int64) (e : Nat) :
    (timesPower r x e).toInt ≡ r.toInt * x.toInt ^ e [ZMOD 2 ^ 64] := by
  induction r, x, e using timesPower.induct with
  | case1 r x =>
    rw [timesPower, dif_pos rfl, pow_zero, mul_one]
  | case2 r x e he _ ih =>
    rw [timesPower, dif_neg he]
    rw [dite_eq_ite] at ih
    refine ih.trans ?_
    have hsquare : (x * x).toInt ^ (e / 2) ≡ (x.toInt * x.toInt) ^ (e / 2) [ZMOD 2 ^ 64] :=
      (toInt_mul_modEq x x).pow _
    -- An odd exponent puts one factor aside; squaring the base makes up for halving the exponent.
    by_cases hodd : e % 2 = 1
    · have hsplit : e = 2 * (e / 2) + 1 := by omega
      have hpower : r.toInt * x.toInt ^ e = r.toInt * x.toInt * (x.toInt * x.toInt) ^ (e / 2) := by
        conv_lhs => rw [hsplit, pow_succ, pow_mul]
        ring
      rw [if_pos hodd, hpower]
      exact (toInt_mul_modEq r x).mul hsquare
    · have hsplit : e = 2 * (e / 2) := by omega
      have hpower : r.toInt * x.toInt ^ e = r.toInt * (x.toInt * x.toInt) ^ (e / 2) := by
        conv_lhs => rw [hsplit, pow_mul]
        ring
      rw [if_neg hodd, hpower]
      exact hsquare.mul_left r.toInt

/-- A remainder lies between zero and the dividend. -/
theorem tmod_between (x y : Int) : 0 ≤ x.tmod y ∧ x.tmod y ≤ x ∨ x ≤ x.tmod y ∧ x.tmod y ≤ 0 := by
  have habs : (x.tmod y).natAbs ≤ x.natAbs := by
    rw [Int.natAbs_tmod]
    exact Nat.mod_le _ _
  rcases Int.le_total 0 x with hx | hx
  · have := Int.tmod_nonneg y hx
    omega
  · have := Int.tmod_nonneg y (show 0 ≤ -x by omega)
    rw [Int.neg_tmod] at this
    omega

/-- A remainder is a number of the type of the dividend. -/
theorem IntegerType.Contains.tmod {T : IntegerType} {x : Int} (h : T.Contains x) (y : Int) :
    T.Contains (x.tmod y) := by
  have hbetween := tmod_between x y
  cases T with
  | byte =>
    rw [contains_byte_iff] at h ⊢
    omega
  | int w =>
    rw [contains_int_iff] at h ⊢
    omega

/-- **An operation on 64-bit integers** fails as over the integers, and gives what it gives there,
wrapped. -/
theorem onInts_eq (op : ArithOp) (x y : Int64) :
    onInts op x y = match refusal? op x.toInt y.toInt with
      | some f => .error f
      | none => .ok (.ofInt (exactResult op x.toInt y.toInt)) := by
  have hzero : y = 0 ↔ y.toInt = 0 := by rw [← Int64.toInt_inj, Int64.toInt_zero]
  have hwrapped : ∀ {r : Int64} {i : Int}, r.toInt = i.bmod (2 ^ 64) → r = .ofInt i := fun h =>
    Int64.toInt_inj.1 (h.trans Int64.toInt_ofInt.symm)
  cases op with
  | add => exact congrArg Except.ok (hwrapped (Int64.toInt_add x y))
  | sub => exact congrArg Except.ok (hwrapped (Int64.toInt_sub x y))
  | mul => exact congrArg Except.ok (hwrapped (Int64.toInt_mul x y))
  | div =>
    simp only [onInts, refusal?, hzero]
    split
    · rfl
    · exact congrArg Except.ok (hwrapped (Int64.toInt_div x y))
  | mod =>
    simp only [onInts, refusal?, hzero]
    split
    · rfl
    · -- A remainder does not wrap, so both sides are the remainder itself.
      refine congrArg Except.ok (Int64.toInt_inj.1 ?_)
      have hx : (IntegerType.int .w64).Contains x.toInt :=
        IntegerType.contains_int_iff.2 ⟨Int64.le_toInt x, Int64.toInt_lt x⟩
      obtain ⟨hlow, hhigh⟩ := IntegerType.contains_int_iff.1 (hx.tmod y.toInt)
      rw [Int64.toInt_mod, exactResult, Int64.toInt_ofInt_of_le hlow hhigh]
  | exp =>
    have hneg : y < 0 ↔ y.toInt < 0 := by rw [Int64.lt_iff_toInt_lt, Int64.toInt_zero]
    simp only [onInts, refusal?, hneg]
    split
    · rfl
    · refine congrArg Except.ok (hwrapped ?_)
      have hpower := toInt_timesPower 1 x y.toInt.toNat
      rw [Int64.toInt_one, one_mul] at hpower
      have hrange : (IntegerType.int .w64).Contains (timesPower 1 x y.toInt.toNat).toInt :=
        IntegerType.contains_int_iff.2 ⟨Int64.le_toInt _, Int64.toInt_lt _⟩
      refine Eq.trans ?_ (IntegerType.toInt_ofInt_int .w64 _)
      refine hrange.eq_of_modEq (IntegerType.contains_toInt (IntegerType.ofValue?_ofInt _ _)) ?_
      exact hpower.trans (IntegerType.toInt_ofInt_modEq (.int .w64) _).symm

/-! ## Operations on values -/

/-- Computing with the numbers of a type as 64-bit integers, and cutting the result to the type. -/
theorem onInts_map_ofInt (op : ArithOp) {T : IntegerType} {x y : Int}
    (hx : (IntegerType.int .w64).Contains x) (hy : (IntegerType.int .w64).Contains y) :
    ((onInts op (.ofInt x) (.ofInt y)).map fun r => T.ofInt r.toInt) = exactly op T x y := by
  obtain ⟨hx₁, hx₂⟩ := IntegerType.contains_int_iff.1 hx
  obtain ⟨hy₁, hy₂⟩ := IntegerType.contains_int_iff.1 hy
  rw [onInts_eq, Int64.toInt_ofInt_of_le hx₁ hx₂, Int64.toInt_ofInt_of_le hy₁ hy₂, exactly]
  cases refusal? op x y with
  | some f => rfl
  | none => exact congrArg Except.ok ((congrArg T.ofInt Int64.toInt_ofInt).trans (T.ofInt_bmod _))

/-- Arithmetic on integers in the range of their common type is exact up to wrapping. -/
theorem arith_of_ofInts {op : ArithOp} {b c : Value} {w : IntWidth} {x y : Int}
    (hpair : pair? b c = some (.ofInts w x y)) (hx : (IntegerType.int w).Contains x)
    (hy : (IntegerType.int w).Contains y) : arith op b c = exactly op (.int w) x y := by
  have hwide : ∀ {i}, (IntegerType.int w).Contains i → (IntegerType.int .w64).Contains i :=
    fun h => by
    have hmax : w.max .w64 = .w64 := by cases w <;> rfl
    have hwide := h.max .w64
    rwa [hmax] at hwide
  have hkept : ∀ {i}, (IntegerType.int w).Contains i → (BitVec.ofInt w.bits i).toInt = i :=
    fun h => IntegerType.toInt_ofInt h
  rw [arith, hpair, NumberPair.ofInts]
  dsimp only
  rw [hkept hx, hkept hy]
  exact onInts_map_ofInt (T := .int w) op (hwide hx) (hwide hy)

/-- Arithmetic on bytes is exact up to wrapping. -/
theorem arith_of_bytes (op : ArithOp) (x y : UInt8) :
    arith op (.byte x) (.byte y) = exactly op .byte x.toNat y.toNat := by
  have hwide : ∀ n : UInt8, (IntegerType.int .w64).Contains n.toNat := fun n =>
    (IntegerType.contains_toInt (v := .byte n) rfl).common (.int .w64)
  exact onInts_map_ofInt (T := .byte) op (hwide x) (hwide y)

/-- **Arithmetic of integral values** is that over the integers, cut to the type of the result. -/
theorem arith_of_integers (op : ArithOp) {b c : Value} {T U : IntegerType}
    (hb : IntegerType.ofValue? b = some T) (hc : IntegerType.ofValue? c = some U) :
    arith op b c = exactly op (T.common U) b.toInt c.toInt := by
  have hleft := (IntegerType.contains_toInt hb).common U
  have hright := (IntegerType.contains_toInt hc).common T
  rw [IntegerType.common_comm] at hright
  cases b with
  | int w x =>
    cases hb
    cases c with
    | int w' y => cases hc; exact arith_of_ofInts rfl hleft hright
    | byte y => cases hc; exact arith_of_ofInts rfl hleft hright
    | _ => cases hc
  | byte x =>
    cases hb
    cases c with
    | int w y =>
      cases hc
      rw [IntegerType.common_comm] at hleft hright ⊢
      exact arith_of_ofInts rfl hleft hright
    | byte y => cases hc; exact arith_of_bytes op x y
    | _ => cases hc
  | _ => cases hb

/-- A refusal has one of two reasons. -/
theorem reason_of_refusal? {op : ArithOp} {x y : Int} {f : Fault} (h : refusal? op x y = some f) :
    f.reason = .divisionByZero ∧ (op = .div ∨ op = .mod) ∧ y = 0 ∨
      f.reason = .unexpectedType ∧ op = .exp ∧ y < 0 := by
  cases op with
  | add | sub | mul => cases h
  | div =>
    obtain ⟨hy, hf⟩ := Option.ite_none_right_eq_some.1 h
    cases hf
    exact .inl ⟨rfl, .inl rfl, hy⟩
  | mod =>
    obtain ⟨hy, hf⟩ := Option.ite_none_right_eq_some.1 h
    cases hf
    exact .inl ⟨rfl, .inr rfl, hy⟩
  | exp =>
    obtain ⟨hy, hf⟩ := Option.ite_none_right_eq_some.1 h
    cases hf
    exact .inr ⟨rfl, rfl, hy⟩

/-- **Arithmetic on integers fails exactly as the refusals say.** -/
theorem arith_eq_error_iff {op : ArithOp} {b c : Value} {T U : IntegerType}
    (hb : IntegerType.ofValue? b = some T) (hc : IntegerType.ofValue? c = some U) {f : Fault} :
    arith op b c = .error f ↔ refusal? op b.toInt c.toInt = some f := by
  rw [arith_of_integers op hb hc, exactly]
  cases refusal? op b.toInt c.toInt with
  | none => exact iff_of_false nofun nofun
  | some g =>
    exact ⟨fun h => congrArg some (Except.error.inj h),
      fun h => congrArg Except.error (Option.some.inj h)⟩

/-- **Arithmetic of integral values is exact modulo the width.** A result has the common type of the
operands and is the result over the integers modulo the width, where a quotient is truncated toward
zero; a remainder is that of the truncated quotient itself, with the sign of the dividend. Division
and remainder fail when the divisor is zero, powers when the exponent is negative, and nothing else
does. -/
theorem integer_arithmetic_exact (op : ArithOp) {b c : Value} {T U : IntegerType}
    (hb : IntegerType.ofValue? b = some T) (hc : IntegerType.ofValue? c = some U) :
    (∀ v, arith op b c = .ok v →
      IntegerType.ofValue? v = some (T.common U) ∧ (T.common U).Contains v.toInt ∧
      v.toInt ≡ exactResult op b.toInt c.toInt [ZMOD 2 ^ (T.common U).bits] ∧
      (op = .mod → v.toInt = b.toInt.tmod c.toInt)) ∧
    ((∃ f, arith op b c = .error f ∧ f.reason = .divisionByZero) ↔
      (op = .div ∨ op = .mod) ∧ c.toInt = 0) ∧
    ((∃ f, arith op b c = .error f ∧ f.reason = .unexpectedType) ↔ op = .exp ∧ c.toInt < 0) ∧
    ∀ f, arith op b c = .error f → f.reason = .divisionByZero ∨ f.reason = .unexpectedType := by
  have hreasons : PanicReason.divisionByZero ≠ .unexpectedType := by decide
  simp only [arith_eq_error_iff hb hc]
  refine ⟨fun v hv => ?_, ⟨?_, ?_⟩, ⟨?_, ?_⟩, fun f hf => ?_⟩
  · obtain rfl : v = (T.common U).ofInt (exactResult op b.toInt c.toInt) := by
      rw [arith_of_integers op hb hc, exactly] at hv
      split at hv
      · cases hv
      · exact (Except.ok.inj hv).symm
    have htype := IntegerType.ofValue?_ofInt (T.common U) (exactResult op b.toInt c.toInt)
    refine ⟨htype, IntegerType.contains_toInt htype, IntegerType.toInt_ofInt_modEq _ _, ?_⟩
    rintro rfl
    exact IntegerType.toInt_ofInt (((IntegerType.contains_toInt hb).common U).tmod c.toInt)
  · rintro ⟨f, hf, hreason⟩
    rcases reason_of_refusal? hf with ⟨_, h⟩ | ⟨hother, _⟩
    · exact h
    · exact absurd (hreason.symm.trans hother) hreasons
  · rintro ⟨rfl | rfl, hzero⟩
    · exact ⟨_, if_pos hzero, rfl⟩
    · exact ⟨_, if_pos hzero, rfl⟩
  · rintro ⟨f, hf, hreason⟩
    rcases reason_of_refusal? hf with ⟨hother, _⟩ | ⟨_, h⟩
    · exact absurd (hother.symm.trans hreason) hreasons
    · exact h
  · rintro ⟨rfl, hneg⟩
    exact ⟨_, if_pos hneg, rfl⟩
  · rcases reason_of_refusal? hf with ⟨h, _⟩ | ⟨h, _⟩
    · exact .inl h
    · exact .inr h

/-- The quotient of the least 64-bit integer and the 8-bit -1 is 2^63 modulo 2^64, which is the
least integer again. -/
theorem least_div_neg_one : ∃ v, arith .div (.ofInt .w64 (-2 ^ 63)) (.ofInt .w8 (-1)) = .ok v ∧
    v.toInt ≡ 2 ^ 63 [ZMOD 2 ^ 64] ∧ v.toInt = -2 ^ 63 := by
  obtain ⟨hok, _⟩ := integer_arithmetic_exact .div
    (b := .ofInt .w64 (-2 ^ 63)) (c := .ofInt .w8 (-1)) (T := .int .w64) (U := .int .w8) rfl rfl
  cases hresult : arith .div (.ofInt .w64 (-2 ^ 63)) (.ofInt .w8 (-1)) with
  | error f => exact absurd hresult nofun
  | ok v =>
    obtain ⟨_, hrange, hmod, _⟩ := hok v hresult
    have hleast : (IntegerType.int .w64).Contains (-2 ^ 63) :=
      IntegerType.contains_int_iff.2 (by decide)
    exact ⟨v, rfl, hmod, hrange.eq_of_modEq hleast (hmod.trans (by decide))⟩

end RegisterMachine.Arithmetic
