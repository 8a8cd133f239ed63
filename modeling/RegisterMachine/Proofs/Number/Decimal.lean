import Mathlib.Algebra.Group.Int.Defs
import Mathlib.Algebra.Group.Nat.Defs
import RegisterMachine.Number.Integer

/-!
# Decimal numbers are read back

The decimal digits of a number end in the digit of its remainder (`decimal_of_le`), so what holds of
them is shown by induction on the number with the last digit taken off. They have no leading zero
unless they are the zero, which is also read where a leading zero asks for another base
(`readUnsigned_decimal`, `readSigned_decimalInt`).
-/

namespace RegisterMachine.Number

/-! ## Digits -/

/-- The byte of a digit below ten. -/
theorem ofChar_digitChar : ∀ d < 10, (Bytes.ofChar (Nat.digitChar d)).toNat = 48 + d := by decide

/-- A number below ten has one digit. -/
theorem decimal_of_lt {n : Nat} (h : n < 10) : decimal n = [Bytes.ofChar (Nat.digitChar n)] := by
  rw [decimal, Nat.toDigits_of_lt_base h]
  rfl

/-- The digits of a greater number are those of its tenth and the digit of its remainder. -/
theorem decimal_of_le {n : Nat} (h : 10 ≤ n) :
    decimal n = decimal (n / 10) ++ [Bytes.ofChar (Nat.digitChar (n % 10))] := by
  rw [decimal, Nat.toDigits_of_base_le (by decide) h, List.map_append]
  rfl

/-- What holds of the numbers below ten, and of a number when it holds without the last digit. -/
@[elab_as_elim]
theorem decimal_induction {motive : Nat → Prop} (digit : ∀ n < 10, motive n)
    (more : ∀ n, 10 ≤ n → motive (n / 10) → motive n) (n : Nat) : motive n := by
  induction n using Nat.strongRecOn with
  | ind n ih =>
    rcases Nat.lt_or_ge n 10 with h | h
    · exact digit n h
    · exact more n h (ih (n / 10) (by omega))

/-- Decimal digits are digits. -/
theorem isDigit_of_mem_decimal {n : Nat} {b : UInt8} (h : b ∈ decimal n) :
    48 ≤ b.toNat ∧ b.toNat ≤ 57 := by
  have hdigit : ∀ d < 10, 48 ≤ (Bytes.ofChar (Nat.digitChar d)).toNat ∧
      (Bytes.ofChar (Nat.digitChar d)).toNat ≤ 57 := by
    intro d hd
    rw [ofChar_digitChar d hd]
    omega
  induction n using decimal_induction with
  | digit n hn =>
    rw [decimal_of_lt hn, List.mem_singleton] at h
    rw [h]
    exact hdigit n hn
  | more n hn ih =>
    rw [decimal_of_le hn, List.mem_append, List.mem_singleton] at h
    rcases h with h | rfl
    · exact ih h
    · exact hdigit _ (Nat.mod_lt _ (by decide))

/-- The digits start with a zero only for zero. -/
theorem exists_decimal_eq {n : Nat} (hn : n ≠ 0) : ∃ c s, decimal n = c :: s ∧ c ≠ 48 := by
  have hdigit : ∀ d < 10, d ≠ 0 → Bytes.ofChar (Nat.digitChar d) ≠ 48 := by
    intro d hd hne h
    have hbyte := ofChar_digitChar d hd
    rw [h, show (48 : UInt8).toNat = 48 from rfl] at hbyte
    omega
  induction n using decimal_induction with
  | digit n h => exact ⟨_, [], decimal_of_lt h, hdigit n h hn⟩
  | more n h ih =>
    obtain ⟨c, s, heq, hc⟩ := ih (by omega)
    exact ⟨c, s ++ [_], by rw [decimal_of_le h, heq]; rfl, hc⟩

/-! ## Reading -/

variable {max : Nat}

/-- A digit is added behind the number so far. -/
theorem readDigits_digitChar {underscores : Bool} {n d : Nat} (hd : d < 10) (h : n * 10 + d ≤ max)
    (rest : Bytes) :
    readDigits 10 max underscores n (Bytes.ofChar (Nat.digitChar d) :: rest) =
      readDigits 10 max underscores (n * 10 + d) rest := by
  have hplain : ∀ d < 10, Bytes.ofChar (Nat.digitChar d) ≠ 95 ∧
      digit? (Bytes.ofChar (Nat.digitChar d)) = some d := by decide
  obtain ⟨hne, hdigit⟩ := hplain d hd
  have hmark : (underscores && Bytes.ofChar (Nat.digitChar d) == 95) = false := by
    rw [beq_eq_false_iff_ne.2 hne, Bool.and_false]
  rw [readDigits, hmark, if_neg Bool.false_ne_true, hdigit]
  dsimp only
  rw [if_neg (Nat.not_le.2 hd), if_neg (Nat.not_lt.2 h)]

/-- The digits of a number are read as the number. -/
theorem readDigits_decimal {underscores : Bool} {n : Nat} (h : n ≤ max) (rest : Bytes) :
    readDigits 10 max underscores 0 (decimal n ++ rest) = readDigits 10 max underscores n rest := by
  induction n using decimal_induction generalizing rest with
  | digit n hn =>
    rw [decimal_of_lt hn, List.singleton_append, readDigits_digitChar hn (by omega), Nat.zero_mul,
      Nat.zero_add]
  | more n hn ih =>
    have hsum : n / 10 * 10 + n % 10 = n := by omega
    rw [decimal_of_le hn, List.append_assoc, List.singleton_append, ih (by omega),
      readDigits_digitChar (Nat.mod_lt _ (by decide)) (by omega), hsum]

/-- **A decimal number is read back**, also where its base is taken from its start. -/
theorem readUnsigned_decimal {radix : Radix} {n bits : Nat} (h : n < 2 ^ bits) :
    readUnsigned radix bits (decimal n) = .ok n := by
  have hread : ∀ underscores, readDigits 10 (2 ^ bits - 1) underscores 0 (decimal n) = .ok n := by
    intro underscores
    have hread : readDigits 10 (2 ^ bits - 1) underscores 0 (decimal n ++ []) = _ :=
      readDigits_decimal (by omega) []
    rwa [List.append_nil, readDigits] at hread
  rcases Nat.eq_zero_or_pos n with rfl | hpos
  · cases radix <;> rfl
  · obtain ⟨c, s, heq, hc⟩ := exists_decimal_eq (Nat.pos_iff_ne_zero.1 hpos)
    have hempty : (decimal n).isEmpty = false := by rw [heq]; rfl
    unfold readUnsigned
    rw [hempty, if_neg Bool.false_ne_true]
    cases radix with
    | ten => exact hread false
    | byMark =>
      have hmark : splitMark (decimal n) = (10, decimal n) := by
        rw [heq]
        unfold splitMark
        split
        · next h => cases h; exact absurd rfl hc
        · next h => cases h; exact absurd rfl hc
        · rfl
      have hunderscore : (decimal n).contains 95 = false := by
        rw [List.contains_eq_mem, decide_eq_false_iff_not]
        intro hmem
        exact absurd (isDigit_of_mem_decimal hmem).2 (by decide)
      dsimp only
      rw [hmark]
      dsimp only
      rw [hread true]
      dsimp only
      rw [hunderscore, Bool.false_and, if_neg Bool.false_ne_true]

/-- A decimal number is read without a sign when it fits the signed range. -/
theorem readSigned_decimal {radix : Radix} {n : Nat} (h : n < 2 ^ 64) :
    readSigned radix (decimal n) = if n < 2 ^ 63 then .ok (n : Int) else .error .outOfRange := by
  have hsign : ∀ {c : UInt8} {r}, decimal n = c :: r → 48 ≤ c.toNat := fun heq =>
    (isDigit_of_mem_decimal (heq ▸ List.mem_cons_self)).1
  unfold readSigned
  split
  · next negative digits hdigits =>
    split at hdigits
    · next heq => exact absurd (hsign heq) (by decide)
    · next heq => exact absurd (hsign heq) (by decide)
    · cases hdigits
      rw [readUnsigned_decimal h]
      dsimp only
      rw [if_neg Bool.false_ne_true]
      split
      · next hn => rw [if_neg (Nat.not_lt.2 hn)]
      · next hn => rw [if_pos (Nat.not_le.1 hn)]

/-- **A signed decimal number is read back.** -/
theorem readSigned_decimalInt {radix : Radix} {i : Int} (hlow : -(2 ^ 63 : Int) ≤ i)
    (hhigh : i < (2 ^ 63 : Int)) : readSigned radix (decimalInt i) = .ok i := by
  cases i with
  | ofNat n =>
    have hn : n < 2 ^ 63 := by rw [Int.ofNat_eq_natCast] at hhigh; omega
    rw [decimalInt, readSigned_decimal (Nat.lt_of_lt_of_le hn (by decide)), if_pos hn]
    rfl
  | negSucc n =>
    have hn : n + 1 ≤ 2 ^ 63 := by omega
    have hread : readUnsigned radix 64 (decimal (n + 1)) = .ok (n + 1) :=
      readUnsigned_decimal (by omega)
    rw [decimalInt, readSigned, hread]
    dsimp only
    rw [if_pos rfl, if_neg (Nat.not_lt.2 hn)]
    rfl

end RegisterMachine.Number
