/-!
# Byte strings

Texts, program files and payloads are all lists of bytes: string payloads and source texts may
hold bytes that are no UTF-8, so no richer text type fits. `littleEndian` and `ofLittleEndian`
are the two directions of the fixed-width number layout; `ofLittleEndian_littleEndian` and
`littleEndian_ofLittleEndian` say that they undo each other.
-/

namespace RegisterMachine

-- The definitions are written with the powers and zeros of the core library. Scoped, since only the
-- theorems about them have to mean the same ones where algebraic structures bring their own.
attribute [scoped instance (1100)] instPowNat Zero.ofOfNat0

/-- A byte string. -/
abbrev Bytes := List UInt8

/-- The UTF-8 bytes of a text. -/
def utf8 (s : String) : Bytes := s.toUTF8.data.toList

namespace Bytes

/-- The code of an ASCII character as a byte. -/
def ofChar (c : Char) : UInt8 := UInt8.ofNat c.toNat

/-- The `n` low-order bytes of `v`, least significant first. -/
def littleEndian : Nat → Nat → Bytes
  | 0, _ => []
  | n + 1, v => UInt8.ofNat v :: littleEndian n (v / 256)

/-- The number whose bytes are given, least significant first. -/
def ofLittleEndian : Bytes → Nat
  | [] => 0
  | b :: bs => b.toNat + 256 * ofLittleEndian bs

/-- The `n` low-order bytes of `v`, most significant first. -/
def bigEndian (n v : Nat) : Bytes := (littleEndian n v).reverse

/-- The number whose bytes are given, most significant first. -/
def ofBigEndian (bs : Bytes) : Nat := ofLittleEndian bs.reverse

@[simp] theorem length_littleEndian (n v : Nat) : (littleEndian n v).length = n := by
  induction n generalizing v with
  | zero => rfl
  | succ n ih => simp [littleEndian, ih]

/-- Reading back keeps the value modulo the width. -/
theorem ofLittleEndian_littleEndian (n v : Nat) :
    ofLittleEndian (littleEndian n v) = v % 256 ^ n := by
  induction n generalizing v with
  | zero => simp [littleEndian, ofLittleEndian, Nat.mod_one]
  | succ n ih =>
    have hb : (UInt8.ofNat v).toNat = v % 256 := UInt8.toNat_ofNat'
    rw [littleEndian, ofLittleEndian, ih, hb, Nat.pow_succ, Nat.mul_comm (256 ^ n) 256, Nat.mod_mul]

/-- Writing back what was read gives the same bytes. -/
theorem littleEndian_ofLittleEndian (bs : Bytes) :
    littleEndian bs.length (ofLittleEndian bs) = bs := by
  induction bs with
  | nil => rfl
  | cons b bs ih =>
    have hb : b.toNat < 256 := b.toNat_lt
    have h1 : UInt8.ofNat (b.toNat + 256 * ofLittleEndian bs) = b := by
      apply UInt8.toNat_inj.mp
      simp only [UInt8.toNat_ofNat']
      omega
    have h2 : (b.toNat + 256 * ofLittleEndian bs) / 256 = ofLittleEndian bs := by omega
    simp only [List.length_cons, ofLittleEndian, littleEndian, h1, h2, ih]

/-- The digit `n < 16` in lower-case hexadecimal. -/
def hexDigit (n : Nat) : UInt8 := UInt8.ofNat (if n < 10 then 48 + n else 87 + n)

/-- Two lower-case hexadecimal digits for each byte. -/
def hex (bs : Bytes) : Bytes :=
  bs.flatMap fun b => [hexDigit (b.toNat / 16), hexDigit (b.toNat % 16)]

/-- The value of a hexadecimal digit of either case. -/
def hexValue? (c : UInt8) : Option Nat :=
  let n := c.toNat
  if 48 ≤ n ∧ n ≤ 57 then some (n - 48)
  else if 97 ≤ n ∧ n ≤ 102 then some (n - 87)
  else if 65 ≤ n ∧ n ≤ 70 then some (n - 55)
  else none

/-- The bytes that a text of hexadecimal digit pairs spells. -/
def ofHex? : Bytes → Option Bytes
  | [] => some []
  | [_] => none
  | a :: b :: rest => do
    let hi ← hexValue? a
    let lo ← hexValue? b
    return UInt8.ofNat (16 * hi + lo) :: (← ofHex? rest)

/-- The parts in order with `sep` between every two of them. -/
def join (sep : Bytes) (parts : List Bytes) : Bytes := (parts.intersperse sep).flatten

/-- Splits at every occurrence of a byte; the result is never empty. -/
def splitOn (sep : UInt8) (s : Bytes) : List Bytes :=
  s.foldr (fun b parts =>
    if b = sep then [] :: parts
    else match parts with
      | [] => [[b]]
      | p :: rest => (b :: p) :: rest) [[]]

/-- Splits at the first occurrence of a byte, which belongs to neither part. -/
def cut? (sep : UInt8) (s : Bytes) : Option (Bytes × Bytes) :=
  match s.dropWhile (· != sep) with
  | [] => none
  | _ :: rest => some (s.takeWhile (· != sep), rest)

/-- Splits at the first occurrence of a byte string, which belongs to neither part. -/
def cutAt? (sep : Bytes) : Bytes → Option (Bytes × Bytes)
  | [] => if sep.isEmpty then some ([], []) else none
  | b :: bs =>
    if sep.isPrefixOf (b :: bs) then some ([], (b :: bs).drop sep.length)
    else (cutAt? sep bs).map fun (l, r) => (b :: l, r)

theorem length_lt_of_cutAt? {sep s l r : Bytes} (hsep : sep ≠ []) (h : cutAt? sep s = some (l, r)) :
    r.length < s.length := by
  induction s generalizing l with
  | nil =>
    cases sep with
    | nil => exact absurd rfl hsep
    | cons => simp [cutAt?] at h
  | cons b bs ih =>
    rw [cutAt?] at h
    split at h
    · cases sep with
      | nil => exact absurd rfl hsep
      | cons x xs =>
        simp only [Option.some.injEq, Prod.mk.injEq] at h
        obtain ⟨_, rfl⟩ := h
        simp only [List.length_drop, List.length_cons]
        omega
    · obtain ⟨⟨l', r'⟩, hlr, heq⟩ := Option.map_eq_some_iff.1 h
      simp only [Prod.mk.injEq] at heq
      obtain ⟨_, rfl⟩ := heq
      have := ih hlr
      simp only [List.length_cons]
      omega

/-- Splits at every occurrence of a non-empty byte string. -/
def splitAt (sep : Bytes) (s : Bytes) : List Bytes :=
  if hsep : sep = [] then [s]
  else match h : cutAt? sep s with
    | none => [s]
    | some (l, r) =>
      have := length_lt_of_cutAt? hsep h
      l :: splitAt sep r
termination_by s.length

/-- The lower-case form of an ASCII letter, any other byte unchanged. -/
def lower (b : UInt8) : UInt8 := if 65 ≤ b.toNat ∧ b.toNat ≤ 90 then b + 32 else b

/-- The upper-case form of an ASCII letter, any other byte unchanged. -/
def upper (b : UInt8) : UInt8 := if 97 ≤ b.toNat ∧ b.toNat ≤ 122 then b - 32 else b

/-- Whether the byte is an ASCII decimal digit. -/
def isDigit (b : UInt8) : Bool := 48 ≤ b.toNat && b.toNat ≤ 57

/-- Order of byte strings: by the first difference, a proper start coming first. -/
def le : Bytes → Bytes → Bool
  | [], _ => true
  | _ :: _, [] => false
  | a :: as, b :: bs => if a = b then le as bs else a < b

/-- The strings in ascending order. -/
def sort (xs : List Bytes) : List Bytes := xs.mergeSort le

/-- Drops later repetitions. -/
def dedup (xs : List Bytes) : List Bytes :=
  xs.foldl (fun seen x => if seen.contains x then seen else seen ++ [x]) []

end Bytes

end RegisterMachine
