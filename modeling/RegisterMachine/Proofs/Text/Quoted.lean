import RegisterMachine.Proofs.Text.Utf8
import RegisterMachine.Text.Quoted

/-!
# Quoted texts are read back

`quoteState` goes through the inside of a quoted text as every reader of quotes has to: it knows
whether a backslash waits for the next byte, and gives up at a quote that no backslash protects.
What stands inside a quoted text leaves it where it was (`quoteState_escapeGlyph`), and what the
reader of quoted texts goes past does too (`quoteState_of_unquote?`), so a quoted text ends where it
should and an unclosed one is not read. `unquote?_quote` and `unquote?_quoteRune` read back what is
written.
-/

namespace RegisterMachine.Text

/-! ## Bytes of scalar values -/

/-- Beyond ASCII every byte of a scalar value is 128 or more. -/
theorem le_toNat_of_mem_encodeScalar {c : Nat} (h : isScalar c = true) (hc : 0x80 ≤ c) {b : UInt8}
    (hb : b ∈ encodeScalar c) : 0x80 ≤ b.toNat := by
  simp only [isScalar, Bool.or_eq_true, Bool.and_eq_true, decide_eq_true_eq] at h
  rw [encodeScalar, if_neg (Nat.not_lt.2 hc)] at hb
  split at hb
  · simp only [List.mem_cons, List.not_mem_nil, or_false] at hb
    rcases hb with rfl | rfl <;> rw [UInt8.toNat_ofNat'] <;> omega
  split at hb
  · simp only [List.mem_cons, List.not_mem_nil, or_false] at hb
    rcases hb with rfl | rfl | rfl <;> rw [UInt8.toNat_ofNat'] <;> omega
  · simp only [List.mem_cons, List.not_mem_nil, or_false] at hb
    rcases hb with rfl | rfl | rfl | rfl <;> rw [UInt8.toNat_ofNat'] <;> omega

/-- An ASCII character is its own byte. -/
theorem encodeScalar_of_ascii {c : Nat} (hc : c < 0x80) : encodeScalar c = [UInt8.ofNat c] :=
  if_pos hc

/-- The first glyph of a written scalar value is that value. -/
theorem nextGlyph_encodeScalar {c : Nat} (h : isScalar c = true) {b : UInt8} {bs : Bytes}
    (hb : encodeScalar c = b :: bs) (rest : Bytes) :
    nextGlyph b (bs ++ rest) = (.scalar c, rest) := by
  have hglyphs := glyphs_encodeScalar_append h rest
  rw [hb, List.cons_append, glyphs_cons, List.cons.injEq] at hglyphs
  obtain ⟨hfirst, hrest⟩ := hglyphs
  have hbytes := congrArg ofGlyphs hrest
  rw [ofGlyphs_glyphs, ofGlyphs_glyphs] at hbytes
  exact Prod.ext hfirst hbytes

/-- Every character has at least one byte. -/
theorem encodeScalar_ne_nil (c : Nat) : encodeScalar c ≠ [] := by
  rw [encodeScalar]
  repeat' split
  all_goals exact List.cons_ne_nil _ _

/-- Behind the first byte of a glyph every byte is 128 or more. -/
theorem eq_or_le_of_mem_nextGlyph {b x : UInt8} {rest : Bytes}
    (h : x ∈ (nextGlyph b rest).1.bytes) : x = b ∨ 0x80 ≤ x.toNat := by
  rw [nextGlyph] at h
  split at h
  · next c k hread =>
    obtain ⟨hscalar, hbytes, _⟩ := encodeScalar_of_scalarAt? hread
    rw [Glyph.bytes] at h
    rcases Nat.lt_or_ge c 0x80 with hlt | hge
    · rw [encodeScalar_of_ascii hlt] at h hbytes
      rw [List.mem_singleton.1 h]
      exact .inl (List.cons.inj hbytes).1
    · exact .inr (le_toNat_of_mem_encodeScalar hscalar hge h)
  · exact .inl (List.mem_singleton.1 h)

/-- The scalar values in a text are scalar values. -/
theorem isScalar_of_mem_glyphs {s : Bytes} {c : Nat} (h : .scalar c ∈ glyphs s) :
    isScalar c = true := by
  induction s using glyphs_induction with
  | nil => rw [glyphs_nil] at h; cases h
  | cons b rest ih =>
    rw [glyphs_cons] at h
    rcases List.mem_cons.1 h with h | h
    · rw [nextGlyph] at h
      split at h
      · next hread =>
        cases h
        exact (encodeScalar_of_scalarAt? hread).1
      · cases h
    · exact ih h

/-! ## Hexadecimal digits -/

/-- A hexadecimal digit is read as its value. -/
theorem hexValue?_hexDigit : ∀ n < 16, Bytes.hexValue? (Bytes.hexDigit n) = some n := by decide

/-- The bytes of hexadecimal digits are digits or lower-case letters. -/
theorem exists_of_mem_hexDigits {n v : Nat} {b : UInt8} (h : b ∈ hexDigits n v) :
    ∃ d < 16, b = Bytes.hexDigit d := by
  induction n generalizing v with
  | zero => cases h
  | succ n ih =>
    rw [hexDigits, List.mem_append, List.mem_singleton] at h
    rcases h with h | h
    · exact ih h
    · exact ⟨v % 16, Nat.mod_lt _ (by decide), h⟩

/-- One more digit can be taken at the end. -/
theorem takeHex?_succ {n acc w d : Nat} {c : UInt8} {s rest : Bytes}
    (h : takeHex? n acc s = some (w, c :: rest)) (hc : Bytes.hexValue? c = some d) :
    takeHex? (n + 1) acc s = some (16 * w + d, rest) := by
  induction n generalizing acc s with
  | zero =>
    cases h
    rw [takeHex?, hc]
    rfl
  | succ n ih =>
    cases s with
    | nil => cases h
    | cons x s =>
      rw [takeHex?] at h ⊢
      split at h
      · exact ih h
      · cases h

/-- **Hexadecimal digits are read back.** -/
theorem takeHex?_hexDigits (n acc v : Nat) (rest : Bytes) :
    takeHex? n acc (hexDigits n v ++ rest) = some (16 ^ n * acc + v % 16 ^ n, rest) := by
  induction n generalizing v rest with
  | zero => simp [hexDigits, takeHex?, Nat.mod_one]
  | succ n ih =>
    rw [hexDigits, List.append_assoc, List.singleton_append]
    rw [takeHex?_succ (ih (v / 16) _) (hexValue?_hexDigit _ (Nat.mod_lt _ (by decide)))]
    rw [Option.some.injEq, Prod.mk.injEq, Nat.pow_succ, Nat.mul_comm (16 ^ n) 16, Nat.mod_mul,
      Nat.mul_add, Nat.mul_assoc]
    exact ⟨by omega, rfl⟩

/-! ## The inside of quotes -/

/-- Goes through the inside of a quoted text: whether a backslash waits for the next byte, or `none`
from the first quote on that no backslash protects. -/
def quoteState (q : UInt8) : Bool → Bytes → Option Bool
  | waiting, [] => some waiting
  | true, _ :: s => quoteState q false s
  | false, c :: s =>
    if c = 92 then quoteState q true s else if c = q then none else quoteState q false s

variable {q : UInt8}

/-- Whether a quote is open after two texts is told by one after the other. -/
theorem quoteState_append (w : Bool) (s t : Bytes) :
    quoteState q w (s ++ t) = (quoteState q w s).bind (quoteState q · t) := by
  induction s generalizing w with
  | nil => rw [List.nil_append, quoteState, Option.bind_some]
  | cons c s ih =>
    cases w with
    | true => rw [List.cons_append, quoteState, quoteState, ih]
    | false =>
      rw [List.cons_append, quoteState, quoteState]
      split
      · exact ih true
      split
      · rfl
      · exact ih false

/-- A text without quotes and backslashes leaves the state alone. -/
theorem quoteState_of_plain {s : Bytes} (h : ∀ b ∈ s, b ≠ q ∧ b ≠ 92) :
    quoteState q false s = some false := by
  induction s with
  | nil => rfl
  | cons c s ih =>
    obtain ⟨⟨hq, hc⟩, hs⟩ := List.forall_mem_cons.1 h
    rw [quoteState, if_neg hc, if_neg hq, ih hs]

/-- The inside of a quoted text up to some place is the inside of a quoted text. -/
theorem isSome_quoteState_of_append {w : Bool} {s t : Bytes}
    (h : (quoteState q w (s ++ t)).isSome = true) : (quoteState q w s).isSome = true := by
  rw [quoteState_append] at h
  cases hs : quoteState q w s with
  | some w' => rfl
  | none => rw [hs] at h; cases h

/-- Single or double quotes. -/
def isQuoteMark (q : UInt8) : Prop := q = 34 ∨ q = 39

/-- A printable character has no control, no quote and no backslash among its bytes when it is
none. -/
theorem plain_of_isPrintable (hq : isQuoteMark q) {c : Nat} (hscalar : isScalar c = true)
    (hprint : isPrintable c = true) (hc : ¬(c = q.toNat ∨ c = 92)) {b : UInt8}
    (hb : b ∈ encodeScalar c) : 32 ≤ b.toNat ∧ b ≠ q ∧ b ≠ 92 := by
  rw [not_or] at hc
  have hbq : b.toNat ≠ q.toNat → b ≠ q := fun hne heq => hne (congrArg UInt8.toNat heq)
  have hb92 : b.toNat ≠ 92 → b ≠ 92 := fun hne heq => hne (congrArg UInt8.toNat heq)
  rcases Nat.lt_or_ge c 0x80 with hlt | hge
  · rw [encodeScalar_of_ascii hlt, List.mem_singleton] at hb
    have htoNat : b.toNat = c := by rw [hb, UInt8.toNat_ofNat']; omega
    rw [isPrintable, if_pos hlt, Bool.and_eq_true, decide_eq_true_eq] at hprint
    exact ⟨htoNat ▸ hprint.1, hbq (htoNat ▸ hc.1), hb92 (htoNat ▸ hc.2)⟩
  · have hle := le_toNat_of_mem_encodeScalar hscalar hge hb
    have hq128 : q.toNat < 0x80 := by rcases hq with rfl | rfl <;> decide
    exact ⟨by omega, hbq (by omega), hb92 (by omega)⟩

/-- A glyph stands inside quotes as an escape of a letter and digits, or as itself, with no control
among its bytes. -/
theorem escapeGlyph_cases (hq : isQuoteMark q) {g : Glyph}
    (hg : ∀ c, g = .scalar c → isScalar c = true) :
    (∃ c s, escapeGlyph q.toNat g = 92 :: c :: s ∧ 32 ≤ c.toNat ∧ ∀ b ∈ s, ∃ d < 16,
      b = Bytes.hexDigit d) ∨ ∀ b ∈ escapeGlyph q.toNat g, 32 ≤ b.toNat ∧ b ≠ q ∧ b ≠ 92 := by
  have hhex : ∀ (c : UInt8) (n v : Nat), 32 ≤ c.toNat →
      ∃ c' s, 92 :: c :: hexDigits n v = 92 :: c' :: s ∧ 32 ≤ c'.toNat ∧
        ∀ b ∈ s, ∃ d < 16, b = Bytes.hexDigit d :=
    fun c n v hc => ⟨c, _, rfl, hc, fun b hb => exists_of_mem_hexDigits hb⟩
  cases g with
  | stray b => exact .inl (hhex 120 2 b.toNat (by decide))
  | scalar c =>
    have hscalar := hg c rfl
    rw [escapeGlyph, escapeScalar]
    split
    · next hc =>
      refine .inl ⟨_, [], rfl, ?_, fun b hb => absurd hb List.not_mem_nil⟩
      rcases hc with rfl | rfl
      · rw [UInt8.ofNat_toNat]
        rcases hq with rfl | rfl <;> decide
      · decide
    · next hc =>
      split
      · next hprint => exact .inr fun b hb => plain_of_isPrintable hq hscalar hprint hc hb
      split
      · next l hl =>
        refine .inl ⟨l, [], rfl, ?_, fun b hb => absurd hb List.not_mem_nil⟩
        unfold controlLetter? at hl
        split at hl <;> cases hl <;> decide
      split
      · exact .inl (hhex 120 2 c (by decide))
      split
      · exact .inl (hhex 117 4 c (by decide))
      · exact .inl (hhex 85 8 c (by decide))

/-- Hexadecimal digits are visible; they are neither quote marks nor backslashes. -/
theorem hexDigit_ne : ∀ d < 16, 32 ≤ (Bytes.hexDigit d).toNat ∧ Bytes.hexDigit d ≠ 34 ∧
    Bytes.hexDigit d ≠ 39 ∧ Bytes.hexDigit d ≠ 92 := by decide

/-- **A glyph leaves the inside of quotes where it was.** -/
theorem quoteState_escapeGlyph (hq : isQuoteMark q) {g : Glyph}
    (hg : ∀ c, g = .scalar c → isScalar c = true) :
    quoteState q false (escapeGlyph q.toNat g) = some false := by
  rcases escapeGlyph_cases hq hg with ⟨c, s, h, _, hs⟩ | h
  · rw [h, quoteState, if_pos rfl, quoteState]
    refine quoteState_of_plain fun b hb => ?_
    obtain ⟨d, hd, rfl⟩ := hs b hb
    obtain ⟨_, h34, h39, h92⟩ := hexDigit_ne d hd
    rcases hq with rfl | rfl
    · exact ⟨h34, h92⟩
    · exact ⟨h39, h92⟩
  · exact quoteState_of_plain fun b hb => (h b hb).2

/-- There are no controls inside quotes. -/
theorem le_toNat_of_mem_escapeGlyph (hq : isQuoteMark q) {g : Glyph}
    (hg : ∀ c, g = .scalar c → isScalar c = true) {b : UInt8} (hb : b ∈ escapeGlyph q.toNat g) :
    32 ≤ b.toNat := by
  rcases escapeGlyph_cases hq hg with ⟨c, s, h, hc, hs⟩ | h
  · rw [h] at hb
    rcases List.mem_cons.1 hb with rfl | hb
    · decide
    rcases List.mem_cons.1 hb with rfl | hb
    · exact hc
    · obtain ⟨d, hd, rfl⟩ := hs b hb
      exact (hexDigit_ne d hd).1
  · exact (h b hb).1

/-! ## Reading back -/

/-- What follows a backslash is an escape. -/
theorem unquoteOne?_backslash (hq : isQuoteMark q) (s : Bytes) :
    unquoteOne? q (92 :: s) = unescape? q s := by
  have hne : ¬(92 = q ∨ (92 : UInt8) = 10) := by rcases hq with rfl | rfl <;> decide
  rw [unquoteOne?, if_neg hne, if_pos rfl]

/-- A letter behind a backslash stands for a control byte. -/
theorem unescape?_letter {l b : UInt8} (h : letterControl? l = some b) (rest : Bytes) :
    unescape? q (l :: rest) = some ([b], rest) := by
  rw [unescape?, h]

/-- A quote of the kind around, or a backslash, stands for itself after a backslash. -/
theorem unescape?_self (hq : isQuoteMark q) {c : UInt8} (h : c = q ∨ c = 92) (rest : Bytes) :
    unescape? q (c :: rest) = some ([c], rest) := by
  rcases hq with rfl | rfl <;> rcases h with rfl | rfl <;> rfl

/-- Two hexadecimal digits behind an `x` stand for a byte. -/
theorem unescape?_hexByte {v : Nat} (hv : v < 256) (rest : Bytes) :
    unescape? q (120 :: hexDigits 2 v ++ rest) = some ([UInt8.ofNat v], rest) := by
  have hdigits := takeHex?_hexDigits 2 0 v rest
  have hvalue : 16 ^ 2 * 0 + v % 16 ^ 2 = v := by omega
  rw [hvalue] at hdigits
  have hletter : letterControl? 120 = none := rfl
  rw [List.cons_append, unescape?, hletter]
  dsimp only
  rw [if_pos rfl, hdigits, Option.map_some]

/-- Four digits after a `u`, or eight after a `U`, stand for a scalar value. -/
theorem unescape?_hexScalar {l : UInt8} {n v : Nat} (hl : l = 117 ∧ n = 4 ∨ l = 85 ∧ n = 8)
    (hv : v < 16 ^ n) (hscalar : isScalar v = true) (rest : Bytes) :
    unescape? q (l :: hexDigits n v ++ rest) = some (encodeScalar v, rest) := by
  have hdigits := takeHex?_hexDigits n 0 v rest
  rw [Nat.mul_zero, Nat.zero_add, Nat.mod_eq_of_lt hv] at hdigits
  have hcase : letterControl? l = none ∧ l ≠ 120 ∧ (l = 117 ∨ l = 85) ∧
      (if l = 117 then 4 else 8) = n := by
    rcases hl with ⟨rfl, rfl⟩ | ⟨rfl, rfl⟩ <;> decide
  obtain ⟨hletter, hx, hu, hn⟩ := hcase
  rw [List.cons_append, unescape?, hletter]
  dsimp only
  rw [if_neg hx, if_pos hu, hn, hdigits]
  dsimp only
  rw [if_pos hscalar]

/-- The letter of a control character names it. -/
theorem letterControl?_controlLetter? {c : Nat} {l : UInt8} (h : controlLetter? c = some l) :
    letterControl? l = some (UInt8.ofNat c) ∧ c < 0x80 := by
  unfold controlLetter? at h
  split at h <;> cases h <;> exact ⟨rfl, by decide⟩

/-- **A glyph inside quotes is read back**, a stray byte as that byte. -/
theorem unquoteOne?_escapeGlyph (hq : isQuoteMark q) {g : Glyph}
    (hg : ∀ c, g = .scalar c → isScalar c = true) (rest : Bytes) :
    unquoteOne? q (escapeGlyph q.toNat g ++ rest) = some (g.bytes, rest) := by
  cases g with
  | stray b =>
    rw [escapeGlyph, List.cons_append, unquoteOne?_backslash hq, unescape?_hexByte b.toNat_lt,
      UInt8.ofNat_toNat]
    rfl
  | scalar c =>
    have hscalar := hg c rfl
    rw [escapeGlyph, escapeScalar, Glyph.bytes]
    split
    · next hc =>
      have hself : UInt8.ofNat c = q ∨ UInt8.ofNat c = 92 := by
        rcases hc with rfl | rfl
        · exact .inl UInt8.ofNat_toNat
        · exact .inr rfl
      have hascii : c < 0x80 := by
        rcases hc with rfl | rfl
        · rcases hq with rfl | rfl <;> decide
        · decide
      rw [List.cons_append, unquoteOne?_backslash hq, List.singleton_append,
        unescape?_self hq hself, encodeScalar_of_ascii hascii]
    · next hc =>
      split
      · next hprint =>
        obtain ⟨b, bs, hb⟩ := List.exists_cons_of_ne_nil (encodeScalar_ne_nil c)
        have hplain := plain_of_isPrintable hq hscalar hprint hc (hb ▸ List.mem_cons_self)
        have hbreak : b ≠ 10 := by rintro rfl; exact absurd hplain.1 (by decide)
        rw [hb, List.cons_append, unquoteOne?, if_neg (not_or.2 ⟨hplain.2.1, hbreak⟩),
          if_neg hplain.2.2, nextGlyph_encodeScalar hscalar hb]
        exact congrArg (fun s => some (s, rest)) hb
      split
      · next l hl =>
        obtain ⟨hletter, hascii⟩ := letterControl?_controlLetter? hl
        rw [List.cons_append, unquoteOne?_backslash hq, List.singleton_append,
          unescape?_letter hletter, encodeScalar_of_ascii hascii]
      split
      · next hlow =>
        have hascii : c < 0x80 := by omega
        rw [List.cons_append, unquoteOne?_backslash hq, unescape?_hexByte (by omega),
          encodeScalar_of_ascii hascii]
      split
      · next hsmall =>
        rw [List.cons_append, unquoteOne?_backslash hq,
          unescape?_hexScalar (.inl ⟨rfl, rfl⟩) hsmall hscalar]
      · have hlarge : c < 16 ^ 8 := by
          simp only [isScalar, Bool.or_eq_true, Bool.and_eq_true, decide_eq_true_eq] at hscalar
          omega
        rw [List.cons_append, unquoteOne?_backslash hq,
          unescape?_hexScalar (.inr ⟨rfl, rfl⟩) hlarge hscalar]

/-- Reading characters up to the closing quote goes on behind the first one. -/
theorem unquoteMany?_of_one {fuel : Nat} {done s bs r : Bytes}
    (h : unquoteOne? q s = some (bs, r)) :
    unquoteMany? q (fuel + 1) done s = unquoteMany? q fuel (bs.reverse ++ done) r := by
  cases s with
  | nil => cases h
  | cons b s =>
    have hb : b ≠ q := by
      rintro rfl
      rw [unquoteOne?, if_pos (.inl rfl)] at h
      cases h
    rw [unquoteMany?, h]
    exact if_neg hb

/-- Several glyphs inside quotes are read back, up to the closing quote. -/
theorem unquoteMany?_escape (hq : isQuoteMark q) {gs : List Glyph}
    (hgs : ∀ g ∈ gs, ∀ c, g = .scalar c → isScalar c = true) {fuel : Nat} (hfuel : gs.length < fuel)
    (done rest : Bytes) :
    unquoteMany? q fuel done (gs.flatMap (escapeGlyph q.toNat) ++ q :: rest) =
      some (done.reverse ++ ofGlyphs gs, rest) := by
  induction gs generalizing fuel done with
  | nil =>
    obtain ⟨fuel, rfl⟩ : ∃ n, fuel = n + 1 := ⟨fuel - 1, by omega⟩
    rw [List.flatMap_nil, List.nil_append, unquoteMany?, if_pos rfl, ofGlyphs, List.flatMap_nil,
      List.append_nil]
  | cons g gs ih =>
    rw [List.length_cons] at hfuel
    obtain ⟨fuel, rfl⟩ : ∃ n, fuel = n + 1 := ⟨fuel - 1, by omega⟩
    obtain ⟨hg, hgs⟩ := List.forall_mem_cons.1 hgs
    rw [List.flatMap_cons, List.append_assoc,
      unquoteMany?_of_one (unquoteOne?_escapeGlyph hq hg _), ih hgs (Nat.lt_of_succ_lt_succ hfuel),
      List.reverse_append, List.reverse_reverse, List.append_assoc]
    rfl

/-- A glyph takes at least one byte inside quotes. -/
theorem length_le_flatMap_escapeGlyph (hq : isQuoteMark q) {gs : List Glyph}
    (hgs : ∀ g ∈ gs, ∀ c, g = .scalar c → isScalar c = true) :
    gs.length ≤ (gs.flatMap (escapeGlyph q.toNat)).length := by
  induction gs with
  | nil => exact Nat.zero_le _
  | cons g gs ih =>
    obtain ⟨hg, hgs⟩ := List.forall_mem_cons.1 hgs
    have hne : escapeGlyph q.toNat g ≠ [] := by
      intro h
      have hread := unquoteOne?_escapeGlyph hq hg []
      rw [h] at hread
      cases hread
    have hpos := List.length_pos_iff.2 hne
    have htail := ih hgs
    rw [List.flatMap_cons, List.length_append, List.length_cons]
    omega

/-- The characters that a text is read into are scalar values. -/
theorem isScalar_of_glyphs (s : Bytes) :
    ∀ g ∈ glyphs s, ∀ c, g = .scalar c → isScalar c = true := by
  rintro g hg c rfl
  exact isScalar_of_mem_glyphs hg

/-- **A byte string between double quotes is read back.** -/
theorem unquote?_quote (s : Bytes) : unquote? (quote s) = some s := by
  have hq : isQuoteMark 34 := .inl rfl
  have hglyphs := isScalar_of_glyphs s
  have hlen := length_le_flatMap_escapeGlyph hq hglyphs
  rw [quote, List.cons_append, unquote?]
  have hfuel : (glyphs s).length < ((glyphs s).flatMap (escapeGlyph 34) ++ [34]).length + 1 := by
    rw [List.length_append]
    exact Nat.lt_succ_of_le (Nat.le_trans hlen (Nat.le_add_right _ _))
  have hmany : unquoteMany? 34 (((glyphs s).flatMap (escapeGlyph 34) ++ [34]).length + 1) []
      ((glyphs s).flatMap (escapeGlyph 34) ++ [34]) =
        some ([].reverse ++ ofGlyphs (glyphs s), []) :=
    unquoteMany?_escape hq hglyphs hfuel [] []
  rw [List.reverse_nil, List.nil_append, ofGlyphs_glyphs] at hmany
  rw [hmany]

/-- What a code point is shown as is a scalar value. -/
theorem isScalar_shown (c : Nat) : isScalar (if isScalar c then c else replacement) = true := by
  by_cases h : isScalar c = true
  · rw [if_pos h]
    exact h
  · rw [if_neg h]
    rfl

/-- **A code point between single quotes is read back**, as U+FFFD when it is no scalar value. -/
theorem unquote?_quoteRune (c : Nat) : unquote? (quoteRune c) = some (encodeRune c) := by
  have h := isScalar_shown c
  rw [quoteRune, encodeRune]
  generalize (if isScalar c then c else replacement) = c at h
  have hq : isQuoteMark 39 := .inr rfl
  have hone := unquoteOne?_escapeGlyph hq (g := .scalar c) (by rintro _ ⟨⟩; exact h) [39]
  have htoNat : (39 : UInt8).toNat = 39 := rfl
  rw [escapeGlyph, Glyph.bytes, htoNat] at hone
  rw [List.cons_append]
  generalize escapeScalar 39 c ++ [39] = body at hone
  unfold unquote?
  split
  · next heq => cases heq
  · next heq => cases heq; cases hone
  · next heq => cases heq; rw [hone]; rfl
  · next heq => cases heq
  · next _ _ hne _ => exact (hne body rfl).elim

/-! ## Where quoted texts end -/

/-- Between quotes stands a text that has no such quote of its own, and no controls. -/
def IsQuoted (q : UInt8) (s : Bytes) : Prop :=
  ∃ body, s = q :: (body ++ [q]) ∧ quoteState q false body = some false ∧ ∀ b ∈ body, 32 ≤ b.toNat

/-- Escaped glyphs between quote marks are a quoted text. -/
theorem isQuoted_of_escape (hq : isQuoteMark q) {gs : List Glyph}
    (hgs : ∀ g ∈ gs, ∀ c, g = .scalar c → isScalar c = true) :
    IsQuoted q (q :: (gs.flatMap (escapeGlyph q.toNat) ++ [q])) := by
  refine ⟨_, rfl, ?_, fun b hb => ?_⟩
  · induction gs with
    | nil => rfl
    | cons g gs ih =>
      obtain ⟨hg, hgs⟩ := List.forall_mem_cons.1 hgs
      rw [List.flatMap_cons, quoteState_append, quoteState_escapeGlyph hq hg, Option.bind_some,
        ih hgs]
  · obtain ⟨g, hg, hb⟩ := List.mem_flatMap.1 hb
    exact le_toNat_of_mem_escapeGlyph hq (hgs g hg) hb

/-- A quoted string is a quoted text. -/
theorem isQuoted_quote (s : Bytes) : IsQuoted 34 (quote s) :=
  isQuoted_of_escape (.inl rfl) (isScalar_of_glyphs s)

/-- A quoted character is a quoted text. -/
theorem isQuoted_quoteRune (c : Nat) : IsQuoted 39 (quoteRune c) := by
  have h := isScalar_shown c
  rw [quoteRune]
  generalize (if isScalar c then c else replacement) = c at h
  have hquoted : IsQuoted 39 (39 :: ([.scalar c].flatMap (escapeGlyph 39) ++ [39])) :=
    isQuoted_of_escape (.inr rfl) (List.forall_mem_singleton.2 (by rintro _ ⟨⟩; exact h))
  rw [List.flatMap_singleton] at hquoted
  exact hquoted

/-! ## Quoted texts that are not closed -/

/-- Digits leave the inside of quotes where it was. -/
theorem quoteState_of_digits (hq : isQuoteMark q) {p r : Bytes}
    (hp : ∀ b ∈ p, (Bytes.hexValue? b).isSome = true) :
    quoteState q false (p ++ r) = quoteState q false r := by
  have hplain : ∀ b ∈ p, b ≠ q ∧ b ≠ 92 := by
    intro b hb
    have hdigit := hp b hb
    constructor
    · rintro rfl
      rcases hq with rfl | rfl <;> cases hdigit
    · rintro rfl
      cases hdigit
  rw [quoteState_append, quoteState_of_plain hplain, Option.bind_some]

/-- What is taken as hexadecimal digits are hexadecimal digits. -/
theorem digits_of_takeHex? {n v w : Nat} {s r : Bytes} (h : takeHex? n v s = some (w, r)) :
    ∃ p, s = p ++ r ∧ ∀ b ∈ p, (Bytes.hexValue? b).isSome = true := by
  induction n generalizing v s with
  | zero => cases h; exact ⟨[], rfl, fun _ hb => nomatch hb⟩
  | succ n ih =>
    cases s with
    | nil => cases h
    | cons c s =>
      rw [takeHex?] at h
      split at h
      · next hc =>
        obtain ⟨p, rfl, hp⟩ := ih h
        exact ⟨c :: p, rfl, List.forall_mem_cons.2 ⟨by rw [hc]; rfl, hp⟩⟩
      · cases h

/-- Octal digits are hexadecimal digits. -/
theorem hexValue?_of_octalValue? {c : UInt8} {d : Nat} (h : octalValue? c = some d) :
    (Bytes.hexValue? c).isSome = true := by
  unfold octalValue? at h
  split at h
  · next hc => rw [Bytes.hexValue?, if_pos ⟨hc.1, by omega⟩]; rfl
  · cases h

/-- What is read after a backslash leaves the inside of quotes where it was. -/
theorem quoteState_of_unescape? (hq : isQuoteMark q) {s bs r : Bytes}
    (h : unescape? q s = some (bs, r)) : quoteState q true s = quoteState q false r := by
  cases s with
  | nil => cases h
  | cons c s =>
    rw [quoteState]
    have hhex : ∀ {n v w}, takeHex? n v s = some (w, r) →
        quoteState q false s = quoteState q false r := by
      intro n v w hdigits
      obtain ⟨p, rfl, hp⟩ := digits_of_takeHex? hdigits
      exact quoteState_of_digits hq hp
    rw [unescape?] at h
    split at h
    · cases h; rfl
    split at h
    · obtain ⟨⟨v, r'⟩, hdigits, heq⟩ := Option.map_eq_some_iff.1 h
      cases heq
      exact hhex hdigits
    split at h
    · split at h
      · next hdigits =>
        split at h
        · cases h
          exact hhex hdigits
        · cases h
      · cases h
    split at h
    · split at h
      · next x y r' =>
        split at h
        · next hx hy =>
          dsimp only at h
          split at h
          · cases h
            refine quoteState_of_digits hq (p := [x, y]) ?_
            exact List.forall_mem_cons.2 ⟨hexValue?_of_octalValue? hx,
              List.forall_mem_singleton.2 (hexValue?_of_octalValue? hy)⟩
          · cases h
        · cases h
      · cases h
    split at h
    · cases h; rfl
    split at h
    · cases h; rfl
    · cases h

/-- A character that is read leaves the inside of quotes where it was. -/
theorem quoteState_of_unquoteOne? (hq : isQuoteMark q) {s bs r : Bytes}
    (h : unquoteOne? q s = some (bs, r)) : quoteState q false s = quoteState q false r := by
  cases s with
  | nil => cases h
  | cons b s =>
    rw [unquoteOne?] at h
    split at h
    · cases h
    next hb =>
    split at h
    · next hback =>
      rw [quoteState, if_pos hback]
      exact quoteState_of_unescape? hq h
    · next hback =>
      rw [not_or] at hb
      have hbytes := bytes_nextGlyph b s
      have hplain : ∀ x ∈ (nextGlyph b s).1.bytes, x ≠ q ∧ x ≠ 92 := by
        intro x hx
        rcases eq_or_le_of_mem_nextGlyph hx with rfl | hx
        · exact ⟨hb.1, hback⟩
        · constructor
          · rintro rfl
            rcases hq with rfl | rfl <;> exact absurd hx (by decide)
          · rintro rfl
            exact absurd hx (by decide)
      obtain rfl : (nextGlyph b s).2 = r := (Prod.mk.inj (Option.some.inj h)).2
      rw [← hbytes, quoteState_append, quoteState_of_plain hplain, Option.bind_some]

/-- **A text that is read from between quotes is closed.** -/
theorem quoteState_of_unquote? (hq : isQuoteMark q) {body t : Bytes}
    (h : unquote? (q :: body) = some t) : quoteState q false body = none := by
  have hmany : ∀ {fuel done s t r}, unquoteMany? q fuel done s = some (t, r) →
      quoteState q false s = none := by
    intro fuel
    induction fuel with
    | zero => intro done s t r h; cases h
    | succ fuel ih =>
      intro done s t r h
      cases s with
      | nil => cases h
      | cons b s =>
        rw [unquoteMany?] at h
        split at h
        · next hb =>
          rw [quoteState, if_neg (by rw [hb]; rcases hq with rfl | rfl <;> decide), if_pos hb]
        · split at h
          · next hone =>
            rw [quoteState_of_unquoteOne? hq hone]
            exact ih h
          · cases h
  have hclosed : ∀ s, quoteState q false (q :: s) = none := by
    intro s
    rw [quoteState, if_neg (by rcases hq with rfl | rfl <;> decide), if_pos rfl]
  unfold unquote? at h
  split at h
  · next heq =>
    cases heq
    split at h
    · next hread => exact hmany hread
    · cases h
  · next heq => cases heq; exact hclosed []
  · next heq =>
    cases heq
    split at h
    · next hone => rw [quoteState_of_unquoteOne? hq hone]; exact hclosed []
    · cases h
  · next heq => rcases hq with rfl | rfl <;> cases heq
  · cases h

end RegisterMachine.Text
