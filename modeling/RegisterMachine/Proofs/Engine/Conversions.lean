import RegisterMachine.Proofs.Engine.Calls
import RegisterMachine.Proofs.Memory.Heap
import RegisterMachine.Proofs.Number.Decimal
import RegisterMachine.Proofs.Text.Words

/-!
# Converting to a string or a number and back

An integer survives the way through its decimal digits, and comes back with 64 bits. A character
survives the way through its code point, and the way through its UTF-8 bytes unless it is U+FFFD:
that stands for what is no character when a string is decoded, so the string that holds nothing else
is refused as if it were malformed, although its bytes are well-formed. The values are the same in a
running thread (`Thread.step_convert`), where the string in between lies in the heap:
`Thread.conversions_undone`.
-/

namespace RegisterMachine

open Number (decimalInt)

namespace Conversion

variable {i : Int} {c : UInt32}

/-! ## Integers -/

/-- The text of an integer has its decimal digits. -/
theorem toText_int (w : IntWidth) (b : BitVec w.bits) :
    toText (.int w b) = .ok (.string (decimalInt b.toInt)) := by
  rw [toText, Value.text]

/-- Decimal digits and a sign are visible. -/
theorem trim_decimalInt (i : Int) : Text.trim (decimalInt i) = decimalInt i := by
  have hdigits : ∀ {n b}, b ∈ Number.decimal n → Text.isVisible b = true := fun hb => by
    have := Number.isDigit_of_mem_decimal hb
    exact Text.isVisible_iff.2 (by omega)
  refine Text.trim_of_visible fun b hb => ?_
  cases i with
  | ofNat n => exact hdigits hb
  | negSucc n =>
    rcases List.mem_cons.1 hb with rfl | hb
    · decide
    · exact hdigits hb

/-- **The digits of a 64-bit integer are read as the integer.** -/
theorem toInt_decimalInt (hlow : -(2 ^ 63 : Int) ≤ i) (hhigh : i < (2 ^ 63 : Int)) :
    toInt (.string (decimalInt i)) = .ok (.int64 i) := by
  rw [toInt, trim_decimalInt, Number.readSigned_decimalInt hlow hhigh]

/-- An integer of any width has 64 bits. -/
theorem toInt_bounds (w : IntWidth) (b : BitVec w.bits) :
    -(2 ^ 63 : Int) ≤ b.toInt ∧ b.toInt < (2 ^ 63 : Int) := by
  have hlow := BitVec.le_toInt b
  have hhigh := BitVec.toInt_lt (x := b)
  have hbits : (2 : Int) ^ (w.bits - 1) ≤ 2 ^ 63 := by cases w <;> decide
  omega

/-- A 64-bit integer stands for itself. -/
theorem toInt_int64 (hlow : -(2 ^ 63 : Int) ≤ i) (hhigh : i < (2 ^ 63 : Int)) :
    (Value.int64 i).toInt = i := by
  have hvalue : (Value.int64 i).toInt = (BitVec.ofInt 64 i).toInt := rfl
  rw [hvalue, BitVec.toInt_ofInt]
  exact Int.bmod_eq_of_le (by omega) (by omega)

/-! ## Characters -/

/-- Scalar values are below 2^21. -/
theorem lt_of_isScalar {n : Nat} (h : Text.isScalar n = true) : n < 2 ^ 21 := by
  simp only [Text.isScalar, Bool.or_eq_true, Bool.and_eq_true, decide_eq_true_eq] at h
  omega

/-- The code point of a character is its number. -/
theorem toInt_char (h : Text.isScalar c.toNat = true) : toInt (.char c) = .ok (.int64 c.toNat) := by
  have hc := lt_of_isScalar h
  have hnumber : (Value.char c).toInt = c.toNat := by
    have hbits : (Value.char c).toInt = c.toBitVec.toInt := rfl
    rw [hbits, BitVec.toInt_eq_toNat_of_lt (by rw [UInt32.toNat_toBitVec]; omega),
      UInt32.toNat_toBitVec]
  rw [toInt, hnumber]

/-- **The number of a code point is read as the character.** -/
theorem toChar_int64 (h : Text.isScalar c.toNat = true) :
    toChar (.int64 c.toNat) = .ok (.char c) := by
  have hc := lt_of_isScalar h
  have hnumber : (BitVec.ofInt IntWidth.w64.bits (c.toNat : Int)).toInt = c.toNat :=
    toInt_int64 (by omega) (by omega)
  have hvalid : ¬((c.toNat : Int) < 0 ∨ (!Text.isScalar c.toNat) = true) := by simp [h]
  rw [Value.int64, Value.ofInt, toChar, hnumber, Int.toNat_natCast, if_neg hvalid,
    UInt32.ofNat_toNat]

/-- The text of a character has its bytes. -/
theorem toText_char (c : UInt32) : toText (.char c) = .ok (.string (Text.encodeRune c.toNat)) := rfl

/-- **The bytes of a character are read as the character**, except for U+FFFD. -/
theorem toChar_encodeRune (h : Text.isScalar c.toNat = true) :
    toChar (.string (Text.encodeRune c.toNat)) =
      if c.toNat = Text.replacement then .error (.unreadable (Text.encodeRune c.toNat) .char)
      else .ok (.char c) := by
  have hbytes : Text.ofRunes [c.toNat] = Text.encodeRune c.toNat := List.append_nil _
  have hrunes : Text.runes (Text.ofRunes [c.toNat]) = [c.toNat] :=
    Text.runes_ofRunes (List.forall_mem_singleton.2 h)
  rw [hbytes] at hrunes
  rw [toChar, hrunes]
  dsimp only
  rw [UInt32.ofNat_toNat]

end Conversion

namespace Thread

variable {t : Thread} {f : Frame} {rest : List Frame} {target first second : Conversion}
  {v w : Value}

/-! ## Conversions in a thread -/

/-- The thread goes on with the conversion of A. -/
structure Converts (t : Thread) (f : Frame) (rest : List Frame) (target : Conversion) : Prop where
  exit : t.exit = none
  frames : t.stack.frames = f :: rest
  code : ∃ op, t.code[f.pc]? = some ⟨.convert target, op⟩

/-- Puts a value into A, a string by way of the heap. -/
def receive (t : Thread) : Value → Thread
  | .string s =>
    { t with heap := (t.heap.alloc (.string s)).1 }.setRegister .a
      (.heapRef (t.heap.alloc (.string s)).2)
  | v => t.setRegister .a v

/-- Receiving a value changes A and the heap. -/
theorem exists_receive_eq (t : Thread) (v : Value) :
    ∃ heap w, t.receive v = { t with heap, registers := t.registers.set .a w } := by
  cases v <;> exact ⟨_, _, rfl⟩

/-- A result that is no string goes to register A as it is. -/
theorem receive_of_ne_string (t : Thread) (hv : v.kind ≠ .string) :
    t.receive v = t.setRegister .a v := by
  cases v with
  | string s => exact absurd rfl hv
  | _ => rfl

/-- Executing a conversion is converting what register A stands for and receiving the result. -/
theorem execConvert_eq (hv : t.deref t.registers.a = .ok v)
    (hne : target = .string → v.kind ≠ .string) :
    t.execConvert f target = t.proceed f ((Conversion.convert target v).map t.receive) := by
  rw [execConvert]
  dsimp only
  rw [hv]
  congr 1
  dsimp only [Except.mapError, bind, Except.bind]
  split
  · exact absurd rfl (hne rfl)
  · next target v _ _ _ _ =>
    cases Conversion.convert target v with
    | error fault => rfl
    | ok w => cases w <;> rfl

/-- **The step of a conversion** that does not convert a string to a string. -/
theorem step_convert (h : t.Converts f rest target) (hv : t.deref t.registers.a = .ok v)
    (hne : target = .string → v.kind ≠ .string) :
    t.step.2 = match Conversion.convert target v with
      | .error fault => t.counted.fail f.pc fault
      | .ok w => (t.counted.receive w).jumpTo (f.pc + 1) := by
  obtain ⟨op, hcode⟩ := h.code
  have hexec : t.counted.exec f ⟨.convert target, op⟩ = t.counted.execConvert f target := rfl
  rw [execConvert_eq (t := t.counted) (v := v) hv hne] at hexec
  cases hconvert : Conversion.convert target v with
  | error fault =>
    rw [hconvert] at hexec
    exact step_of_exec_error h.exit h.frames hcode hexec
  | ok w =>
    rw [hconvert] at hexec
    obtain ⟨heap, x, hreceive⟩ := exists_receive_eq t.counted w
    refine step_of_exec h.exit h.frames hcode hexec ?_
    rw [hreceive]
    exact h.exit

/-- What A then holds, references followed. -/
theorem deref_receive (hw : t.heap.WellFormed) (hsize : (t.receive w).heap.entries.size < 2 ^ 32)
    (hplain : w.kind ≠ .heapRef) : (t.receive w).deref (t.receive w).registers.a = .ok w := by
  cases w with
  | string s => exact (Heap.get_alloc hw hsize).2 (.inl ⟨rfl, rfl⟩)
  | heapRef r => exact absurd rfl hplain
  | _ => rfl

/-- A thread after one conversion goes on with the next. -/
theorem Converts.next (h : t.Converts f rest target) (w : Value)
    (hnext : ∃ op, t.code[f.pc + 1]? = some ⟨.convert second, op⟩) :
    ((t.counted.receive w).jumpTo (f.pc + 1)).Converts { f with pc := f.pc + 1 } rest second := by
  have hframes : (t.stack.jump (f.pc + 1)).frames = { f with pc := f.pc + 1 } :: rest := by
    rw [Stack.jump, h.frames]
  obtain ⟨heap, x, hreceive⟩ := exists_receive_eq t.counted w
  rw [hreceive]
  exact ⟨h.exit, hframes, hnext⟩

/-- The thread has converted A twice: it goes on, and nothing else in registers and slots has
changed. -/
structure Converted (t : Thread) (f : Frame) (u : Thread) (v : Value) : Prop where
  exit : u.exit = none
  registers : u.registers = t.registers.set .a v
  stack : u.stack = t.stack.jump (f.pc + 2)

section

variable (hw : t.heap.WellFormed) (hsize : t.step.2.heap.entries.size < 2 ^ 32)
  (h : t.Converts f rest first) (hnext : ∃ op, t.code[f.pc + 1]? = some ⟨.convert second, op⟩)
  (hv : t.deref t.registers.a = .ok v)
include hw hsize h hnext hv

/-- **Two conversions in a row**, the second one not to a string. -/
theorem step_convert_convert (hne : first = .string → v.kind ≠ .string)
    (hfirst : Conversion.convert first v = .ok w) (hplain : w.kind ≠ .heapRef)
    (hsecond : second ≠ .string) : t.step.2 = (t.counted.receive w).jumpTo (f.pc + 1) ∧
      t.step.2.step.2 = match Conversion.convert second w with
        | .error fault =>
          ((t.counted.receive w).jumpTo (f.pc + 1)).counted.fail (f.pc + 1 : Nat) fault
        | .ok u =>
          (((t.counted.receive w).jumpTo (f.pc + 1)).counted.receive u).jumpTo (f.pc + 2) := by
  have hstep : t.step.2 = (t.counted.receive w).jumpTo (f.pc + 1) := by
    rw [step_convert h hv hne, hfirst]
  rw [hstep] at hsize
  have hvalue := deref_receive (t := t.counted) hw hsize hplain
  refine ⟨hstep, ?_⟩
  rw [hstep]
  exact step_convert (h.next w hnext) hvalue fun heq => absurd heq hsecond

/-- Two conversions that succeed, with a value at the end that is no string. -/
theorem converted_of_ok {u : Value} (hne : first = .string → v.kind ≠ .string)
    (hfirst : Conversion.convert first v = .ok w) (hplain : w.kind ≠ .heapRef)
    (hsecond : second ≠ .string) (hconvert : Conversion.convert second w = .ok u)
    (hu : u.kind ≠ .string) : t.Converted f t.step.2.step.2 u := by
  obtain ⟨_, htwice⟩ := step_convert_convert hw hsize h hnext hv hne hfirst hplain hsecond
  rw [hconvert] at htwice
  dsimp only at htwice
  obtain ⟨heap, x, hreceive⟩ := exists_receive_eq t.counted w
  rw [htwice, receive_of_ne_string _ hu, hreceive]
  exact ⟨h.exit, rfl, Stack.jump_jump _ _ _⟩

/-- Two conversions of which the second fails. -/
theorem panics_of_error {fault : Fault} (hne : first = .string → v.kind ≠ .string)
    (hfirst : Conversion.convert first v = .ok w) (hplain : w.kind ≠ .heapRef)
    (hsecond : second ≠ .string) (hconvert : Conversion.convert second w = .error fault) :
    t.step.2.Panics t.step.2.step.2 fault.reason := by
  obtain ⟨hstep, htwice⟩ := step_convert_convert hw hsize h hnext hv hne hfirst hplain hsecond
  rw [hconvert] at htwice
  dsimp only at htwice
  rw [htwice, hstep]
  exact ⟨rfl, _, rfl, rfl⟩

/-- **Conversions that are undone.** A value in A, or one that A refers to, is converted twice in a
row, in a heap that is in order and has room for a string. An integer of any width that is made a
string and then an integer is the same number with 64 bits. A character that is a Unicode scalar
value is the same when it is made an integer and then a character. It is the same when it is made a
string and then a character, unless it is U+FFFD, for which the second conversion panics. -/
theorem conversions_undone :
    (∀ width b, v = .int width b → first = .string → second = .int →
      t.Converted f t.step.2.step.2 (.int64 b.toInt) ∧ (Value.int64 b.toInt).toInt = b.toInt) ∧
    ∀ c, v = .char c → Text.isScalar c.toNat = true → second = .char →
      (first = .int → t.Converted f t.step.2.step.2 (.char c)) ∧
      (first = .string → c.toNat ≠ Text.replacement → t.Converted f t.step.2.step.2 (.char c)) ∧
      (first = .string → c.toNat = Text.replacement →
        t.step.2.Panics t.step.2.step.2 .unexpectedType) := by
  refine ⟨?_, ?_⟩
  · rintro width b rfl rfl rfl
    obtain ⟨hlow, hhigh⟩ := Conversion.toInt_bounds width b
    exact ⟨converted_of_ok hw hsize h hnext hv nofun (Conversion.toText_int width b) nofun nofun
      (Conversion.toInt_decimalInt hlow hhigh) nofun, Conversion.toInt_int64 hlow hhigh⟩
  · rintro c rfl hc rfl
    refine ⟨?_, ?_, ?_⟩
    · rintro rfl
      exact converted_of_ok hw hsize h hnext hv nofun (Conversion.toInt_char hc) nofun nofun
        (Conversion.toChar_int64 hc) nofun
    · rintro rfl hother
      have hread := Conversion.toChar_encodeRune hc
      rw [if_neg hother] at hread
      exact converted_of_ok hw hsize h hnext hv nofun
        (Conversion.toText_char c) nofun nofun hread nofun
    · rintro rfl hreplacement
      have hread := Conversion.toChar_encodeRune hc
      rw [if_pos hreplacement] at hread
      exact panics_of_error hw hsize h hnext hv nofun (Conversion.toText_char c) nofun nofun hread

end

/-- A program that loads a value into A and converts it twice. -/
def conversionSample (v : Value) (first second : Conversion) : Program where
  arch := .b64
  mainExists := true
  entry := ⟨0, 6, 1⟩
  instructions :=
    #[⟨.function, .immediate (.int64 1)⟩, ⟨.store .a, .immediate (.int64 6)⟩,
      ⟨.load .a, .immediate v⟩, ⟨.convert first, .implicit⟩, ⟨.convert second, .implicit⟩,
      ⟨.ret, .implicit⟩]
  offsets := #[]
  natives := []

/-- The thread of a sample, with the value in A. -/
def converting (v : Value) (first second : Conversion) : Thread :=
  match start [] (conversionSample v first second) {} with
  | .ok t => t.step.2
  | .error _ => default

/-- An 8-bit integer, a character of three bytes, and the one that does not come back. -/
theorem conversions_undone_converting :
    (∃ f, (converting (.ofInt .w8 (-5)) .string .int).Converted f
      (converting (.ofInt .w8 (-5)) .string .int).step.2.step.2 (.int64 (-5))) ∧
    (∃ f, (converting (.char 0x20AC) .string .char).Converted f
      (converting (.char 0x20AC) .string .char).step.2.step.2 (.char 0x20AC)) ∧
    (∃ f, (converting (.char 0xFFFD) .int .char).Converted f
      (converting (.char 0xFFFD) .int .char).step.2.step.2 (.char 0xFFFD)) ∧
    (converting (.char 0xFFFD) .string .char).step.2.Panics
      (converting (.char 0xFFFD) .string .char).step.2.step.2 .unexpectedType := by
  have hint : (converting (.ofInt .w8 (-5)) .string .int).Converts _ [] .string :=
    ⟨rfl, rfl, _, rfl⟩
  have heuro : (converting (.char 0x20AC) .string .char).Converts _ [] .string := ⟨rfl, rfl, _, rfl⟩
  have hcode : (converting (.char 0xFFFD) .int .char).Converts _ [] .int := ⟨rfl, rfl, _, rfl⟩
  have htext : (converting (.char 0xFFFD) .string .char).Converts _ [] .string := ⟨rfl, rfl, _, rfl⟩
  obtain ⟨hback, _⟩ := conversions_undone .empty (by decide +kernel) hint ⟨_, rfl⟩ rfl
  obtain ⟨_, hsame⟩ := conversions_undone .empty (by decide +kernel) heuro ⟨_, rfl⟩ rfl
  obtain ⟨_, hnumber⟩ := conversions_undone .empty (by decide +kernel) hcode ⟨_, rfl⟩ rfl
  obtain ⟨_, hrefused⟩ := conversions_undone .empty (by decide +kernel) htext ⟨_, rfl⟩ rfl
  exact ⟨⟨_, (hback _ _ rfl rfl rfl).1⟩, ⟨_, (hsame _ rfl rfl rfl).2.1 rfl (by decide)⟩,
    ⟨_, (hnumber _ rfl rfl rfl).1 rfl⟩, (hrefused _ rfl rfl rfl).2.2 rfl rfl⟩

end Thread

end RegisterMachine
