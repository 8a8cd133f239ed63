import RegisterMachine.Proofs.Codec.Limits

/-!
# Each thing that is read has one encoding

The readers of encoded data accept only what the writers write. `WritesBack read written` says that
whatever `read` gives, the bytes that it went past are `written` for it. Addresses have one length
(`Arch.writesBack_decodeAddress`); in an array the elements are written back one after the other
(`WritesBack.many`), and `Value.writesBack_decodeLevels` is by induction on the nesting. Operands
and instructions follow in `RegisterMachine.Proofs.Codec.AcceptedFile`.
-/

namespace RegisterMachine

open Bytes (littleEndian ofLittleEndian)

/-! ## Going past bytes -/

/-- The second place lies behind the bytes that stand at the first one. -/
structure Cursor.Passes (c : Cursor) (bs : Bytes) (c' : Cursor) : Prop where
  rest : c.rest = bs ++ c'.rest
  pos : c'.pos = c.pos + bs.length

namespace Cursor.Passes

variable {c c₁ c₂ : Cursor} {bs cs : Bytes}

/-- A cursor passes nothing by staying where it is. -/
theorem refl (c : Cursor) : c.Passes [] c := ⟨rfl, rfl⟩

/-- What is passed in two steps is passed in one. -/
theorem trans (h : c.Passes bs c₁) (h' : c₁.Passes cs c₂) : c.Passes (bs ++ cs) c₂ where
  rest := by rw [h.rest, h'.rest, List.append_assoc]
  pos := by rw [h'.pos, h.pos, List.length_append, Nat.add_assoc]

/-- Skipping the next byte goes past it. -/
theorem skip_one {b : UInt8} {rest : Bytes} (h : c.rest = b :: rest) : c.Passes [b] (c.skip 1) where
  rest := by rw [h, skip, h]; rfl
  pos := rfl

/-- Taking bytes goes past them. -/
theorem ofTake {n : Nat} (h : c.take? n = some (bs, c₁)) : c.Passes bs c₁ ∧ bs.length = n := by
  unfold take? at h
  dsimp only at h
  split at h
  · next hlen =>
    cases h
    exact ⟨⟨(List.take_append_drop n c.rest).symm, by rw [hlen]; rfl⟩, hlen⟩
  · cases h

end Cursor.Passes

/-- Whatever the reader gives, it has gone past bytes that are written for it. -/
def WritesBack {α : Type} (read : Cursor → ReadResult α) (written : α → Bytes → Prop) : Prop :=
  ∀ ⦃c a c'⦄, read c = .ok (a, c') → ∃ bs, written a bs ∧ c.Passes bs c'

/-- Reading at a position of some data succeeds where reading at the cursor there does. -/
theorem readAt?_eq_ok {α : Type} {read : Cursor → ReadResult α} {data : Bytes} {pos next : Int}
    {a : α} (h : readAt? read data pos = some (next, .ok a)) :
    0 ≤ pos ∧ ∃ c, read (.ofBytes data pos.toNat) = .ok (a, c) ∧ next = c.pos := by
  unfold readAt? at h
  split at h
  · cases h
  · next hpos =>
    split at h
    · next c hread =>
      cases h
      exact ⟨Int.not_lt.1 hpos, c, hread, rfl⟩
    · cases h

/-- What is read at a position of some data stands there, and the next position lies behind it. -/
theorem WritesBack.readAt? {α : Type} {read : Cursor → ReadResult α} {written : α → Bytes → Prop}
    (h : WritesBack read written) {data : Bytes} {pos next : Int} {a : α}
    (hread : readAt? read data pos = some (next, .ok a)) :
    ∃ bs, written a bs ∧ next = pos + bs.length ∧ bs <+: data.drop pos.toNat := by
  obtain ⟨hpos, c, hok, rfl⟩ := readAt?_eq_ok hread
  obtain ⟨bs, hbs, hpass⟩ := h hok
  have hnext := hpass.pos
  rw [Cursor.ofBytes] at hnext
  dsimp only at hnext
  exact ⟨bs, hbs, by omega, _, hpass.rest.symm⟩

/-- Things that are read one by one are written one after the other. -/
theorem WritesBack.many {α : Type} {read : Cursor → ReadResult α} {written : α → Bytes → Prop}
    (h : WritesBack read written) (n : Nat) :
    WritesBack (readMany read n) fun as bs =>
      as.length = n ∧ ∃ bss, List.Forall₂ written as bss ∧ bs = bss.flatten := by
  induction n with
  | zero =>
    intro c as c' hread
    cases hread
    exact ⟨[], ⟨rfl, [], .nil, rfl⟩, .refl c⟩
  | succ n ih =>
    intro c as c' hread
    rw [readMany] at hread
    cases hfirst : read c with
    | error e => rw [hfirst] at hread; cases hread
    | ok ac =>
      obtain ⟨a, c₁⟩ := ac
      rw [hfirst] at hread
      dsimp only at hread
      cases hmany : readMany read n c₁ with
      | error e => rw [hmany] at hread; cases hread
      | ok asc =>
        obtain ⟨as', c₂⟩ := asc
        rw [hmany] at hread
        cases hread
        obtain ⟨bs, hbs, hpass⟩ := h hfirst
        obtain ⟨_, ⟨hlen, bss, hbss, rfl⟩, hpasses⟩ := ih hmany
        exact ⟨bs ++ bss.flatten, ⟨by rw [List.length_cons, hlen], bs :: bss, .cons hbs hbss, rfl⟩,
          hpass.trans hpasses⟩

/-! ## Numbers and tags -/

/-- Bytes stand for a number that fits them. -/
theorem ofLittleEndian_lt (bs : Bytes) : ofLittleEndian bs < 256 ^ bs.length := by
  induction bs with
  | nil => decide
  | cons b bs ih =>
    have hb := b.toNat_lt
    rw [ofLittleEndian, List.length_cons, Nat.pow_succ]
    omega

/-- The bytes of a given number are those that are written for what they stand for. -/
theorem littleEndian_of_length {n : Nat} {bs : Bytes} (h : bs.length = n) :
    littleEndian n (ofLittleEndian bs) = bs := by
  rw [← h, Bytes.littleEndian_ofLittleEndian]

/-- A tag that stands for a kind is the tag of this kind. -/
theorem Kind.tag_of_ofTag? {t : UInt8} {k : Kind} (h : ofTag? t = some k) : k.tag = t := by
  simpa using List.find?_some h

/-- An address that is read fits the architecture, and is written back. -/
theorem Arch.writesBack_decodeAddress (arch : Arch) :
    WritesBack arch.decodeAddress fun v bs =>
      arch.encodeAddress v = .ok bs ∧ v ≤ arch.maxAddress := by
  intro c v c' h
  unfold decodeAddress at h
  split at h
  · cases h
  · next bs c₁ htake =>
    cases h
    obtain ⟨hpass, hlen⟩ := Cursor.Passes.ofTake htake
    have hmax : ofLittleEndian bs ≤ arch.maxAddress := by
      rw [maxAddress, ← hlen]
      exact Nat.le_sub_one_of_lt (ofLittleEndian_lt bs)
    refine ⟨bs, ⟨?_, hmax⟩, hpass⟩
    rw [encodeAddress, if_neg (Nat.not_lt_of_le hmax), littleEndian_of_length hlen]

/-- Addresses have at most 64 bits. -/
theorem Arch.maxAddress_lt (arch : Arch) : arch.maxAddress < 2 ^ 64 := by
  have hbytes : arch.addressBytes = 2 ∨ arch.addressBytes = 4 ∨ arch.addressBytes = 8 := by
    unfold addressBytes
    split
    · exact .inl rfl
    split
    · exact .inr (.inl rfl)
    · exact .inr (.inr rfl)
  rw [maxAddress]
  obtain h | h | h := hbytes <;> rw [h] <;> decide

/-- A reference read from a word gives the word back. -/
theorem Ref.toBits_ofBits (b : UInt64) : (Ref.ofBits b).toBits = b := by
  have hb := b.toNat_lt
  rw [ofBits, toBits]
  dsimp only
  rw [UInt32.toNat_ofNat', UInt32.toNat_ofNat']
  apply UInt64.toNat_inj.1
  rw [UInt64.toNat_ofNat']
  omega

/-! ## Values -/

namespace Value

/-- A width that was read from a byte gives the byte back. -/
theorem bits_of_ofBits? {b : UInt8} {w : IntWidth} (h : IntWidth.ofBits? b.toNat = some w) :
    UInt8.ofNat w.bits = b := by
  apply UInt8.toNat_inj.1
  rw [UInt8.toNat_ofNat']
  unfold IntWidth.ofBits? at h
  split at h
  · next hb => cases h; rw [hb]; rfl
  · next hb => cases h; rw [hb]; rfl
  · next hb => cases h; rw [hb]; rfl
  · next hb => cases h; rw [hb]; rfl
  · cases h

/-- Four bytes that are read as a number are written back. -/
theorem toNat_ofNat_four {bs : Bytes} (h : bs.length = 4) :
    littleEndian 4 (UInt32.ofNat (ofLittleEndian bs)).toNat = bs := by
  have hlt := ofLittleEndian_lt bs
  rw [h] at hlt
  rw [UInt32.toNat_ofNat_of_lt' hlt, littleEndian_of_length h]

/-- Eight bytes that are read as a number are written back. -/
theorem toNat_ofNat_eight {bs : Bytes} (h : bs.length = 8) :
    littleEndian 8 (UInt64.ofNat (ofLittleEndian bs)).toNat = bs := by
  have hlt := ofLittleEndian_lt bs
  rw [h] at hlt
  rw [UInt64.toNat_ofNat_of_lt' hlt, littleEndian_of_length h]

/-- A payload of a kind other than an array is that of the value which it gives. -/
theorem payload_of_ofScalarPayload {k : Kind} {p : Bytes} {v : Value}
    (h : ofScalarPayload k p = .ok v) : v.kind = k ∧ v.payload = p := by
  cases k with
  | array => cases h
  | void | null =>
    simp only [ofScalarPayload] at h
    split at h
    · next hlen =>
      cases h
      exact ⟨rfl, (List.eq_nil_of_length_eq_zero hlen).symm⟩
    · cases h
  | byte =>
    simp only [ofScalarPayload] at h
    split at h
    · next hlen =>
      cases h
      obtain ⟨b, rfl⟩ := List.length_eq_one_iff.1 hlen
      exact ⟨rfl, rfl⟩
    · cases h
  | bool =>
    simp only [ofScalarPayload] at h
    split at h
    · next hlen =>
      obtain ⟨b, rfl⟩ := List.length_eq_one_iff.1 hlen
      split at h
      · cases h
      · next hb =>
        cases h
        refine ⟨rfl, ?_⟩
        have hcases : b = 0 ∨ b = 1 := by
          simp only [List.headD_cons, UInt8.lt_iff_toNat_lt] at hb
          rw [← UInt8.toNat_inj, ← UInt8.toNat_inj]
          have hone : (1 : UInt8).toNat = 1 := rfl
          have hzero : (0 : UInt8).toNat = 0 := rfl
          omega
        obtain rfl | rfl := hcases <;> rfl
    · cases h
  | float | char =>
    simp only [ofScalarPayload] at h
    split at h
    · next hlen =>
      cases h
      exact ⟨rfl, toNat_ofNat_four hlen⟩
    · cases h
  | double | function | stackRef =>
    simp only [ofScalarPayload] at h
    split at h
    · next hlen =>
      cases h
      exact ⟨rfl, toNat_ofNat_eight hlen⟩
    · cases h
  | heapRef =>
    simp only [ofScalarPayload] at h
    split at h
    · next hlen =>
      cases h
      exact ⟨rfl, by rw [payload, Ref.toBits_ofBits, toNat_ofNat_eight hlen]⟩
    · cases h
  | int =>
    cases p with
    | nil => cases h
    | cons b digits =>
      simp only [ofScalarPayload] at h
      split at h
      · cases h
      · next w hw =>
        split at h
        · next hlen =>
          cases h
          have hpow : 2 ^ w.bits = 256 ^ w.bytes := by cases w <;> rfl
          have hlt := ofLittleEndian_lt digits
          rw [hlen, ← hpow] at hlt
          refine ⟨rfl, ?_⟩
          rw [payload, bits_of_ofBits? hw, BitVec.toNat_ofNat, Nat.mod_eq_of_lt hlt,
            littleEndian_of_length hlen]
        · cases h
  | string =>
    simp only [ofScalarPayload] at h
    split at h
    · cases h
    · next hlen =>
      cases h
      obtain ⟨hfour, hrest⟩ := not_or.1 hlen
      have htake : (p.take 4).length = 4 := List.length_take_of_le (Nat.le_of_not_lt hfour)
      refine ⟨rfl, ?_⟩
      rw [payload, List.length_drop, ← not_not.1 hrest, littleEndian_of_length htake,
        List.take_append_drop]

variable {element : Option (Cursor → ReadResult Value)}

/-- An array is written back when its elements are. -/
theorem writesBack_decodeArrayWith
    (helement : ∀ read, element = some read → WritesBack read fun v bs => bs = v.toBinary) :
    WritesBack (decodeArrayWith element) fun v bs => v.kind = .array ∧ bs = v.payload := by
  intro c v c' h
  unfold decodeArrayWith at h
  split at h
  · cases h
  · next read =>
    split at h
    · cases h
    · next n c₁ htake =>
      dsimp only at h
      split at h
      · cases h
      · obtain ⟨⟨es, c₂⟩, hmany, heq⟩ := Except.map_eq_ok.1 h
        cases heq
        obtain ⟨hhead, hn⟩ := Cursor.Passes.ofTake htake
        obtain ⟨bs, ⟨hcount, bss, hbss, rfl⟩, hpass⟩ := (helement read rfl).many _ hmany
        have hes : bss.flatten = toBinaryAll es := by
          rw [toBinaryAll_eq, eq_map_of_forall₂ hbss]
        refine ⟨n ++ bss.flatten, ⟨rfl, ?_⟩, hhead.trans hpass⟩
        rw [payload, hcount, littleEndian_of_length hn, hes]

/-- A tagged value is written back when the elements of arrays are. -/
theorem writesBack_decodeTagged
    (helement : ∀ read, element = some read → WritesBack read fun v bs => bs = v.toBinary) :
    WritesBack (decodeTagged element) fun v bs => bs = v.toBinary := by
  intro c v c' h
  unfold decodeTagged at h
  split at h
  · cases h
  · next t rest hrest =>
    have htag := Cursor.Passes.skip_one hrest
    dsimp only at h
    split at h
    · cases h
    · next hk =>
      obtain ⟨_, ⟨hkind, rfl⟩, hpass⟩ := writesBack_decodeArrayWith helement h
      refine ⟨_, rfl, ?_⟩
      rw [toBinary, hkind, Kind.tag_of_ofTag? hk]
      exact htag.trans hpass
    · next k _ hk =>
      split at h
      · cases h
      · split at h
        · cases h
        · next htake =>
          split at h
          · cases h
          · next hv =>
            cases h
            obtain ⟨hpass, _⟩ := Cursor.Passes.ofTake htake
            obtain ⟨rfl, rfl⟩ := payload_of_ofScalarPayload hv
            refine ⟨_, rfl, ?_⟩
            rw [toBinary, Kind.tag_of_ofTag? hk]
            exact htag.trans hpass

/-- **A tagged value is written back**, however deeply its arrays may nest. -/
theorem writesBack_decodeLevels (levels : Nat) :
    WritesBack (decodeLevels levels) fun v bs => bs = v.toBinary := by
  induction levels with
  | zero => exact writesBack_decodeTagged fun _ h => nomatch h
  | succ levels ih =>
    refine writesBack_decodeTagged fun read h => ?_
    cases h
    exact ih

/-- **A payload is that of the value which it gives.** -/
theorem payload_of_ofPayload {k : Kind} {p : Bytes} {v : Value} (h : ofPayload k p = .ok v) :
    v.kind = k ∧ v.payload = p := by
  unfold ofPayload at h
  split at h
  · split at h
    · cases h
    · split at h
      · cases h
      · next hread =>
        split at h
        · next hempty =>
          cases h
          have helement : ∀ read, some (decodeLevels (maxDepth - 1)) = some read →
              WritesBack read fun v bs => bs = v.toBinary := by
            intro read h
            cases h
            exact writesBack_decodeLevels _
          obtain ⟨_, ⟨hkind, rfl⟩, hpass⟩ := writesBack_decodeArrayWith helement hread
          refine ⟨hkind, ?_⟩
          have hrest := hpass.rest
          rw [List.isEmpty_iff.1 hempty, List.append_nil] at hrest
          exact hrest.symm
        · cases h
  · exact payload_of_ofScalarPayload h

end Value

end RegisterMachine
