import RegisterMachine.Proofs.Codec.Limits

/-!
# What is read from a written program

A program whose parts are in order can be written even where it is beyond the limits of the reader.
If its file is read all the same, nothing but the program itself comes out
(`Program.eq_of_deserialize`). For values this is because a reader with more levels reads what one
with fewer levels reads, and one with enough levels reads the value back
(`Value.isEncodable_of_ofPayload`); instructions follow one by one, and the native calls are read
back when their names are UTF-8, without which they are not read at all.
-/

namespace RegisterMachine

open Bytes (littleEndian)

/-! ## More levels -/

/-- What a list reader reads with one element reader, it reads with every better one. -/
theorem readMany_mono {α : Type} {read read' : Cursor → ReadResult α}
    (hread : ∀ c r, read c = .ok r → read' c = .ok r) {n : Nat} {c : Cursor} {r : List α × Cursor}
    (h : readMany read n c = .ok r) : readMany read' n c = .ok r := by
  induction n generalizing c r with
  | zero => exact h
  | succ n ih =>
    rw [readMany] at h ⊢
    cases hfirst : read c with
    | error e => rw [hfirst] at h; cases h
    | ok ac =>
      rw [hfirst] at h
      rw [hread c ac hfirst]
      dsimp only at h ⊢
      cases hrest : readMany read n ac.2 with
      | error e => rw [hrest] at h; cases h
      | ok asc =>
        rw [hrest] at h
        rw [ih hrest]
        exact h

namespace Value

variable {element element' : Cursor → ReadResult Value}

/-- A reader of arrays with a better reader of elements reads what the other one reads. -/
theorem decodeArrayWith_mono (helement : ∀ c r, element c = .ok r → element' c = .ok r) {c : Cursor}
    {r : Value × Cursor} (h : decodeArrayWith (some element) c = .ok r) :
    decodeArrayWith (some element') c = .ok r := by
  unfold decodeArrayWith at h ⊢
  dsimp only at h ⊢
  split at h
  · cases h
  · split at h
    · cases h
    · next hroom =>
      obtain ⟨esc, hmany, hr⟩ := Except.map_eq_ok.1 h
      rw [if_neg hroom]
      exact Except.map_eq_ok.2 ⟨esc, readMany_mono helement hmany, hr⟩

/-- What a reader of tagged values reads, it reads with every better reader of elements. -/
theorem decodeTagged_mono {read : Option (Cursor → ReadResult Value)}
    (hread : ∀ element, read = some element → ∀ c r, element c = .ok r → element' c = .ok r)
    {c : Cursor} {r : Value × Cursor} (h : decodeTagged read c = .ok r) :
    decodeTagged (some element') c = .ok r := by
  unfold decodeTagged at h ⊢
  split at h
  · cases h
  · dsimp only at h ⊢
    split at h
    · cases h
    · cases read with
      | none => cases h
      | some element => exact decodeArrayWith_mono (hread element rfl) h
    · exact h

/-- **A reader with more levels reads what one with fewer levels reads.** -/
theorem decodeLevels_mono {levels more : Nat} (hle : levels ≤ more) {c : Cursor}
    {r : Value × Cursor} (h : decodeLevels levels c = .ok r) : decodeLevels more c = .ok r := by
  induction more generalizing levels c r with
  | zero =>
    obtain rfl := Nat.le_zero.1 hle
    exact h
  | succ more ih =>
    cases levels with
    | zero =>
      change decodeTagged none c = .ok r at h
      exact decodeTagged_mono (by rintro _ ⟨⟩) h
    | succ levels =>
      refine decodeTagged_mono (fun element helement => ?_) h
      cases helement
      exact fun c r => ih (Nat.le_of_succ_le_succ hle)

/-- If anything is read from the payload of a value, the value is within the levels of the
reader. -/
theorem isEncodable_of_ofPayload {v w : Value} (hv : v.lengthsFit = true)
    (h : ofPayload v.kind v.payload = .ok w) : v.isEncodable maxDepth = true := by
  refine isEncodable_iff.2 ⟨?_, hv⟩
  cases v with
  | array es =>
    have hlevels := Nat.le_max_left (maxDepth - 1) (depthAll es)
    have hes : ∀ e ∈ es, e.isEncodable (max (maxDepth - 1) (depthAll es)) = true := fun e he =>
      isEncodable_iff.2 ⟨depthAll_le_iff.1 (Nat.le_max_right _ _) e he,
        lengthsFitAll_iff.1 (Bool.and_eq_true_iff.1 hv).2 e he⟩
    have hread := reads_array (by simpa using (Bool.and_eq_true_iff.1 hv).1)
      (fun e he => reads_toBinary (hes e he)) 0 []
    rw [List.append_nil] at hread
    have hdepth := depth_le_of_ofPayload h
    unfold ofPayload at h
    rw [kind] at h
    dsimp only at h
    split at h
    · cases h
    · split at h
      · cases h
      · next hshort =>
        have hmore := decodeArrayWith_mono (fun c r => decodeLevels_mono hlevels) hshort
        rw [Cursor.ofBytes, List.drop_zero, hread] at hmore
        cases hmore
        split at h
        · cases h
          exact hdepth
        · cases h
  | _ => exact Nat.zero_le _

end Value

/-! ## Instructions -/

variable {arch : Arch} {bs : Bytes}

/-- An immediate value that is read from what was written is within the limit. -/
theorem Operand.isEncodable_of_decodeImmediate {v : Value} (hv : v.lengthsFit = true)
    (h : arch.encodeAddress v.payload.length = .ok bs) {pos : Nat} {suf : Bytes}
    {r : Value × Cursor}
    (hread : decodeImmediate arch ⟨pos, (v.kind.tag :: bs ++ v.payload) ++ suf⟩ = .ok r) :
    v.isEncodable Value.maxDepth = true := by
  have hsize := Arch.reads_address h (pos + 1) (v.payload ++ suf)
  have htake := Cursor.take?_append v.payload rfl (pos + 1 + bs.length) suf
  rw [List.cons_append, List.cons_append, List.append_assoc, decodeImmediate] at hread
  dsimp only at hread
  rw [Kind.ofTag?_tag, Cursor.skip_one] at hread
  dsimp only at hread
  rw [hsize] at hread
  dsimp only at hread
  rw [htake] at hread
  dsimp only at hread
  split at hread
  · cases hread
  · next hpayload => exact Value.isEncodable_of_ofPayload hv hpayload

namespace Instruction

/-- An instruction that is read from what was written is within the limit. -/
theorem isEncodable_of_decode {i : Instruction} (hi : i.operand.lengthsFit = true)
    (h : i.encode arch = .ok bs) {pos : Nat} {suf : Bytes} {r : Instruction × Cursor}
    (hread : decode arch ⟨pos, bs ++ suf⟩ = .ok r) : i.operand.isEncodable = true := by
  obtain ⟨m, op⟩ := i
  cases op with
  | immediate v =>
    rw [encode] at h
    split at h
    · cases h
    · next opcode hopcode =>
      split at h
      · cases h
      · next rest hrest =>
        cases h
        obtain ⟨size, hsize, hrest⟩ := Except.bind_eq_ok.1 hrest
        cases hrest
        rw [List.cons_append, decode] at hread
        dsimp only at hread
        rw [Opcode.decode?_of_encode? hopcode] at hread
        dsimp only at hread
        rw [Cursor.skip_one] at hread
        split at hread
        · cases hread
        · next hop =>
          obtain ⟨vc, hvc, _⟩ := Except.map_eq_ok.1 hop
          exact Operand.isEncodable_of_decodeImmediate hi hsize hvc
  | _ => rfl

/-- **A stream that is read from what was written has all its values within the limit.** -/
theorem isEncodable_of_decodeFrom {is : List Instruction} {index offset base pos : Nat}
    {code suf : Bytes} {offsets : List Nat}
    (h : encodeFrom arch index offset is = .ok (code, offsets))
    (his : ∀ i ∈ is, i.operand.lengthsFit = true) {r : List (Instruction × Nat) × Cursor}
    (hread : decodeFrom arch base index is.length ⟨pos, code ++ suf⟩ = .ok r) :
    ∀ i ∈ is, i.operand.isEncodable = true := by
  induction is generalizing index offset pos code offsets r with
  | nil => simp
  | cons i is ih =>
    rw [encodeFrom] at h
    split at h
    · cases h
    · next bs hbs =>
      split at h
      · cases h
      · next code' offsets' hrest =>
        cases h
        obtain ⟨hi, his⟩ := List.forall_mem_cons.1 his
        rw [List.append_assoc, List.length_cons, decodeFrom] at hread
        split at hread
        · cases hread
        · next j next hfirst =>
          have hencodable := isEncodable_of_decode hi hbs hfirst
          rw [(reads hbs hencodable).1] at hfirst
          cases hfirst
          split at hread
          · cases hread
          · next hmore =>
            exact List.forall_mem_cons.2 ⟨hencodable, ih hrest his hmore⟩

end Instruction

/-! ## Native calls -/

namespace Program

/-- The names of a native call that is read from its item are UTF-8. -/
theorem isUtf8_of_readNative {n m : NativeCall} (h : readNative (nativeItem n) = .ok m) :
    Text.isUtf8 n.name = true ∧ Text.isUtf8 n.module = true := by
  have hhash : n.hash.toNat ≤ 2 ^ 64 - 1 := Nat.le_sub_one_of_lt n.hash.toNat_lt
  have hsite : n.site.toNat ≤ 2 ^ 64 - 1 := Nat.le_sub_one_of_lt n.site.toNat_lt
  rw [readNative, nativeItem] at h
  change Cbor.readEntries _ _ _ = _ at h
  rw [Cbor.readEntries_cons (by decide +kernel) rfl
    (Cbor.set_field (Cbor.readNat_unsigned hhash))] at h
  obtain ⟨_, hset⟩ := Cbor.set_of_readEntries_cons (by decide +kernel) rfl h
  obtain ⟨_, hread, _⟩ := Except.map_eq_ok.1 hset
  have hname := Cbor.isUtf8_of_readText hread
  rw [Cbor.readEntries_cons (by decide +kernel) rfl (Cbor.set_field (Cbor.readText_ofText hname)),
    Cbor.readEntries_cons (by decide +kernel) rfl
      (Cbor.set_field (Cbor.readNat_unsigned hsite))] at h
  obtain ⟨_, hset⟩ := Cbor.set_of_readEntries_cons (by decide +kernel) rfl h
  obtain ⟨_, hread, _⟩ := Except.map_eq_ok.1 hset
  exact ⟨hname, Cbor.isUtf8_of_readText hread⟩

/-- A native call that is read from its item is read back as it was. -/
theorem eq_of_readNative {n m : NativeCall} (h : readNative (nativeItem n) = .ok m) : n = m := by
  obtain ⟨hname, hmodule⟩ := isUtf8_of_readNative h
  rw [readNative_nativeItem hname hmodule] at h
  cases h
  rfl

/-- The calls of a trailer that is read are read back as they were. -/
theorem eq_of_readTail {ns ms : List NativeCall} {pos : Nat}
    (h : readTail ⟨pos, littleEndian 4 (trailer ns).length ++ trailer ns⟩ = .ok ms) : ms = ns := by
  obtain ⟨hsize, hcount⟩ := readTail_eq_ok h
  have hread : readTrailer (trailer ns) = .ok ms := by
    have htake := Cursor.take?_append (trailer ns) rfl (pos + 4) []
    rw [List.append_nil] at htake
    rw [readTail, Cursor.take?_append _ (Bytes.length_littleEndian _ _)] at h
    dsimp only at h
    rw [ofLittleEndian_of_lt hsize, htake] at h
    obtain ⟨ns', hread, h⟩ := Except.bind_eq_ok.1 h
    cases h
    exact hread
  rw [readTrailer, trailer, Cbor.decode?_encode (isReadable_trailer hcount hsize)] at hread
  dsimp only at hread
  have hitems := Except.mapM_eq_ok.1 (Except.mapError_eq_ok.1 hread)
  rw [List.forall₂_map_left_iff] at hitems
  exact (List.forall₂_eq_eq_eq ▸ hitems.imp fun n m => eq_of_readNative).symm

/-! ## Programs -/

variable {p q : Program}

/-- The immediate values of a program that is read from what was written are within the limit. -/
theorem isEncodable_of_readBody (hlengths : ∀ i ∈ p.instructions, i.operand.lengthsFit = true)
    {bss : List Bytes} {code suf : Bytes} {offsets : List Nat} {pos : Nat}
    (hnumbers : p.headNumbers.mapM p.arch.encodeAddress = .ok bss)
    (hcode : Instruction.encodeAll p.arch p.instructions.toList = .ok (code, offsets))
    (h : readBody p.arch p.mainExists ⟨pos, bss.flatten ++ (code ++ suf)⟩ = .ok q) :
    ∀ i ∈ p.instructions, i.operand.isEncodable = true := by
  have hhead : Reads (readMany p.arch.decodeAddress 4) bss.flatten p.headNumbers :=
    Reads.many ((Except.mapM_eq_ok.1 hnumbers).flip.imp fun _ _ h => Arch.reads_address h)
  unfold readBody at h
  rw [hhead] at h
  obtain ⟨⟨numbers, c₁⟩, hread, h⟩ := Except.bind_eq_ok.1 h
  cases hread
  dsimp only at h
  split at h
  · cases h
  obtain ⟨⟨is, c₂⟩, hstream, _⟩ := Except.bind_eq_ok.1 h
  have himm := Instruction.isEncodable_of_decodeFrom hcode (by simpa using hlengths)
    (Except.mapError_eq_ok.1 hstream)
  simpa using himm

/-- **Nothing but the program itself is read from its file.** -/
theorem eq_of_deserialize {data : Bytes} (hvalid : p.validate = .ok ())
    (hlengths : ∀ i ∈ p.instructions, i.operand.lengthsFit = true)
    (hoffsets : ∃ code, Instruction.encodeAll p.arch p.instructions.toList =
      .ok (code, p.offsets.toList))
    (hsorted : p.natives.Pairwise (·.site < ·.site)) (hs : p.serialize = .ok data)
    (h : deserialize data = .ok q) : q = p := by
  obtain ⟨harch, bss, code, offsets, hnumbers, hcode, rfl⟩ := serialize_eq_ok hs
  obtain ⟨_, hoffsets⟩ := hoffsets
  rw [hcode] at hoffsets
  cases hoffsets
  rw [deserialize_head harch] at h
  have himm := isEncodable_of_readBody hlengths hnumbers hcode h
  obtain ⟨pos, finish, hbody, hfinish⟩ := readBody_eq_bind hvalid himm hsorted hnumbers hcode 8 _
  rw [hbody] at h
  obtain ⟨ns, htail, h⟩ := Except.bind_eq_ok.1 h
  obtain rfl := eq_of_readTail htail
  rw [hfinish] at h
  cases h
  rfl

end Program

end RegisterMachine
