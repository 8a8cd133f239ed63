import RegisterMachine.Instruction.Draft
import RegisterMachine.Proofs.Codec.AcceptedFile

/-!
# Streams of instructions

A stream is read back with its offsets wherever it stands, and what is read from a stream is written
as the bytes that were read, with the same offsets (`Instruction.stream_roundtrip`). Each
instruction lies at its offset and takes as many bytes as its size says
(`Instruction.encode_at_of_encodeFrom`). Writing stops at the first instruction that cannot be
written (`Instruction.encodeFrom_eq_error`): one whose pair of mnemonic and mode is not supported,
which is malformed, or one with a number that is too large, which has the wrong width
(`Instruction.encode_eq_error`). Instructions that are given by numbers (`Draft.encode_eq_error`)
can also name a mnemonic or a mode that does not exist.
-/

namespace RegisterMachine

variable {arch : Arch} {e : CodecError}

/-! ## What cannot be written -/

/-- The only thing wrong with an address can be its width. -/
theorem Arch.category_of_encodeAddress {v : Nat} (h : arch.encodeAddress v = .error e) :
    e.category = .width := by
  rw [encodeAddress] at h
  split at h
  · cases h
    rfl
  · cases h

/-- An operand can fail to be written only because a number is too large. -/
theorem Operand.category_of_encode {op : Operand} (h : op.encode arch = .error e) :
    e.category = .width := by
  cases op with
  | implicit | indirect r => cases h
  | absolute a | static a => exact Arch.category_of_encodeAddress h
  | immediate v =>
    rcases Except.bind_eq_error.1 h with h | ⟨_, _, h⟩
    · exact Arch.category_of_encodeAddress h
    · cases h
  | index a i | property a i =>
    rcases Except.bind_eq_error.1 h with h | ⟨_, _, h⟩
    · exact Arch.category_of_encodeAddress h
    · rcases Except.bind_eq_error.1 h with h | ⟨_, _, h⟩
      · exact Arch.category_of_encodeAddress h
      · cases h

namespace Instruction

variable {i : Instruction} {is : List Instruction} {index offset : Nat} {code : Bytes}
  {offsets : List Nat}

/-- **An instruction cannot be written** because it is illegal, or because a number is too large. -/
theorem encode_eq_error (h : i.encode arch = .error e) :
    i.isLegal = false ∧ e.category = .malformed ∨
      i.isLegal = true ∧ i.operand.fits arch = false ∧ e.category = .width := by
  rw [encode] at h
  split at h
  · next hnone =>
    cases h
    refine .inl ⟨?_, rfl⟩
    by_contra hlegal
    obtain ⟨op, hop⟩ := Opcode.exists_encode? (Bool.of_not_eq_false hlegal)
    rw [hop] at hnone
    cases hnone
  · next hop =>
    split at h
    · next hoperand =>
      cases h
      have hwidth := Operand.category_of_encode hoperand
      refine .inr ⟨Opcode.supports_of_encode? hop, ?_, hwidth⟩
      by_contra hfits
      obtain ⟨bs, hbs⟩ := Operand.exists_encode_iff.2 (Bool.of_not_eq_false hfits)
      rw [hoperand] at hbs
      cases hbs
    · cases h

/-- **Writing a stream stops at the first instruction that cannot be written**, and tells which it
is. -/
theorem encodeFrom_eq_error (h : encodeFrom arch index offset is = .error e) :
    ∃ before i after e', is = before ++ i :: after ∧
      (∀ j ∈ before, j.isLegal = true ∧ j.operand.fits arch = true) ∧ i.encode arch = .error e' ∧
      e = .inside (.instruction (index + before.length)) e' := by
  induction is generalizing index offset with
  | nil => cases h
  | cons i is ih =>
    rw [encodeFrom] at h
    split at h
    · next e' he' =>
      cases h
      exact ⟨[], i, is, e', rfl, List.forall_mem_nil _, he', rfl⟩
    · next bs hbs =>
      split at h
      · next hrest =>
        cases h
        obtain ⟨before, j, after, e', rfl, hbefore, he', rfl⟩ := ih hrest
        refine ⟨i :: before, j, after, e', rfl, ?_, he', ?_⟩
        · exact List.forall_mem_cons.2 ⟨exists_encode_iff.1 ⟨bs, hbs⟩, hbefore⟩
        · rw [List.length_cons, Nat.add_right_comm, Nat.add_assoc]
      · cases h

/-- **Writing a stream fails exactly if some instruction cannot be written.** -/
theorem encodeFrom_fails_iff : (∃ e, encodeFrom arch index offset is = .error e) ↔
    ∃ i ∈ is, i.isLegal = false ∨ i.operand.fits arch = false := by
  constructor
  · rintro ⟨e, h⟩
    obtain ⟨before, i, after, e', rfl, _, he', _⟩ := encodeFrom_eq_error h
    exact ⟨i, by simp, (encode_eq_error he').imp And.left fun hwide => hwide.2.1⟩
  · rintro ⟨i, hi, hbad⟩
    cases hresult : encodeFrom arch index offset is with
    | error e => exact ⟨e, rfl⟩
    | ok r =>
      obtain ⟨hlegal, hfits⟩ := (encodeFrom_eq_ok hresult).1 i hi
      rcases hbad with h | h
      · rw [hlegal] at h
        cases h
      · rw [hfits] at h
        cases h

/-- A stream takes as many bytes as its instructions. -/
theorem length_of_encodeFrom (h : encodeFrom arch index offset is = .ok (code, offsets)) :
    code.length = (is.map (size arch)).sum := by
  induction is generalizing index offset code offsets with
  | nil =>
    cases h
    rfl
  | cons i is ih =>
    rw [encodeFrom] at h
    split at h
    · cases h
    · next bs hbs =>
      split at h
      · cases h
      · next hrest =>
        cases h
        obtain ⟨_, _, hlen⟩ := encode_eq_ok hbs
        rw [List.length_append, List.map_cons, List.sum_cons, ih hrest, hlen]

/-- **Each instruction of a stream lies at its offset.** -/
theorem encode_at_of_encodeFrom (h : encodeFrom arch index offset is = .ok (code, offsets))
    {k o : Nat} (hi : is[k]? = some i) (ho : offsets[k]? = some o) :
    offset ≤ o ∧ i.encode arch = .ok ((code.drop (o - offset)).take (i.size arch)) := by
  induction is generalizing index offset code offsets k with
  | nil => cases hi
  | cons j is ih =>
    rw [encodeFrom] at h
    split at h
    · cases h
    · next bs hbs =>
      split at h
      · cases h
      · next code' offsets' hrest =>
        cases h
        obtain ⟨_, _, hlen⟩ := encode_eq_ok hbs
        cases k with
        | zero =>
          cases hi
          cases ho
          refine ⟨Nat.le_refl _, ?_⟩
          rw [Nat.sub_self, List.drop_zero, ← hlen, List.take_left, hbs]
        | succ k =>
          obtain ⟨hle, hbytes⟩ := ih hrest hi ho
          refine ⟨by omega, ?_⟩
          have hnil : bs.drop (o - offset) = [] := List.drop_eq_nil_of_le (by omega)
          rw [hbytes, List.drop_append, hnil, List.nil_append, Nat.sub_sub]

end Instruction

/-! ## Instructions given by numbers -/

namespace Draft

variable {d : Draft} {ds : List Draft} {i : Instruction} {is : List Instruction} {index : Nat}

/-- A draft is legal when it names an instruction that is. -/
theorem check_eq_ok : d.check = .ok i ↔ d.instruction? = some i ∧ i.isLegal = true := by
  rw [check]
  split
  · next j hj =>
    rw [hj]
    split
    · next hlegal =>
      constructor
      · intro h
        cases h
        exact ⟨rfl, hlegal⟩
      · rintro ⟨h, _⟩
        cases h
        rfl
    · next hlegal =>
      refine ⟨(fun h => nomatch h), ?_⟩
      rintro ⟨h, hi⟩
      cases h
      exact absurd hi hlegal
  · next hnone =>
    rw [hnone]
    exact ⟨(fun h => nomatch h), fun ⟨h, _⟩ => nomatch h⟩

/-- The only thing wrong with a draft can be its form. -/
theorem category_of_check (h : d.check = .error e) : e.category = .malformed := by
  rw [check] at h
  split at h
  · split at h
    · cases h
    · cases h
      rfl
  · cases h
    rfl

/-- **A draft cannot be written** because it names no legal instruction, or because a number is too
large. -/
theorem encode_eq_error (h : d.encode arch = .error e) :
    (∀ i, d.instruction? = some i → i.isLegal = false) ∧ e.category = .malformed ∨
      ∃ i, d.instruction? = some i ∧ i.isLegal = true ∧ i.operand.fits arch = false ∧
        e.category = .width := by
  rcases Except.bind_eq_error.1 h with h | ⟨i, hi, h⟩
  · refine .inl ⟨fun i hi => ?_, category_of_check h⟩
    by_contra hlegal
    rw [check_eq_ok.2 ⟨hi, Bool.of_not_eq_false hlegal⟩] at h
    cases h
  · obtain ⟨hsome, hlegal⟩ := check_eq_ok.1 hi
    obtain ⟨hillegal, _⟩ | ⟨_, hfits⟩ := Instruction.encode_eq_error h
    · rw [hlegal] at hillegal
      cases hillegal
    · exact .inr ⟨i, hsome, hlegal, hfits⟩

/-- What is checked can be written, and is legal. -/
theorem checkAll_eq_ok (h : checkAll arch index ds = .ok is) :
    List.Forall₂ (fun d i => d.instruction? = some i ∧ i.isLegal = true ∧
      i.operand.fits arch = true) ds is := by
  induction ds generalizing index is with
  | nil =>
    cases h
    exact .nil
  | cons d ds ih =>
    rw [checkAll] at h
    split at h
    · cases h
    · next i hi =>
      split at h
      · cases h
      · next bs hbs =>
        obtain ⟨is', his, rfl⟩ := Except.map_eq_ok.1 h
        exact .cons ⟨(check_eq_ok.1 hi).1, Instruction.exists_encode_iff.1 ⟨bs, hbs⟩⟩ (ih his)

/-- **Checking drafts stops at the first that cannot be written**, and tells which it is. -/
theorem checkAll_eq_error (h : checkAll arch index ds = .error e) :
    ∃ before d after e', ds = before ++ d :: after ∧
      (∀ j ∈ before, ∃ i, j.instruction? = some i ∧ i.isLegal = true ∧ i.operand.fits arch = true) ∧
      d.encode arch = .error e' ∧ e = .inside (.instruction (index + before.length)) e' := by
  induction ds generalizing index with
  | nil => cases h
  | cons d ds ih =>
    rw [checkAll] at h
    split at h
    · next e' he' =>
      cases h
      exact ⟨[], d, ds, e', rfl, List.forall_mem_nil _, Except.bind_eq_error.2 (.inl he'), rfl⟩
    · next i hi =>
      split at h
      · next e' he' =>
        cases h
        exact ⟨[], d, ds, e', rfl, List.forall_mem_nil _,
          Except.bind_eq_error.2 (.inr ⟨i, hi, he'⟩), rfl⟩
      · next bs hbs =>
        obtain ⟨before, j, after, e', rfl, hbefore, he', rfl⟩ := ih (Except.map_eq_error.1 h)
        refine ⟨d :: before, j, after, e', rfl, List.forall_mem_cons.2 ⟨?_, hbefore⟩, he', ?_⟩
        · exact ⟨i, (check_eq_ok.1 hi).1, Instruction.exists_encode_iff.1 ⟨bs, hbs⟩⟩
        · rw [List.length_cons, Nat.add_right_comm, Nat.add_assoc]

/-- Writing drafts fails only where checking them does. -/
theorem checkAll_of_encodeAll_eq_error
    (h : checkAll arch index ds >>= Instruction.encodeAll arch = .error e) :
    checkAll arch index ds = .error e := by
  rcases Except.bind_eq_error.1 h with h | ⟨is, his, h⟩
  · exact h
  · obtain ⟨i, hi, hbad⟩ := Instruction.encodeFrom_fails_iff.1 ⟨e, h⟩
    obtain ⟨d, _, _, hlegal, hfits⟩ := exists_of_mem_forall₂ (checkAll_eq_ok his).flip hi
    simp [hlegal, hfits] at hbad

/-- **Writing drafts fails exactly if some draft names no instruction that can be written.** -/
theorem encodeAll_fails_iff :
    (∃ e, checkAll arch index ds >>= Instruction.encodeAll arch = .error e) ↔
      ∃ d ∈ ds, ∀ i, d.instruction? = some i → i.isLegal = false ∨ i.operand.fits arch = false := by
  constructor
  · rintro ⟨e, h⟩
    obtain ⟨before, d, after, e', rfl, _, he', _⟩ :=
      checkAll_eq_error (checkAll_of_encodeAll_eq_error h)
    refine ⟨d, by simp, fun i hi => ?_⟩
    obtain ⟨hillegal, _⟩ | ⟨j, hj, _, hfits, _⟩ := encode_eq_error he'
    · exact .inl (hillegal i hi)
    · rw [hi] at hj
      cases hj
      exact .inr hfits
  · rintro ⟨d, hd, hbad⟩
    cases hresult : checkAll arch index ds >>= Instruction.encodeAll arch with
    | error e => exact ⟨e, rfl⟩
    | ok r =>
      obtain ⟨is, his, _⟩ := Except.bind_eq_ok.1 hresult
      obtain ⟨i, _, hi, hlegal, hfits⟩ := exists_of_mem_forall₂ (checkAll_eq_ok his) hd
      have hbad := hbad i hi
      simp [hlegal, hfits] at hbad

end Draft

/-! ## Both directions -/

namespace Instruction

/-- What is read at a position is written as the bytes that were read, with the offsets found. -/
theorem encodeAll_of_readAllAt? {count : Int} {data : Bytes} {pos next : Int}
    {res : List (Instruction × Nat)} (h : readAllAt? arch count data pos = some (next, .ok res)) :
    (res.length : Int) = count ∧ ∃ code,
      encodeAll arch (res.map (·.1)) = .ok (code, res.map (·.2)) ∧
      next = pos + code.length ∧ code <+: data.drop pos.toNat := by
  rw [readAllAt?] at h
  split at h
  · cases h
  · next hcount =>
    split at h
    · next hzero =>
      cases h
      exact ⟨hzero.symm, [], rfl, (Int.add_zero _).symm, List.nil_prefix⟩
    · have hwrites : WritesBack (decodeAll arch count.toNat) fun res code =>
          res.length = count.toNat ∧ encodeAll arch (res.map (·.1)) =
            .ok (code, res.map (·.2)) := by
        intro c res c' hread
        obtain ⟨hlen, code, hpass, hcode⟩ := writesBack_decodeAll hread
        exact ⟨code, ⟨hlen, hcode⟩, hpass⟩
      obtain ⟨code, ⟨hlen, hcode⟩, hnext, hpre⟩ := hwrites.readAt? h
      exact ⟨by omega, code, hcode, hnext, hpre⟩

/-- **Streams of instructions round trip in both directions.** Where a stream stands whose immediate
values nest within the limit and have lengths that fit, its instructions are read with their
offsets, and the position behind it; each lies at its offset, which is the size of those before it,
and takes the bytes of its size. Whatever is read at a position is written as the bytes between that
position and the next, with the same offsets. Writing fails exactly if some instruction is illegal
or has an address, an index or an immediate size above the largest address; the first such is
reported, as malformed when it is illegal and as of the wrong width when it is not. This holds of
instructions that are given by numbers, too. -/
theorem stream_roundtrip (arch : Arch) :
    (∀ is code offsets pre suf, encodeAll arch is = .ok (code, offsets) →
        (∀ i ∈ is, i.operand.lengthsFit = true ∧ i.operand.depth ≤ Value.maxDepth) →
        ∃ res, res.map (·.1) = is ∧ res.map (·.2) = offsets ∧
          readAt? (decodeAll arch is.length) (pre ++ code ++ suf) pre.length =
            some ((pre.length : Int) + code.length, .ok res) ∧
          (is.length ≤ maxCount → readAllAt? arch is.length (pre ++ code ++ suf) pre.length =
            some ((pre.length : Int) + code.length, .ok res))) ∧
      (∀ is code offsets, encodeAll arch is = .ok (code, offsets) →
        offsets = (List.range is.length).map (fun k => ((is.take k).map (size arch)).sum) ∧
          code.length = (is.map (size arch)).sum ∧
          ∀ (k o : Nat) i, is[k]? = some i → offsets[k]? = some o →
            i.encode arch = .ok ((code.drop o).take (i.size arch))) ∧
      (∀ (count : Int) data (pos next : Int) res,
        readAllAt? arch count data pos = some (next, .ok res) → (res.length : Int) = count ∧
          ∃ code, encodeAll arch (res.map (·.1)) = .ok (code, res.map (·.2)) ∧
            next = pos + code.length ∧ code = (data.drop pos.toNat).take (next - pos).toNat) ∧
      (∀ is, (∃ e, encodeAll arch is = .error e) ↔
        ∃ i ∈ is, i.isLegal = false ∨ i.operand.fits arch = false) ∧
      (∀ is e, encodeAll arch is = .error e →
        ∃ before i after e', is = before ++ i :: after ∧
          e = .inside (.instruction before.length) e' ∧
          (∀ j ∈ before, j.isLegal = true ∧ j.operand.fits arch = true) ∧
          (i.isLegal = false ∧ e'.category = .malformed ∨
            i.isLegal = true ∧ i.operand.fits arch = false ∧ e'.category = .width)) ∧
      (∀ ds : List Draft, (∃ e, Draft.checkAll arch 0 ds >>= encodeAll arch = .error e) ↔
        ∃ d ∈ ds, ∀ i, d.instruction? = some i → i.isLegal = false ∨ i.operand.fits arch = false) ∧
      ∀ (ds : List Draft) e, Draft.checkAll arch 0 ds >>= encodeAll arch = .error e →
        ∃ before d after e', ds = before ++ d :: after ∧
          e = .inside (.instruction before.length) e' ∧
          (∀ j ∈ before, ∃ i, j.instruction? = some i ∧ i.isLegal = true ∧
            i.operand.fits arch = true) ∧
          ((∀ i, d.instruction? = some i → i.isLegal = false) ∧ e'.category = .malformed ∨
            ∃ i, d.instruction? = some i ∧ i.isLegal = true ∧ i.operand.fits arch = false ∧
              e'.category = .width) := by
  refine ⟨fun is code offsets pre suf h his => ?_, fun is code offsets h => ?_,
    fun count data pos next res h => ?_, fun is => ?_, fun is e h => ?_, fun ds => ?_,
    fun ds e h => ?_⟩
  · have hencodable : ∀ i ∈ is, i.operand.isEncodable = true := fun i hi =>
      Operand.isEncodable_iff.2 ⟨(his i hi).2, (his i hi).1⟩
    obtain ⟨hreads, hlen, _⟩ := reads_stream h hencodable
    have hread := hreads.readAt? pre suf
    refine ⟨is.zip offsets, List.map_fst_zip (Nat.le_of_eq hlen.symm),
      List.map_snd_zip (Nat.le_of_eq hlen), hread, fun hmax => ?_⟩
    rw [readAllAt?, if_neg (by omega)]
    split
    · next hzero =>
      obtain rfl := List.eq_nil_of_length_eq_zero (Int.ofNat_eq_zero.1 hzero)
      cases h
      simp
    · rwa [Int.toNat_natCast]
  · obtain ⟨_, hoffsets⟩ := encodeFrom_eq_ok h
    refine ⟨by simpa using hoffsets, length_of_encodeFrom h, fun k o i hi ho => ?_⟩
    exact (encode_at_of_encodeFrom h hi ho).2
  · obtain ⟨hcount, code, hcode, hnext, hpre⟩ := encodeAll_of_readAllAt? h
    refine ⟨hcount, code, hcode, hnext, ?_⟩
    rw [show (next - pos).toNat = code.length by omega]
    exact List.prefix_iff_eq_take.1 hpre
  · exact encodeFrom_fails_iff
  · obtain ⟨before, i, after, e', rfl, hbefore, he', rfl⟩ := encodeFrom_eq_error h
    exact ⟨before, i, after, e', rfl, by rw [Nat.zero_add], hbefore, encode_eq_error he'⟩
  · exact Draft.encodeAll_fails_iff
  · obtain ⟨before, d, after, e', rfl, hbefore, he', rfl⟩ :=
      Draft.checkAll_eq_error (Draft.checkAll_of_encodeAll_eq_error h)
    exact ⟨before, d, after, e', rfl, by rw [Nat.zero_add], hbefore, Draft.encode_eq_error he'⟩

/-- A string is loaded, and stored in slot 3. -/
def storeSample : List Instruction :=
  [⟨.load .a, .immediate (.string [97, 98])⟩, ⟨.store .a, .absolute 3⟩]

/-- The two instructions are read back between other bytes and are written as the bytes that were
read. A slot beyond the largest address has the wrong width, and a mnemonic that does not exist is
malformed. -/
theorem stream_roundtrip_storeSample :
    (∃ res, res.map (·.1) = storeSample ∧ res.map (·.2) = [0, 10] ∧
      readAllAt? .b16 2 ([9] ++ [1, 6, 6, 0, 2, 0, 0, 0, 97, 98, 48, 3, 0] ++ [255]) 1 =
        some (14, .ok res) ∧
      ∃ code, encodeAll .b16 (res.map (·.1)) = .ok (code, res.map (·.2)) ∧
        (14 : Int) = 1 + code.length) ∧
      (∃ e, encodeAll .b16 (storeSample ++ [⟨.store .a, .absolute 65536⟩]) = .error e ∧
        e.category = .width) ∧
      ∃ e, Draft.checkAll .b16 0 [⟨200, 0, .void, 0, 0⟩] >>= encodeAll .b16 = .error e := by
  obtain ⟨hread, _, hback, hfails, herror, hdraft, _⟩ := stream_roundtrip .b16
  refine ⟨?_, ?_, (hdraft _).2 ⟨_, List.mem_singleton_self _, fun i hi => by cases hi⟩⟩
  · have hcode : encodeAll .b16 storeSample =
        .ok ([1, 6, 6, 0, 2, 0, 0, 0, 97, 98, 48, 3, 0], [0, 10]) := by
      decide +kernel
    obtain ⟨res, his, hoffsets, _, hres⟩ := hread _ _ _ [9] [255] hcode (by decide)
    obtain ⟨_, code, hcode, hnext, _⟩ := hback _ _ _ _ _ (hres (by decide))
    exact ⟨res, his, hoffsets, hres (by decide), code, hcode, hnext⟩
  · have hlegal : ∀ j ∈ storeSample ++ [⟨.store .a, .absolute 65536⟩], j.isLegal = true := by
      decide +kernel
    obtain ⟨e, he⟩ := (hfails (storeSample ++ [⟨.store .a, .absolute 65536⟩])).2
      ⟨⟨.store .a, .absolute 65536⟩, by simp, .inr (by decide +kernel)⟩
    obtain ⟨before, i, after, e', happend, rfl, _, ⟨hillegal, _⟩ | ⟨_, _, hwidth⟩⟩ := herror _ e he
    · rw [hlegal i (happend ▸ by simp)] at hillegal
      cases hillegal
    · exact ⟨_, he, hwidth⟩

end Instruction

end RegisterMachine
