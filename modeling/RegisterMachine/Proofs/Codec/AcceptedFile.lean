import RegisterMachine.Proofs.Codec.Canonical

/-!
# Files that are accepted

`Program.accepted_canonical` says what a program is like that was read from a file, and that writing
it gives the file again up to the trailer. It rests on two facts for each part of a file. What is
read is written back (`Operand.writesBack_decode`, `Instruction.writesBack_decode`, and
`Instruction.writesBack_decodeAll` for the stream, with the offsets at which its instructions were
found), and what can be written is legal and fits the architecture (`Operand.exists_encode_iff`,
`Instruction.encode_eq_ok`, `Instruction.encodeFrom_eq_ok`). The trailer is not written back: a
binary object has many encodings, and only the native calls in it are kept, whose names are UTF-8
(`Program.isUtf8_natives_of_deserialize`).
-/

namespace RegisterMachine

open Bytes (littleEndian ofLittleEndian)

variable {arch : Arch} {bs : Bytes}

/-! ## Operands -/

/-- A written address has the size of addresses. -/
theorem Arch.length_of_encodeAddress {v : Nat} (h : arch.encodeAddress v = .ok bs) :
    bs.length = arch.addressBytes := by
  rw [encodeAddress] at h
  split at h
  · cases h
  · cases h
    exact Bytes.length_littleEndian _ _

/-- An address can be written exactly when it fits. -/
theorem Arch.exists_encodeAddress_iff {v : Nat} :
    (∃ bs, arch.encodeAddress v = .ok bs) ↔ v ≤ arch.maxAddress := by
  rw [encodeAddress]
  split
  · next h => simpa using h
  · next h => simpa using Nat.le_of_not_lt h

namespace Operand

/-- The addresses of an operand, and the size of an immediate value, fit the architecture. -/
def fits (arch : Arch) : Operand → Bool
  | implicit | indirect _ => true
  | immediate v => v.payload.length ≤ arch.maxAddress
  | absolute a | static a => a.toNat ≤ arch.maxAddress
  | index a i | property a i => a.toNat ≤ arch.maxAddress && i.toNat ≤ arch.maxAddress

/-- An operand can be written exactly when it fits. -/
theorem exists_encode_iff {op : Operand} :
    (∃ bs, op.encode arch = .ok bs) ↔ op.fits arch = true := by
  cases op with
  | implicit | indirect r => simp [encode, fits]
  | absolute a | static a =>
    rw [fits, decide_eq_true_eq, ← Arch.exists_encodeAddress_iff]
    rfl
  | immediate v =>
    rw [fits, decide_eq_true_eq, ← Arch.exists_encodeAddress_iff]
    constructor
    · rintro ⟨_, h⟩
      obtain ⟨size, hsize, _⟩ := Except.bind_eq_ok.1 h
      exact ⟨size, hsize⟩
    · rintro ⟨size, hsize⟩
      exact ⟨_, Except.bind_eq_ok.2 ⟨size, hsize, rfl⟩⟩
  | index a i | property a i =>
    rw [fits, Bool.and_eq_true, decide_eq_true_eq, decide_eq_true_eq,
      ← Arch.exists_encodeAddress_iff, ← Arch.exists_encodeAddress_iff]
    constructor
    · rintro ⟨_, h⟩
      obtain ⟨first, hfirst, h⟩ := Except.bind_eq_ok.1 h
      obtain ⟨second, hsecond, _⟩ := Except.bind_eq_ok.1 h
      exact ⟨⟨first, hfirst⟩, second, hsecond⟩
    · rintro ⟨⟨first, hfirst⟩, second, hsecond⟩
      exact ⟨_, Except.bind_eq_ok.2 ⟨first, hfirst, Except.bind_eq_ok.2 ⟨second, hsecond, rfl⟩⟩⟩

/-- A written operand has its size. -/
theorem length_of_encode {op : Operand} (h : op.encode arch = .ok bs) :
    bs.length = op.size arch := by
  cases op with
  | implicit | indirect r => cases h; rfl
  | absolute a | static a => exact Arch.length_of_encodeAddress h
  | immediate v =>
    obtain ⟨size, hsize, h⟩ := Except.bind_eq_ok.1 h
    cases h
    rw [List.length_append, List.length_cons, Arch.length_of_encodeAddress hsize, Operand.size]
    omega
  | index a i | property a i =>
    obtain ⟨first, hfirst, h⟩ := Except.bind_eq_ok.1 h
    obtain ⟨second, hsecond, h⟩ := Except.bind_eq_ok.1 h
    cases h
    rw [List.length_append, Arch.length_of_encodeAddress hfirst,
      Arch.length_of_encodeAddress hsecond, Operand.size]
    omega

/-- What is read for a number is an address, and is written back. -/
theorem toNat_ofNat_address {v : Nat} (h : v ≤ arch.maxAddress) : (UInt64.ofNat v).toNat = v :=
  UInt64.toNat_ofNat_of_lt' (Nat.lt_of_le_of_lt h arch.maxAddress_lt)

/-- A reader of one address writes back what it read. -/
theorem writesBack_decodeOne {make : UInt64 → Operand} :
    WritesBack (decodeOne arch make) fun op bs =>
      ∃ a : UInt64, op = make a ∧ arch.encodeAddress a.toNat = .ok bs := by
  intro c op c' h
  unfold decodeOne at h
  split at h
  · cases h
  · next haddr =>
    cases h
    obtain ⟨bs, ⟨hbs, hmax⟩, hpass⟩ := arch.writesBack_decodeAddress haddr
    exact ⟨bs, ⟨_, rfl, by rw [toNat_ofNat_address hmax, hbs]⟩, hpass⟩

/-- A reader of two addresses writes back what it read. -/
theorem writesBack_decodeTwo {make : UInt64 → UInt64 → Operand} :
    WritesBack (decodeTwo arch make) fun op bs =>
      ∃ a i : UInt64, op = make a i ∧ ∃ first second, arch.encodeAddress a.toNat = .ok first ∧
        arch.encodeAddress i.toNat = .ok second ∧ bs = first ++ second := by
  intro c op c' h
  unfold decodeTwo at h
  split at h
  · cases h
  · next hfirst =>
    split at h
    · cases h
    · next hsecond =>
      cases h
      obtain ⟨bs, ⟨hbs, hmax⟩, hpass⟩ := arch.writesBack_decodeAddress hfirst
      obtain ⟨cs, ⟨hcs, hmax'⟩, hpass'⟩ := arch.writesBack_decodeAddress hsecond
      rw [← toNat_ofNat_address hmax] at hbs
      rw [← toNat_ofNat_address hmax'] at hcs
      exact ⟨bs ++ cs, ⟨_, _, rfl, bs, cs, hbs, hcs, rfl⟩, hpass.trans hpass'⟩

/-- The reader of immediate operands writes back what it read. -/
theorem writesBack_decodeImmediate :
    WritesBack (decodeImmediate arch) fun v bs => (immediate v).encode arch = .ok bs := by
  intro c v c' h
  unfold decodeImmediate at h
  split at h
  · cases h
  · next t rest hrest =>
    split at h
    · cases h
    · next k hk =>
      split at h
      · cases h
      · next haddr =>
        split at h
        · cases h
        · next htake =>
          split at h
          · cases h
          · next hv =>
            cases h
            have htag := Cursor.Passes.skip_one hrest
            obtain ⟨size, ⟨hsize, _⟩, hpass⟩ := arch.writesBack_decodeAddress haddr
            obtain ⟨hpass', hlen⟩ := Cursor.Passes.ofTake htake
            obtain ⟨rfl, rfl⟩ := Value.payload_of_ofPayload hv
            rw [← hlen] at hsize
            refine ⟨[t] ++ (size ++ v.payload), ?_, htag.trans (hpass.trans hpass')⟩
            refine Except.bind_eq_ok.2 ⟨size, hsize, ?_⟩
            rw [Kind.tag_of_ofTag? hk]
            rfl

/-- **An operand is written back.** -/
theorem writesBack_decode (mode : Mode) :
    WritesBack (decode arch mode) fun op bs => op.mode = mode ∧ op.encode arch = .ok bs := by
  intro c op c' h
  cases mode with
  | implicit | indirect r =>
    cases h
    exact ⟨[], ⟨rfl, rfl⟩, .refl c⟩
  | immediate =>
    obtain ⟨⟨v, c₁⟩, hv, heq⟩ := Except.map_eq_ok.1 h
    cases heq
    obtain ⟨bs, hbs, hpass⟩ := writesBack_decodeImmediate hv
    exact ⟨bs, ⟨rfl, hbs⟩, hpass⟩
  | absolute | absoluteStatic =>
    obtain ⟨bs, ⟨a, rfl, hbs⟩, hpass⟩ := writesBack_decodeOne h
    exact ⟨bs, ⟨rfl, hbs⟩, hpass⟩
  | absoluteIndex | absoluteProperty =>
    obtain ⟨bs, ⟨a, i, rfl, first, second, hfirst, hsecond, rfl⟩, hpass⟩ := writesBack_decodeTwo h
    refine ⟨_, ⟨rfl, ?_⟩, hpass⟩
    exact Except.bind_eq_ok.2 ⟨first, hfirst, Except.bind_eq_ok.2 ⟨second, hsecond, rfl⟩⟩

end Operand

/-! ## Instructions -/

/-- The list of mnemonics is complete. -/
theorem Mnemonic.mem_all (m : Mnemonic) : m ∈ all := by
  cases m with
  | load r | store r => cases r <;> decide
  | compare c => cases c <;> decide
  | logic op => cases op <;> decide
  | arith op => cases op <;> decide
  | convert k => cases k <;> decide
  | _ => decide

/-- No pair has two opcodes. -/
theorem Opcode.nodup_table : table.Nodup := by decide +kernel

/-- An opcode is that of the pair which it stands for. -/
theorem Opcode.encode?_of_decode? {op : UInt8} {m : Mnemonic} {mode : Mode}
    (h : decode? op = some (m, mode)) : encode? m mode = some op := by
  rw [decode?] at h
  split at h
  · cases h
  · next hop =>
    obtain ⟨hlt, hget⟩ := List.getElem?_eq_some_iff.1 h
    have hidx : table.idxOf? (m, mode) = some (op.toNat - 1) := by
      rw [List.idxOf?_eq_some_iff]
      refine ⟨hlt, by rw [hget], fun j hj => ?_⟩
      rw [← hget]
      exact List.pairwise_iff_getElem.1 nodup_table j _ (Nat.lt_trans hj hlt) hlt hj
    have hpos : op.toNat ≠ 0 := fun h0 => hop (UInt8.toNat_inj.1 h0)
    rw [encode?, hidx, Option.map_some]
    congr 1
    apply UInt8.toNat_inj.1
    rw [UInt8.toNat_ofNat']
    have := op.toNat_lt
    omega

/-- A pair with an opcode is supported. -/
theorem Opcode.supports_of_encode? {m : Mnemonic} {mode : Mode} {op : UInt8}
    (h : encode? m mode = some op) : m.supports mode = true := by
  obtain ⟨i, hi, _⟩ := Option.map_eq_some_iff.1 h
  obtain ⟨hlt, hget, _⟩ := List.idxOf?_eq_some_iff.1 hi
  have hmem : (m, mode) ∈ table := by
    rw [← hget]
    exact List.getElem_mem hlt
  obtain ⟨m', _, hmem⟩ := List.mem_flatMap.1 hmem
  obtain ⟨mode', hmode, heq⟩ := List.mem_map.1 hmem
  cases heq
  exact List.contains_iff_mem.2 hmode

/-- A supported pair has an opcode. -/
theorem Opcode.exists_encode? {m : Mnemonic} {mode : Mode} (h : m.supports mode = true) :
    ∃ op, encode? m mode = some op := by
  have hmem : (m, mode) ∈ table :=
    List.mem_flatMap.2 ⟨m, m.mem_all, List.mem_map.2 ⟨mode, List.contains_iff_mem.1 h, rfl⟩⟩
  cases hidx : table.idxOf? (m, mode) with
  | none => exact absurd hmem (List.idxOf?_eq_none_iff.1 hidx)
  | some n => exact ⟨_, congrArg (Option.map _) hidx⟩

namespace Instruction

/-- An instruction that can be written is legal and has an operand that fits. -/
theorem encode_eq_ok {i : Instruction} (h : i.encode arch = .ok bs) :
    i.isLegal = true ∧ i.operand.fits arch = true ∧ bs.length = i.size arch := by
  rw [encode] at h
  split at h
  · cases h
  · next hop =>
    split at h
    · cases h
    · next hoperand =>
      cases h
      refine ⟨Opcode.supports_of_encode? hop, Operand.exists_encode_iff.1 ⟨_, hoperand⟩, ?_⟩
      rw [List.length_cons, Operand.length_of_encode hoperand, size, Nat.add_comm]

/-- An instruction can be written exactly when it is legal and its operand fits. -/
theorem exists_encode_iff {i : Instruction} :
    (∃ bs, i.encode arch = .ok bs) ↔ i.isLegal = true ∧ i.operand.fits arch = true := by
  constructor
  · rintro ⟨bs, h⟩
    obtain ⟨hlegal, hfits, _⟩ := encode_eq_ok h
    exact ⟨hlegal, hfits⟩
  · rintro ⟨hlegal, hfits⟩
    obtain ⟨op, hop⟩ := Opcode.exists_encode? hlegal
    obtain ⟨bs, hbs⟩ := Operand.exists_encode_iff.2 hfits
    exact ⟨op :: bs, by simp only [encode, hop, hbs]⟩

/-- **An instruction is written back.** -/
theorem writesBack_decode : WritesBack (decode arch) fun i bs => i.encode arch = .ok bs := by
  intro c i c' h
  unfold decode at h
  split at h
  · cases h
  · next op rest hrest =>
    split at h
    · cases h
    · next m mode hop =>
      split at h
      · cases h
      · next operand next hoperand =>
        cases h
        obtain ⟨bs, ⟨rfl, hbs⟩, hpass⟩ := Operand.writesBack_decode mode hoperand
        refine ⟨[op] ++ bs, ?_, (Cursor.Passes.skip_one hrest).trans hpass⟩
        simp only [encode, Instruction.mode, Opcode.encode?_of_decode? hop, hbs]
        rfl

/-- **A stream is written back with the offsets at which its instructions were found.** -/
theorem writesBack_decodeFrom {base index : Nat} {count : Nat} {c c' : Cursor}
    {is : List (Instruction × Nat)} (hbase : base ≤ c.pos)
    (h : decodeFrom arch base index count c = .ok (is, c')) :
    is.length = count ∧ ∃ code, c.Passes code c' ∧ ∀ index',
      encodeFrom arch index' (c.pos - base) (is.map (·.1)) = .ok (code, is.map (·.2)) := by
  induction count generalizing index c is with
  | zero =>
    cases h
    exact ⟨rfl, [], .refl _, fun _ => rfl⟩
  | succ count ih =>
    unfold decodeFrom at h
    split at h
    · cases h
    · next i next hfirst =>
      split at h
      · cases h
      · next is' last hrest =>
        cases h
        obtain ⟨bs, hbs, hpass⟩ := writesBack_decode hfirst
        have hnext : base ≤ next.pos := by rw [hpass.pos]; omega
        obtain ⟨hlen, code, hpass', hcode⟩ := ih hnext hrest
        refine ⟨by rw [List.length_cons, hlen], bs ++ code, hpass.trans hpass', fun index' => ?_⟩
        have hoffset : next.pos - base = c.pos - base + bs.length := by rw [hpass.pos]; omega
        have htail := hcode (index' + 1)
        rw [hoffset] at htail
        rw [List.map_cons, encodeFrom, hbs]
        dsimp only
        rw [htail]
        rfl

/-- A whole stream is written back with the offsets from its start. -/
theorem writesBack_decodeAll {count : Nat} {c c' : Cursor} {is : List (Instruction × Nat)}
    (h : decodeAll arch count c = .ok (is, c')) :
    is.length = count ∧ ∃ code, c.Passes code c' ∧
      encodeAll arch (is.map (·.1)) = .ok (code, is.map (·.2)) := by
  obtain ⟨hlen, code, hpass, hcode⟩ := writesBack_decodeFrom (Nat.le_refl _) h
  refine ⟨hlen, code, hpass, ?_⟩
  have := hcode 0
  rwa [Nat.sub_self] at this

/-- The instructions of a written stream are legal and fit, and the offset of each is the size of
those before it. -/
theorem encodeFrom_eq_ok {index offset : Nat} {is : List Instruction} {code : Bytes}
    {offsets : List Nat} (h : encodeFrom arch index offset is = .ok (code, offsets)) :
    (∀ i ∈ is, i.isLegal = true ∧ i.operand.fits arch = true) ∧
      offsets = (List.range is.length).map fun n => offset + ((is.take n).map (size arch)).sum := by
  induction is generalizing index offset code offsets with
  | nil =>
    cases h
    exact ⟨fun _ hi => absurd hi List.not_mem_nil, rfl⟩
  | cons i is ih =>
    rw [encodeFrom] at h
    split at h
    · cases h
    · next bs hbs =>
      split at h
      · cases h
      · next code' offsets' hrest =>
        cases h
        obtain ⟨hlegal, hfits, hlen⟩ := encode_eq_ok hbs
        obtain ⟨hall, hoffsets⟩ := ih hrest
        refine ⟨List.forall_mem_cons.2 ⟨⟨hlegal, hfits⟩, hall⟩, ?_⟩
        rw [List.length_cons, List.range_succ_eq_map, List.map_cons, List.map_map, hoffsets]
        congr 1
        refine List.map_congr_left fun n _ => ?_
        rw [Function.comp_apply, List.take_succ_cons, List.map_cons, List.sum_cons, hlen]
        omega

/-- Instructions take a byte at least, and no offset is behind the last of them. -/
theorem bounds_of_encodeFrom {index offset : Nat} {is : List Instruction} {code : Bytes}
    {offsets : List Nat} (h : encodeFrom arch index offset is = .ok (code, offsets)) :
    is.length ≤ code.length ∧ ∀ o ∈ offsets, o ≤ offset + code.length := by
  induction is generalizing index offset code offsets with
  | nil =>
    cases h
    exact ⟨Nat.le_refl 0, fun _ ho => nomatch ho⟩
  | cons i is ih =>
    rw [encodeFrom] at h
    split at h
    · cases h
    · next bs hbs =>
      split at h
      · cases h
      · next code' offsets' hrest =>
        cases h
        obtain ⟨_, _, hlen⟩ := encode_eq_ok hbs
        obtain ⟨hmany, hoffsets⟩ := ih hrest
        rw [size] at hlen
        rw [List.length_cons, List.length_append]
        refine ⟨by omega, List.forall_mem_cons.2 ⟨Nat.le_add_right _ _, fun o ho => ?_⟩⟩
        have := hoffsets o ho
        omega

end Instruction

/-! ## Programs -/

namespace Program

variable {p : Program}

/-- Of calls in order, each is the one at its site. -/
theorem find?_site {ns : List NativeCall} (h : ns.Pairwise (·.site < ·.site)) {n : NativeCall}
    (hn : n ∈ ns) : ns.find? (·.site.toNat == n.site.toNat) = some n := by
  induction ns with
  | nil => cases hn
  | cons m ns ih =>
    obtain ⟨hm, hns⟩ := List.pairwise_cons.1 h
    rcases List.mem_cons.1 hn with rfl | hn
    · exact List.find?_cons_of_pos (beq_self_eq_true n.site.toNat)
    · have hlt := UInt64.lt_iff_toNat_lt.1 (hm n hn)
      rw [List.find?_cons_of_neg (by simpa using Nat.ne_of_lt hlt), ih hns hn]

/-- What a valid entry point points at. -/
theorem validateEntry_eq_ok (h : p.validateEntry = .ok ()) :
    ∃ i, p.at? p.entry.start.toNat = some i ∧ i.mnemonic = .function ∧
      p.entry.start < p.entry.stop ∧ p.entry.stop.toNat ≤ p.length := by
  unfold validateEntry at h
  dsimp only at h
  split at h
  · cases h
  · next i hi =>
    split at h
    · cases h
    · next hstop =>
      split at h
      · cases h
      · next hmnemonic =>
        obtain ⟨hlen, hlt⟩ := not_or.1 hstop
        exact ⟨i, hi, not_not.1 hmnemonic, UInt64.lt_iff_toNat_lt.2 (Nat.lt_of_not_le hlt),
          Nat.le_of_not_lt hlen⟩

/-- What a valid program's entry point and native calls point at. -/
theorem validate_eq_ok (h : p.validate = .ok ()) :
    (p.mainExists = true → ∃ i, p.at? p.entry.start.toNat = some i ∧ i.mnemonic = .function ∧
      p.entry.start < p.entry.stop ∧ p.entry.stop.toNat ≤ p.length) ∧
      ∀ n ∈ p.natives, p.callsNative n.site.toNat = true := by
  have hcalls : p.natives.find? (fun n => !p.callsNative n.site.toNat) = none →
      ∀ n ∈ p.natives, p.callsNative n.site.toNat = true := by
    intro hnone n hn
    simpa using List.find?_eq_none.1 hnone n hn
  unfold validate at h
  dsimp only at h
  split at h
  · obtain ⟨_, hentry, h⟩ := Except.bind_eq_ok.1 h
    split at h
    · cases h
    · next hnone => exact ⟨fun _ => validateEntry_eq_ok hentry, hcalls hnone⟩
  · next hmain =>
    split at h
    · cases h
    · next hnone => exact ⟨fun hexists => absurd hexists hmain, hcalls hnone⟩

/-- What the reader of program files makes sure of. -/
structure WellFormed (p : Program) : Prop where
  arch : p.arch.isSupported = true
  /-- Instructions are legal, and their operands fit the architecture and nest within the limit. -/
  instructions : ∀ i ∈ p.instructions, i.isLegal = true ∧ i.operand.fits p.arch = true ∧
    i.operand.depth ≤ Value.maxDepth
  /-- The offset of an instruction is the size of those before it. -/
  offsets : p.offsets.toList = (List.range p.instructions.toList.length).map fun n =>
    ((p.instructions.toList.take n).map (Instruction.size p.arch)).sum
  /-- The main function has a header and a body inside the program. -/
  entry : p.mainExists = true → ∃ i, p.at? p.entry.start.toNat = some i ∧ i.mnemonic = .function ∧
    p.entry.start < p.entry.stop ∧ p.entry.stop.toNat ≤ p.length
  /-- Every native call is the one at its site, where such a call is made. -/
  natives : ∀ n ∈ p.natives, p.native? n.site.toNat = some n ∧ p.callsNative n.site.toNat = true

/-- What was read after the fixed head is written back, up to the trailer. -/
theorem writesBack_readBody {arch : Arch} {main : Bool} {c : Cursor}
    (h : readBody arch main c = .ok p) :
    p.arch = arch ∧ p.mainExists = main ∧ p.validate = .ok () ∧
      p.natives.Pairwise (·.site < ·.site) ∧ ∃ numbers code tail,
        p.headNumbers.mapM arch.encodeAddress = .ok numbers ∧
        Instruction.encodeAll arch p.instructions.toList = .ok (code, p.offsets.toList) ∧
        c.rest = numbers.flatten ++ (code ++ tail) := by
  unfold readBody at h
  obtain ⟨⟨numbers, c₁⟩, hnumbers, h⟩ := Except.bind_eq_ok.1 h
  dsimp only at h
  split at h
  · cases h
  obtain ⟨⟨code, c₂⟩, hcode, h⟩ := Except.bind_eq_ok.1 h
  obtain ⟨natives, _, h⟩ := Except.bind_eq_ok.1 h
  dsimp only at h
  split at h
  · cases h
  next hvalid =>
  cases h
  obtain ⟨_, ⟨hfour, bss, hbss, rfl⟩, hpass⟩ :=
    arch.writesBack_decodeAddress.many 4 (Except.mapError_eq_ok.1 hnumbers)
  obtain ⟨hcount, bytes, hpass', hbytes⟩ :=
    Instruction.writesBack_decodeAll (Except.mapError_eq_ok.1 hcode)
  refine ⟨rfl, rfl, hvalid, (sortNatives_sorted natives).1, bss, bytes, c₂.rest, ?_, hbytes, ?_⟩
  · -- The four numbers are addresses, so they are kept as they are, and the last is the count.
    obtain ⟨n₀, n₁, n₂, n₃, rfl⟩ : ∃ n₀ n₁ n₂ n₃, numbers = [n₀, n₁, n₂, n₃] := by
      match numbers, hfour with
      | [n₀, n₁, n₂, n₃], _ => exact ⟨n₀, n₁, n₂, n₃, rfl⟩
    have hmax : ∀ n ∈ [n₀, n₁, n₂, n₃], n ≤ arch.maxAddress := by
      intro n hn
      obtain ⟨_, _, hle⟩ := exists_of_mem_forall₂ hbss hn
      exact hle.2
    have hlen : (code.map (·.1)).toArray.size = n₃ := by
      rw [List.size_toArray, List.length_map, hcount]
      rfl
    refine Except.mapM_eq_ok.2 ?_
    simp only [headNumbers, length, List.getD_cons_zero, List.getD_cons_succ, hlen,
      Operand.toNat_ofNat_address (hmax n₀ (by simp)),
      Operand.toNat_ofNat_address (hmax n₁ (by simp)),
      Operand.toNat_ofNat_address (hmax n₂ (by simp))]
    exact hbss.imp fun _ _ h => h.1
  · rw [hpass.rest, hpass'.rest]

/-- The fixed head of a file that is accepted. -/
theorem readBody_of_deserialize {data : Bytes} (h : deserialize data = .ok p) :
    ∃ arch main rest, arch.isSupported = true ∧
      data = magic ++ littleEndian 2 fileVersion ++ [arch.byte] ++ main :: rest ∧
      readBody arch (main = 1) ⟨8, rest⟩ = .ok p := by
  unfold deserialize at h
  split at h
  · next m₀ m₁ m₂ m₃ v₀ v₁ archByte main rest =>
    dsimp only at h
    split at h
    · cases h
    next hmagic =>
    split at h
    · cases h
    next hversion =>
    split at h
    · cases h
    next harch =>
    have hmagic := not_not.1 hmagic
    have hbytes : littleEndian 2 fileVersion = [v₀, v₁] := by
      rw [← not_not.1 hversion]
      exact Bytes.littleEndian_ofLittleEndian [v₀, v₁]
    refine ⟨⟨archByte⟩, main, rest, by simpa using harch, ?_, h⟩
    rw [← hmagic, hbytes]
    rfl
  · cases h

/-- An accepted program is no longer than its file, and neither are the offsets of its
instructions. -/
theorem bounds_of_deserialize {data : Bytes} (h : deserialize data = .ok p) :
    p.length ≤ data.length ∧ ∀ o ∈ p.offsets, o ≤ data.length := by
  obtain ⟨arch, main, rest, _, rfl, hbody⟩ := readBody_of_deserialize h
  obtain ⟨_, _, _, _, numbers, code, tail, _, hcode, hrest⟩ := writesBack_readBody hbody
  obtain ⟨hmany, hoffsets⟩ := Instruction.bounds_of_encodeFrom hcode
  have hrest : rest = numbers.flatten ++ (code ++ tail) := hrest
  have hlen : code.length ≤ rest.length := by
    rw [hrest, List.length_append, List.length_append]
    omega
  have hdata : rest.length ≤ (magic ++ littleEndian 2 fileVersion ++ [arch.byte] ++ main ::
      rest).length := by
    rw [List.length_append, List.length_cons]
    omega
  refine ⟨Nat.le_trans hmany (Nat.le_trans hlen hdata), fun o ho => ?_⟩
  have := hoffsets o (Array.mem_toList_iff.2 ho)
  omega

/-- An accepted program can be written. -/
theorem exists_serialize_of_deserialize {data : Bytes} (h : deserialize data = .ok p) :
    ∃ file, p.serialize = .ok file := by
  obtain ⟨arch, main, rest, harch, _, hbody⟩ := readBody_of_deserialize h
  obtain ⟨rfl, _, _, _, numbers, code, _, hnumbers, hcode, _⟩ := writesBack_readBody hbody
  simp only [serialize, harch, Bool.not_true, Bool.false_eq_true, if_false]
  exact ⟨_, Except.bind_eq_ok.2
    ⟨numbers, Except.mapError_eq_ok.2 hnumbers, Except.bind_eq_ok.2 ⟨_, hcode, rfl⟩⟩⟩

/-- **The names of native calls that are read are UTF-8.** -/
theorem isUtf8_readNative {x : Cbor} {n : NativeCall} (h : readNative x = .ok n) :
    Text.isUtf8 n.name = true ∧ Text.isUtf8 n.module = true := by
  refine Cbor.readRecord_induction
    (P := fun n => Text.isUtf8 n.name = true ∧ Text.isUtf8 n.module = true)
    (fun f hf {x s s'} hset hs => ?_) ⟨Text.isUtf8_nil, Text.isUtf8_nil⟩ h
  simp only [List.mem_cons, List.not_mem_nil, or_false] at hf
  rcases hf with rfl | rfl | rfl | rfl
  · obtain ⟨v, _, rfl⟩ := Except.map_eq_ok.1 hset
    exact hs
  · obtain ⟨v, hv, rfl⟩ := Except.map_eq_ok.1 hset
    exact ⟨hs.1, Cbor.isUtf8_readText hv⟩
  · obtain ⟨v, _, rfl⟩ := Except.map_eq_ok.1 hset
    exact hs
  · obtain ⟨v, hv, rfl⟩ := Except.map_eq_ok.1 hset
    exact ⟨Cbor.isUtf8_readText hv, hs.2⟩

/-- The names in a trailer that is read are UTF-8. -/
theorem isUtf8_readTail {c : Cursor} {ns : List NativeCall} (h : readTail c = .ok ns) :
    ∀ n ∈ ns, Text.isUtf8 n.name = true ∧ Text.isUtf8 n.module = true := by
  unfold readTail at h
  split at h
  · cases h
  · split at h
    · cases h
    · obtain ⟨ms, hms, h⟩ := Except.bind_eq_ok.1 h
      dsimp only at h
      split at h
      · cases h
      · cases h
        unfold readTrailer at hms
        split at hms
        · cases hms
        · intro n hn
          obtain ⟨y, hy⟩ := Cbor.exists_of_mem_readList (Except.mapError_eq_ok.1 hms) n hn
          exact isUtf8_readNative hy

/-- The native calls of a program that was read are named in UTF-8. -/
theorem isUtf8_natives_of_deserialize {data : Bytes} (h : deserialize data = .ok p) :
    ∀ n ∈ p.natives, Text.isUtf8 n.name = true ∧ Text.isUtf8 n.module = true := by
  obtain ⟨arch, main, rest, _, _, hbody⟩ := readBody_of_deserialize h
  unfold readBody at hbody
  obtain ⟨_, _, hbody⟩ := Except.bind_eq_ok.1 hbody
  dsimp only at hbody
  split at hbody
  · cases hbody
  obtain ⟨_, _, hbody⟩ := Except.bind_eq_ok.1 hbody
  obtain ⟨ns, hns, hbody⟩ := Except.bind_eq_ok.1 hbody
  split at hbody
  · cases hbody
  · cases hbody
    exact fun n hn => isUtf8_readTail hns n ((sortNatives_sorted ns).2 n hn)

/-- **What the reader of program files accepts is well formed, and has one encoding up to the
trailer.** Written again, the program gives the file that it was read from, but for the byte that
says whether there is a main function, and for the trailer. -/
theorem accepted_canonical {data : Bytes} (h : deserialize data = .ok p) :
    p.WellFormed ∧ ∃ (main : UInt8) (numbers : List Bytes) (code tail : Bytes),
      p.headNumbers.mapM p.arch.encodeAddress = .ok numbers ∧
      Instruction.encodeAll p.arch p.instructions.toList = .ok (code, p.offsets.toList) ∧
      data = magic ++ littleEndian 2 fileVersion ++ [p.arch.byte] ++
        main :: (numbers.flatten ++ code ++ tail) ∧
      p.mainExists = decide (main = 1) ∧
      p.serialize = .ok (magic ++ littleEndian 2 fileVersion ++ [p.arch.byte] ++
        (if p.mainExists then 1 else 0) :: (numbers.flatten ++ code ++
          (littleEndian 4 (trailer p.natives).length ++ trailer p.natives))) := by
  have hdepth := depth_le_of_deserialize h
  obtain ⟨arch, main, rest, harch, rfl, hbody⟩ := readBody_of_deserialize h
  obtain ⟨rfl, hmain, hvalid, hsorted, numbers, code, tail, hnumbers, hcode, hrest⟩ :=
    writesBack_readBody hbody
  obtain ⟨hentry, hnatives⟩ := validate_eq_ok hvalid
  obtain ⟨hlegal, hoffsets⟩ := Instruction.encodeFrom_eq_ok hcode
  refine ⟨⟨harch, fun i hi => ?_, ?_, hentry, fun n hn => ⟨find?_site hsorted hn, hnatives n hn⟩⟩,
    main, numbers, code, tail, hnumbers, hcode, ?_, hmain, ?_⟩
  · obtain ⟨hi', hfits⟩ := hlegal i (Array.mem_toList_iff.2 hi)
    exact ⟨hi', hfits, hdepth i hi⟩
  · simpa only [Nat.zero_add] using hoffsets
  · have hrest : rest = numbers.flatten ++ (code ++ tail) := hrest
    rw [hrest, ← List.append_assoc numbers.flatten]
  · simp only [serialize, harch, Bool.not_true, Bool.false_eq_true, if_false]
    refine Except.bind_eq_ok.2 ⟨numbers, Except.mapError_eq_ok.2 hnumbers, ?_⟩
    refine Except.bind_eq_ok.2 ⟨_, hcode, ?_⟩
    simp only [List.append_assoc, List.cons_append, List.nil_append]
    rfl

/-- A file of `fileSample` whose trailer is not the written one: the array has no length, and the
fields of the call stand in another order. -/
def looseFile : Bytes :=
  [82, 71, 86, 77, 1, 0, 16, 1, 0, 0, 5, 0, 7, 0, 5, 0] ++
    [118, 1, 9, 0, 64, 7, 0, 0, 0, 0, 0, 0, 0, 47, 1, 9, 0, 64, 5, 0, 0, 0, 0, 0, 0, 0,
      28, 9, 18, 0, 2, 0, 0, 0, 6, 2, 0, 0, 0, 104, 105, 9, 1, 0, 0, 0, 5, 1, 116, 3, 0, 88] ++
    [37, 0, 0, 0, 159, 164, 102, 109, 111, 100, 117, 108, 101, 99, 115, 116, 100, 100,
      115, 105, 116, 101, 3, 100, 110, 97, 109, 101, 101, 112, 114, 105, 110, 116, 100,
      104, 97, 115, 104, 9, 255]

/-- `looseFile` is accepted and is not what is written, and agrees with that up to the trailer. -/
theorem accepted_canonical_looseFile :
    deserialize looseFile = .ok fileSample ∧ fileSample.serialize ≠ .ok looseFile ∧
      fileSample.WellFormed ∧ ∃ (main : UInt8) (numbers : List Bytes) (code tail : Bytes),
        looseFile = magic ++ littleEndian 2 fileVersion ++ [fileSample.arch.byte] ++
          main :: (numbers.flatten ++ code ++ tail) ∧
        fileSample.serialize = .ok (magic ++ littleEndian 2 fileVersion ++ [fileSample.arch.byte] ++
          (if fileSample.mainExists then 1 else 0) :: (numbers.flatten ++ code ++
            (littleEndian 4 (trailer fileSample.natives).length
              ++ trailer fileSample.natives))) := by
  have haccepted : deserialize looseFile = .ok fileSample := by decide +kernel
  obtain ⟨hwell, main, numbers, code, tail, _, _, hdata, _, hwritten⟩ :=
    accepted_canonical haccepted
  exact ⟨haccepted, by decide +kernel, hwell, main, numbers, code, tail, hdata, hwritten⟩

end Program

end RegisterMachine
