import RegisterMachine.Program.File
import RegisterMachine.Proofs.Codec.Cbor
import RegisterMachine.Proofs.Codec.Instruction
import RegisterMachine.Proofs.Codec.Record

/-!
# Reading program files back

A program file is a fixed head, four addresses, the instructions and a trailer with the native
calls. `Program.readTrailer_trailer` reads the trailer back, `Program.readTail_written` what follows
the instructions, and `Program.readBody_written` what follows the fixed head, where everything but
the trailer is dealt with in `Program.readBody_eq_bind`. `Program.deserialize_serialize` says that a
program that can be written (`Program.Storable`) is the program that is found in its file.
-/

namespace RegisterMachine.Program

open Bytes (littleEndian ofLittleEndian)

/-! ## The trailer -/

/-- A native call is read back from its item. -/
theorem readNative_nativeItem {n : NativeCall} (hname : Text.isUtf8 n.name = true)
    (hmodule : Text.isUtf8 n.module = true) : readNative (nativeItem n) = .ok n := by
  have hhash : n.hash.toNat ≤ 2 ^ 64 - 1 := Nat.le_sub_one_of_lt n.hash.toNat_lt
  have hsite : n.site.toNat ≤ 2 ^ 64 - 1 := Nat.le_sub_one_of_lt n.site.toNat_lt
  rw [readNative, nativeItem]
  change Cbor.readEntries _ _ _ = _
  rw [Cbor.readEntries_cons (by decide +kernel) rfl (Cbor.set_field (Cbor.readNat_unsigned hhash)),
    Cbor.readEntries_cons (by decide +kernel) rfl (Cbor.set_field (Cbor.readText_ofText hname)),
    Cbor.readEntries_cons (by decide +kernel) rfl (Cbor.set_field (Cbor.readNat_unsigned hsite)),
    Cbor.readEntries_cons (by decide +kernel) rfl (Cbor.set_field (Cbor.readText_ofText hmodule))]
  rw [Cbor.readEntries, UInt64.ofNat_toNat, UInt64.ofNat_toNat]

/-- The names of a native call are part of its written form. -/
theorem length_names_le (n : NativeCall) :
    n.name.length ≤ (nativeItem n).encode.length ∧
      n.module.length ≤ (nativeItem n).encode.length := by
  simp only [nativeItem, Cbor.encode, Cbor.encodeEntries, Cbor.ofText, List.length_append,
    List.flatten_cons, List.flatten_nil, List.append_nil]
  omega

/-- The item of a native call is read back when its names are not too long. -/
theorem isReadable_nativeItem {n : NativeCall} (levels : Nat) (hname : n.name.length < 2 ^ 64)
    (hmodule : n.module.length < 2 ^ 64) : (nativeItem n).isReadable (levels + 2) = true := by
  have hhash : n.hash.toNat < 2 ^ 64 := n.hash.toNat_lt
  have hsite : n.site.toNat < 2 ^ 64 := n.site.toNat_lt
  have hmax : 4 ≤ Cbor.maxItems := by decide
  simp only [nativeItem, Cbor.isReadable, Cbor.ofText, List.all_cons, List.all_nil, Bool.and_true,
    Bool.and_eq_true, decide_eq_true_eq]
  exact ⟨hmax, ⟨by decide, hhash⟩, ⟨by decide, hname⟩, ⟨by decide, hsite⟩, by decide, hmodule⟩

/-- The item of a trailer is read back when it is not too long. -/
theorem isReadable_trailer {ns : List NativeCall} (hcount : ns.length ≤ Cbor.maxItems)
    (hlen : (trailer ns).length < 2 ^ 32) :
    (Cbor.array (ns.map nativeItem)).isReadable Cbor.maxLevels = true := by
  have hitems : ∀ n ∈ ns, (nativeItem n).isReadable 31 = true := by
    intro n hn
    have hmem := Cbor.length_encode_le (List.mem_map_of_mem (f := nativeItem) hn)
    have hnames := length_names_le n
    rw [trailer, Cbor.encode, List.length_append] at hlen
    exact isReadable_nativeItem 29 (by omega) (by omega)
  rw [Cbor.maxLevels, Cbor.isReadable, List.length_map, List.all_map, Bool.and_eq_true,
    decide_eq_true_eq, List.all_eq_true]
  exact ⟨hcount, hitems⟩

/-- **The trailer is read back** when it has no more calls than the reader accepts. -/
theorem readTrailer_trailer {ns : List NativeCall} (hcount : ns.length ≤ Cbor.maxItems)
    (hlen : (trailer ns).length < 2 ^ 32)
    (hnames : ∀ n ∈ ns, Text.isUtf8 n.name = true ∧ Text.isUtf8 n.module = true) :
    readTrailer (trailer ns) = .ok ns := by
  rw [readTrailer, trailer, Cbor.decode?_encode (isReadable_trailer hcount hlen)]
  dsimp only
  rw [Cbor.readList_array (fun n hn => readNative_nativeItem (hnames n hn).1 (hnames n hn).2)]
  rfl

/-! ## Native calls in order -/

/-- A call behind all others goes to the end. -/
theorem insertNative_of_lt {n : NativeCall} {ms : List NativeCall} (h : ∀ m ∈ ms, m.site < n.site) :
    insertNative n ms = ms ++ [n] := by
  induction ms with
  | nil => rfl
  | cons m ms ih =>
    have hm : m.site < n.site := h m List.mem_cons_self
    have hlt : ¬ n.site < m.site := UInt64.not_lt.2 (UInt64.le_of_lt hm)
    have hne : n.site ≠ m.site := (UInt64.ne_of_lt hm).symm
    rw [insertNative, if_neg hlt, if_neg hne, ih (fun m' hm' => h m' (List.mem_cons_of_mem m hm'))]
    rfl

/-- Calls that are in order stay as they are. -/
theorem sortNatives_of_sorted {ns : List NativeCall} (h : ns.Pairwise (·.site < ·.site)) :
    sortNatives ns = ns := by
  have hfold : ∀ (ns done : List NativeCall), (done ++ ns).Pairwise (·.site < ·.site) →
      ns.foldl (fun sorted n => insertNative n sorted) done = done ++ ns := by
    intro ns
    induction ns with
    | nil => intro done _; simp
    | cons n ns ih =>
      intro done hd
      have hlast : ∀ m ∈ done, m.site < n.site := fun m hm =>
        (List.pairwise_append.1 hd).2.2 m hm n List.mem_cons_self
      rw [List.foldl_cons, insertNative_of_lt hlast, ih _ (by simpa using hd)]
      simp
  exact hfold ns [] h

/-- Putting a call in its place keeps the order and adds nothing else. -/
theorem insertNative_sorted (n : NativeCall) {ms : List NativeCall}
    (h : ms.Pairwise (·.site < ·.site)) :
    (insertNative n ms).Pairwise (·.site < ·.site) ∧ ∀ m ∈ insertNative n ms, m = n ∨ m ∈ ms := by
  induction ms with
  | nil => simp [insertNative]
  | cons m ms ih =>
    obtain ⟨hm, hms⟩ := List.pairwise_cons.1 h
    rw [insertNative]
    split
    · next hlt =>
      have hn : ∀ m' ∈ m :: ms, n.site < m'.site :=
        List.forall_mem_cons.2 ⟨hlt, fun m' hm' => UInt64.lt_trans hlt (hm m' hm')⟩
      exact ⟨List.pairwise_cons.2 ⟨hn, h⟩, fun m' hm' => List.mem_cons.1 hm'⟩
    split
    · next heq =>
      refine ⟨List.pairwise_cons.2 ⟨fun m' hm' => heq ▸ hm m' hm', hms⟩, fun m' hm' => ?_⟩
      exact (List.mem_cons.1 hm').imp_right (List.mem_cons_of_mem m)
    · next hle hne =>
      obtain ⟨hsorted, hmem⟩ := ih hms
      have hlt : m.site < n.site := UInt64.lt_of_le_of_ne (UInt64.not_lt.1 hle) (Ne.symm hne)
      refine ⟨List.pairwise_cons.2 ⟨fun m' hm' => ?_, hsorted⟩, fun m' hm' => ?_⟩
      · rcases hmem m' hm' with rfl | hm'
        · exact hlt
        · exact hm m' hm'
      · rcases List.mem_cons.1 hm' with rfl | hm'
        · exact .inr List.mem_cons_self
        · exact (hmem m' hm').imp_right (List.mem_cons_of_mem m)

/-- Sorting gives calls in order, each of which was given. -/
theorem sortNatives_sorted (ns : List NativeCall) :
    (sortNatives ns).Pairwise (·.site < ·.site) ∧ ∀ m ∈ sortNatives ns, m ∈ ns := by
  have hfold : ∀ (ns done : List NativeCall), done.Pairwise (·.site < ·.site) →
      (ns.foldl (fun sorted n => insertNative n sorted) done).Pairwise (·.site < ·.site) ∧
        ∀ m ∈ ns.foldl (fun sorted n => insertNative n sorted) done, m ∈ done ∨ m ∈ ns := by
    intro ns
    induction ns with
    | nil => exact fun done hd => ⟨hd, fun m hm => .inl hm⟩
    | cons n ns ih =>
      intro done hd
      obtain ⟨hins, hmem⟩ := insertNative_sorted n hd
      obtain ⟨hsorted, hfrom⟩ := ih _ hins
      refine ⟨hsorted, fun m hm => ?_⟩
      rcases hfrom m hm with hm | hm
      · rcases hmem m hm with rfl | hm
        · exact .inr List.mem_cons_self
        · exact .inl hm
      · exact .inr (List.mem_cons_of_mem n hm)
  obtain ⟨hsorted, hmem⟩ := hfold ns [] .nil
  exact ⟨hsorted, fun m hm => (hmem m hm).resolve_left List.not_mem_nil⟩

/-! ## The parts of a file -/

/-- What follows the instructions is read back when the trailer is. -/
theorem readTail_written {ns : List NativeCall} (hread : readTrailer (trailer ns) = .ok ns)
    (hlen : (trailer ns).length < 2 ^ 32) (pos : Nat) :
    readTail ⟨pos, littleEndian 4 (trailer ns).length ++ trailer ns⟩ = .ok ns := by
  have htail := Cursor.take?_append (trailer ns) rfl (pos + 4) []
  rw [List.append_nil] at htail
  rw [readTail, Cursor.take?_append _ (Bytes.length_littleEndian _ _)]
  dsimp only
  rw [ofLittleEndian_of_lt hlen, htail]
  dsimp only
  rw [hread]
  rfl

/-- A program that can be written and read back: it is valid, its immediate values can be encoded,
its offsets are those of its instructions, its native calls are in order and have names in UTF-8,
and the trailer's size fits the file. -/
structure Storable (p : Program) : Prop where
  valid : p.validate = .ok ()
  immediates : ∀ i ∈ p.instructions, i.operand.isEncodable = true
  offsets : ∃ code, Instruction.encodeAll p.arch p.instructions.toList =
    .ok (code, p.offsets.toList)
  natives : p.natives.Pairwise (·.site < ·.site)
  names : ∀ n ∈ p.natives, Text.isUtf8 n.name = true ∧ Text.isUtf8 n.module = true
  trailer : (trailer p.natives).length < 2 ^ 32

variable {p : Program} {code : Bytes} {bss : List Bytes}

/-- The parts that a reader finds make up the program again. -/
theorem rebuilt_eq (hsize : p.offsets.toList.length = p.instructions.toList.length)
    (hnatives : p.natives.Pairwise (·.site < ·.site)) :
    ({ arch := p.arch
       mainExists := p.mainExists
       entry := ⟨UInt64.ofNat (p.headNumbers.getD 0 0), UInt64.ofNat (p.headNumbers.getD 1 0),
         UInt64.ofNat (p.headNumbers.getD 2 0)⟩
       instructions := ((p.instructions.toList.zip p.offsets.toList).map (·.1)).toArray
       offsets := ((p.instructions.toList.zip p.offsets.toList).map (·.2)).toArray
       natives := sortNatives p.natives } : Program) = p := by
  have hfst : (p.instructions.toList.zip p.offsets.toList).map (·.1) = p.instructions.toList :=
    List.map_fst_zip (Nat.le_of_eq hsize.symm)
  have hsnd : (p.instructions.toList.zip p.offsets.toList).map (·.2) = p.offsets.toList :=
    List.map_snd_zip (Nat.le_of_eq hsize)
  rw [hfst, hsnd, sortNatives_of_sorted hnatives, Array.toArray_toList, Array.toArray_toList]
  simp only [headNumbers, List.getD_cons_zero, List.getD_cons_succ, UInt64.ofNat_toNat]

/-- Reading what was written after the fixed head comes down to reading the trailer. -/
theorem readBody_eq_bind (hvalid : p.validate = .ok ())
    (himm : ∀ i ∈ p.instructions, i.operand.isEncodable = true)
    (hsorted : p.natives.Pairwise (·.site < ·.site))
    (hnumbers : p.headNumbers.mapM p.arch.encodeAddress = .ok bss)
    (hcode : Instruction.encodeAll p.arch p.instructions.toList = .ok (code, p.offsets.toList))
    (pos : Nat) (suf : Bytes) :
    ∃ (pos' : Nat) (finish : List NativeCall → Except CodecError Program),
      readBody p.arch p.mainExists ⟨pos, bss.flatten ++ (code ++ suf)⟩ =
        readTail ⟨pos', suf⟩ >>= finish ∧ finish p.natives = .ok p := by
  have hhead : Reads (readMany p.arch.decodeAddress 4) bss.flatten p.headNumbers :=
    Reads.many ((Except.mapM_eq_ok.1 hnumbers).flip.imp fun _ _ h => Arch.reads_address h)
  obtain ⟨hstream, hsize, hle⟩ := Instruction.reads_stream hcode (by simpa using himm)
  have hcount : p.headNumbers.getD 3 0 = p.instructions.toList.length := rfl
  unfold readBody
  rw [hhead]
  simp only [Except.mapError, bind, Except.bind]
  rw [hcount, if_neg (by rw [List.length_append]; omega), hstream]
  refine ⟨_, _, rfl, ?_⟩
  dsimp only
  rw [rebuilt_eq hsize hsorted, hvalid]
  rfl

/-- What follows the fixed head is read back when the trailer is. -/
theorem readBody_written (hp : p.Storable) (hread : readTrailer (trailer p.natives) = .ok p.natives)
    (hnumbers : p.headNumbers.mapM p.arch.encodeAddress = .ok bss)
    (hcode : Instruction.encodeAll p.arch p.instructions.toList = .ok (code, p.offsets.toList))
    (pos : Nat) :
    readBody p.arch p.mainExists ⟨pos, bss.flatten ++
      (code ++ (littleEndian 4 (trailer p.natives).length ++ trailer p.natives))⟩ = .ok p := by
  obtain ⟨pos', finish, hbody, hfinish⟩ :=
    readBody_eq_bind hp.valid hp.immediates hp.natives hnumbers hcode pos _
  rw [hbody, readTail_written hread hp.trailer pos']
  exact hfinish

/-- What a program file is made of. -/
theorem serialize_eq_ok {data : Bytes} (h : p.serialize = .ok data) :
    p.arch.isSupported = true ∧ ∃ bss code offsets,
      p.headNumbers.mapM p.arch.encodeAddress = .ok bss ∧
      Instruction.encodeAll p.arch p.instructions.toList = .ok (code, offsets) ∧
      data = magic ++ littleEndian 2 fileVersion ++ [p.arch.byte, if p.mainExists then 1 else 0] ++
        (bss.flatten ++ (code ++ (littleEndian 4 (trailer p.natives).length
          ++ trailer p.natives))) := by
  cases harch : p.arch.isSupported with
  | false =>
    simp only [serialize, harch, Bool.not_false, if_true] at h
    cases h
  | true =>
    simp only [serialize, harch, Bool.not_true, Bool.false_eq_true, if_false] at h
    obtain ⟨bss, hnumbers, h⟩ := Except.bind_eq_ok.1 h
    obtain ⟨⟨code, offsets⟩, hcode, h⟩ := Except.bind_eq_ok.1 h
    cases h
    refine ⟨rfl, bss, code, offsets, Except.mapError_eq_ok.1 hnumbers, hcode, ?_⟩
    simp only [List.append_assoc]

/-- The fixed head of a file says how to read the rest. -/
theorem deserialize_head {arch : Arch} (harch : arch.isSupported = true) (main : Bool)
    (rest : Bytes) :
    deserialize (magic ++ littleEndian 2 fileVersion ++ [arch.byte, if main then 1 else 0]
      ++ rest) = readBody arch main ⟨8, rest⟩ := by
  have hmain : decide ((if main then 1 else 0 : UInt8) = 1) = main := by cases main <;> rfl
  have hdata : magic ++ littleEndian 2 fileVersion ++ [arch.byte, if main then 1 else 0] ++ rest =
      82 :: 71 :: 86 :: 77 :: 1 :: 0 :: arch.byte :: (if main then 1 else 0) :: rest := rfl
  have hmagic : ¬ [82, 71, 86, 77] ≠ magic := by decide
  have hversion : ¬ ofLittleEndian [1, 0] ≠ fileVersion := by decide
  rw [hdata, deserialize, if_neg hmagic, if_neg hversion, harch, Bool.not_true,
    if_neg Bool.false_ne_true, hmain]
  rfl

/-- **A program is read back from its file**, if the trailer is read back; that is so when there are
no more native calls than the reader of the trailer accepts. -/
theorem deserialize_serialize {data : Bytes} (hp : p.Storable) (hs : p.serialize = .ok data) :
    (readTrailer (trailer p.natives) = .ok p.natives → deserialize data = .ok p) ∧
      (p.natives.length ≤ Cbor.maxItems → deserialize data = .ok p) := by
  have hround : readTrailer (trailer p.natives) = .ok p.natives → deserialize data = .ok p := by
    intro hread
    obtain ⟨harch, bss, code, offsets, hnumbers, hcode, rfl⟩ := serialize_eq_ok hs
    obtain ⟨_, hoffsets⟩ := hp.offsets
    rw [hcode] at hoffsets
    cases hoffsets
    rw [deserialize_head harch]
    exact readBody_written hp hread hnumbers hcode 8
  exact ⟨hround, fun hcount => hround (readTrailer_trailer hcount hp.trailer hp.names)⟩

/-- A main function that loads a nested array and calls a native function. -/
def fileSample : Program where
  arch := .b16
  mainExists := true
  entry := ⟨0, 5, 7⟩
  instructions :=
    #[⟨.function, .immediate (.int64 7)⟩, ⟨.store .a, .immediate (.int64 5)⟩,
      ⟨.load .x, .immediate (.array [.string [104, 105], .array [.bool true]])⟩,
      ⟨.callNative, .absolute 3⟩, ⟨.ret, .implicit⟩]
  offsets := #[0, 13, 26, 48, 51]
  natives := [⟨3, [115, 116, 100], 9, [112, 114, 105, 110, 116]⟩]

/-- `fileSample` can be written, and is read back. -/
theorem deserialize_serialize_fileSample :
    ∃ data, fileSample.serialize = .ok data ∧ deserialize data = .ok fileSample := by
  have hp : fileSample.Storable :=
    { valid := rfl
      immediates := by decide
      offsets := ⟨_, rfl⟩
      natives := by decide
      names := by
        intro n hn
        obtain rfl := List.mem_singleton.1 hn
        exact ⟨Text.isUtf8_of_ascii (by decide +kernel), Text.isUtf8_of_ascii (by decide +kernel)⟩
      trailer := by decide }
  exact ⟨_, rfl, (deserialize_serialize hp rfl).2 (by decide)⟩

end RegisterMachine.Program
