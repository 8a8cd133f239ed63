import RegisterMachine.Proofs.Codec.Record
import RegisterMachine.Proofs.Wire.Values
import RegisterMachine.Wire.Report

/-!
# Records on the wire

A record can be written without loss when its texts are UTF-8, its numbers have 64 bits, its lists
are no longer than the reader accepts and its values do not nest: for each kind of record that is
`Writable`. Then its item can be read from its bytes, and the record is what is read. Values in the
heap are excepted, whose lengths may not fit their binary form: a snapshot is read back exactly when
those lengths fit (`Wire.readSnapshot_iff`), and so is a report that has one
(`ExitReport.read_iff`).
-/

namespace RegisterMachine

open Cbor (ofText ofInt ofValue isReadable maxItems readEntries readRecord readNat readInt readText
  readValue readList readOption field set_field)

/-! ## Texts and numbers -/

namespace Wire

/-- A text that can be written. -/
structure IsText (s : Bytes) : Prop where
  utf8 : Text.isUtf8 s = true
  short : s.length < 2 ^ 64

/-- A signed number of 64 bits. -/
def IsWord (i : Int) : Prop := -2 ^ 63 ≤ i ∧ i < 2 ^ 63

/-- A natural number below 2^63 is a word. -/
theorem isWord_natCast {n : Nat} (h : n < 2 ^ 63) : IsWord n := by
  constructor
  · omega
  · omega

/-- The number that stands for no place is a word. -/
theorem isWord_neg_one : IsWord (-1) := ⟨by decide, by decide⟩

variable {i : Int} {s : Bytes} {levels : Nat}

/-- A word is read back. -/
theorem IsWord.read (h : IsWord i) : readInt (ofInt i) = .ok i := Cbor.readInt_ofInt h.1 h.2

/-- A text is read back. -/
theorem IsText.read (h : IsText s) : readText (ofText s) = .ok s := Cbor.readText_ofText h.utf8

/-- A number of 64 bits is read back. -/
theorem readWord_unsigned (w : UInt64) : readWord (.unsigned w.toNat) = .ok w := by
  have hle : w.toNat ≤ maxWord := Nat.le_sub_one_of_lt w.toNat_lt
  rw [readWord, Cbor.readNat_unsigned hle, Except.map, UInt64.ofNat_toNat]

/-- A number of 32 bits is read back. -/
theorem readHalf_unsigned (w : UInt32) : readHalf (.unsigned w.toNat) = .ok w := by
  have hle : w.toNat ≤ 2 ^ 32 - 1 := Nat.le_sub_one_of_lt w.toNat_lt
  rw [readHalf, Cbor.readNat_unsigned hle, Except.map, UInt32.ofNat_toNat]

/-- The item of a natural number can be read. -/
theorem isReadable_unsigned {n : Nat} (h : n < 2 ^ 64) :
    (Cbor.unsigned n).isReadable levels = true := by
  simpa [isReadable] using h

/-- The item of a word can be read. -/
theorem IsWord.isReadable (h : IsWord i) : (ofInt i).isReadable levels = true := by
  obtain ⟨hlow, hhigh⟩ := h
  cases i with
  | ofNat n =>
    have hn : n < 2 ^ 64 := by rw [Int.ofNat_eq_natCast] at hhigh; omega
    simpa [ofInt, Cbor.isReadable] using hn
  | negSucc n =>
    have hn : n < 2 ^ 64 := by omega
    simpa [ofInt, Cbor.isReadable] using hn

/-- The item of a text can be read. -/
theorem IsText.isReadable (h : IsText s) : (ofText s).isReadable levels = true := by
  simpa [ofText, Cbor.isReadable] using h.short

/-! ## Maps and lists -/

/-- A map is readable when its keys and its parts are. -/
theorem isReadable_entries {α : Type} (key : α → Cbor) {es : List (α × Cbor)}
    (hmany : es.length ≤ maxItems)
    (hkeys : ∀ k ∈ es.map (·.1), (key k).isReadable levels = true)
    (hparts : ∀ x ∈ es.map (·.2), x.isReadable levels = true) :
    (Cbor.map (es.map fun e => (key e.1, e.2))).isReadable (levels + 1) = true := by
  rw [isReadable, List.length_map, List.all_map, Bool.and_eq_true, decide_eq_true_eq,
    List.all_eq_true]
  refine ⟨hmany, fun e he => Bool.and_eq_true_iff.2 ⟨?_, hparts _ (List.mem_map_of_mem he)⟩⟩
  exact hkeys _ (List.mem_map_of_mem he)

/-- A record with named fields is readable when its parts are. -/
theorem isReadable_named {es : List (String × Cbor)} (keys : List String)
    (hes : es.map (·.1) = keys)
    (hkeys : keys.length ≤ maxItems ∧ ∀ k ∈ keys, (RegisterMachine.utf8 k).length < 2 ^ 64)
    (hparts : ∀ x ∈ es.map (·.2), x.isReadable levels = true) :
    (named es).isReadable (levels + 1) = true := by
  subst hes
  obtain ⟨hmany, hshort⟩ := hkeys
  rw [List.length_map] at hmany
  refine isReadable_entries (fun k => ofText (RegisterMachine.utf8 k)) hmany (fun k hk => ?_) hparts
  simpa [ofText, isReadable] using hshort k hk

/-- So is one with numbered fields. -/
theorem isReadable_numbered {es : List (Nat × Cbor)} (keys : List Nat) (hes : es.map (·.1) = keys)
    (hkeys : keys.length ≤ maxItems ∧ ∀ k ∈ keys, k < 2 ^ 64)
    (hparts : ∀ x ∈ es.map (·.2), x.isReadable levels = true) :
    (numbered es).isReadable (levels + 1) = true := by
  subst hes
  obtain ⟨hmany, hsmall⟩ := hkeys
  rw [List.length_map] at hmany
  refine isReadable_entries .unsigned hmany (fun k hk => ?_) hparts
  exact isReadable_unsigned (hsmall k hk)

/-- A list is readable when it is not too long and its elements are. -/
theorem isReadable_array {α : Type} {write : α → Cbor} {as : List α} (hmany : as.length ≤ maxItems)
    (has : ∀ a ∈ as, (write a).isReadable levels = true) :
    (Cbor.array (as.map write)).isReadable (levels + 1) = true := by
  rw [isReadable, List.length_map, List.all_map, Bool.and_eq_true, decide_eq_true_eq,
    List.all_eq_true]
  exact ⟨hmany, has⟩

section
variable {σ : Type} {fields : List (Cbor.Field σ)} {f : Cbor.Field σ} {x : Cbor} {a a' : σ}

/-- A record with named fields is read entry by entry. -/
theorem readRecord_named (es : List (String × Cbor)) :
    readRecord fields a (named es) =
      readEntries fields a (es.map fun e => (ofText (RegisterMachine.utf8 e.1), e.2)) := rfl

/-- A record with numbered fields is read entry by entry. -/
theorem readRecord_numbered (es : List (Nat × Cbor)) :
    readRecord fields a (numbered es) =
      readEntries fields a (es.map fun e => (.unsigned e.1, e.2)) := rfl

/-- The first of some named entries is read. -/
theorem readEntries_name {name : String} (hname : ∀ b ∈ RegisterMachine.utf8 name, b.toNat < 0x80)
    (hf : fields.find? (·.key.text == RegisterMachine.utf8 name) = some f)
    (hset : f.set x a = .ok a') (es : List (String × Cbor)) :
    readEntries fields a (((name, x) :: es).map fun e => (ofText (RegisterMachine.utf8 e.1), e.2)) =
      readEntries (fields.filter (·.key != f.key)) a'
        (es.map fun e => (ofText (RegisterMachine.utf8 e.1), e.2)) :=
  Cbor.readEntries_cons hname hf hset _

/-- The first of some numbered entries is read. -/
theorem readEntries_number {n : Nat} (hf : fields.find? (·.key == .number n) = some f)
    (hset : f.set x a = .ok a') (es : List (Nat × Cbor)) :
    readEntries fields a (((n, x) :: es).map fun e => (.unsigned e.1, e.2)) =
      readEntries (fields.filter (·.key != f.key)) a' (es.map fun e => (.unsigned e.1, e.2)) :=
  Cbor.readEntries_number hf hset _

variable {α : Type} {key : Cbor.Key} {read : Cbor.Reader α} {put : α → σ → σ}

/-- The entries behind a field are read when the field is. -/
theorem readEntries_name_bind {name : String}
    (hname : ∀ b ∈ RegisterMachine.utf8 name, b.toNat < 0x80)
    (hf : fields.find? (·.key.text == RegisterMachine.utf8 name) = some (field key read put))
    (es : List (String × Cbor)) :
    readEntries fields a (((name, x) :: es).map fun e => (ofText (RegisterMachine.utf8 e.1), e.2)) =
      (read x).bind fun v => readEntries (fields.filter (·.key != key)) (put v a)
        (es.map fun e => (ofText (RegisterMachine.utf8 e.1), e.2)) := by
  rw [List.map_cons, Cbor.readEntries_of_findField? (Cbor.findField?_ofText hname hf), field]
  exact Except.bind_map

/-- An entry with a number is read into its field, and this field is not looked for again. -/
theorem readEntries_number_bind {n : Nat}
    (hf : fields.find? (·.key == .number n) = some (field key read put)) (es : List (Nat × Cbor)) :
    readEntries fields a (((n, x) :: es).map fun e => (.unsigned e.1, e.2)) =
      (read x).bind fun v => readEntries (fields.filter (·.key != key)) (put v a)
        (es.map fun e => (.unsigned e.1, e.2)) := by
  rw [List.map_cons, Cbor.readEntries_of_findField? (Cbor.findField?_unsigned hf), field]
  exact Except.bind_map

end

end Wire

open Wire

/-! ## Exits -/

/-- The parts of a location can be written. -/
structure CodeLocation.Writable (l : CodeLocation) : Prop where
  pc : IsWord l.pc
  offset : IsWord l.offset

/-- The parts of a trace's frame can be written. -/
structure TraceFrame.Writable (f : TraceFrame) : Prop where
  entry : IsWord f.entry
  pc : IsWord f.pc
  base : IsWord f.base

/-- The parts of a panic can be written. -/
structure Panic.Writable (p : Panic) : Prop where
  reason : IsWord p.reason.code
  message : IsText p.message
  location : p.location.Writable
  length : p.trace.length ≤ maxItems
  trace : ∀ f ∈ p.trace, f.Writable

/-- The parts of an exit can be written. -/
structure ExitRecord.Writable (e : ExitRecord) : Prop where
  kind : IsWord e.kind
  value : e.value.isCell = true
  panic : ∀ p, e.panic = some p → p.Writable

namespace Wire

variable {l : CodeLocation} {f : TraceFrame} {p : Panic} {e : ExitRecord} {levels : Nat}

/-- A location is read back from its item. -/
theorem readLocation_locationItem (h : l.Writable) : readLocation (locationItem l) = .ok l := by
  rw [readLocation, locationItem, readRecord_named,
    readEntries_name (by decide +kernel) rfl (set_field h.pc.read),
    readEntries_name (by decide +kernel) rfl (set_field h.offset.read), List.map_nil, readEntries]

/-- The item of a location can be read. -/
theorem isReadable_locationItem (h : l.Writable) :
    (locationItem l).isReadable (levels + 1) = true :=
  isReadable_named ["pc", "offset"] rfl (by decide)
    (by simpa using ⟨h.pc.isReadable, h.offset.isReadable⟩)

/-- A trace's frame is read back from its item. -/
theorem readTrace_traceItem (h : f.Writable) : readTrace (traceItem f) = .ok f := by
  rw [readTrace, traceItem, readRecord_named,
    readEntries_name (by decide +kernel) rfl (set_field h.pc.read),
    readEntries_name (by decide +kernel) rfl (set_field h.base.read),
    readEntries_name (by decide +kernel) rfl (set_field (readWord_unsigned f.hash)),
    readEntries_name (by decide +kernel) rfl (set_field h.entry.read), List.map_nil, readEntries]

/-- The item of a trace's frame can be read. -/
theorem isReadable_traceItem (h : f.Writable) : (traceItem f).isReadable (levels + 1) = true := by
  refine isReadable_named ["pc", "base", "hash", "entry"] rfl (by decide) ?_
  simpa using ⟨h.pc.isReadable, h.base.isReadable, isReadable_unsigned f.hash.toNat_lt,
    h.entry.isReadable⟩

/-- A panic is read back from its item. -/
theorem readPanic_panicItem (h : p.Writable) : readPanic (panicItem p) = .ok p := by
  have htrace := Cbor.readList_array fun f hf => readTrace_traceItem (h.trace f hf)
  rw [readPanic, panicItem, readRecord_named,
    readEntries_name (by decide +kernel) rfl (set_field h.reason.read),
    readEntries_name (by decide +kernel) rfl (set_field h.message.read),
    readEntries_name (by decide +kernel) rfl (set_field (readLocation_locationItem h.location)),
    readEntries_name (by decide +kernel) rfl (set_field htrace), List.map_nil, readEntries]

/-- The item of a panic can be read. -/
theorem isReadable_panicItem (h : p.Writable) : (panicItem p).isReadable (levels + 3) = true := by
  refine isReadable_named ["reason", "message", "location", "stack_trace"] rfl (by decide) ?_
  have htrace : (Cbor.array (p.trace.map traceItem)).isReadable (levels + 2) = true :=
    isReadable_array h.length fun f hf => isReadable_traceItem (h.trace f hf)
  simpa using ⟨h.reason.isReadable, h.message.isReadable, isReadable_locationItem h.location,
    htrace⟩

/-- An exit is read back from its item. -/
theorem readExit_exitItem (h : e.Writable) : readExit (exitItem e) = .ok e := by
  obtain ⟨kind, v, p⟩ := e
  cases p with
  | none =>
    change readRecord _ _ (named [("kind", _), ("return", _)]) = _
    rw [readRecord_named,
      readEntries_name (by decide +kernel) rfl (set_field h.kind.read),
      readEntries_name (by decide +kernel) rfl (set_field (Cbor.readValue_ofValue h.value)),
      List.map_nil, readEntries]
  | some p =>
    have hpanic := Cbor.readOption_eq_ok rfl (readPanic_panicItem (h.panic p rfl))
    change readRecord _ _ (named [("kind", _), ("panic", _), ("return", _)]) = _
    rw [readRecord_named,
      readEntries_name (by decide +kernel) rfl (set_field h.kind.read),
      readEntries_name (by decide +kernel) rfl (set_field hpanic),
      readEntries_name (by decide +kernel) rfl (set_field (Cbor.readValue_ofValue h.value)),
      List.map_nil, readEntries]

/-- The item of an exit can be read. -/
theorem isReadable_exitItem (h : e.Writable) : (exitItem e).isReadable (levels + 4) = true := by
  obtain ⟨kind, v, p⟩ := e
  cases p with
  | none =>
    refine isReadable_named ["kind", "return"] rfl (by decide) ?_
    simpa using ⟨h.kind.isReadable, Cbor.isReadable_cell _ h.value⟩
  | some p =>
    refine isReadable_named ["kind", "panic", "return"] rfl (by decide) ?_
    simpa using ⟨h.kind.isReadable, isReadable_panicItem (h.panic p rfl),
      Cbor.isReadable_cell _ h.value⟩

end Wire

/-! ## Registers, slots and frames -/

/-- The parts of a register's view can be written. -/
structure RegisterView.Writable (r : RegisterView) : Prop where
  name : IsText r.name
  type : IsText r.type
  value : r.value.isCell = true

/-- The parts of a slot's view can be written. -/
structure SlotView.Writable (s : SlotView) : Prop where
  index : IsWord s.index
  type : IsText s.type
  value : s.value.isCell = true

/-- The parts of a frame's view can be written. -/
structure FrameView.Writable (f : FrameView) : Prop where
  entry : IsWord f.entry
  stop : IsWord f.stop
  base : IsWord f.base
  window : IsWord f.window
  pc : IsWord f.pc
  returnPC : IsWord f.returnPC

/-- The parts of the stack's view can be written. -/
structure StackView.Writable (s : StackView) : Prop where
  slotCount : s.slots.length ≤ maxItems
  slots : ∀ slot ∈ s.slots, slot.Writable
  frameCount : s.frames.length ≤ maxItems
  frames : ∀ f ∈ s.frames, f.Writable

namespace Wire

variable {r : RegisterView} {slot : SlotView} {f : FrameView} {stack : StackView} {levels : Nat}

/-- The view of a register is read back from its item. -/
theorem readRegister_registerItem (h : r.Writable) : readRegister (registerItem r) = .ok r := by
  rw [readRegister, registerItem, readRecord_named,
    readEntries_name (by decide +kernel) rfl (set_field h.name.read),
    readEntries_name (by decide +kernel) rfl (set_field h.type.read),
    readEntries_name (by decide +kernel) rfl (set_field (Cbor.readValue_ofValue h.value)),
    List.map_nil, readEntries]

/-- The item of a register's view can be read. -/
theorem isReadable_registerItem (h : r.Writable) :
    (registerItem r).isReadable (levels + 1) = true := by
  refine isReadable_named ["name", "type", "value"] rfl (by decide) ?_
  simpa using ⟨h.name.isReadable, h.type.isReadable, Cbor.isReadable_cell _ h.value⟩

/-- The view of a slot is read back from its item. -/
theorem readSlot_slotItem (h : slot.Writable) : readSlot (slotItem slot) = .ok slot := by
  rw [readSlot, slotItem, readRecord_numbered, readEntries_number rfl (set_field h.index.read),
    readEntries_number rfl (set_field h.type.read),
    readEntries_number rfl (set_field (Cbor.readValue_ofValue h.value)), List.map_nil, readEntries]

/-- The item of a slot's view can be read. -/
theorem isReadable_slotItem (h : slot.Writable) :
    (slotItem slot).isReadable (levels + 1) = true := by
  refine isReadable_numbered [1, 2, 3] rfl (by decide) ?_
  simpa using ⟨h.index.isReadable, h.type.isReadable, Cbor.isReadable_cell _ h.value⟩

/-- The view of a frame is read back from its item. -/
theorem readFrame_frameItem (h : f.Writable) : readFrame (frameItem f) = .ok f := by
  rw [readFrame, frameItem, readRecord_numbered,
    readEntries_number rfl (set_field (readWord_unsigned f.hash)),
    readEntries_number rfl (set_field h.entry.read), readEntries_number rfl (set_field h.stop.read),
    readEntries_number rfl (set_field h.base.read),
    readEntries_number rfl (set_field h.window.read),
    readEntries_number rfl (set_field h.pc.read),
    readEntries_number rfl (set_field h.returnPC.read), List.map_nil, readEntries]

/-- The item of a frame's view can be read. -/
theorem isReadable_frameItem (h : f.Writable) : (frameItem f).isReadable (levels + 1) = true := by
  refine isReadable_numbered [1, 2, 3, 4, 5, 6, 7] rfl (by decide) ?_
  simpa using ⟨isReadable_unsigned f.hash.toNat_lt, h.entry.isReadable, h.stop.isReadable,
    h.base.isReadable, h.window.isReadable, h.pc.isReadable, h.returnPC.isReadable⟩

/-- The view of the stack is read back from its item. -/
theorem readStack_stackItem (h : stack.Writable) : readStack (stackItem stack) = .ok stack := by
  have hslots := Cbor.readList_array fun slot hslot => readSlot_slotItem (h.slots slot hslot)
  have hframes := Cbor.readList_array fun f hf => readFrame_frameItem (h.frames f hf)
  rw [readStack, stackItem, readRecord_numbered, readEntries_number rfl (set_field hslots),
    readEntries_number rfl (set_field hframes), List.map_nil, readEntries]

/-- The item of the stack's view can be read. -/
theorem isReadable_stackItem (h : stack.Writable) :
    (stackItem stack).isReadable (levels + 3) = true := by
  refine isReadable_numbered [1, 2] rfl (by decide) ?_
  have hslots : (Cbor.array (stack.slots.map slotItem)).isReadable (levels + 2) = true :=
    isReadable_array h.slotCount fun slot hslot => isReadable_slotItem (h.slots slot hslot)
  have hframes : (Cbor.array (stack.frames.map frameItem)).isReadable (levels + 2) = true :=
    isReadable_array h.frameCount fun f hf => isReadable_frameItem (h.frames f hf)
  simpa using ⟨hslots, hframes⟩

end Wire

/-! ## The heap -/

/-- The parts of a heap entry's view can be written. -/
structure HeapView.Writable (e : HeapView) : Prop where
  type : IsText e.type
  value : e.value.isFlat = true
  length : e.value.toBinary.length < 2 ^ 64

namespace Wire

variable {e : HeapView} {levels : Nat}

/-- A reference is read back from its item. -/
theorem readRef_refItem (r : Ref) : readRef (refItem r) = .ok r := by
  rw [readRef, refItem, readRecord_named,
    readEntries_name (by decide +kernel) rfl (set_field (readHalf_unsigned r.gen)),
    readEntries_name (by decide +kernel) rfl (set_field (readHalf_unsigned r.index)),
    List.map_nil, readEntries]

/-- The item of a reference can be read. -/
theorem isReadable_refItem (r : Ref) : (refItem r).isReadable (levels + 1) = true := by
  refine isReadable_named ["Gen", "Index"] rfl (by decide) ?_
  have hgen : r.gen.toNat < 2 ^ 64 := Nat.lt_trans r.gen.toNat_lt (by decide)
  have hindex : r.index.toNat < 2 ^ 64 := Nat.lt_trans r.index.toNat_lt (by decide)
  simpa using ⟨isReadable_unsigned hgen, isReadable_unsigned hindex⟩

/-- An entry is read when its value is. -/
theorem readHeap_heapItem (h : e.Writable) :
    readHeap (heapItem e) = (readValue (ofValue e.value)).map fun v => { e with value := v } := by
  rw [readHeap, heapItem, readRecord_named,
    readEntries_name (by decide +kernel) rfl (set_field (readRef_refItem e.ref)),
    readEntries_name (by decide +kernel) rfl (set_field h.type.read),
    readEntries_name_bind (by decide +kernel) rfl]
  cases readValue (ofValue e.value) with
  | error => rfl
  | ok v => rfl

/-- **An entry is read back exactly when the lengths in its value fit.** -/
theorem readHeap_iff (h : e.Writable) :
    readHeap (heapItem e) = .ok e ↔ e.value.lengthsFit = true := by
  rw [readHeap_heapItem h, Except.map_eq_ok, ← Cbor.readValue_ofValue_iff h.value]
  constructor
  · rintro ⟨v, hv, he⟩
    obtain rfl : v = e.value := congrArg HeapView.value he
    exact hv
  · exact fun hv => ⟨e.value, hv, rfl⟩

/-- The item of a heap entry's view can be read. -/
theorem isReadable_heapItem (h : e.Writable) : (heapItem e).isReadable (levels + 2) = true := by
  refine isReadable_named ["ref", "type", "value"] rfl (by decide) ?_
  simpa using ⟨isReadable_refItem e.ref, h.type.isReadable, Cbor.isReadable_ofValue _ h.length⟩

end Wire

/-! ## Snapshots -/

/-- The parts of a snapshot can be written. -/
structure Snapshot.Writable (s : Snapshot) : Prop where
  id : IsText s.id
  state : IsText s.state
  steps : s.steps < 2 ^ 64
  arch : IsText s.arch
  location : s.location.Writable
  registerCount : s.registers.length ≤ maxItems
  registers : ∀ r ∈ s.registers, r.Writable
  stack : s.stack.Writable
  heapCount : s.heap.length ≤ maxItems
  heap : ∀ e ∈ s.heap, e.Writable
  exit : ∀ e, s.exit = some e → e.Writable

namespace Wire

variable {s : Snapshot} {levels : Nat}

/-- What comes before the heap is read back. -/
theorem readSnapshot_numbered (h : s.Writable) (es : List (Nat × Cbor)) :
    readSnapshot (numbered ((1, ofText s.id) :: (2, ofText s.state) :: (3, .unsigned s.steps) ::
        (4, ofText s.arch) :: (5, locationItem s.location) ::
          (6, .array (s.registers.map registerItem)) ::
        (7, stackItem s.stack) :: es)) =
      readEntries [
          field (.number 8) (readList readHeap) fun v s => { s with heap := v },
          field (.number 9) (readOption readExit) fun v s => { s with exit := v }]
        { s with heap := [], exit := none } (es.map fun e => (.unsigned e.1, e.2)) := by
  have hregisters := Cbor.readList_array fun r hr => readRegister_registerItem (h.registers r hr)
  have hsteps : s.steps ≤ maxWord := Nat.le_sub_one_of_lt h.steps
  rw [readSnapshot, readRecord_numbered, readEntries_number rfl (set_field h.id.read),
    readEntries_number rfl (set_field h.state.read),
    readEntries_number rfl (set_field (Cbor.readNat_unsigned hsteps)),
    readEntries_number rfl (set_field h.arch.read),
    readEntries_number rfl (set_field (readLocation_locationItem h.location)),
    readEntries_number rfl (set_field hregisters),
    readEntries_number rfl (set_field (readStack_stackItem h.stack))]
  rfl

/-- So is what comes after the heap. -/
theorem exists_exitEntries (h : s.Writable) :
    ∃ es : List (Nat × Cbor),
      snapshotItem s = numbered
        ((1, ofText s.id) :: (2, ofText s.state) :: (3, .unsigned s.steps) :: (4, ofText s.arch) ::
          (5, locationItem s.location) :: (6, .array (s.registers.map registerItem)) ::
        (7, stackItem s.stack) :: (8, .array (s.heap.map heapItem)) :: es) ∧
      ∀ heap, readEntries [field (.number 9) (readOption readExit) fun v s => { s with exit := v }]
        { s with heap, exit := none }
        (es.map fun e => (.unsigned e.1, e.2)) = .ok { s with heap } := by
  obtain ⟨id, state, steps, arch, location, registers, stack, heap, exit⟩ := s
  cases exit with
  | none => exact ⟨[], rfl, fun _ => rfl⟩
  | some e =>
    refine ⟨[(9, exitItem e)], rfl, fun heap => ?_⟩
    have hexit := Cbor.readOption_eq_ok rfl (readExit_exitItem (h.exit e rfl))
    rw [readEntries_number rfl (set_field hexit)]
    rfl

/-- A snapshot is read when its heap is. -/
theorem readSnapshot_snapshotItem (h : s.Writable) :
    readSnapshot (snapshotItem s) =
      (readList readHeap (.array (s.heap.map heapItem))).map fun heap => { s with heap } := by
  obtain ⟨es, hitem, hrest⟩ := exists_exitEntries h
  rw [hitem, readSnapshot_numbered h, readEntries_number_bind rfl]
  cases readList readHeap (.array (s.heap.map heapItem)) with
  | error => rfl
  | ok heap => exact hrest heap

/-- **A snapshot is read back exactly when the lengths in its heap fit.** -/
theorem readSnapshot_iff (h : s.Writable) :
    readSnapshot (snapshotItem s) = .ok s ↔ ∀ e ∈ s.heap, e.value.lengthsFit = true := by
  have hheap : readList readHeap (.array (s.heap.map heapItem)) = .ok s.heap ↔
      ∀ e ∈ s.heap, e.value.lengthsFit = true := by
    rw [Cbor.readList_array_iff]
    exact forall₂_congr fun e he => readHeap_iff (h.heap e he)
  rw [readSnapshot_snapshotItem h, Except.map_eq_ok, ← hheap]
  constructor
  · rintro ⟨heap, hread, hs⟩
    obtain rfl : heap = s.heap := congrArg Snapshot.heap hs
    exact hread
  · exact fun hread => ⟨s.heap, hread, rfl⟩

/-- The item of a snapshot can be read. -/
theorem isReadable_snapshotItem (h : s.Writable) :
    (snapshotItem s).isReadable (levels + 5) = true := by
  have hregisters : (Cbor.array (s.registers.map registerItem)).isReadable (levels + 4) = true :=
    isReadable_array h.registerCount fun r hr => isReadable_registerItem (h.registers r hr)
  have hheap : (Cbor.array (s.heap.map heapItem)).isReadable (levels + 4) = true :=
    isReadable_array h.heapCount fun e he => isReadable_heapItem (h.heap e he)
  have hhead : (ofText s.id).isReadable (levels + 4) = true ∧
      (ofText s.state).isReadable (levels + 4) = true ∧
      (Cbor.unsigned s.steps).isReadable (levels + 4) = true ∧
      (ofText s.arch).isReadable (levels + 4) = true ∧
      (locationItem s.location).isReadable (levels + 4) = true ∧
      (stackItem s.stack).isReadable (levels + 4) = true :=
    ⟨h.id.isReadable, h.state.isReadable, isReadable_unsigned h.steps, h.arch.isReadable,
      isReadable_locationItem h.location, isReadable_stackItem h.stack⟩
  obtain ⟨id, state, steps, arch, location, registers, stack, heap, exit⟩ := s
  cases exit with
  | none =>
    refine isReadable_numbered [1, 2, 3, 4, 5, 6, 7, 8] rfl (by decide) ?_
    simpa [hregisters, hheap] using hhead
  | some e =>
    refine isReadable_numbered [1, 2, 3, 4, 5, 6, 7, 8, 9] rfl (by decide) ?_
    simpa [hregisters, hheap, isReadable_exitItem (h.exit e rfl)] using hhead

end Wire

/-- A record is read from the bytes of an item as it is from the item. -/
theorem Wire.readBytes_encode {α : Type} {read : Cbor.Reader α} {x : Cbor}
    (h : x.isReadable Cbor.maxLevels = true) : readBytes read x.encode = read x := by
  rw [readBytes, Cbor.decode?_encode h]

/-- **A snapshot survives the wire exactly when the lengths in its heap fit.** -/
theorem Snapshot.decode_encode_iff {s : Snapshot} (h : s.Writable) :
    decode s.encode = .ok s ↔ ∀ e ∈ s.heap, e.value.lengthsFit = true := by
  rw [decode, encode, readBytes_encode (isReadable_snapshotItem h), Except.mapError_eq_ok,
    readSnapshot_iff h]

/-! ## Reports -/

namespace ExitReport

/-- The parts of a report can be written. -/
structure Writable (r : ExitReport) : Prop where
  id : IsText r.id
  programHash : r.programHash.length = 32
  arch : IsText r.arch
  steps : r.steps < 2 ^ 64
  exit : ∃ e, r.exit = some e ∧ e.Writable
  snapshot : ∀ s, r.snapshot = some s → s.Writable

variable {r : ExitReport} {levels : Nat}

/-- What comes before the snapshot is read back. -/
theorem read_numbered {e : ExitRecord} (h : r.Writable) (hexit : r.exit = some e)
    (es : List (Nat × Cbor)) :
    read (numbered ((1, ofText r.id) :: (2, .bytes r.programHash) :: (3, ofText r.arch) ::
        (4, .unsigned r.steps) :: (5, exitItem e) :: es)) =
      readEntries [field (.number 6) (readOption readSnapshot) fun v r => { r with snapshot := v }]
        { r with snapshot := none } (es.map fun e => (.unsigned e.1, e.2)) := by
  obtain ⟨e', he, hwritable⟩ := h.exit
  obtain rfl : e' = e := Option.some.inj (he.symm.trans hexit)
  have hsteps : r.steps ≤ maxWord := Nat.le_sub_one_of_lt h.steps
  have hread := Cbor.readOption_eq_ok rfl (readExit_exitItem hwritable)
  rw [read, readRecord_numbered, readEntries_number rfl (set_field h.id.read),
    readEntries_number rfl (set_field (Cbor.readBytes_bytes h.programHash)),
    readEntries_number rfl (set_field h.arch.read),
    readEntries_number rfl (set_field (Cbor.readNat_unsigned hsteps)),
    readEntries_number rfl (set_field hread), ← hexit]
  rfl

/-- **A report is read back exactly when its snapshot is.** -/
theorem read_iff (h : r.Writable) :
    read (item r) = .ok r ↔ ∀ s, r.snapshot = some s → readSnapshot (snapshotItem s) = .ok s := by
  obtain ⟨e, hexit, _⟩ := h.exit
  cases hs : r.snapshot with
  | none =>
    have hitem : item r = numbered
        ((1, ofText r.id) :: (2, .bytes r.programHash) :: (3, ofText r.arch) ::
        (4, .unsigned r.steps) :: (5, exitItem e) :: []) := by
      rw [item, hexit, hs]
      rfl
    have hr : { r with snapshot := none } = r := by rw [← hs]
    rw [hitem, read_numbered h hexit, List.map_nil, readEntries, hr]
    simp
  | some s =>
    have hitem : item r = numbered
        ((1, ofText r.id) :: (2, .bytes r.programHash) :: (3, ofText r.arch) ::
        (4, .unsigned r.steps) :: (5, exitItem e) :: [(6, snapshotItem s)]) := by
      rw [item, hexit, hs]
      rfl
    have hread : read (item r) = (readSnapshot (snapshotItem s)).map fun s =>
        { r with snapshot := some s } := by
      rw [hitem, read_numbered h hexit, readEntries_number_bind rfl, readOption]
      cases readSnapshot (snapshotItem s) with
      | error => rfl
      | ok => rfl
    rw [hread, Except.map_eq_ok]
    constructor
    · rintro ⟨s', hs', hr⟩ _ ⟨⟩
      obtain rfl : s' = s := Option.some.inj ((congrArg ExitReport.snapshot hr).trans hs)
      exact hs'
    · exact fun hall => ⟨s, hall s rfl, by rw [← hs]⟩

/-- The item of a report can be read. -/
theorem isReadable_item (h : r.Writable) : (item r).isReadable (levels + 6) = true := by
  obtain ⟨e, hexit, hwritable⟩ := h.exit
  have hsnapshot := h.snapshot
  have hhead : (ofText r.id).isReadable (levels + 5) = true ∧
      (Cbor.bytes r.programHash).isReadable (levels + 5) = true ∧
      (ofText r.arch).isReadable (levels + 5) = true ∧
      (Cbor.unsigned r.steps).isReadable (levels + 5) = true ∧
        (exitItem e).isReadable (levels + 5) = true :=
    ⟨h.id.isReadable, by simp [isReadable, h.programHash], h.arch.isReadable,
      isReadable_unsigned h.steps, isReadable_exitItem hwritable⟩
  obtain ⟨id, programHash, arch, steps, exit, snapshot⟩ := r
  obtain rfl : exit = some e := hexit
  cases snapshot with
  | none =>
    refine isReadable_numbered [1, 2, 3, 4, 5] rfl (by decide) ?_
    simpa using hhead
  | some s =>
    refine isReadable_numbered [1, 2, 3, 4, 5, 6] rfl (by decide) ?_
    simpa [isReadable_snapshotItem (hsnapshot s rfl)] using hhead

/-- **A report survives the wire exactly when the lengths in the heap of its snapshot fit**, if it
has one. -/
theorem decode_encode_iff (h : r.Writable) :
    decode r.encode = .ok r ↔ ∀ s, r.snapshot = some s → ∀ e ∈ s.heap,
      e.value.lengthsFit = true := by
  obtain ⟨e, hexit, _⟩ := h.exit
  have hread : decode r.encode = .ok r ↔ read (item r) = .ok r := by
    rw [decode, encode, readBytes_encode (isReadable_item h)]
    cases read (item r) with
    | error => simp
    | ok r' =>
      dsimp only
      split
      · next hnone =>
        -- What is read without an exit is not the report, which has one.
        have hne : r' ≠ r := by
          rintro rfl
          simp [hexit] at hnone
        simp [hne]
      · simp
  rw [hread, read_iff h]
  exact forall₂_congr fun s hs => readSnapshot_iff (h.snapshot s hs)

end ExitReport

end RegisterMachine
