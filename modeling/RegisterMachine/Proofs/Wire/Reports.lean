import RegisterMachine.Journal.RunId
import RegisterMachine.Proofs.Engine.Exhaustion
import RegisterMachine.Proofs.Engine.FlatThreads
import RegisterMachine.Proofs.Engine.Ranges
import RegisterMachine.Proofs.Wire.Records

/-!
# Snapshots and reports of threads

A snapshot shows the thread: `Thread.SnapshotOf` says field by field what it has to tell, and
`Thread.snapshotOf_snapshot` that it does. Whatever is done to a thread of an accepted program, a
snapshot of it can be written: texts are UTF-8, numbers stay within the sizes of code and stack, and
values do not nest (`Thread.Shown.writable_snapshot`). So the snapshot survives the wire, with the
one exception of heap entries whose lengths do not fit their binary form, and so does the report of
a thread that has ended: `Thread.snapshot_survives`. The exception can be reached: a string to which
a character is appended in a loop (`Thread.TextLoop`) gets as long as one likes.
-/

namespace RegisterMachine

open Cbor (maxItems)
open Wire (IsText IsWord isWord_natCast isWord_neg_one)

/-- A digest has 32 bytes. -/
theorem Digest.length_sha256 (message : Bytes) : (sha256 message).length = 32 := by
  simp [sha256, Sha256State.words, Bytes.bigEndian]

/-! ## Names -/

/-- A short text is one that can be written. -/
theorem Wire.isText_utf8 {s : String} (h : (utf8 s).length < 2 ^ 64) : IsText (utf8 s) :=
  ⟨Text.isUtf8_utf8 s, h⟩

/-- The name of an architecture can be written. -/
theorem Arch.isText_name {a : Arch} (h : a.isSupported = true) : IsText a.name := by
  have hname : Text.isUtf8 a.name = true := by
    unfold Arch.name
    split <;> simp
  refine ⟨hname, ?_⟩
  simp only [isSupported, Bool.or_eq_true, beq_iff_eq] at h
  obtain (rfl | rfl) | rfl := h <;> decide +kernel

/-- The name of a kind can be written. -/
theorem Kind.isText_name (k : Kind) : IsText (utf8 k.name) := by
  cases k <;> exact Wire.isText_utf8 (by decide +kernel)

/-- The name of a value's type can be written. -/
theorem Value.isText_typeName (v : Value) : IsText v.typeName := by
  refine ⟨isUtf8_typeName v, ?_⟩
  unfold typeName
  split
  · decide +kernel
  · next w _ _ => cases w <;> decide +kernel
  · exact (Kind.isText_name _).short

/-- The name of a thread's state can be written. -/
theorem ThreadState.isText_name (s : ThreadState) : IsText (utf8 s.name) := by
  cases s <;> exact Wire.isText_utf8 (by decide +kernel)

/-- The name of a register can be written. -/
theorem Register.isText_name (r : Register) : IsText (utf8 r.name) := by
  cases r <;> exact Wire.isText_utf8 (by decide +kernel)

/-- Cutting ASCII into groups leaves UTF-8. -/
theorem RunId.isUtf8_group {s : Bytes} (hs : ∀ b ∈ s, b.toNat < 0x80) (ns : List Nat) :
    ∀ part ∈ group ns s, Text.isUtf8 part = true := by
  induction ns generalizing s with
  | nil => exact fun part hpart => nomatch hpart
  | cons n ns ih =>
    refine List.forall_mem_cons.2 ⟨?_, ih fun b hb => hs b (List.mem_of_mem_drop hb)⟩
    exact Text.isUtf8_of_ascii fun b hb => hs b (List.mem_of_mem_take hb)

/-- Runs are known by texts that can be written. -/
theorem RunId.isText_text (i : RunId) : IsText i.text := by
  have hhex : ∀ b ∈ Bytes.hex i.bytes, b.toNat < 0x80 := by
    intro b hb
    obtain ⟨c, _, hb⟩ := List.mem_flatMap.1 hb
    have hc := c.toNat_lt
    simp only [List.mem_cons, List.not_mem_nil, or_false] at hb
    rcases hb with rfl | rfl
    · exact Text.toNat_hexDigit_lt _ (by omega)
    · exact Text.toNat_hexDigit_lt _ (by omega)
  refine ⟨Text.isUtf8_join (Text.isUtf8_singleton (by decide)) (isUtf8_group hhex _), ?_⟩
  simp only [text, groups, group, Bytes.join, List.intersperse, List.flatten_cons, List.flatten_nil,
    List.length_append, List.length_take, List.length_cons, List.length_nil]
  omega

/-- The offset of an instruction is that of a byte of the file, or there is none. -/
theorem Program.isWord_offset {data : Bytes} {p : Program} (h : deserialize data = .ok p)
    (hdata : data.length < 2 ^ 63) (pc : Int) : IsWord (p.offset pc) := by
  have hoffsets := (bounds_of_deserialize h).2
  unfold offset
  split
  · exact isWord_neg_one
  · split
    · next o ho =>
      have hle := hoffsets o (Array.mem_of_getElem? ho)
      exact isWord_natCast (by omega)
    · exact isWord_neg_one

namespace Thread

variable {t : Thread}

/-- The counts and sizes of a thread have 64 bits, and it has fewer slots, frames and live heap
entries than a reader accepts. -/
structure Sized (t : Thread) : Prop where
  steps : t.steps < 2 ^ 64
  slots : t.stack.slots.size < maxItems
  frames : t.stack.frames.length < maxItems
  entries : t.heap.view.length < maxItems
  values : ∀ e ∈ t.heap.view, e.value.toBinary.length < 2 ^ 64
  message : ∀ e, t.exit = some (.panicked e) → e.message.length < 2 ^ 64

/-- What is known of a thread of an accepted program. -/
structure Shown (t : Thread) : Prop where
  id : IsText t.id
  arch : t.program.arch.isSupported = true
  offset : ∀ pc, IsWord (t.program.offset pc)
  code : t.code.size < 2 ^ 63
  flat : t.Flat
  inRange : ∀ f ∈ t.stack.frames, f.InRange t.code.size t.stack.slots.size
  reported : ∀ e, t.exit = some (.panicked e) → t.Reported e

/-! ## What a snapshot shows -/

/-- The location of a thread can be written. -/
theorem Shown.location (h : t.Shown) : t.codeLocation.Writable := by
  refine ⟨?_, h.offset _⟩
  change IsWord t.location
  unfold Thread.location
  split
  · next f hf _ =>
    have hpc := (h.inRange f (List.mem_of_head? hf)).pc
    have hcode := h.code
    exact isWord_natCast (by omega)
  · exact isWord_neg_one

/-- The views of a thread's registers can be written. -/
theorem Shown.registers (h : t.Shown) : ∀ r ∈ t.registerViews, r.Writable := by
  intro r hr
  obtain ⟨reg, _, rfl⟩ := List.mem_map.1 hr
  exact ⟨reg.isText_name, Value.isText_typeName _, h.flat.roots (.register reg)⟩

/-- The views of a thread's slots can be written. -/
theorem Shown.slots (h : t.Shown) (hs : t.Sized) : ∀ slot ∈ t.stackView.slots, slot.Writable := by
  intro slot hslot
  obtain ⟨⟨v, n⟩, hv, rfl⟩ := List.mem_map.1 hslot
  obtain ⟨_, hn, hget⟩ := List.mem_zipIdx hv
  have hmem : v ∈ t.stack.slots := by
    rw [hget]
    exact Array.mem_toList_iff.1 (List.getElem_mem _)
  have hmax : maxItems < 2 ^ 63 := by decide
  have hslots := hs.slots
  rw [Array.length_toList, Nat.zero_add] at hn
  exact ⟨isWord_natCast (by omega), Value.isText_typeName v, h.flat.roots (.slot hmem)⟩

/-- **The numbers of a frame have 64 bits.** -/
theorem Shown.frame (h : t.Shown) (hs : t.Sized) {f : Frame} (hf : f ∈ t.stack.frames) :
    f.view.Writable := by
  obtain ⟨hentry, hstop, hpc, hreturn, hwindow⟩ := h.inRange f hf
  have hcode := h.code
  have hslots := hs.slots
  have hmax : maxItems < 2 ^ 63 := by decide
  have hreturnPC : IsWord ((f.returnPC.map Int.ofNat).getD (-1)) := by
    cases hr : f.returnPC with
    | none => exact isWord_neg_one
    | some n =>
      have hn := hreturn n hr
      exact isWord_natCast (by omega)
  exact ⟨isWord_natCast (by omega), isWord_natCast (by omega), isWord_natCast (by omega),
    isWord_natCast (by omega), isWord_natCast (by omega), hreturnPC⟩

/-- The view of a thread's stack can be written. -/
theorem Shown.stackView (h : t.Shown) (hs : t.Sized) : t.stackView.Writable := by
  refine ⟨?_, h.slots hs, ?_, fun f hf => ?_⟩
  · have hlt := hs.slots
    simp only [Thread.stackView, List.length_map, List.length_zipIdx, Array.length_toList]
    omega
  · have hlt := hs.frames
    simp only [Thread.stackView, List.length_map, List.length_reverse]
    omega
  · obtain ⟨g, hg, rfl⟩ := List.mem_map.1 hf
    exact h.frame hs (List.mem_reverse.1 hg)

/-- The views of a thread's heap entries can be written. -/
theorem Shown.heap (h : t.Shown) (hs : t.Sized) : ∀ e ∈ t.heapViews, e.Writable := by
  intro e he
  obtain ⟨v, hv, rfl⟩ := List.mem_map.1 he
  refine ⟨Value.isText_typeName _, ?_, hs.values v hv⟩
  obtain ⟨⟨entry, n⟩, hentry, hview⟩ := List.mem_filterMap.1 hv
  dsimp only at hview
  split at hview
  · cases hview
    refine Value.isFlat_of_isStored (h.flat.heap entry (Array.mem_toList_iff.1 ?_))
    rw [(List.mem_zipIdx' hentry).2]
    exact List.getElem_mem _
  · cases hview

/-- **What a panic tells can be written.** -/
theorem Shown.panic (h : t.Shown) (hs : t.Sized) {e : Panic} (he : t.exit = some (.panicked e)) :
    e.Writable := by
  obtain ⟨htrace, ⟨f, hf, hlocation⟩, ⟨hlow, hhigh⟩, hmessage⟩ := h.reported e he
  have hcode := h.code
  have hpc := (h.inRange f hf).pc
  refine ⟨⟨by omega, by omega⟩, ⟨hmessage, hs.message e he⟩, ?_, ?_, ?_⟩
  · rw [hlocation]
    exact ⟨isWord_natCast (by omega), h.offset f.pc⟩
  · have hlt := hs.frames
    rw [htrace, trace, List.length_map]
    omega
  · rw [htrace]
    intro shown hshown
    obtain ⟨g, hg, rfl⟩ := List.mem_map.1 hshown
    obtain ⟨hentry, _, hbase, _, hpc, _⟩ := h.frame hs hg
    exact ⟨hentry, hpc, hbase⟩

/-- The exit of a thread can be written. -/
theorem Shown.exit (h : t.Shown) (hs : t.Sized) {x : Exit} (hx : t.exit = some x) :
    x.record.Writable := by
  cases x with
  | graceful v =>
    exact ⟨isWord_natCast (n := 0) (by decide), h.flat.roots (.result hx), fun p hp => nomatch hp⟩
  | panicked e =>
    refine ⟨isWord_natCast (n := 1) (by decide), rfl, fun p hp => ?_⟩
    cases hp
    exact h.panic hs hx

/-- **A snapshot of a thread can be written.** -/
theorem Shown.writable_snapshot (h : t.Shown) (hs : t.Sized) : t.snapshot.Writable where
  id := h.id
  state := t.state.isText_name
  steps := hs.steps
  arch := Arch.isText_name h.arch
  location := h.location
  registerCount := by
    simp only [snapshot, registerViews, List.length_map]
    decide
  registers := h.registers
  stack := h.stackView hs
  heapCount := by
    have hlt := hs.entries
    simp only [snapshot, heapViews, List.length_map]
    omega
  heap := h.heap hs
  exit := by
    intro e he
    obtain ⟨x, hx, rfl⟩ := Option.map_eq_some_iff.1 he
    exact h.exit hs hx

/-- **What is known of the threads of accepted programs**, whatever is done to them. -/
theorem shown_after {data id : Bytes} {p : Program} {opts : Options}
    (hp : Program.deserialize data = .ok p) (hdata : data.length < 2 ^ 63) (hid : IsText id)
    (hn : opts.natives.Standard) (ht : start id p opts = .ok t) (as : List Action) :
    (t.after as).Shown := by
  obtain ⟨hcode, _, _, hprogram⟩ := t.unchanged_after as
  rw [program_start ht] at hprogram
  obtain ⟨_, _, hlive, _⟩ := start_eq_ok ht
  have hstart : t.id = id := by
    obtain ⟨fn, s, _, _, rfl⟩ := start_inv ht
    rfl
  obtain ⟨harch, _⟩ :=
    Program.serialize_eq_ok (Program.exists_serialize_of_deserialize hp).choose_spec
  have hsize : (t.after as).code.size ≤ data.length := by
    rw [hcode, (loadedAs_start ht).size]
    exact (Program.bounds_of_deserialize hp).1
  constructor
  · rw [id_after, hstart]
    exact hid
  · rw [hprogram]
    exact harch
  · rw [hprogram]
    exact Program.isWord_offset hp hdata
  · omega
  · exact (flat_start ht hn.honest.addsStrings).after as
  · exact ((Reachable.start ht).after as).inRange
  · exact fun e => (orderly_start hp hn ht).reported_after (lifecycle_start ht) hlive as

/-! ## Snapshots and reports -/

/-- What a snapshot of a thread says: where the thread stands, what is in its registers and slots,
its frames with the outermost first, its live heap entries in the order of their indices, and how it
ended. -/
structure SnapshotOf (t : Thread) (s : Snapshot) : Prop where
  id : s.id = t.id
  state : s.state = utf8 t.state.name
  steps : s.steps = t.steps
  arch : s.arch = t.program.arch.name
  location : ∀ f rest, t.exit = none → t.stack.frames = f :: rest →
    s.location = ⟨f.pc, t.program.offset f.pc⟩
  nowhere : t.exit ≠ none → s.location = ⟨-1, -1⟩
  registers : s.registers =
    [⟨utf8 "A", t.registers.a.typeName, t.registers.a⟩,
      ⟨utf8 "B", t.registers.b.typeName, t.registers.b⟩,
      ⟨utf8 "C", t.registers.c.typeName, t.registers.c⟩,
      ⟨utf8 "X", t.registers.x.typeName, t.registers.x⟩,
      ⟨utf8 "Y", t.registers.y.typeName, t.registers.y⟩]
  slots : ∀ n : Nat, s.stack.slots[n]? = t.stack.slots[n]?.map fun v => ⟨n, v.typeName, v⟩
  frames : s.stack.frames = t.stack.frames.reverse.map fun f =>
    ⟨f.hash, f.entry, f.stop, f.base, f.window, f.pc, (f.returnPC.map Int.ofNat).getD (-1)⟩
  heap : s.heap = (t.heap.entries.toList.zipIdx.filter (·.1.live)).map fun e =>
    ⟨⟨UInt32.ofNat e.2, e.1.gen⟩, e.1.value.typeName, e.1.value⟩
  running : t.exit = none → s.exit = none
  graceful : ∀ v, t.exit = some (.graceful v) →
    s.exit = some { kind := 0, value := v, panic := none }
  panicked : ∀ e, t.exit = some (.panicked e) →
    s.exit = some { kind := 1, value := .void, panic := some e }

/-- **A snapshot shows the thread that it was taken of.** -/
theorem snapshotOf_snapshot (t : Thread) : t.SnapshotOf t.snapshot where
  id := rfl
  state := rfl
  steps := rfl
  arch := rfl
  location f rest hlive hf := by
    rw [snapshot, codeLocation, location_of_frame hlive hf]
  nowhere hexit := by
    have hlocation : t.location = -1 := by
      unfold Thread.location
      split
      · next hnone => exact absurd hnone hexit
      · rfl
    rw [snapshot, codeLocation, hlocation]
    rfl
  registers := rfl
  slots n := by
    simp only [snapshot, stackView, List.getElem?_map, List.getElem?_zipIdx, Array.getElem?_toList,
      Option.map_map, Nat.zero_add]
    rfl
  frames := rfl
  heap := by
    show t.heap.view.map _ = _
    rw [Heap.view_eq_map_filter, List.map_map]
    rfl
  running hexit := by rw [snapshot, hexit]; rfl
  graceful v hexit := by rw [snapshot, hexit]; rfl
  panicked e hexit := by rw [snapshot, hexit]; rfl

/-- What the report of a thread says that has ended with an exit: which program ran and how it
ended, with the snapshot when it panicked. -/
structure ReportOf (t : Thread) (x : Exit) (r : ExitReport) : Prop where
  id : r.id = t.id
  programHash : ∃ file, t.program.serialize = .ok file ∧ r.programHash = Digest.sha256 file
  arch : r.arch = t.program.arch.name
  steps : r.steps = t.steps
  graceful : ∀ v, x = .graceful v →
    r.exit = some { kind := 0, value := v, panic := none } ∧ r.snapshot = none
  panicked : ∀ e, x = .panicked e →
    r.exit = some { kind := 1, value := .void, panic := some e } ∧ r.snapshot = some t.snapshot

/-- The exit in a report is the written form of the thread's. -/
theorem ReportOf.exit {x : Exit} {r : ExitReport} (h : t.ReportOf x r) :
    r.exit = some x.record := by
  cases x with
  | graceful v => exact (h.graceful v rfl).1
  | panicked e => exact (h.panicked e rfl).1

/-- A thread that has ended has a report when its program can be written. -/
theorem exists_report {file : Bytes} {x : Exit} (hfile : t.program.serialize = .ok file)
    (hx : t.exit = some x) : ∃ r, ExitReport.ofThread t = .ok r ∧ t.ReportOf x r := by
  have hdigest : t.program.digest = .ok (Digest.sha256 file) := by
    rw [Program.digest, hfile, Except.map]
  rw [ExitReport.ofThread, hdigest, hx]
  refine ⟨_, rfl, rfl, ⟨file, hfile, rfl⟩, rfl, rfl, ?_, ?_⟩
  · rintro v rfl
    exact ⟨rfl, rfl⟩
  · rintro e rfl
    exact ⟨rfl, rfl⟩

/-- The lengths in the heap of a snapshot are those in the heap of the thread. -/
theorem lengthsFit_snapshot (t : Thread) :
    (∀ e ∈ t.snapshot.heap, e.value.lengthsFit = true) ↔ ∀ e ∈ t.heap.view,
      e.value.lengthsFit = true :=
  List.forall_mem_map

/-- **A report of a thread can be written.** -/
theorem Shown.writable_report (h : t.Shown) (hs : t.Sized) {x : Exit} {r : ExitReport}
    (hx : t.exit = some x) (hr : t.ReportOf x r) : r.Writable where
  id := hr.id ▸ h.id
  programHash := by
    obtain ⟨file, _, hfile⟩ := hr.programHash
    rw [hfile, Digest.length_sha256]
  arch := hr.arch ▸ Arch.isText_name h.arch
  steps := hr.steps ▸ hs.steps
  exit := ⟨x.record, hr.exit, h.exit hs hx⟩
  snapshot := by
    intro s hsome
    cases x with
    | graceful v =>
      rw [(hr.graceful v rfl).2] at hsome
      cases hsome
    | panicked e =>
      rw [(hr.panicked e rfl).2] at hsome
      cases hsome
      exact h.writable_snapshot hs

/-- A snapshot of a thread is read back as it was exactly if the lengths in the thread's heap
fit. -/
theorem Shown.decode_snapshot_iff (h : t.Shown) (hs : t.Sized) :
    Snapshot.decode t.snapshot.encode = .ok t.snapshot ↔
      ∀ e ∈ t.heap.view, e.value.lengthsFit = true :=
  (Snapshot.decode_encode_iff (h.writable_snapshot hs)).trans (lengthsFit_snapshot t)

/-- **Snapshots and reports survive the wire.** Whatever is done to a thread of an accepted program
with standard functions: its snapshot shows the thread, and is read back as it was, exactly when the
strings and arrays in its heap have lengths that fit the four bytes of their binary form. When the
thread has ended there is a report, with a snapshot if it panicked and with none otherwise, and it
is read back as it was, with the same exception when it has a snapshot. -/
theorem snapshot_survives {data id : Bytes} {p : Program} {opts : Options}
    (hp : Program.deserialize data = .ok p) (hdata : data.length < 2 ^ 63) (hid : IsText id)
    (hn : opts.natives.Standard) (ht : start id p opts = .ok t) (as : List Action) {u : Thread}
    (hu : t.after as = u) (hs : u.Sized) :
    u.SnapshotOf u.snapshot ∧
      (Snapshot.decode u.snapshot.encode = .ok u.snapshot ↔
        ∀ e ∈ u.heap.view, e.value.lengthsFit = true) ∧
      ∀ x, u.exit = some x → ∃ r, ExitReport.ofThread u = .ok r ∧ u.ReportOf x r ∧
        (ExitReport.decode r.encode = .ok r ↔
          x.isGraceful = true ∨ ∀ e ∈ u.heap.view, e.value.lengthsFit = true) := by
  subst hu
  have hshown := shown_after hp hdata hid hn ht as
  obtain ⟨file, hfile⟩ := Program.exists_serialize_of_deserialize hp
  have hprogram := (t.unchanged_after as).2.2.2.trans (program_start ht)
  refine ⟨snapshotOf_snapshot _, hshown.decode_snapshot_iff hs, fun x hx => ?_⟩
  obtain ⟨r, hr, hreport⟩ := exists_report (hprogram ▸ hfile) hx
  have hwritable := hshown.writable_report hs hx hreport
  refine ⟨r, hr, hreport, (ExitReport.decode_encode_iff hwritable).trans ?_⟩
  cases x with
  | graceful v => simp [(hreport.graceful v rfl).2, Exit.isGraceful]
  | panicked e =>
    rw [(hreport.panicked e rfl).2, ← lengthsFit_snapshot]
    simp [Exit.isGraceful]

/-- The thread of `fileSample` when it has loaded the nested array and called a function that is not
there. -/
def looseThread : Thread :=
  match start (RunId.text ⟨List.replicate 16 7⟩) Program.fileSample { natives := .std } with
  | .ok t => t.after [.step, .reclaim, .step]
  | .error _ => default

/-- The call ends the thread with a copy of the array in the heap; the snapshot and the report with
it are read back. -/
theorem snapshot_survives_looseThread : ∃ t e r,
    Program.deserialize Program.looseFile = .ok Program.fileSample ∧
    start (RunId.text ⟨List.replicate 16 7⟩) Program.fileSample { natives := .std } = .ok t ∧
    t.after [.step, .reclaim, .step] = looseThread ∧ looseThread.exit = some (.panicked e) ∧
    looseThread.heap.view.length = 6 ∧ looseThread.SnapshotOf looseThread.snapshot ∧
    Snapshot.decode looseThread.snapshot.encode = .ok looseThread.snapshot ∧
    ExitReport.ofThread looseThread = .ok r ∧ r.snapshot = some looseThread.snapshot ∧
    ExitReport.decode r.encode = .ok r := by
  have hp : Program.deserialize Program.looseFile = .ok Program.fileSample := by decide +kernel
  have ht : start (RunId.text ⟨List.replicate 16 7⟩) Program.fileSample { natives := .std } =
      .ok _ := rfl
  have hs : looseThread.Sized :=
    { steps := by decide +kernel, slots := by decide +kernel, frames := by decide +kernel
      entries := by decide +kernel, values := by decide +kernel
      message := by
        intro e he
        have hexit : looseThread.exit = some (.panicked _) := rfl
        obtain rfl := Exit.panicked.inj (Option.some.inj (hexit.symm.trans he))
        decide +kernel }
  have hfit : ∀ e ∈ looseThread.heap.view, e.value.lengthsFit = true := by decide +kernel
  obtain ⟨hshows, hsnapshot, hexit⟩ :=
    snapshot_survives hp (by decide) (RunId.isText_text _) (fun _ h => h) ht
    [.step, .reclaim, .step] (u := looseThread) rfl hs
  obtain ⟨r, hr, hreport, hread⟩ := hexit _ rfl
  exact ⟨_, _, r, hp, ht, rfl, rfl, by decide +kernel, hshows, hsnapshot.2 hfit, hr,
    (hreport.panicked _ rfl).2, hread.2 (.inr hfit)⟩

/-! ## A string that has outgrown its length -/

/-- A main function that appends a character to the same string over and over. -/
def longSample : Program where
  arch := .b16
  mainExists := true
  entry := ⟨0, 7, 7⟩
  instructions :=
    #[⟨.function, .immediate (.int64 7)⟩, ⟨.store .a, .immediate (.int64 7)⟩,
      ⟨.load .b, .immediate (.char 97)⟩, ⟨.newString, .implicit⟩, ⟨.pushString, .indirect .b⟩,
      ⟨.jump, .absolute 4⟩, ⟨.ret, .implicit⟩]
  offsets := #[0, 13, 26, 34, 35, 36, 39]
  natives := []

/-- The file of `longSample`. -/
def longFile : Bytes :=
  [82, 71, 86, 77, 1, 0, 16, 1, 0, 0, 7, 0, 7, 0, 7, 0] ++
    [118, 1, 9, 0, 64, 7, 0, 0, 0, 0, 0, 0, 0, 47, 1, 9, 0, 64, 7, 0, 0, 0, 0, 0, 0, 0,
      10, 7, 4, 0, 97, 0, 0, 0, 112, 99, 85, 4, 0, 88] ++ [1, 0, 0, 0, 128]

/-- The thread appends the character in B to a string of `n` bytes, in a loop. -/
structure TextLoop (f : Frame) (n : Nat) (t : Thread) : Prop where
  loop : t.AtLoop f ⟨.pushString, .indirect .b⟩
  a : t.registers.a = .heapRef ⟨0, 0⟩
  b : t.registers.b = .char 97
  heap : t.heap = ⟨#[⟨0, true, .string (List.replicate n 97)⟩], []⟩
  slots : t.stack.slots.size = 7
  steps : t.steps = 2 + 2 * n

/-- One round of the loop makes the string one byte longer. -/
theorem TextLoop.round {f : Frame} {n : Nat} (ht : t.TextLoop f n) :
    (t.ahead 2).TextLoop f (n + 1) := by
  have hget : t.heap.get ⟨0, 0⟩ = .ok (.string (List.replicate n 97)) := by
    rw [ht.heap]
    rfl
  have hset : t.heap.set ⟨0, 0⟩ (.string (List.replicate n 97 ++ [97])) =
      .ok ⟨#[⟨0, true, .string (List.replicate (n + 1) 97)⟩], []⟩ := by
    rw [ht.heap, List.replicate_succ']
    rfl
  have htail : appendix (.char 97) = .ok [97] := rfl
  have hexec : t.counted.exec f ⟨.pushString, .indirect .b⟩ = .ok (.next, jumpTo
      { t.counted with heap := ⟨#[⟨0, true, .string (List.replicate (n + 1) 97)⟩], []⟩ }
      (f.pc + 1)) := by
    simp only [exec, execPushString, counted, ht.a, asRef, load, readOperand, indirect,
      Registers.get, ht.b, Except.mapError, Native.deref, htail, updateHeap, hget, hset,
      bind, Except.bind]
  obtain ⟨hround, hback⟩ := ht.loop.round hexec ht.loop.live rfl rfl
  rw [hround]
  refine ⟨hback, ht.a, ht.b, rfl, ht.slots, ?_⟩
  show t.steps + 1 + 1 = 2 + 2 * (n + 1)
  rw [ht.steps]
  omega

/-- **The string gets as long as one likes.** -/
theorem TextLoop.rounds {f : Frame} {n : Nat} (ht : t.TextLoop f n) (m : Nat) :
    (t.ahead (2 * m)).TextLoop f (n + m) := by
  induction m with
  | zero => exact ht
  | succ m ih =>
    rw [Nat.mul_succ, ahead_add]
    exact ih.round

/-- The string is all that is in the heap. -/
theorem TextLoop.view_heap {f : Frame} {n : Nat} (ht : t.TextLoop f n) :
    t.heap.view = [⟨⟨0, 0⟩, .string (List.replicate n 97)⟩] := by
  rw [ht.heap]
  rfl

/-- The thread is small but for its string. -/
theorem TextLoop.sized {f : Frame} {n : Nat} (ht : t.TextLoop f n) (hn : n ≤ 2 ^ 32) : t.Sized where
  steps := by
    rw [ht.steps]
    omega
  slots := by
    rw [ht.slots]
    decide
  frames := by
    rw [ht.loop.frames]
    exact (by decide : 1 < maxItems)
  entries := by
    rw [ht.view_heap]
    exact (by decide : 1 < maxItems)
  values := by
    rw [ht.view_heap]
    simp only [List.forall_mem_singleton, Value.toBinary, Value.payload, List.length_cons,
      List.length_append, Bytes.length_littleEndian, List.length_replicate]
    omega
  message e he := by
    rw [ht.loop.live] at he
    cases he

/-- **A snapshot is lost when a string has outgrown its length field.** `longSample` gets to a
string of 2^32 bytes, and the snapshot taken there is not read back. -/
theorem snapshot_lost_longSample : ∃ t u s, Program.deserialize longFile = .ok longSample ∧
    start (RunId.text ⟨List.replicate 16 7⟩) longSample { natives := .std } = .ok t ∧
    t.after (List.replicate (2 + 2 * 2 ^ 32) .step) = u ∧ u.Sized ∧
    u.heap.get ⟨0, 0⟩ = .ok (.string s) ∧ s.length = 2 ^ 32 ∧
    Snapshot.decode u.snapshot.encode ≠ .ok u.snapshot := by
  have hp : Program.deserialize longFile = .ok longSample := by decide +kernel
  obtain ⟨t, ht⟩ : ∃ t, start (RunId.text ⟨List.replicate 16 7⟩) longSample { natives := .std } =
      .ok t :=
    ⟨_, rfl⟩
  obtain ⟨f, hloop⟩ : ∃ f, (t.ahead 2).TextLoop f 0 := by
    cases ht
    exact ⟨{ hash := 7, entry := 0, stop := 7, base := 0, window := 7, pc := 4 },
      ⟨rfl, rfl, rfl, 4, rfl, rfl⟩, rfl, rfl, rfl, rfl, rfl⟩
  obtain ⟨u, hu⟩ : ∃ u, t.after (List.replicate (2 + 2 * 2 ^ 32) .step) = u := ⟨_, rfl⟩
  have hlong : u.TextLoop f (2 ^ 32) := by
    have hrounds := hloop.rounds (2 ^ 32)
    rw [← ahead_add, Nat.zero_add] at hrounds
    rw [← hu]
    exact hrounds
  have hshown : u.Shown := by
    rw [← hu]
    exact shown_after hp (by decide) (RunId.isText_text _) (fun _ h => h) ht _
  have hsized := hlong.sized (Nat.le_refl _)
  have hget : u.heap.get ⟨0, 0⟩ = .ok (.string (List.replicate (2 ^ 32) 97)) := by
    rw [hlong.heap]
    rfl
  refine ⟨t, u, _, hp, ht, hu, hsized, hget, List.length_replicate, fun hread => ?_⟩
  have hfit := (hshown.decode_snapshot_iff hsized).1 hread
  rw [hlong.view_heap, List.forall_mem_singleton, Value.lengthsFit, List.length_replicate] at hfit
  exact Nat.lt_irrefl _ (of_decide_eq_true hfit)

end Thread

end RegisterMachine
