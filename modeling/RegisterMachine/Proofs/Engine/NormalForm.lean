import RegisterMachine.Proofs.Engine.FlatThreads
import RegisterMachine.Proofs.Engine.Lifecycle
import RegisterMachine.Proofs.Engine.Turnover
import RegisterMachine.Proofs.Memory.Filling

/-!
# The normal form of memory

Registers, saved registers, slots and the elements of arrays hold no strings or arrays, and live
heap entries hold nothing else, apart from an entry that a deep copy took and did not fill. An
instruction that succeeds fills the entries that it takes (`Thread.Authentic.effect`) if all
references in the thread were handed out (`Thread.Authentic`); a program that mentions no
references, with native functions that make none up, has no others. `Thread.memory_normalForm` puts
this together. A forged reference can lead into an entry that is being copied at the time, which
leaves a void entry behind for good.
-/

namespace RegisterMachine

/-- Numbers are within the range of their kind: an integer in that of its width, a byte below 256,
and a truth value is 0 or 1. -/
def Value.InRange (v : Value) : Prop :=
  (∀ w, v.width? = some w → -2 ^ (w.bits - 1) ≤ v.toInt ∧ v.toInt < 2 ^ (w.bits - 1)) ∧
    (v.kind = .byte → 0 ≤ v.toInt ∧ v.toInt < 256) ∧ (v.kind = .bool → v.toInt = 0 ∨ v.toInt = 1)

/-- The bits of a value leave it no other range. -/
theorem Value.inRange (v : Value) : v.InRange := by
  refine ⟨fun w hw => ?_, fun hk => ?_, fun hk => ?_⟩
  · cases v with
    | int width b =>
      cases hw
      exact ⟨BitVec.le_toInt b, BitVec.toInt_lt⟩
    | _ => cases hw
  · cases v with
    | byte b =>
      have hlt := b.toNat_lt
      rw [toInt]
      omega
    | _ => cases hk
  · cases v with
    | bool b => cases b <;> simp [toInt]
    | _ => cases hk

/-- A container that is written into stays a string or an array. -/
theorem Value.Rewritten.isCell_eq_false {v c c' : Value} (hw : Value.Rewritten v c c') :
    c'.isCell = false := by
  cases hw <;> rfl

/-- Adding strings is filling: every entry that is new holds a string. -/
theorem Heap.AddsStrings.fills {h h' : Heap} (ha : h.AddsStrings h') : h.Fills h' := by
  induction ha with
  | nothing => exact .refl h
  | string s _ ih => exact ih.trans (fills_alloc _ (v := .string s) rfl)

namespace Thread

variable {t u : Thread} {f : Frame} {i : Instruction} {k : StepKind} {v : Value} {freed : List Ref}

/-! ## References that were handed out -/

/-- Every reference that stands anywhere in the thread was handed out: it resolves or was freed. -/
structure Authentic (t : Thread) (freed : List Ref) : Prop where
  sound : t.Sound freed
  freed : ∀ r ∈ freed, t.heap.Issued r

/-- What is known in the heap of an authentic thread is authentic. -/
theorem Authentic.of_knows (ha : t.Authentic freed) (hv : t.heap.Knows freed v) :
    t.heap.Authentic v :=
  fun r hr => (hv r hr).elim Heap.Resolves.issued (ha.freed r)

/-- A deep copy of what is known leaves no entry void. -/
theorem Authentic.deepCopy (ha : t.Authentic freed) (hc : t.heap.Complete) {h : Heap} {w : Value}
    (hv : t.heap.Knows freed v) (he : t.heap.deepCopy v = (h, .ok w))
    (hsize : h.entries.size < 2 ^ 32) : h.Complete := by
  have hcopy := hc.deepCopy (v := v) (w := w) ha.sound.heap.wellFormed
    (fun hr => ha.of_knows (ha.sound.heap.knows hr)) (ha.of_knows hv)
  rw [he] at hcopy
  exact hcopy hsize rfl

/-- Yielding a value keeps a heap complete. -/
theorem Authentic.yields (ha : t.Authentic freed) (hc : t.heap.Complete) {h : Heap}
    (hy : t.Yields i v h) (hsize : h.entries.size < 2 ^ 32) : h.Complete := by
  cases hy with
  | held | plain | immediate => exact hc
  | literal _ hr he => exact ha.deepCopy hc (ha.sound.roots (.literal hr)) he hsize
  | clone hw he => exact ha.deepCopy hc (ha.sound.holds hw) he hsize
  | newString s => exact (Heap.fills_alloc t.heap (v := .string s) rfl).complete hc
  | newArray n => exact (Heap.fills_alloc t.heap (v := .array _) rfl).complete hc

/-- **An instruction that succeeds leaves no entry void.** -/
theorem Authentic.effect (ha : t.Authentic freed) (hc : t.heap.Complete) (he : t.Effect f i k u)
    (hsize : u.heap.entries.size < 2 ^ 32) : u.heap.Complete := by
  cases he with
  | assign hy => exact ha.yields hc hy hsize
  | store hy => exact ha.yields hc hy hsize
  | update hy _ _ hw hset =>
    have hle := (Heap.grows_set hset).size_le
    exact (Heap.fills_set hw.isCell_eq_false hset).complete
      (ha.yields hc hy (Nat.lt_of_le_of_lt hle hsize))
  | pop _ _ _ hset => exact (Heap.fills_set rfl hset).complete hc
  | free _ _ _ hfree => exact (Heap.fills_free hfree).complete hc
  | @native call fn args v w h h' text printed _ _ hfn _ _ hcode hintern =>
    have hadds := ha.sound.natives.addsStrings.call hfn t.heap args
    have hmoved := Heap.fills_intern h v
    rw [hcode] at hadds
    rw [hintern] at hmoved
    exact (hadds.fills.trans hmoved).complete hc
  | clear | skip | jump | trap | call | ret | finish => exact hc

/-! ## Steps and reclaims -/

/-- The heap is complete, unless the thread has ended with a panic. -/
def Filled (t : Thread) : Prop := (∀ e, t.exit ≠ some (.panicked e)) → t.heap.Complete

/-- **A step fills what it takes** or ends the thread with a panic. -/
theorem Authentic.filled_step (ha : t.Authentic freed) (hf : t.Filled)
    (hsize : t.step.2.heap.entries.size < 2 ^ 32) : t.step.2.Filled := by
  have hlive : t.exit = none → t.heap.Complete := fun hexit => hf fun e he => by simp [hexit] at he
  have hcounted : t.counted.Authentic freed := ⟨ha.sound.counted, ha.freed⟩
  have hs := step_stepped t
  generalize t.step.1 = info at hs
  generalize t.step.2 = u at hs hsize ⊢
  cases hs with
  | ended => exact hf
  | noFrame | outside | failed => exact fun hno => absurd rfl (hno _)
  | finished hexit _ _ hexec =>
    exact fun _ => hcounted.effect (hlive hexit) (exec_effect hexec) hsize
  | @moved f rest i k u hexit _ _ hexec =>
    obtain ⟨state, trapped, he⟩ := settle_fields u k
    rw [he] at hsize ⊢
    have hu := hcounted.effect (hlive hexit) (exec_effect hexec) hsize
    exact fun _ => hu

/-- What an action leaves of a thread is authentic, if references do not start over. -/
theorem Authentic.act (ha : t.Authentic freed) (a : Action) (hs : t.heap.Spares (t.act a).heap) :
    ∃ freed', (t.act a).Authentic freed' := by
  cases a with
  | reclaim => exact ⟨freed, ha.sound.reclaim, fun r hr => (ha.freed r hr).ages hs.ages⟩
  | step =>
    refine ⟨freed ++ t.frees?.toList, ha.sound.step hs.size,
      fun r hr => Heap.Issued.ages ?_ hs.ages⟩
    rcases List.mem_append.1 hr with hr | hr
    · exact ha.freed r hr
    · exact (not_resolves_of_frees? (Option.mem_toList.1 hr)).1.issued

/-- What a run leaves of a thread is authentic, if references do not start over. -/
theorem Authentic.after (ha : t.Authentic freed) {as : List Action} (hs : t.Spared as) :
    ∃ freed', (t.after as).Authentic freed' := by
  induction as generalizing t freed with
  | nil => exact ⟨freed, ha⟩
  | cons a as ih =>
    obtain ⟨hone, hrest⟩ := hs
    obtain ⟨freed', ha'⟩ := ha.act a hone
    exact ih ha' hrest

/-- **A run fills what it takes**, as long as no step panics and references do not start over. -/
theorem Authentic.filled_after (ha : t.Authentic freed) (hf : t.Filled) {as : List Action}
    (hs : t.Spared as) : (t.after as).Filled := by
  induction as generalizing t freed with
  | nil => exact hf
  | cons a as ih =>
    obtain ⟨hone, hrest⟩ := hs
    obtain ⟨freed', ha'⟩ := ha.act a hone
    refine ih ha' ?_ hrest
    cases a with
    | step => exact ha.filled_step hf hone.size
    | reclaim => exact fun hno => (hf hno).reclaim t.roots

/-! ## The start of a program -/

/-- Putting the literals into a heap keeps it complete. -/
theorem complete_internLiterals {h : Heap} (hc : h.Complete) (is : List Instruction) :
    (internLiterals h is).1.Complete := by
  induction is generalizing h with
  | nil => exact hc
  | cons i is ih =>
    obtain ⟨_, he⟩ | ⟨v, r, _, _, he⟩ := internLiterals_cons h i is
    · rw [he]
      exact ih hc
    · rw [he]
      exact ih ((Heap.fills_intern h v).complete hc)

/-- A thread that was just started is filled. -/
theorem filled_start {id : Bytes} {p : Program} {opts : Options} (ht : start id p opts = .ok t) :
    t.Filled := by
  obtain ⟨fn, s, _, _, rfl⟩ := start_inv ht
  exact fun _ => complete_internLiterals Heap.complete_empty _

/-- **A program that mentions no references starts authentic**, and stays so as long as references
do not start over. -/
theorem authentic_start {id : Bytes} {p : Program} {opts : Options} (ht : start id p opts = .ok t)
    (hrefs : ∀ i ∈ p.instructions, ∀ v r, i.operand = .immediate v → ¬ v.Mentions r)
    (hn : opts.natives.Honest) {as : List Action} (hsize : (t.after as).heap.entries.size < 2 ^ 32)
    (hfrees : ∀ i, t.freeCount i as < 2 ^ 32) : t.Authentic [] ∧ t.Spared as := by
  obtain ⟨_, hnatives, _⟩ := start_eq_ok ht
  have hadds : t.AddsStrings := fun _ _ _ => hnatives ▸ hn.addsStrings
  have hsound : t.Sound [] :=
    sound_start_of_honest ht hrefs hn (Nat.lt_of_le_of_lt (hadds.size_le_after as) hsize)
  exact ⟨⟨hsound, fun _ hr => nomatch hr⟩,
    hadds.spared_after (gen_start ht) hsize fun i => by rw [Nat.zero_add]; exact hfrees i⟩

/-- **A program that mentions no references fills what it takes**, as long as references do not
start over. -/
theorem filled_after {id : Bytes} {p : Program} {opts : Options} (ht : start id p opts = .ok t)
    (hrefs : ∀ i ∈ p.instructions, ∀ v r, i.operand = .immediate v → ¬ v.Mentions r)
    (hn : opts.natives.Honest) {as : List Action} (hsize : (t.after as).heap.entries.size < 2 ^ 32)
    (hfrees : ∀ i, t.freeCount i as < 2 ^ 32) : (t.after as).Filled := by
  obtain ⟨hauthentic, hspared⟩ := authentic_start ht hrefs hn hsize hfrees
  exact hauthentic.filled_after (filled_start ht) hspared

/-- **Memory is in normal form.** After any steps and reclaims of any program, with native functions
that do nothing to the heap but store new strings in it: no root, that is no register, saved
register, slot or value returned at the end, is a string or an array, and no element of an array is;
a live entry is a string, an array or void; and every number is in the range of its kind. If no
immediate value of the program mentions a reference, the native functions make none up, and
references do not start over, then no live entry is void in a thread that has not panicked. -/
theorem memory_normalForm {id : Bytes} {p : Program} {opts : Options} (ht : start id p opts = .ok t)
    (hn : opts.natives.AddsStrings) (as : List Action) :
    (∀ v, (t.after as).Root v → v.isCell = true ∧ v.InRange) ∧
      (∀ e ∈ (t.after as).heap.entries, e.live = true →
        e.value = .void ∨ (∃ s, e.value = .string s) ∨
          ∃ es, e.value = .array es ∧ ∀ v ∈ es, v.isCell = true ∧ v.InRange) ∧
      ((t.after as).state ≠ .exited ∨ (∃ v, (t.after as).exit = some (.graceful v)) →
        opts.natives.Honest →
        (∀ i ∈ p.instructions, ∀ v r, i.operand = .immediate v → ¬ v.Mentions r) →
        (t.after as).heap.entries.size < 2 ^ 32 → (∀ i, t.freeCount i as < 2 ^ 32) →
        ∀ e ∈ (t.after as).heap.entries, e.live = true → e.value ≠ .void) := by
  have hflat := (flat_start ht hn).after as
  refine ⟨fun v hv => ⟨hflat.roots hv, v.inRange⟩, fun e he _ => ?_, ?_⟩
  · have hstored := hflat.heap e he
    cases hv : e.value with
    | void => exact .inl rfl
    | string s => exact .inr (.inl ⟨s, rfl⟩)
    | array es =>
      rw [hv] at hstored
      exact .inr (.inr ⟨es, rfl, fun v hv => ⟨Value.isStored_array.1 hstored v hv, v.inRange⟩⟩)
    | _ => rw [hv] at hstored; cases hstored
  · intro hexit hhonest hrefs hsize hfrees e he hlive hvoid
    have hlife := ((Reachable.start ht).after as).lifecycle
    have hpanic : ∀ x, (t.after as).exit ≠ some (.panicked x) := by
      intro x hx
      rcases hexit with hstate | ⟨v, hv⟩
      · exact hstate (hlife.exited.2 (by rw [hx]; rfl))
      · rw [hx] at hv
        cases hv
    have hcell := filled_after ht hrefs hhonest hsize hfrees hpanic e he hlive
    rw [hvoid] at hcell
    cases hcell

/-- A main function that loads an array literal with a string in it and copies it. -/
def nestedSample : Program where
  arch := .b64
  mainExists := true
  entry := ⟨0, 6, 1⟩
  instructions :=
    #[⟨.function, .immediate (.int64 1)⟩, ⟨.store .a, .immediate (.int64 6)⟩,
      ⟨.load .a, .immediate (.array [.int64 7, .string [97, 98]])⟩, ⟨.store .a, .absolute 0⟩,
      ⟨.clone, .absolute 0⟩, ⟨.ret, .implicit⟩]
  offsets := #[]
  natives := []

/-- After `nestedSample` has loaded its literal and copied it once more, none of the six entries is
void. -/
theorem memory_normalForm_nestedSample : ∃ t, start [] nestedSample { natives := .std } = .ok t ∧
    (t.after (List.replicate 3 .step)).heap.live = 6 ∧
    ∀ e ∈ (t.after (List.replicate 3 .step)).heap.entries, e.live = true → e.value ≠ .void := by
  have hrefs : ∀ i ∈ nestedSample.instructions, ∀ v r,
      i.operand = .immediate v → ¬ v.Mentions r :=
    Program.not_mentions (by decide)
  have hn : NativeRegistry.std.Honest := NativeRegistry.Standard.honest fun _ hfn => hfn
  have ht : start [] nestedSample { natives := .std } = .ok _ := rfl
  obtain ⟨_, _, hfilled⟩ := memory_normalForm ht hn.addsStrings (List.replicate 3 .step)
  refine ⟨_, ht, by decide +kernel,
    hfilled (.inl (by decide +kernel)) hn hrefs (by decide +kernel) ?_⟩
  exact fun i => Nat.lt_of_le_of_lt (freeCount_le_length _ i _) (by decide +kernel)

/-- A main function that puts a reference to no entry yet into an array and copies the array. -/
def forgedSample : Program where
  arch := .b64
  mainExists := true
  entry := ⟨0, 8, 1⟩
  instructions :=
    #[⟨.function, .immediate (.int64 1)⟩, ⟨.store .a, .immediate (.int64 8)⟩,
      ⟨.newArray, .implicit⟩, ⟨.store .a, .absolute 0⟩, ⟨.load .b, .immediate (.heapRef ⟨1, 0⟩)⟩,
      ⟨.push, .indirect .b⟩, ⟨.clone, .absolute 0⟩, ⟨.ret, .implicit⟩]
  offsets := #[]
  natives := []

/-- The reference leads to the entry that is taken for the copy, which is void at the time: the copy
of what it leads to stays so. -/
example : (start [] forgedSample {}).toOption.map (fun t =>
    let u := t.after (List.replicate 5 .step)
    (u.state, u.heap.entries.toList.map (·.value))) =
      some (.running, [.array [.heapRef ⟨1, 0⟩], .array [.heapRef ⟨2, 0⟩], .void]) := by
  decide +kernel

end Thread

end RegisterMachine
