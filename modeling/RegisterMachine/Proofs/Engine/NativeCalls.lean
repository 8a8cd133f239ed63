import RegisterMachine.Proofs.Engine.Effect
import RegisterMachine.Proofs.Memory.References

/-!
# What native functions do

Native functions come from outside, so a theorem on programs that call them says what it expects of
them. There are three classes, each within the one before: functions that do nothing to a heap but
store new strings in it (`NativeRegistry.AddsStrings`), functions that make no references up besides
(`NativeRegistry.Honest`), and the standard functions (`NativeRegistry.Standard`), which come to one
of three things (`NativeOutcome.Tame`).
-/

namespace RegisterMachine

variable {freed : List Ref}

/-- Plain values mention no reference. -/
theorem Value.not_mentions_of_isPlain {v : Value} (hv : v.isPlain = true) (r : Ref) :
    ¬ v.Mentions r := by
  intro hr
  cases hr <;> cases hv

/-! ## Storing strings -/

namespace Heap

/-- Nothing is done but storing new strings, one after the other. -/
inductive AddsStrings (h : Heap) : Heap → Prop
  | nothing : AddsStrings h h
  | string {h' : Heap} (s : Bytes) : AddsStrings h h' → AddsStrings h (h'.alloc (.string s)).1

variable {h h' : Heap}

/-- Adding strings is a change that any monotone relation takes in. -/
theorem AddsStrings.monotone {R : Heap → Heap → Prop} (hR : Monotone R) (ha : h.AddsStrings h') :
    R h h' := by
  induction ha with
  | nothing => exact hR.refl h
  | string s _ ih => exact hR.trans ih (hR.alloc _ _)

/-- A heap stays well formed when strings are added. -/
theorem AddsStrings.wellFormed (ha : h.AddsStrings h') (hw : h.WellFormed) : h'.WellFormed :=
  ha.monotone monotone_wellFormed hw

/-- Strings take the place of no live entry. -/
theorem AddsStrings.keeps (ha : h.AddsStrings h') (hw : h.WellFormed) : h.Keeps h' := by
  induction ha with
  | nothing => exact .refl h
  | string s ha ih => exact ih.trans ((ha.wellFormed hw).keeps_alloc _)

/-- Strings mention no reference, so a heap with more of them is as sound as before. -/
theorem AddsStrings.extends (ha : h.AddsStrings h') (hs : h.Sound freed)
    (hsize : h'.entries.size < 2 ^ 32) : Extends freed h h' := by
  induction ha with
  | nothing => exact .refl hs
  | @string h' s _ ih =>
    have hext := ih (Nat.lt_of_le_of_lt (grows_alloc h' (.string s)).size_le hsize)
    exact hext.trans (hext.sound.alloc (v := .string s) (.ofNone fun r hr => nomatch hr) hsize).1

end Heap

/-- The heap after a call, given the heap before it. -/
def NativeOutcome.heap (h : Heap) : NativeOutcome → Heap
  | .returned _ h' _ => h'
  | .failed _ left | .crashed _ left => left.getD h

/-! ## Classes of functions -/

namespace NativeRegistry

variable {r : NativeRegistry} {hash : UInt64} {fn : NativeFunction}

/-- The functions do nothing to a heap but store new strings in it, also when they fail. -/
def AddsStrings (r : NativeRegistry) : Prop :=
  ∀ fn ∈ r.functions, ∀ (h : Heap) args, h.AddsStrings ((fn.code h args).heap h)

/-- The functions add nothing but strings and make no references up: what a result refers to stands
in the arguments or in the heap, or leads to an entry. -/
structure Honest (r : NativeRegistry) : Prop where
  addsStrings : r.AddsStrings
  known : ∀ {fn h args v h' text q}, fn ∈ r.functions → fn.code h args = .returned v h' text →
    h.WellFormed → h'.entries.size < 2 ^ 32 → v.Mentions q →
      (∃ a ∈ args, a.Mentions q) ∨ (∃ p w, h.get p = .ok w ∧ w.Mentions q) ∨ h'.Resolves q

/-- All functions are standard ones. -/
def Standard (r : NativeRegistry) : Prop :=
  ∀ fn ∈ r.functions, fn ∈ NativeRegistry.std.functions

/-- A function from a registry that adds strings only does so in every call. -/
theorem AddsStrings.call (hr : r.AddsStrings) (hfn : r.lookup? hash = some fn) (h : Heap)
    (args : List Value) : h.AddsStrings ((fn.code h args).heap h) :=
  hr fn (List.mem_of_find?_eq_some hfn) h args

/-- **What an honest function returns is known** to the heap after it. -/
theorem Honest.call (hr : r.Honest) (hfn : r.lookup? hash = some fn) {h h' : Heap}
    {args : List Value} {v : Value} {text : Bytes} (hcode : fn.code h args = .returned v h' text)
    (hs : h.Sound freed) (hargs : ∀ a ∈ args, h.Knows freed a) (hsize : h'.entries.size < 2 ^ 32) :
    Heap.Extends freed h h' ∧ h'.Knows freed v := by
  have hadds := hr.addsStrings.call hfn h args
  rw [hcode] at hadds
  have hext : Heap.Extends freed h h' := hadds.extends hs hsize
  refine ⟨hext, fun q hq => ?_⟩
  obtain ⟨a, ha, haq⟩ | ⟨p, w, hp, hw⟩ | hres :=
    hr.known (List.mem_of_find?_eq_some hfn) hcode hs.wellFormed hsize hq
  · exact hext.knows (hargs a ha) q haq
  · exact hext.knows (hs.knows hp) q hw
  · exact .inl hres

end NativeRegistry

/-! ## The standard functions -/

/-- What a standard function comes to: a plain value or a new string, or an error that leaves the
heap alone. -/
inductive NativeOutcome.Tame (h : Heap) : NativeOutcome → Prop
  | plain {v : Value} {text : Bytes} : v.isPlain = true → Tame h (.returned v h text)
  | newString (s : Bytes) {text : Bytes} :
      Tame h (.returned (.heapRef (h.alloc (.string s)).2) (h.alloc (.string s)).1 text)
  | failed (message : Bytes) : Tame h (.failed message none)

/-- What printing comes to is tame. -/
theorem Native.tame_println (h : Heap) (args : List Value) : (Native.println h args).Tame h := by
  unfold Native.println
  split
  · exact .failed _
  · exact .plain rfl

/-- What measuring comes to is tame. -/
theorem Native.tame_len (h : Heap) (args : List Value) : (Native.len h args).Tame h := by
  unfold Native.len
  split
  · exact .failed _
  · exact .plain rfl
  · exact .plain rfl
  · exact .failed _

/-- What concatenating comes to is tame. -/
theorem Native.tame_concat (h : Heap) (args : List Value) : (Native.concat h args).Tame h := by
  unfold Native.concat
  split
  · exact .failed _
  · exact .failed _
  · exact .newString _

/-- **Standard functions are tame.** -/
theorem NativeRegistry.Standard.tame_of_mem {r : NativeRegistry} (hr : r.Standard)
    {fn : NativeFunction} (hfn : fn ∈ r.functions) (h : Heap) (args : List Value) :
    (fn.code h args).Tame h := by
  have hmem := hr fn hfn
  rw [NativeRegistry.std] at hmem
  simp only [List.mem_cons, List.not_mem_nil, or_false] at hmem
  rcases hmem with rfl | rfl | rfl
  · exact Native.tame_println h args
  · exact Native.tame_len h args
  · exact Native.tame_concat h args

/-- What a standard function comes to is tame. -/
theorem NativeRegistry.Standard.tame {r : NativeRegistry} {hash : UInt64} {fn : NativeFunction}
    (hr : r.Standard) (hfn : r.lookup? hash = some fn) (h : Heap) (args : List Value) :
    (fn.code h args).Tame h :=
  hr.tame_of_mem (List.mem_of_find?_eq_some hfn) h args

/-- **Standard functions are honest.** -/
theorem NativeRegistry.Standard.honest {r : NativeRegistry} (hr : r.Standard) : r.Honest := by
  constructor
  · intro fn hfn h args
    have htame := hr.tame_of_mem hfn h args
    generalize fn.code h args = outcome at htame
    cases htame with
    | plain | failed => exact .nothing
    | newString s => exact .string s .nothing
  · intro fn h args v h' text q hfn hcode hw hsize hq
    have htame := hr.tame_of_mem hfn h args
    rw [hcode] at htame
    cases htame with
    | plain hv => exact absurd hq (v.not_mentions_of_isPlain hv q)
    | newString s =>
      cases hq
      exact .inr (.inr ⟨_, (Heap.get_alloc hw hsize).2 (.inl ⟨rfl, rfl⟩)⟩)

end RegisterMachine
