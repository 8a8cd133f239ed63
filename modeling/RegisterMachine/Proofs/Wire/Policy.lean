import RegisterMachine.Proofs.Engine.Runs
import RegisterMachine.Wire.Policy

/-!
# What a native policy guarantees

A policy passes a program when it permits the name of every native call
(`NativePolicy.check_eq_ok`). `Thread.invoked` lists the native functions that a run invokes. Each
of them has the hash of a native call of the program (`Thread.mem_invoked`), and so the name of that
call is permitted: a policy holds for the names under which a program calls
(`Thread.permits_invoked`). The name under which a function is registered has no part in it, so the
guarantee carries over to the functions themselves when the program calls each by its own name, and
a program that calls one by another name escapes the policy.
-/

namespace RegisterMachine

/-! ## What is checked -/

namespace NativePolicy

/-- The policy lets a function be called: it is not denied and, if only some are allowed, among
them. -/
def Permits (p : NativePolicy) (name : Bytes) : Prop :=
  name ∉ p.denied ∧ ∀ names, p.allowed = some names → name ∈ names

/-- A policy finds no violation in a name exactly if it permits the name. -/
theorem violation?_eq_none {p : NativePolicy} {name : Bytes} :
    p.violation? name = none ↔ p.Permits name := by
  unfold violation? Permits
  split
  · next h => simp [List.contains_iff_mem.1 h]
  · next h =>
    have hdenied : name ∉ p.denied := fun hmem => h (List.contains_iff_mem.2 hmem)
    cases p.allowed with
    | none => simp [hdenied]
    | some names => simp [hdenied]

/-- Leaving out what was seen before loses nothing. -/
theorem mem_foldl_dedup {x : Bytes} (xs seen : List Bytes) :
    x ∈ xs.foldl (fun seen x => if seen.contains x then seen else seen ++ [x]) seen ↔
      x ∈ seen ∨ x ∈ xs := by
  induction xs generalizing seen with
  | nil => simp
  | cons y ys ih =>
    rw [List.foldl_cons, ih]
    split
    · next h =>
      have hy : y ∈ seen := List.contains_iff_mem.1 h
      simp only [List.mem_cons]
      constructor
      · rintro (hx | hx)
        · exact .inl hx
        · exact .inr (.inr hx)
      · rintro (hx | rfl | hx)
        · exact .inl hx
        · exact .inl hy
        · exact .inr hx
    · simp [or_assoc]

/-- The required functions are those that the program calls. -/
theorem mem_requiredNatives {p : Program} {name : Bytes} :
    name ∈ p.requiredNatives ↔ ∃ call ∈ p.natives, call.qualifiedName = name := by
  rw [Program.requiredNatives, Bytes.sort, List.mem_mergeSort, Bytes.dedup, mem_foldl_dedup]
  simp

/-- **A policy passes a program when it permits the names of all its native calls.** -/
theorem check_eq_ok {p : NativePolicy} {prog : Program} :
    p.check prog = .ok () ↔ ∀ call ∈ prog.natives, p.Permits call.qualifiedName := by
  have hnone : prog.requiredNatives.findSome? p.violation? = none ↔
      ∀ call ∈ prog.natives, p.Permits call.qualifiedName := by
    rw [List.findSome?_eq_none_iff]
    constructor
    · intro h call hcall
      exact violation?_eq_none.1 (h _ (mem_requiredNatives.2 ⟨call, hcall, rfl⟩))
    · rintro h name hname
      obtain ⟨call, hcall, rfl⟩ := mem_requiredNatives.1 hname
      exact violation?_eq_none.2 (h call hcall)
  rw [← hnone]
  unfold check
  cases prog.requiredNatives.findSome? p.violation? <;> simp

end NativePolicy

/-! ## What is invoked -/

namespace Thread

variable {t : Thread} {fn : NativeFunction}

/-- The native function that a call instruction invokes, with its arguments, or why it invokes
none. -/
def invocation (t : Thread) (f : Frame) (n : UInt64) : Except Fault (NativeFunction × List Value) :=
  match t.program.native? f.pc with
  | none => .error (.noNativeCall f.pc)
  | some call =>
    match t.natives.lookup? call.hash with
    | none => .error (.unknownNative call)
    | some fn =>
      match t.arguments f n fn.arity with
      | .error e => .error (.memory e)
      | .ok args => .ok (fn, args)

/-- What an instruction makes of what a native function comes to. -/
def answer (t : Thread) (f : Frame) (fn : NativeFunction) : NativeOutcome → Outcome
  | .failed msg left => .error ⟨.nativeFailed fn.qualifiedName msg, left.getD t.heap⟩
  | .crashed msg left => .error ⟨.internal msg, left.getD t.heap⟩
  | .returned v heap printed =>
    .ok (.next,
      ({ t with
        heap := (heap.intern v).1
        printed := if printed.isEmpty then t.printed else printed :: t.printed }.setRegister .y
          (heap.intern v).2).jumpTo (f.pc + 1))

/-- **A call instruction runs the code of the function that it invokes**, and of no other. -/
theorem execCallNative_eq (t : Thread) (f : Frame) (n : UInt64) :
    t.execCallNative f n =
      match t.invocation f n with
      | .error fault => t.refuse fault
      | .ok (fn, args) => t.answer f fn (fn.code t.heap args) := by
  unfold execCallNative invocation
  cases t.program.native? f.pc with
  | none => rfl
  | some call =>
    dsimp only
    cases t.natives.lookup? call.hash with
    | none => rfl
    | some fn =>
      dsimp only
      cases t.arguments f n fn.arity with
      | error e => rfl
      | ok args =>
        dsimp only
        cases fn.code t.heap args <;> rfl

/-- The native function that the next step invokes. -/
def invokes? (t : Thread) : Option NativeFunction :=
  match t.stack.top?, t.current? with
  | some f, some ⟨.callNative, .absolute n⟩ =>
    match t.invocation f n with
    | .ok (fn, _) => some fn
    | .error _ => none
  | _, _ => none

/-- The native functions that steps and reclaims invoke, in order. -/
def invoked (t : Thread) : List Action → List NativeFunction
  | [] => []
  | .step :: as => t.invokes?.toList ++ t.step.2.invoked as
  | .reclaim :: as => t.reclaim.1.invoked as

/-- A native call can be made exactly if the program names one here, its function is known and its
arguments can be read. -/
theorem invocation_eq_ok {f : Frame} {n : UInt64} {args : List Value} :
    t.invocation f n = .ok (fn, args) ↔ ∃ call, t.program.native? f.pc = some call ∧
      t.natives.lookup? call.hash = some fn ∧ t.arguments f n fn.arity = .ok args := by
  unfold invocation
  constructor
  · intro h
    split at h
    · cases h
    · next call hcall =>
      split at h
      · cases h
      · next fn' hfn =>
        split at h
        · cases h
        · next hargs =>
          cases h
          exact ⟨call, hcall, hfn, hargs⟩
  · rintro ⟨call, hcall, hfn, hargs⟩
    simp only [hcall, hfn, hargs]

/-- A step invokes the function that has the hash of the native call at the counter. -/
theorem invokes?_eq_some : t.invokes? = some fn ↔ ∃ f n call args, t.stack.top? = some f ∧
    t.current? = some ⟨.callNative, .absolute n⟩ ∧ t.program.native? f.pc = some call ∧
    t.natives.lookup? call.hash = some fn ∧ t.arguments f n fn.arity = .ok args := by
  unfold invokes?
  split
  · next f n htop hi =>
    rw [htop, hi]
    constructor
    · intro h
      split at h
      · next fn' args hinv =>
        cases h
        obtain ⟨call, hcall, hfn, hargs⟩ := invocation_eq_ok.1 hinv
        exact ⟨f, n, call, args, rfl, rfl, hcall, hfn, hargs⟩
      · cases h
    · rintro ⟨f', n', call, args, hf, hn, hcall, hfn, hargs⟩
      cases hf
      cases hn
      rw [invocation_eq_ok.2 ⟨call, hcall, hfn, hargs⟩]
  · next h =>
    simp only [reduceCtorEq, false_iff]
    rintro ⟨f, n, call, args, htop, hi, _⟩
    exact h f n htop hi

/-- **Whatever a run invokes has the hash of a native call of the program.** -/
theorem mem_invoked {as : List Action} (h : fn ∈ t.invoked as) :
    ∃ call ∈ t.program.natives, t.natives.lookup? call.hash = some fn := by
  induction as generalizing t with
  | nil => cases h
  | cons a as ih =>
    obtain ⟨_, _, hnatives, hprogram⟩ := t.fixed_act a
    rw [← hnatives, ← hprogram]
    cases a with
    | reclaim => exact ih h
    | step =>
      rcases List.mem_append.1 h with h | h
      · obtain ⟨f, n, call, args, _, _, hcall, hfn, _⟩ := invokes?_eq_some.1 (by simpa using h)
        exact ⟨call, hprogram ▸ List.mem_of_find?_eq_some hcall, hnatives ▸ hfn⟩
      · exact ih h

/-- **A policy holds for the names under which a program calls.** If the policy passes the program,
then every native function that any run of it invokes is called under a name that the policy
permits. If the calls name the functions that have their hashes, then the policy permits the
functions themselves. -/
theorem permits_invoked {policy : NativePolicy} {id : Bytes} {p : Program} {opts : Options}
    (hcheck : policy.check p = .ok ()) (ht : start id p opts = .ok t) (as : List Action) :
    (∀ fn ∈ t.invoked as, ∃ call ∈ p.natives, opts.natives.lookup? call.hash = some fn ∧
        policy.Permits call.qualifiedName) ∧
      ((∀ call ∈ p.natives, ∀ fn, opts.natives.lookup? call.hash = some fn →
          fn.qualifiedName = call.qualifiedName) →
        ∀ fn ∈ t.invoked as, policy.Permits fn.qualifiedName) := by
  have hpermits := NativePolicy.check_eq_ok.1 hcheck
  have hcalled : ∀ fn ∈ t.invoked as, ∃ call ∈ p.natives,
      opts.natives.lookup? call.hash = some fn ∧ policy.Permits call.qualifiedName := by
    intro fn hfn
    obtain ⟨call, hcall, hlookup⟩ := mem_invoked hfn
    obtain ⟨_, s, _, _, rfl⟩ := start_inv ht
    exact ⟨call, hcall, hlookup, hpermits call hcall⟩
  refine ⟨hcalled, fun hnames fn hfn => ?_⟩
  obtain ⟨call, hcall, hlookup, hp⟩ := hcalled fn hfn
  rw [hnames call hcall fn hlookup]
  exact hp

/-- A main function that prints, under the name of another function. -/
def disguisedSample : Program where
  arch := .b64
  mainExists := true
  entry := ⟨0, 4, 1⟩
  instructions :=
    #[⟨.function, .immediate (.int64 1)⟩, ⟨.store .a, .immediate (.int64 4)⟩,
      ⟨.callNative, .absolute 0⟩, ⟨.ret, .implicit⟩]
  offsets := #[]
  natives := [⟨2, utf8 "safe", nativeHash (utf8 "std") (utf8 "println"), utf8 "noop"⟩]

/-- Printing is found under its hash. -/
theorem lookup?_println : NativeRegistry.std.lookup? (nativeHash (utf8 "std") (utf8 "println")) =
    some (Native.standard "println" 1 Native.println) := by
  simp [NativeRegistry.lookup?, NativeRegistry.std, Native.standard]

/-- A policy that denies printing passes `disguisedSample`, which prints in its first step: the
function that it invokes is not permitted, and the name under which it calls it is. -/
theorem permits_invoked_disguisedSample : ∃ t fn,
    (({} : NativePolicy).deny (utf8 "std.println")).check disguisedSample = .ok () ∧
    start [] disguisedSample { natives := .std } = .ok t ∧ fn ∈ t.invoked [.step] ∧
    ¬ (({} : NativePolicy).deny (utf8 "std.println")).Permits fn.qualifiedName ∧
    ∃ call ∈ disguisedSample.natives, NativeRegistry.std.lookup? call.hash = some fn ∧
      (({} : NativePolicy).deny (utf8 "std.println")).Permits call.qualifiedName := by
  have hcheck : (({} : NativePolicy).deny (utf8 "std.println")).check disguisedSample = .ok () := by
    rw [NativePolicy.check_eq_ok]
    intro call hcall
    obtain rfl := List.mem_singleton.1 hcall
    refine ⟨by decide, fun names h => (nomatch h)⟩
  obtain ⟨t, ht, hinvokes⟩ : ∃ t, start [] disguisedSample { natives := .std } = .ok t ∧
      t.invokes? = some (Native.standard "println" 1 Native.println) :=
    ⟨_, rfl, invokes?_eq_some.2 ⟨_, 0, _, [.void], rfl, rfl, rfl, lookup?_println, rfl⟩⟩
  have hinvoked : Native.standard "println" 1 Native.println ∈ t.invoked [.step] := by
    simp [invoked, hinvokes]
  refine ⟨t, _, hcheck, ht, hinvoked, ?_, (permits_invoked hcheck ht [.step]).1 _ hinvoked⟩
  intro h
  exact h.1 (by decide)

end Thread

end RegisterMachine
