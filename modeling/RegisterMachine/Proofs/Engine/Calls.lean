import RegisterMachine.Proofs.Engine.CallReturn

/-!
# What can be called

The step of a call pushes the frame of the function whose header stands at the target, when its
window fits behind the caller's. In every other case the thread ends with a panic and the stack is
left alone: with a stack overflow when only the window does not fit, and otherwise for the reason
with which the header is not found (`reason_of_functionAt`). `Thread.call_headers` says so of every
reachable thread and every target, in terms of the program, whose headers are those of the code
(`Thread.Reachable.headerAt_iff`).
-/

namespace RegisterMachine

namespace Thread

variable {t : Thread} {f : Frame} {rest : List Frame} {a : UInt64} {n stop : Nat}

/-! ## Headers -/

/-- The code of a thread has the headers of its program. -/
theorem Reachable.headerAt_iff (h : t.Reachable) :
    HeaderAt t.code n stop ↔ HeaderAt t.program.instructions n stop := by
  have hsize : t.code.size = t.program.instructions.size := h.loadedAs.size
  constructor
  · rintro ⟨⟨v, hheader⟩, ⟨w, b, hmarker, hb⟩, hbody, hstop⟩
    obtain ⟨i, hi, hloaded⟩ := h.loadedAs.instructions hheader
    obtain ⟨j, hj, hloaded'⟩ := h.loadedAs.instructions hmarker
    refine ⟨?_, ⟨w, b, ?_, hb⟩, hbody, hsize ▸ hstop⟩
    · obtain ⟨m, op⟩ := i
      cases hloaded with
      | same => exact ⟨v, hi⟩
      | literal hop =>
        obtain rfl := hop
        exact ⟨_, hi⟩
    · obtain ⟨m, op⟩ := j
      cases hloaded'
      exact hj
  · rintro ⟨⟨v, hheader⟩, ⟨w, b, hmarker, hb⟩, hbody, hstop⟩
    refine ⟨?_, ⟨w, b, ?_, hb⟩, hbody, hsize ▸ hstop⟩
    · obtain ⟨j, hj⟩ : ∃ j, t.code[n]? = some j := ⟨_, Array.getElem?_eq_getElem (by omega)⟩
      obtain ⟨i, hi, hloaded⟩ := h.loadedAs.instructions hj
      obtain rfl := Option.some.inj (hheader.symm.trans hi)
      cases hloaded with
      | same => exact ⟨v, hj⟩
      | literal => exact ⟨_, hj⟩
    · -- An integer is no literal, so that the end stands in the code as it does in the program.
      refine h.getElem?_code hmarker fun v hv => ?_
      cases hv
      exact ⟨of_decide_eq_true rfl, of_decide_eq_true rfl⟩

/-! ## The step of a call -/

/-- A call fails when no function is found. -/
theorem exec_call_of_error {fault : Fault} (h : functionAt t.code a.toInt64.toInt = .error fault) :
    t.exec f ⟨.call, .absolute a⟩ = .error ⟨fault, t.heap⟩ := by
  have hexec : t.exec f ⟨.call, .absolute a⟩ = t.execCall f a.toInt64.toInt := rfl
  rw [hexec, execCall, h]
  rfl

/-- A call pushes the callee's frame if its window fits. -/
theorem exec_call_of_ok {fn : FunctionHeader} (h : functionAt t.code a.toInt64.toInt = .ok fn) :
    t.exec f ⟨.call, .absolute a⟩ = match t.stack.push (t.callee f a.toInt64.toInt fn) with
      | .error e => .error ⟨.memory e, t.heap⟩
      | .ok stack => .ok (.call, { t with stack }) := by
  have hexec : t.exec f ⟨.call, .absolute a⟩ = t.execCall f a.toInt64.toInt := rfl
  rw [hexec, execCall, h]
  rfl

/-- The thread has ended with a panic of the reason, and its stack is as before. -/
def Panics (t u : Thread) (reason : PanicReason) : Prop :=
  u.stack = t.stack ∧ ∃ e, u.exit = some (.panicked e) ∧ e.reason = reason

section

variable (hexit : t.exit = none) (hf : t.stack.frames = f :: rest)
  (hi : t.code[f.pc]? = some ⟨.call, .absolute a⟩)
include hexit hf hi

/-- A call of what is no function panics with the reason of the lookup. -/
theorem panics_call_of_error {fault : Fault}
    (h : functionAt t.code a.toInt64.toInt = .error fault) : t.Panics t.step.2 fault.reason := by
  rw [step_of_exec_error hexit hf hi (exec_call_of_error (t := t.counted) h)]
  exact ⟨rfl, _, rfl, rfl⟩

variable {fn : FunctionHeader} (h : functionAt t.code a.toInt64.toInt = .ok fn)
include h

/-- The window of the callee is that of the function, behind the caller's. -/
theorem panics_call_of_limit (hlimit : t.stack.limit < f.base + f.window + (fn.stop - a.toNat)) :
    t.Panics t.step.2 .stackOverflow := by
  obtain ⟨n, hn, _⟩ := functionAt_eq_ok h
  have hpush : t.counted.stack.push (t.counted.callee f a.toInt64.toInt fn) =
      .error (.stackOverflow (f.base + f.window + (fn.stop - a.toNat)) t.stack.limit) := by
    rw [toNat_of_toInt64 hn] at hlimit ⊢
    rw [callee, hn]
    exact if_pos hlimit
  have hexec := exec_call_of_ok (t := t.counted) (f := f) h
  rw [hpush] at hexec
  rw [step_of_exec_error hexit hf hi hexec]
  exact ⟨rfl, _, rfl, rfl⟩

/-- A call that fits on the stack puts the callee's frame on top. -/
theorem frames_call_of_limit (hlimit : f.base + f.window + (fn.stop - a.toNat) ≤ t.stack.limit) :
    t.step.2.stack.frames = t.callee f a.toInt64.toInt fn :: f :: rest := by
  obtain ⟨n, hn, _⟩ := functionAt_eq_ok h
  obtain ⟨s, hpush, hframes⟩ : ∃ s,
      t.counted.stack.push (t.counted.callee f a.toInt64.toInt fn) = .ok s ∧
      s.frames = t.callee f a.toInt64.toInt fn :: f :: rest := by
    refine ⟨_, Stack.push_eq_ok.2 ⟨?_, rfl⟩, ?_⟩
    · rw [callee, hn]
      rw [toNat_of_toInt64 hn] at hlimit
      exact hlimit
    · exact congrArg _ hf
  have hexec := exec_call_of_ok (t := t.counted) (f := f) h
  rw [hpush] at hexec
  rw [step_of_exec hexit hf hi hexec hexit]
  exact hframes

end

/-- **Calls accept function headers and nothing else.** The step of a call to the absolute address
`a` pushes a frame if and only if the header of a function stands at index `a` of the program and
the function's window fits behind the caller's; the frame pushed is that of the function. If only
the window does not fit, the thread ends with a stack overflow. If there is no header, it ends with
an unknown target, but for the address 2^63 - 1, where it ends with an internal error. The stack is
left alone in both cases. The length of a program is a 64-bit number with a sign. -/
theorem call_headers (ht : t.Reachable) (hsize : t.program.length < 2 ^ 63) (hexit : t.exit = none)
    (hf : t.stack.frames = f :: rest)
    (hi : t.program.instructions[f.pc]? = some ⟨.call, .absolute a⟩) :
    ((∃ g, t.step.2.stack.frames = g :: f :: rest) ↔
      ∃ stop, HeaderAt t.program.instructions a.toNat stop ∧
        f.base + f.window + (stop - a.toNat) ≤ t.stack.limit) ∧
    (∀ g, t.step.2.stack.frames = g :: f :: rest →
      g.entry = a.toNat ∧ HeaderAt t.program.instructions g.entry g.stop ∧
        g.base = f.base + f.window ∧ g.window = g.stop - g.entry ∧ g.returnPC = some (f.pc + 1)) ∧
    (∀ stop, HeaderAt t.program.instructions a.toNat stop →
      t.stack.limit < f.base + f.window + (stop - a.toNat) → t.Panics t.step.2 .stackOverflow) ∧
    ((¬∃ stop, HeaderAt t.program.instructions a.toNat stop) →
      t.Panics t.step.2 (if a.toNat = 2 ^ 63 - 1 then .internalError else .callToUnknown)) := by
  have hcode : t.code.size < 2 ^ 63 := by
    rw [ht.loadedAs.size]
    exact hsize
  have hcall := ht.getElem?_code hi nofun
  have hunpushed : ∀ {reason}, t.Panics t.step.2 reason → ¬∃ g,
      t.step.2.stack.frames = g :: f :: rest := by
    rintro _ ⟨hstack, _⟩ ⟨g, hg⟩
    rw [hstack, hf] at hg
    exact absurd (congrArg List.length hg) (by simp)
  simp only [← ht.headerAt_iff]
  cases hfn : functionAt t.code a.toInt64.toInt with
  | error fault =>
    have hpanics := panics_call_of_error hexit hf hcall hfn
    have hnone : ∀ {stop}, ¬HeaderAt t.code a.toNat stop := by
      intro stop hheader
      obtain ⟨fn, hok, _⟩ := (functionAt_ok_iff hcode).2 hheader
      rw [hfn] at hok
      cases hok
    refine ⟨iff_of_false (hunpushed hpanics) ?_, fun g hg => absurd ⟨g, hg⟩ (hunpushed hpanics),
      ?_, ?_⟩
    · rintro ⟨stop, hheader, _⟩
      exact hnone hheader
    · exact fun stop hheader => absurd hheader hnone
    · exact fun _ => reason_of_functionAt hfn ▸ hpanics
  | ok fn =>
    have hheader := (functionAt_ok_iff hcode).1 ⟨fn, hfn, rfl⟩
    obtain ⟨n, hn, _⟩ := functionAt_eq_ok hfn
    by_cases hlimit : f.base + f.window + (fn.stop - a.toNat) ≤ t.stack.limit
    · have hframes := frames_call_of_limit hexit hf hcall hfn hlimit
      refine ⟨iff_of_true ⟨_, hframes⟩ ⟨_, hheader, hlimit⟩, fun g hg => ?_, ?_,
        fun h => absurd ⟨_, hheader⟩ h⟩
      · obtain ⟨rfl, _⟩ := List.cons.inj (hg.symm.trans hframes)
        have hentry : (t.callee f a.toInt64.toInt fn).entry = a.toNat := by
          rw [callee, hn, toNat_of_toInt64 hn]
          rfl
        refine ⟨hentry, ?_, rfl, rfl, rfl⟩
        rw [hentry]
        exact hheader
      · intro stop h hover
        obtain rfl := h.stop_unique hheader
        omega
    · have hpanics := panics_call_of_limit hexit hf hcall hfn (by omega)
      refine ⟨iff_of_false (hunpushed hpanics) ?_, fun g hg => absurd ⟨g, hg⟩ (hunpushed hpanics),
        fun _ _ _ => hpanics, fun h => absurd ⟨_, hheader⟩ h⟩
      rintro ⟨stop, h, hfits⟩
      obtain rfl := h.stop_unique hheader
      exact hlimit hfits

/-- `callSample` with another target of the call. -/
def callTo (a : UInt64) : Program :=
  { callSample with instructions := callSample.instructions.set! 2 ⟨.call, .absolute a⟩ }

/-- With room for 8 slots the function at index 4 is called, and with room for 7 it is not. At index
5 and at 2^63 - 1 there is no header. -/
theorem call_headers_callTo :
    (∃ t f g, start [] (callTo 4) { maxStack := 8 } = .ok t ∧ t.step.2.stack.frames = [g, f]) ∧
    (∃ t, start [] (callTo 4) { maxStack := 7 } = .ok t ∧ t.Panics t.step.2 .stackOverflow) ∧
    (∃ t, start [] (callTo 5) {} = .ok t ∧ t.Panics t.step.2 .callToUnknown) ∧
    ∃ t, start [] (callTo 9223372036854775807) {} = .ok t ∧ t.Panics t.step.2 .internalError := by
  have hheader : HeaderAt (callTo 4).instructions 4 8 :=
    ⟨⟨_, rfl⟩, ⟨_, _, rfl, by decide⟩, by decide, by decide⟩
  refine ⟨?_, ?_, ?_, ?_⟩
  · have ht : start [] (callTo 4) { maxStack := 8 } = .ok _ := rfl
    obtain ⟨g, hg⟩ := (call_headers (.start ht) (by decide) rfl rfl rfl).1.2 ⟨8, hheader, by decide⟩
    exact ⟨_, _, g, ht, hg⟩
  · have ht : start [] (callTo 4) { maxStack := 7 } = .ok _ := rfl
    exact ⟨_, ht, (call_headers (.start ht) (by decide) rfl rfl rfl).2.2.1 8 hheader (by decide)⟩
  · have ht : start [] (callTo 5) {} = .ok _ := rfl
    exact ⟨_, ht, (call_headers (.start ht) (by decide) rfl rfl rfl).2.2.2
      fun ⟨_, ⟨_, h⟩, _, _, _⟩ => nomatch h⟩
  · have ht : start [] (callTo 9223372036854775807) {} = .ok _ := rfl
    exact ⟨_, ht, (call_headers (.start ht) (by decide) rfl rfl rfl).2.2.2
      fun ⟨_, ⟨_, h⟩, _, _, _⟩ => nomatch h⟩

end Thread

end RegisterMachine
