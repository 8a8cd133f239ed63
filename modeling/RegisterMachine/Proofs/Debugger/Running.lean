import RegisterMachine.Debugger.Session
import RegisterMachine.Proofs.Engine.Lifecycle

/-!
# A program that runs under the debugger

`Active.Stops` lists why a running program stops after a number of steps: one of its breakpoints is
where the counter of the current frame stands (`Active.AtBreakpoint`), or the last step was a trap
or ended the thread. Ticking on goes to the first stop or as far as there are ticks
(`Active.advance_cases`). A breakpoint is found before a step and a trap after it, so a stop is
looked for at the place where a tick begins and, one step later, by what the tick executed
(`Active.Stops.cases_succ`).
-/

namespace RegisterMachine

namespace Thread

variable {t : Thread}

/-- The thread stands between steps, so far without an end, for some steps. -/
def LiveFor (t : Thread) (n : Nat) : Prop := ∀ j < n, (t.ahead j).exit = none

/-- Before the first step nothing has to be live. -/
theorem LiveFor.zero (t : Thread) : t.LiveFor 0 := fun j hj => absurd hj (Nat.not_lt_zero j)

/-- A live thread stays so for one step more than the thread after its step. -/
theorem LiveFor.succ (h : t.exit = none) {n : Nat} (hn : t.step.2.LiveFor n) :
    t.LiveFor (n + 1) := by
  rintro (_ | j) hj
  · exact h
  · exact hn j (Nat.lt_of_succ_lt_succ hj)

/-- Two stretches without an end, the second one where the first one stops. -/
theorem LiveFor.add {m n : Nat} (hm : t.LiveFor m) (hn : (t.ahead m).LiveFor n) :
    t.LiveFor (m + n) := by
  intro j hj
  rcases Nat.lt_or_ge j m with hlt | hge
  · exact hm j hlt
  · obtain ⟨d, rfl⟩ := Nat.exists_eq_add_of_le hge
    rw [ahead_add]
    exact hn d (Nat.lt_of_add_lt_add_left hj)

end Thread

namespace Debugger

/-- The stage that an event leaves a running program in. -/
def Event.stage : Event → Stage
  | .stepped => .running
  | .breakpoint => .waiting
  | .completed => .completed

namespace Active

variable {a : Active}

/-- What the next step of the thread leads to. -/
def nextEvent (a : Active) : Event :=
  if a.thread.step.2.exit.isSome then .completed
  else if a.thread.step.1.kind = .trap then .breakpoint
  else .stepped

/-- The program after one step of its thread. -/
def stepped (a : Active) : Active := { a with thread := a.thread.step.2 }

/-- Running one instruction is one step of the thread. -/
theorem execute_eq (hrun : a.stage = .running) :
    a.execute = (a.nextEvent, { a.stepped with stage := a.nextEvent.stage }) := by
  unfold execute nextEvent
  dsimp only
  split
  · rfl
  · split
    · rfl
    · rw [Event.stage, ← hrun]
      rfl

/-- A thread that has not ended is at one of the breakpoints of the program: its current frame will
execute the instruction there. -/
def AtBreakpoint (a : Active) (t : Thread) : Prop :=
  t.exit = none ∧ ∃ f rest, t.stack.frames = f :: rest ∧ ∃ b ∈ a.breakpoints, b.location = f.pc

/-- What is looked up is whether a breakpoint has the location. -/
theorem stopsAt_iff {l : Int} : a.stopsAt l = true ↔ ∃ b ∈ a.breakpoints, b.location = l := by
  simp only [stopsAt, List.any_eq_true, beq_iff_eq]

/-- The location of a live thread is looked up to tell whether it is at a breakpoint. -/
theorem atBreakpoint_iff {t : Thread} (ht : t.Lifecycle) (hlive : t.exit = none) :
    a.AtBreakpoint t ↔ a.stopsAt t.location = true := by
  obtain ⟨f, rest, hf⟩ := ht.exists_frame hlive
  rw [stopsAt_iff, Thread.location_of_frame hlive hf]
  constructor
  · rintro ⟨_, g, _, hg, hb⟩
    rw [hf] at hg
    cases hg
    exact hb
  · exact fun hb => ⟨hlive, f, rest, hf, hb⟩

/-- The reasons for a program to stop after some steps, and the event that tells of it. -/
inductive Stops (a : Active) : Nat → Event → Prop
  /-- The thread has come to a breakpoint. -/
  | breakpoint {k : Nat} : a.AtBreakpoint (a.thread.ahead k) → Stops a k .breakpoint
  /-- The last step executed a trap. -/
  | trap {k : Nat} {i : Instruction} : (a.thread.ahead k).current? = some i → i.mnemonic = .trap →
      Stops a (k + 1) .breakpoint
  /-- The last step ended the thread. -/
  | exit {k : Nat} : (a.thread.ahead (k + 1)).exit.isSome = true → Stops a (k + 1) .completed

/-- A step that goes on neither ends the thread nor executes a trap. -/
theorem nextEvent_eq_stepped (h : a.nextEvent = .stepped) :
    a.thread.step.2.exit = none ∧ a.thread.step.1.kind ≠ .trap := by
  unfold nextEvent at h
  split at h
  · cases h
  · next hexit =>
    split at h
    · cases h
    · next htrap => exact ⟨by simpa using hexit, htrap⟩

/-- The reasons at the first step are those of its event. -/
theorem stops_nextEvent (h : a.nextEvent ≠ .stepped) : a.Stops 1 a.nextEvent := by
  unfold nextEvent at h ⊢
  split
  · next hexit => exact .exit (k := 0) hexit
  · next hexit =>
    split
    · next htrap =>
      obtain ⟨i, hi, hm⟩ := Thread.step_kind_eq_trap.1 htrap
      exact .trap (k := 0) hi hm
    · next htrap => exact absurd (by rw [if_neg hexit, if_neg htrap]) h

/-- The stops of the program after its first step are stops of the program, one step later. -/
theorem Stops.of_stepped {k : Nat} {ev : Event} (h : a.stepped.Stops k ev) :
    a.Stops (k + 1) ev := by
  cases h with
  | breakpoint hat => exact .breakpoint (k := _ + 1) hat
  | trap hi hm => exact .trap (k := _ + 1) hi hm
  | exit hexit => exact .exit (k := _ + 1) hexit

/-- A later stop is one after the first step, unless that step led to it. -/
theorem Stops.cases_succ {k : Nat} {ev : Event} (h : a.Stops (k + 1) ev)
    (hnext : a.nextEvent = .stepped) : a.stepped.Stops k ev := by
  obtain ⟨hexit', htrap⟩ := nextEvent_eq_stepped hnext
  cases h with
  | breakpoint hat => exact .breakpoint hat
  | trap hi hm =>
    cases k with
    | zero => exact absurd (Thread.step_kind_eq_trap.2 ⟨_, hi, hm⟩) htrap
    | succ k => exact .trap hi hm
  | exit hexit =>
    cases k with
    | zero => exact absurd hexit' (Option.isSome_iff_ne_none.1 hexit)
    | succ k => exact .exit hexit

/-- The thread has ended at a stop exactly when the event says so. -/
theorem Stops.exit_isSome {k : Nat} {ev : Event} (h : a.Stops k ev) :
    (a.thread.ahead k).exit.isSome = true ↔ ev = .completed := by
  cases h with
  | breakpoint hat => simp [hat.1]
  | @trap k i hi hm =>
    have hlive : (a.thread.ahead (k + 1)).exit = none := by
      rw [Thread.ahead_add]
      exact Thread.exit_of_trap hi hm
    simp [hlive]
  | exit hexit => simp [hexit]

/-! ## Ticking on -/

/-- How many instructions are executed before the program stops or the ticks are used up. -/
def distance : Nat → Active → Nat
  | 0, _ => 0
  | ticks + 1, a =>
    if a.stopsAt a.thread.location then 0
    else match a.execute with
      | (.stepped, a) => distance ticks a + 1
      | _ => 1

/-- The program `n` steps later, at some stage. -/
def moved (a : Active) (n : Nat) (stage : Stage) : Active :=
  { a with thread := a.thread.ahead n, stage }

/-- What ticking on comes to: it goes to the first stop, or the ticks are used up before. -/
inductive Advanced (a : Active) (ticks : Nat) : Option Event × Nat × Active → Prop
  | stopped {k left : Nat} {ev : Event} : a.distance ticks = k → k ≤ ticks → a.Stops k ev →
      (∀ j < k, ∀ ev', ¬ a.Stops j ev') → a.thread.LiveFor k →
      Advanced a ticks (some ev, left, a.moved k ev.stage)
  | usedUp : a.distance ticks = ticks → (∀ j < ticks, ∀ ev', ¬ a.Stops j ev') →
      a.thread.LiveFor (ticks + 1) → Advanced a ticks (none, 0, a.moved ticks .running)

/-- Without a breakpoint at the next instruction and with a step that goes on, there is no stop
before those of the program after the step. -/
theorem not_stops_succ {k : Nat} (hnot : ¬ a.AtBreakpoint a.thread) (hnext : a.nextEvent = .stepped)
    (h : ∀ j < k, ∀ ev, ¬ a.stepped.Stops j ev) : ∀ j < k + 1, ∀ ev, ¬ a.Stops j ev := by
  rintro (_ | j) hj ev hstop
  · cases hstop with
    | breakpoint hat => exact hnot hat
  · exact h j (Nat.lt_of_succ_lt_succ hj) ev (hstop.cases_succ hnext)

/-- **Ticking on goes to the first stop, or as far as there are ticks.** -/
theorem advance_cases (hrun : a.stage = .running) (hlife : a.thread.Lifecycle)
    (hlive : a.thread.exit = none) (ticks : Nat) : a.Advanced ticks (a.advance ticks) := by
  induction ticks generalizing a with
  | zero =>
    have hmoved : a.moved 0 .running = a := by rw [← hrun]; rfl
    have husedUp : a.Advanced 0 (none, 0, a.moved 0 .running) := .usedUp rfl
      (fun j hj => absurd hj (Nat.not_lt_zero j)) (.succ hlive (.zero _))
    rwa [hmoved] at husedUp
  | succ ticks ih =>
    rw [advance, tick]
    have hat := atBreakpoint_iff (a := a) hlife hlive
    cases hstop : a.stopsAt a.thread.location with
    | true =>
      have hdist : a.distance (ticks + 1) = 0 := by rw [distance, hstop]; rfl
      exact .stopped hdist (Nat.zero_le _) (.breakpoint (hat.2 hstop))
        (fun j hj => absurd hj (Nat.not_lt_zero j)) (.zero _)
    | false =>
      have hnot : ¬ a.AtBreakpoint a.thread :=
        fun h => Bool.false_ne_true (hstop.symm.trans (hat.1 h))
      rw [if_neg Bool.false_ne_true, execute_eq hrun]
      -- A step that does not go on is the first stop.
      have hhalt : ∀ ev, a.nextEvent = ev → ev ≠ .stepped →
          a.Advanced (ticks + 1) (some ev, ticks, { a.stepped with stage := ev.stage }) := by
        rintro ev rfl hev
        refine .stopped (k := 1) ?_ (Nat.le_add_left 1 ticks) (stops_nextEvent hev) ?_
          (.succ hlive (.zero _))
        · rw [distance, hstop, if_neg Bool.false_ne_true, execute_eq hrun]
          split
          · next heq => exact absurd (congrArg Prod.fst heq) hev
          · rfl
        · intro j hj ev' hstops
          obtain rfl := Nat.lt_one_iff.1 hj
          cases hstops with
          | breakpoint hat => exact hnot hat
      cases hnext : a.nextEvent with
      | breakpoint => exact hhalt _ hnext (nomatch ·)
      | completed => exact hhalt _ hnext (nomatch ·)
      | stepped =>
        have hstepped : { a.stepped with stage := Event.stepped.stage } = a.stepped := by
          rw [Event.stage, ← hrun]; rfl
        have hdist : a.distance (ticks + 1) = a.stepped.distance ticks + 1 := by
          rw [distance, hstop, if_neg Bool.false_ne_true, execute_eq hrun, hnext, hstepped]
        rw [hstepped]
        dsimp only
        have hrest := ih (a := a.stepped) hrun hlife.step (nextEvent_eq_stepped hnext).1
        generalize a.stepped.advance ticks = r at hrest
        cases hrest with
        | stopped hd hle hat hfirst hfor =>
          exact .stopped (by rw [hdist, hd]) (Nat.succ_le_succ hle) hat.of_stepped
            (not_stops_succ hnot hnext hfirst) (.succ hlive hfor)
        | usedUp hd hfirst hfor =>
          exact .usedUp (by rw [hdist, hd]) (not_stops_succ hnot hnext hfirst) (.succ hlive hfor)

end Active

end Debugger

end RegisterMachine
