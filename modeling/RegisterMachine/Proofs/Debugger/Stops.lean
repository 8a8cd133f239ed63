import RegisterMachine.Proofs.Debugger.Operations

/-!
# Where a program stops under the debugger

`Session.continue_first_stop` says that continuing goes to the first stop and no further, and that
the instruction at a breakpoint is executed only when a waiting session is told to step over it.
That a program does not run past a breakpoint is read off the first stop for ticking on
(`Active.Advanced.not_atBreakpoint`), and holds of single steps because there is only one
(`Active.Change.atBreakpoint_cases`).
-/

namespace RegisterMachine.Debugger

namespace Active

variable {a a' : Active} {op : Operation} {n : Nat}

/-- What ticking on executes is not at a breakpoint. -/
theorem Advanced.not_atBreakpoint {ticks : Nat} {r : Option Event × Nat × Active}
    (h : a.Advanced ticks r) : r.2.2.thread = a.thread.ahead (a.distance ticks) ∧
      a.thread.LiveFor (a.distance ticks) ∧
      ∀ j < a.distance ticks, ¬ a.AtBreakpoint (a.thread.ahead j) := by
  cases h with
  | stopped hd _ _ hfirst hlive =>
    rw [hd]
    exact ⟨rfl, hlive, fun j hj hat => hfirst j hj _ (.breakpoint hat)⟩
  | usedUp hd hfirst hlive =>
    rw [hd]
    exact ⟨rfl, fun j hj => hlive j (Nat.lt_succ_of_lt hj),
      fun j hj hat => hfirst j hj _ (.breakpoint hat)⟩

/-- The steps of the thread in a change of a live program, and which of them are at a breakpoint. -/
theorem Change.atBreakpoint_cases (h : a.Change op n a') (hlife : a.thread.Lifecycle)
    (hlive : a.stage ≠ .completed → a.thread.exit = none) :
    a'.thread = a.thread.ahead n ∧ a.thread.LiveFor n ∧
      ∀ j < n, a.AtBreakpoint (a.thread.ahead j) → op = .stepForward ∧ a.stage = .waiting ∧
        j = 0 := by
  cases h with
  | staged | marked | cleared => exact ⟨rfl, .zero _, fun j hj => absurd hj (Nat.not_lt_zero j)⟩
  | @ticked ticks hrun =>
    have hexit : a.thread.exit = none := hlive (by rw [hrun]; exact (nomatch ·))
    obtain ⟨hthread, hfor, hnot⟩ := (a.advance_cases hrun hlife hexit ticks).not_atBreakpoint
    exact ⟨hthread, hfor, fun j hj hat => absurd hat (hnot j hj)⟩
  | forced hop hwait =>
    rw [execute_eq rfl]
    exact ⟨rfl, .succ (hlive (by rw [hwait]; exact (nomatch ·))) (.zero _),
      fun j hj _ => ⟨hop, hwait, Nat.lt_one_iff.1 hj⟩⟩

end Active

namespace Session

variable {s : Session} {a : Active}

/-- **Continuing goes to the first stop.** -/
theorem advance_first_stop (ha : s.active = some a) (hrun : a.stage = .running)
    (hlife : a.thread.Lifecycle) (hlive : a.thread.exit = none) {ticks : Nat}
    (h : (s.advance ticks).outcome ≠ .error .canceled) :
    ∃ k ev, a.Stops k ev ∧ (∀ j < k, ∀ ev', ¬ a.Stops j ev') ∧ a.thread.LiveFor k ∧
      s.perform (.continue ticks) =
        ⟨.ok (.event ev), { s with active := some (a.moved k ev.stage) }⟩ := by
  obtain ⟨hsession, houtcome⟩ := advance_of_running ha hrun ticks
  rw [houtcome] at h
  rw [perform, hsession, houtcome]
  have hadv := a.advance_cases hrun hlife hlive ticks
  generalize a.advance ticks = r at hadv h
  cases hadv with
  | @stopped k left ev _ _ hstops hfirst hfor => exact ⟨k, ev, hstops, hfirst, hfor, rfl⟩
  | usedUp => exact absurd rfl h

/-- Continuing returns once there are ticks enough to get to a stop. -/
theorem advance_returns (ha : s.active = some a) (hrun : a.stage = .running)
    (hlife : a.thread.Lifecycle) (hlive : a.thread.exit = none) {k ticks : Nat} {ev : Event}
    (h : a.Stops k ev) (hk : k < ticks) : (s.advance ticks).outcome ≠ .error .canceled := by
  rw [(advance_of_running ha hrun ticks).2]
  have hadv := a.advance_cases hrun hlife hlive ticks
  generalize a.advance ticks = r at hadv
  cases hadv with
  | stopped => exact (nomatch ·)
  | usedUp _ hfirst => exact absurd h (hfirst k hk ev)

/-- **Continuing stops exactly at the first stop.** In any session that came about by operations,
let the program run. Continuing returns if there are ticks enough to get to a stop. If it returns,
it ran the instructions up to the first stop, be there a breakpoint, a trap or the end, and gives
the event and the stage of that one. In any such session, of the instructions that an operation
executes, only the one at which the session waits can be at a breakpoint, and then the operation is
a step. -/
theorem continue_first_stop (options : Thread.Options) (id : Bytes) (ops : List Operation) :
    let s := ((Record.new options id).after ops).session
    ∀ a, s.active = some a →
      (a.stage = .running → ∀ ticks,
        ((∃ k < ticks, ∃ ev, a.Stops k ev) → (s.advance ticks).outcome ≠ .error .canceled) ∧
        ((s.advance ticks).outcome ≠ .error .canceled → ∃ k ev, a.Stops k ev ∧
          (∀ j < k, ∀ ev', ¬ a.Stops j ev') ∧ a.thread.LiveFor k ∧
          s.perform (.continue ticks) =
            ⟨.ok (.event ev), { s with active := some (a.moved k ev.stage) }⟩)) ∧
      ∀ op, op.restarts = false → ∃ n a', (s.perform op).session.active = some a' ∧
        a'.thread = a.thread.ahead n ∧ a.thread.LiveFor n ∧
        ∀ j < n, a.AtBreakpoint (a.thread.ahead j) →
          op = .stepForward ∧ a.stage = .waiting ∧ j = 0 := by
  intro s a ha
  have hfaithful := (Record.Faithful.new options id).after ops
  obtain ⟨c, hc, hfollows⟩ := hfaithful.follows ha
  refine ⟨fun hrun ticks => ?_, fun op hop => ?_⟩
  · have hlive := hfollows.live (by rw [hrun]; exact (nomatch ·))
    exact ⟨fun ⟨k, hk, ev, hstops⟩ => advance_returns ha hrun hfollows.lifecycle hlive hstops hk,
      advance_first_stop ha hrun hfollows.lifecycle hlive⟩
  · have hchange := ((Record.new options id).after ops).change op
    change ∃ n a', (((Record.new options id).after ops).perform op).session.active = some a' ∧ _
    generalize ((Record.new options id).after ops).perform op = r' at hchange ⊢
    cases hchange with
    | kept => exact ⟨0, a, ha, rfl, .zero _, fun j hj => absurd hj (Nat.not_lt_zero j)⟩
    | loaded hop' => exact absurd hop' (by rw [hop]; exact Bool.false_ne_true)
    | reloaded hop' => exact absurd hop' (by rw [hop]; exact Bool.false_ne_true)
    | @replaced b b' n hb hchange =>
      obtain rfl : b = a := Option.some_inj.1 (hb.symm.trans ha)
      exact ⟨n, b', rfl, hchange.atBreakpoint_cases hfollows.lifecycle hfollows.live⟩

/-- A main function with a trap before its last instruction. -/
def trapProgram : Program where
  arch := .b16
  mainExists := true
  entry := ⟨0, 5, 7⟩
  instructions :=
    #[⟨.function, .immediate (.int64 7)⟩, ⟨.store .a, .immediate (.int64 5)⟩,
      ⟨.newArray, .implicit⟩, ⟨.trap, .implicit⟩, ⟨.ret, .implicit⟩]
  offsets := #[0, 13, 26, 27, 28]
  natives := []

/-- Loads `trapProgram`, sets a breakpoint at its trap, and lets it run. -/
def breakOperations : List Operation :=
  [.loadProgram trapProgram none, .setBreakpoint (.instruction 3), .run]

/-- A session that runs `trapProgram`, with a breakpoint at the trap. -/
def runningSession : Session := ((Record.new {} []).after breakOperations).session

/-- `runningSession` when it has been continued. -/
def waitingSession : Session :=
  ((Record.new {} []).after (breakOperations ++ [.continue 9])).session

/-- `runningSession` is stopped by the breakpoint after one instruction when it is continued, and
the instruction there is executed when `waitingSession` is told to step over it. -/
theorem continue_first_stop_runningSession :
    (∃ a b, runningSession.active = some a ∧ a.stage = .running ∧ b ∈ a.breakpoints ∧
      b.location = 3 ∧ a.Stops 1 .breakpoint ∧ (∀ ev, ¬ a.Stops 0 ev) ∧
      runningSession.perform (.continue 9) =
        ⟨.ok (.event .breakpoint), { runningSession with active := some (a.moved 1 .waiting) }⟩) ∧
    ∃ a n a', waitingSession.active = some a ∧ a.AtBreakpoint a.thread ∧
      Operation.stepForward.restarts = false ∧
      (waitingSession.perform .stepForward).session.active = some a' ∧
        a'.thread = a.thread.ahead n ∧
      0 < n ∧ a.stage = .waiting := by
  constructor
  · obtain ⟨a, ha⟩ : ∃ a, runningSession.active = some a := ⟨_, rfl⟩
    have hreturns : (runningSession.advance 9).outcome ≠ .error .canceled := by decide +kernel
    have hanswer : (runningSession.perform (.continue 9)).answer = .ok (.event .breakpoint) := rfl
    have hrun : a.stage = .running := by cases ha; rfl
    have hbreakpoints : a.breakpoints = [{ location := 3 }] := by cases ha; rfl
    have hone : a.Stops 1 .breakpoint := by
      cases ha
      exact .breakpoint ⟨rfl, _, _, rfl, _, .head _, rfl⟩
    have hzero : ∀ ev, ¬ a.Stops 0 ev := by
      rintro _ ⟨_, f, rest, hf, b, hb, he⟩
      cases ha
      cases hf
      obtain rfl := List.mem_singleton.1 hb
      cases he
    obtain ⟨hstops, _⟩ := continue_first_stop {} [] breakOperations a ha
    obtain ⟨k, ev, hk, hfirst, _, hperform⟩ := (hstops hrun 9).2 hreturns
    change runningSession.perform (.continue 9) = _ at hperform
    obtain rfl : Event.breakpoint = ev := by
      rw [hperform] at hanswer
      cases hanswer
      rfl
    obtain rfl : k = 1 := by
      rcases Nat.lt_trichotomy k 1 with hlt | rfl | hgt
      · exact absurd (Nat.lt_one_iff.1 hlt ▸ hk) (hzero _)
      · rfl
      · exact absurd hone (hfirst 1 hgt _)
    exact ⟨a, { location := 3 }, ha, hrun, by rw [hbreakpoints]; exact .head _, rfl, hone,
      hzero, hperform⟩
  · obtain ⟨a, ha⟩ : ∃ a, waitingSession.active = some a := ⟨_, rfl⟩
    have hat : a.AtBreakpoint a.thread := by
      cases ha
      exact ⟨rfl, _, _, rfl, _, .head _, rfl⟩
    obtain ⟨_, hexecuted⟩ :=
      continue_first_stop {} [] (breakOperations ++ [Operation.continue 9]) a ha
    obtain ⟨n, a', ha', hthread, _, honly⟩ := hexecuted .stepForward rfl
    have hpos : 0 < n := by
      refine Nat.pos_of_ne_zero fun hn => ?_
      have hsteps : a'.thread.steps = a.thread.steps + 1 := by
        cases ha
        cases ha'
        rfl
      rw [hthread, hn, Thread.ahead_zero] at hsteps
      omega
    exact ⟨a, n, a', ha, hat, rfl, ha', hthread, hpos, (honly 0 hpos hat).2.1⟩

-- Stepping over the breakpoint executes the trap, which the session waits behind.
example : (waitingSession.perform .stepForward).session.location = 4 := by decide +kernel

end Session

end RegisterMachine.Debugger
