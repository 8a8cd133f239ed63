import RegisterMachine.Proofs.Debugger.Running
import RegisterMachine.Proofs.Engine.Reclaiming
import RegisterMachine.Wire.Snapshot

/-!
# Operations on debugger sessions

`Session.perform` carries out any of the operations of a session, whether it succeeds or not. A
`Record` keeps along with a session which program it was given to run and how many instructions ran
since the last load or reload. `Record.change` lists what an operation can do; from it
`Record.Faithful.perform` says that the session keeps to its account, and `Record.Faithful.after`
that it does so for any number of operations. `Record.undisturbed` is the result: under the debugger
a program goes the way that it goes by itself.
-/

namespace RegisterMachine.Debugger

/-! ## Operations and answers -/

/-- What can be asked of a session. -/
inductive Operation where
  /-- Loads a program file and, unless its path is empty, a debug file. -/
  | load (files : FileTree) (program debug : Bytes)
  | loadProgram (program : Program) (symbols : Option Symbols)
  | reload
  | run
  | tick
  /-- Ticks on until the program stops, or is cancelled after so many ticks. -/
  | continue (ticks : Nat)
  | stepForward
  | pause
  | setBreakpoint (p : Position)
  | clear
  | breakpoints
  | modules
  | registers
  | stack
  | heap
  | snapshot

/-- What an operation answers when it succeeds. -/
inductive Answer where
  | done
  | event (e : Event)
  | breakpoint (b : Breakpoint)
  | breakpoints (bs : List Breakpoint)
  | modules (ms : List ModuleInfo)
  | registers (rs : List RegisterView)
  | stack (v : StackView)
  | heap (hs : List HeapView)
  | snapshot (s : Snapshot)

/-- The answer to an operation, and the session after it. -/
structure Performed where
  answer : Except SessionError Answer
  session : Session

namespace Session

variable {s : Session}

/-- A session is left as it was by an operation that gives no new one. -/
def settle (s : Session) : Except SessionError (Answer × Session) → Performed
  | .ok (answer, s') => ⟨.ok answer, s'⟩
  | .error e => ⟨.error e, s⟩

/-- Shows something of a thread that waits. -/
def inspect (s : Session) (view : Thread → Answer) : Performed :=
  s.settle (s.suspended.map fun a => (view a.thread, s))

/-- Carries out an operation. -/
def perform (s : Session) : Operation → Performed
  | .load files program debug => s.settle ((s.load files program debug).map (.done, ·))
  | .loadProgram program symbols => s.settle ((s.loadProgram program symbols).map (.done, ·))
  | .reload => s.settle (s.reload.map (.done, ·))
  | .run => s.settle (s.run.map (.done, ·))
  | .tick => s.settle (s.tick.map fun (ev, s') => (.event ev, s'))
  | .continue ticks => ⟨(s.advance ticks).outcome.map .event, (s.advance ticks).session⟩
  | .stepForward => s.settle (s.stepForward.map fun (ev, s') => (.event ev, s'))
  | .pause => s.settle (s.pause.map (.done, ·))
  | .setBreakpoint p => s.settle ((s.setBreakpoint p).map fun (b, s') => (.breakpoint b, s'))
  | .clear => ⟨.ok .done, s.clear⟩
  | .breakpoints => ⟨.ok (.breakpoints s.breakpoints), s⟩
  | .modules => ⟨.ok (.modules s.modules), s⟩
  | .registers => s.inspect fun t => .registers t.registerViews
  | .stack => s.inspect fun t => .stack t.stackView
  | .heap => s.inspect fun t => .heap t.heapViews
  | .snapshot => s.inspect fun t => .snapshot t.snapshot

/-- How many instructions an operation executes. -/
def executed (s : Session) : Operation → Nat
  | .tick => (s.runningFor .tick).toOption.elim 0 (·.distance 1)
  | .continue ticks => (s.runningFor .tick).toOption.elim 0 (·.distance ticks)
  | .stepForward => s.suspended.toOption.elim 0 fun _ => 1
  | _ => 0

end Session

/-- The program that an operation is to load. -/
def Operation.program? : Operation → Option Program
  | .load files program _ =>
    (files.read program).toOption.bind fun data => (Program.deserialize data).toOption
  | .loadProgram program _ => some program
  | _ => none

/-- Whether an operation puts a new thread in place of the one that was there. -/
def Operation.restarts : Operation → Bool
  | .load .. | .loadProgram .. | .reload => true
  | _ => false

/-! ## What operations do when they succeed -/

namespace Session

variable {s s' : Session} {a : Active}

/-- An operation that asks for a running program finds one exactly if a program is active and
running. -/
theorem runningFor_eq_ok {act : Act} :
    s.runningFor act = .ok a ↔ s.active = some a ∧ a.stage = .running := by
  unfold runningFor
  split
  · next b hb =>
    rw [hb, Option.some.injEq]
    split
    · next hstage => exact ⟨fun h => by cases h; exact ⟨rfl, hstage⟩, fun ⟨h, _⟩ => h ▸ rfl⟩
    · next hstage => exact ⟨(nomatch ·), fun ⟨h, hrun⟩ => absurd (h ▸ hrun) hstage⟩
  · next hnone => simp [hnone]

/-- An operation that asks for a suspended program finds one exactly if a program is active and
waiting. -/
theorem suspended_eq_ok : s.suspended = .ok a ↔ s.active = some a ∧ a.stage = .waiting := by
  unfold suspended
  split
  · next b hb =>
    rw [hb, Option.some.injEq]
    split
    · next hstage => exact ⟨fun h => by cases h; exact ⟨rfl, hstage⟩, fun ⟨h, _⟩ => h ▸ rfl⟩
    · next hstage => exact ⟨(nomatch ·), fun ⟨h, hwait⟩ => absurd (h ▸ hwait) hstage⟩
  · next hnone => simp [hnone]

/-- Loading a program that succeeds starts a thread at its entry. -/
theorem loadProgram_eq_ok {p : Program} {symbols : Option Symbols}
    (h : s.loadProgram p symbols = .ok s') :
    ∃ thread, Thread.start s.threadId p s.options = .ok thread ∧
      s' = { s with active := some { program := p, symbols, thread }, earlier := s.output } := by
  obtain ⟨thread, hthread, h⟩ := Except.bind_eq_ok.1 h
  cases h
  exact ⟨thread, Except.mapError_eq_ok.1 hthread, rfl⟩

/-- Loading files is loading the program in them. -/
theorem load_eq_ok {files : FileTree} {program debug : Bytes}
    (h : s.load files program debug = .ok s') :
    ∃ p symbols, (Operation.load files program debug).program? = some p ∧
      s.loadProgram p symbols = .ok s' := by
  obtain ⟨data, hdata, h⟩ := Except.bind_eq_ok.1 h
  obtain ⟨p, hp, h⟩ := Except.bind_eq_ok.1 h
  have hprogram : (Operation.load files program debug).program? = some p := by
    rw [Operation.program?, Except.mapError_eq_ok.1 hdata]
    change (Program.deserialize data).toOption = some p
    rw [Except.mapError_eq_ok.1 hp]
    rfl
  split at h
  · exact ⟨p, none, hprogram, h⟩
  · obtain ⟨_, _, h⟩ := Except.bind_eq_ok.1 h
    obtain ⟨symbols, _, h⟩ := Except.bind_eq_ok.1 h
    exact ⟨p, some symbols, hprogram, h⟩

/-- Loading the program again starts it again, with the symbols and breakpoints that it had. -/
theorem reload_eq_ok (h : s.reload = .ok s') :
    ∃ a thread, s.active = some a ∧ Thread.start s.threadId a.program s.options = .ok thread ∧
      s' = { s with active := some { a with thread, stage := .loaded }, earlier := s.output } := by
  unfold reload at h
  split at h
  · cases h
  · next a ha =>
    obtain ⟨thread, hthread, h⟩ := Except.bind_eq_ok.1 h
    cases h
    exact ⟨a, thread, ha, Except.mapError_eq_ok.1 hthread, rfl⟩

/-- Only a program that was just loaded can be run, and nothing else changes. -/
theorem run_eq_ok (h : s.run = .ok s') : ∃ a, s.active = some a ∧ a.stage = .loaded ∧
    s' = { s with active := some { a with stage := .running } } := by
  unfold run at h
  split at h
  · next a ha =>
    split at h
    · next hstage =>
      cases h
      exact ⟨a, ha, hstage, rfl⟩
    · cases h
  · cases h

/-- A new breakpoint is where its position says, at a location without one. -/
theorem setBreakpoint_eq_ok {p : Position} {b : Breakpoint} (h : s.setBreakpoint p = .ok (b, s')) :
    s' = s ∨ ∃ a, s.active = some a ∧ a.find p = some b ∧ a.stopsAt b.location = false ∧
      s' = { s with active := some { a with breakpoints := a.breakpoints ++ [b] } } := by
  unfold setBreakpoint at h
  split at h
  · cases h
  · next a ha =>
    split at h
    · cases h
    · next b hb =>
      split at h
      · cases h
        exact .inl rfl
      · next hstop =>
        cases h
        exact .inr ⟨a, ha, hb, by simpa using hstop, rfl⟩

end Session

/-! ## Accounts -/

/-- The program that was last loaded, and how many instructions ran since it was loaded or
reloaded. -/
structure Account where
  program : Program
  executed : Nat := 0

/-- The account after some more instructions. -/
def Account.add (c : Account) (n : Nat) : Account := { c with executed := c.executed + n }

/-- A session and its account, as long as there is a program. -/
structure Record where
  session : Session
  account : Option Account := none

namespace Record

/-- The record of a new session. -/
def new (options : Thread.Options) (id : Bytes) : Record :=
  { session := { options, threadId := id } }

/-- The account after an operation with an answer. -/
def accountAfter (r : Record) (op : Operation) (answer : Except SessionError Answer) :
    Option Account :=
  match answer, op with
  | .ok _, .load .. | .ok _, .loadProgram .. => op.program?.map fun program => { program }
  | .ok _, .reload => r.account.map fun c => { c with executed := 0 }
  | _, _ => r.account.map (·.add (r.session.executed op))

/-- The record after an operation. -/
def perform (r : Record) (op : Operation) : Record :=
  ⟨(r.session.perform op).session, r.accountAfter op (r.session.perform op).answer⟩

/-- The record after some operations, the first one first. -/
def after (r : Record) (ops : List Operation) : Record := ops.foldl perform r

end Record

/-! ## What an operation can do -/

/-- What an operation can do to the program that is there, and how many instructions it executes. -/
inductive Active.Change (a : Active) (op : Operation) : Nat → Active → Prop
  /-- The program starts to run, or is paused. -/
  | staged {stage : Stage} :
      a.stage = .loaded ∧ stage = .running ∨ a.stage = .running ∧ stage = .waiting →
      Change a op 0 { a with stage }
  /-- A breakpoint is added. -/
  | marked {p : Position} {b : Breakpoint} : op = .setBreakpoint p → a.find p = some b →
      a.stopsAt b.location = false → Change a op 0 { a with breakpoints := a.breakpoints ++ [b] }
  /-- The breakpoints are removed. -/
  | cleared : Change a op 0 { a with breakpoints := [] }
  /-- The program ticks on. -/
  | ticked {ticks : Nat} : a.stage = .running →
      Change a op (a.distance ticks) (a.advance ticks).2.2
  /-- One instruction runs whatever breakpoint there is. -/
  | forced : op = .stepForward → a.stage = .waiting →
      Change a op 1 ({ a with stage := .running } : Active).execute.2

/-- What an operation can do to a session and its account. -/
inductive Record.Change (r : Record) (op : Operation) : Record → Prop
  | kept : Change r op r
  | loaded {program : Program} {symbols : Option Symbols} {thread : Thread} : op.restarts = true →
      Thread.start r.session.threadId program r.session.options = .ok thread →
      Change r op
        ⟨{ r.session with
            active := some { program, symbols, thread }, earlier := r.session.output },
          some { program }⟩
  | reloaded {a : Active} {thread : Thread} : op.restarts = true → r.session.active = some a →
      Thread.start r.session.threadId a.program r.session.options = .ok thread →
      Change r op
        ⟨{ r.session with
            active := some { a with thread, stage := .loaded }, earlier := r.session.output },
          r.account.map fun c => { c with executed := 0 }⟩
  | replaced {a a' : Active} {n : Nat} : r.session.active = some a → a.Change op n a' →
      Change r op ⟨{ r.session with active := some a' }, r.account.map (·.add n)⟩

/-- Nothing is ticked on that does not run. -/
theorem Session.advance_of_error {s : Session} {e : SessionError}
    (h : s.runningFor .tick = .error e) (ticks : Nat) : (s.advance ticks).session = s ∧
      ((s.advance ticks).outcome = .error .canceled ∨ (s.advance ticks).outcome = .error e) := by
  unfold advance
  split
  · exact ⟨rfl, .inl rfl⟩
  · rw [h]
    exact ⟨rfl, .inr rfl⟩

/-- Ticking on with a session is ticking on with its program; only then is it cancelled. -/
theorem Session.advance_of_running {s : Session} {a : Active} (ha : s.active = some a)
    (hrun : a.stage = .running) (ticks : Nat) :
    (s.advance ticks).session = { s with active := some (a.advance ticks).2.2 } ∧
      (s.advance ticks).outcome = (a.advance ticks).1.elim (.error .canceled) .ok := by
  unfold advance
  split
  · refine ⟨?_, rfl⟩
    rw [Active.advance, ← ha]
  · rw [runningFor_eq_ok.2 ⟨ha, hrun⟩]
    dsimp only
    split
    · next h => rw [h]; exact ⟨rfl, rfl⟩
    · next h => rw [h]; exact ⟨rfl, rfl⟩

/-- The account after ticking on, whatever that comes to. -/
theorem Record.accountAfter_continue (r : Record) (ticks : Nat)
    (answer : Except SessionError Answer) : r.accountAfter (.continue ticks) answer =
      r.account.map (·.add (r.session.executed (.continue ticks))) := by
  cases answer <;> rfl

/-- A tick is ticking on for one tick. -/
theorem Active.tick_eq (a : Active) : a.tick.2 = (a.advance 1).2.2 := by
  rw [advance]
  split
  · next a' h => rw [h]; rfl
  · next ev a' _ h => rw [h]

/-- **What an operation does is one of the listed things.** -/
theorem Record.change (r : Record) (op : Operation) : r.Change op (r.perform op) := by
  have hkept : ∀ {op'}, r.Change op' ⟨r.session, r.account.map (·.add 0)⟩ := by
    intro op'
    have hacc : r.account.map (·.add 0) = r.account := Option.map_id' ..
    rw [hacc]
    exact .kept
  cases op with
  | load files program debug =>
    rw [Record.perform, Session.perform]
    cases hload : r.session.load files program debug with
    | error e => exact hkept
    | ok s =>
      obtain ⟨p, symbols, hp, hs⟩ := Session.load_eq_ok hload
      obtain ⟨t, ht, rfl⟩ := Session.loadProgram_eq_ok hs
      change Change r _ ⟨_, (Operation.program? _).map _⟩
      rw [hp]
      exact .loaded rfl ht
  | loadProgram p symbols =>
    rw [Record.perform, Session.perform]
    cases hload : r.session.loadProgram p symbols with
    | error e => exact hkept
    | ok s =>
      obtain ⟨t, ht, rfl⟩ := Session.loadProgram_eq_ok hload
      exact .loaded rfl ht
  | reload =>
    rw [Record.perform, Session.perform]
    cases hreload : r.session.reload with
    | error e => exact hkept
    | ok s =>
      obtain ⟨a, t, ha, ht, rfl⟩ := Session.reload_eq_ok hreload
      exact .reloaded rfl ha ht
  | run =>
    rw [Record.perform, Session.perform]
    cases hrun : r.session.run with
    | error e => exact hkept
    | ok s =>
      obtain ⟨a, ha, hstage, rfl⟩ := Session.run_eq_ok hrun
      exact .replaced ha (.staged (.inl ⟨hstage, rfl⟩))
  | tick =>
    rw [Record.perform, Session.perform, Session.tick]
    cases hrun : r.session.runningFor .tick with
    | error e =>
      have hnone : r.session.executed .tick = 0 := by rw [Session.executed, hrun]; rfl
      change Change r _ ⟨r.session, r.account.map (·.add (r.session.executed .tick))⟩
      rw [hnone]
      exact hkept
    | ok a =>
      obtain ⟨ha, hstage⟩ := Session.runningFor_eq_ok.1 hrun
      have hdistance : r.session.executed .tick = a.distance 1 := by
        rw [Session.executed, hrun]; rfl
      change Change r _ ⟨{ r.session with active := some a.tick.2 },
        r.account.map (·.add (r.session.executed .tick))⟩
      rw [hdistance, a.tick_eq]
      exact .replaced ha (.ticked hstage)
  | «continue» ticks =>
    rw [Record.perform, Session.perform]
    cases hrun : r.session.runningFor .tick with
    | error e =>
      have hnone : r.session.executed (.continue ticks) = 0 := by rw [Session.executed, hrun]; rfl
      rw [(Session.advance_of_error hrun ticks).1, accountAfter_continue, hnone]
      exact hkept
    | ok a =>
      obtain ⟨ha, hstage⟩ := Session.runningFor_eq_ok.1 hrun
      have hdistance : r.session.executed (.continue ticks) = a.distance ticks := by
        rw [Session.executed, hrun]
        rfl
      rw [(Session.advance_of_running ha hstage ticks).1, accountAfter_continue, hdistance]
      exact .replaced ha (.ticked hstage)
  | stepForward =>
    rw [Record.perform, Session.perform, Session.stepForward]
    cases hwait : r.session.suspended with
    | error e =>
      have hnone : r.session.executed .stepForward = 0 := by rw [Session.executed, hwait]; rfl
      change Change r _ ⟨r.session, r.account.map (·.add (r.session.executed .stepForward))⟩
      rw [hnone]
      exact hkept
    | ok a =>
      obtain ⟨ha, hstage⟩ := Session.suspended_eq_ok.1 hwait
      have hone : r.session.executed .stepForward = 1 := by rw [Session.executed, hwait]; rfl
      change Change r _
        ⟨{ r.session with active := some ({ a with stage := .running } : Active).execute.2 },
          r.account.map (·.add (r.session.executed .stepForward))⟩
      rw [hone]
      exact .replaced ha (.forced rfl hstage)
  | pause =>
    rw [Record.perform, Session.perform, Session.pause]
    cases hrun : r.session.runningFor .pause with
    | error e => exact hkept
    | ok a =>
      obtain ⟨ha, hstage⟩ := Session.runningFor_eq_ok.1 hrun
      exact .replaced ha (.staged (.inr ⟨hstage, rfl⟩))
  | setBreakpoint p =>
    rw [Record.perform, Session.perform]
    cases hset : r.session.setBreakpoint p with
    | error e => exact hkept
    | ok bs =>
      obtain ⟨b, s⟩ := bs
      rcases Session.setBreakpoint_eq_ok hset with rfl | ⟨a, ha, hfind, hnew, rfl⟩
      · exact hkept
      · exact .replaced ha (.marked rfl hfind hnew)
  | clear =>
    rw [Record.perform, Session.perform, Session.clear]
    cases ha : r.session.active with
    | none =>
      have hsame : { r.session with active := none } = r.session := by rw [← ha]
      change Change r _ ⟨{ r.session with active := none }, r.account.map (·.add 0)⟩
      rw [hsame]
      exact hkept
    | some a => exact .replaced ha .cleared
  | breakpoints | modules => exact hkept
  | registers | stack | heap | snapshot =>
    rw [Record.perform, Session.perform, Session.inspect]
    cases r.session.suspended <;> exact hkept

/-! ## Keeping to the account -/

variable {options : Thread.Options} {id : Bytes}

/-- The program is the one of an account, its thread is where it gets to by itself in as many steps,
none of which came after its end, and the stage tells whether it has ended. -/
structure Active.Follows (options : Thread.Options) (id : Bytes) (a : Active) (c : Account) :
    Prop where
  program : a.program = c.program
  thread : ∃ t, Thread.start id c.program options = .ok t ∧ a.thread = t.ahead c.executed ∧
    t.LiveFor c.executed
  loaded : a.stage = .loaded → c.executed = 0
  completed : a.thread.exit.isSome = true ↔ a.stage = .completed
  distinct : (a.breakpoints.map (·.location)).Nodup

namespace Active.Follows

variable {a : Active} {c : Account}

/-- A new thread is at the start of its program. -/
theorem start {p : Program} {symbols : Option Symbols} {t : Thread} {bs : List Breakpoint}
    (ht : Thread.start id p options = .ok t) (hbs : (bs.map (·.location)).Nodup) :
    Active.Follows options id
      { program := p, symbols, thread := t, breakpoints := bs, stage := .loaded }
      { program := p } where
  program := rfl
  thread := ⟨t, ht, rfl, .zero t⟩
  loaded _ := rfl
  completed := by simp [(Thread.start_eq_ok ht).2.2.1]
  distinct := hbs

/-- Steps of a live thread are added to the account. -/
theorem moved {n : Nat} {stage : Stage} (h : a.Follows options id c) (hlive : a.thread.LiveFor n)
    (hloaded : stage ≠ .loaded)
    (hexit : (a.thread.ahead n).exit.isSome = true ↔ stage = .completed) :
    (a.moved n stage).Follows options id (c.add n) where
  program := h.program
  thread := by
    obtain ⟨t, ht, hthread, hfor⟩ := h.thread
    rw [hthread] at hlive
    refine ⟨t, ht, ?_, hfor.add hlive⟩
    rw [Account.add, Thread.ahead_add, ← hthread]
    rfl
  loaded hstage := absurd hstage hloaded
  completed := hexit
  distinct := h.distinct

/-- A stage that does not tell of an end fits a live thread. -/
theorem staged {stage : Stage} (h : a.Follows options id c) (hlive : a.stage ≠ .completed)
    (hloaded : stage ≠ .loaded) (hstage : stage ≠ .completed) :
    ({ a with stage } : Active).Follows options id c := by
  have hexit : ¬ a.thread.exit.isSome = true := fun he => hlive (h.completed.1 he)
  exact h.moved (n := 0) (.zero _) hloaded (iff_of_false hexit hstage)

/-- A running program has not ended. -/
theorem live (h : a.Follows options id c) (hstage : a.stage ≠ .completed) :
    a.thread.exit = none := by
  by_contra hexit
  exact hstage (h.completed.1 (Option.isSome_iff_ne_none.2 hexit))

/-- The thread of a program is in order, having come from a start by steps. -/
theorem lifecycle (h : a.Follows options id c) : a.thread.Lifecycle := by
  obtain ⟨t, ht, hthread, _⟩ := h.thread
  rw [hthread]
  exact ((Thread.Reachable.start ht).after _).lifecycle

/-- Ticking on adds the instructions that it executes. -/
theorem advance (h : a.Follows options id c) (hrun : a.stage = .running) (ticks : Nat) :
    (a.advance ticks).2.2.Follows options id (c.add (a.distance ticks)) := by
  have hlive := h.live (by simp [hrun])
  have hadv := a.advance_cases hrun h.lifecycle hlive ticks
  generalize a.advance ticks = r at hadv
  cases hadv with
  | @stopped k left ev hd _ hstops _ hfor =>
    rw [hd]
    refine h.moved hfor ?_ (hstops.exit_isSome.trans ?_) <;> cases ev <;> simp [Event.stage]
  | usedUp hd _ hfor =>
    rw [hd]
    refine h.moved (fun j hj => hfor j (Nat.lt_succ_of_lt hj)) (by simp) ?_
    simp [hfor ticks (Nat.lt_succ_self _)]

/-- Running one instruction adds it. -/
theorem execute (h : a.Follows options id c) (hwait : a.stage = .waiting) :
    (({ a with stage := .running } : Active).execute).2.Follows options id
      (c.add 1) := by
  have hlive := h.live (by simp [hwait])
  have hrun : ({ a with stage := .running } : Active).Follows options id c :=
    h.staged (by simp [hwait]) (by simp) (by simp)
  rw [Active.execute_eq rfl]
  refine hrun.moved (n := 1) (.succ hlive (.zero _)) ?_ ?_
  · cases Active.nextEvent _ <;> simp [Event.stage]
  · cases hnext : Active.nextEvent _ with
    | stepped =>
      rw [show ∀ t : Thread, t.ahead 1 = t.step.2 from fun _ => rfl,
        (Active.nextEvent_eq_stepped hnext).1]
      simp [Event.stage]
    | _ =>
      have hstops := Active.stops_nextEvent (by rw [hnext]; simp)
      rw [hnext] at hstops
      exact hstops.exit_isSome.trans (by simp [Event.stage])

/-- A breakpoint at a new location leaves the locations distinct. -/
theorem marked {b : Breakpoint} (h : a.Follows options id c) (hb : a.stopsAt b.location = false) :
    ({ a with breakpoints := a.breakpoints ++ [b] } : Active).Follows options id c where
  program := h.program
  thread := h.thread
  loaded := h.loaded
  completed := h.completed
  distinct := by
    have hnew : b.location ∉ a.breakpoints.map (·.location) := by
      intro hmem
      exact Bool.false_ne_true (hb.symm.trans (Active.stopsAt_iff.2 (List.mem_map.1 hmem)))
    rw [List.map_append]
    exact h.distinct.append (List.nodup_singleton _) (List.disjoint_singleton.2 hnew)

end Active.Follows

/-- The session is set up as the threads of its programs are, and its program follows its
account. -/
structure Record.Faithful (options : Thread.Options) (id : Bytes) (r : Record) : Prop where
  sameOptions : r.session.options = options
  sameId : r.session.threadId = id
  active : Option.Rel (Active.Follows options id) r.session.active r.account

namespace Record.Faithful

variable {r : Record} {op : Operation}

/-- The record of a session that was just opened is faithful. -/
theorem new (options : Thread.Options) (id : Bytes) : (Record.new options id).Faithful options id :=
  ⟨rfl, rfl, .none⟩

/-- The account of a program that there is. -/
theorem follows (h : r.Faithful options id) {a : Active} (ha : r.session.active = some a) :
    ∃ c, r.account = some c ∧ a.Follows options id c := by
  have hrel := h.active
  rw [ha] at hrel
  generalize r.account = acc at hrel
  cases hrel with
  | @some _ c hc => exact ⟨c, rfl, hc⟩

/-- A program in place of the one that was there, with what is added to its account. -/
theorem replace (h : r.Faithful options id) {a a' : Active} {n : Nat}
    (ha : r.session.active = some a)
    (hf : ∀ c, a.Follows options id c → a'.Follows options id (c.add n)) :
    Faithful options id ⟨{ r.session with active := some a' }, r.account.map (·.add n)⟩ where
  sameOptions := h.sameOptions
  sameId := h.sameId
  active := by
    obtain ⟨c, hc, hfollows⟩ := h.follows ha
    rw [hc]
    exact .some (hf c hfollows)

/-- **An operation keeps the session to its account.** -/
theorem perform (h : r.Faithful options id) (op : Operation) :
    (r.perform op).Faithful options id := by
  have hchange := r.change op
  generalize r.perform op = r' at hchange ⊢
  cases hchange with
  | kept => exact h
  | loaded _ ht =>
    rw [h.sameOptions, h.sameId] at ht
    exact ⟨h.sameOptions, h.sameId, .some (.start ht List.nodup_nil)⟩
  | @reloaded a t _ ha ht =>
    obtain ⟨c, hc, hf⟩ := h.follows ha
    rw [h.sameOptions, h.sameId] at ht
    refine ⟨h.sameOptions, h.sameId, ?_⟩
    rw [hc, Option.map_some, ← hf.program]
    exact .some (.start ht hf.distinct)
  | @replaced a a' n ha hchange =>
    refine h.replace ha fun c hf => ?_
    cases hchange with
    | staged hstage =>
      rcases hstage with ⟨hstage, rfl⟩ | ⟨hstage, rfl⟩ <;>
        exact hf.staged (by rw [hstage]; exact (nomatch ·)) (nomatch ·) (nomatch ·)
    | marked _ _ hnew => exact hf.marked hnew
    | cleared => exact { hf with distinct := List.nodup_nil }
    | ticked hrun => exact hf.advance hrun _
    | forced _ hwait => exact hf.execute hwait

/-- A record stays faithful, whatever operations follow. -/
theorem after (h : r.Faithful options id) (ops : List Operation) :
    (r.after ops).Faithful options id := by
  induction ops generalizing r with
  | nil => exact h
  | cons op ops ih => exact ih (h.perform op)

end Record.Faithful

/-! ## Failures -/

/-- An operation that fails leaves the session as it was. -/
theorem Session.settle_error {s : Session} {x : Except SessionError (Answer × Session)}
    {e : SessionError} (h : (s.settle x).answer = .error e) : (s.settle x).session = s := by
  cases x with
  | error e => rfl
  | ok r => cases h

/-- **An operation that fails otherwise than by being cancelled changes nothing.** -/
theorem Session.perform_error {s : Session} {op : Operation} {e : SessionError}
    (h : (s.perform op).answer = .error e) (he : e ≠ .canceled) : (s.perform op).session = s := by
  cases op with
  | «continue» ticks =>
    rw [perform] at h ⊢
    have houtcome : (s.advance ticks).outcome = .error e := Except.map_eq_error.1 h
    cases hrun : s.runningFor .tick with
    | error e' => exact (advance_of_error hrun ticks).1
    | ok a =>
      obtain ⟨ha, hstage⟩ := runningFor_eq_ok.1 hrun
      rw [(advance_of_running ha hstage ticks).2] at houtcome
      cases hev : (a.advance ticks).1 with
      | some ev => rw [hev] at houtcome; cases houtcome
      | none => rw [hev] at houtcome; cases houtcome; exact absurd rfl he
  | clear | breakpoints | modules => cases h
  | _ => exact settle_error h

/-- **The debugger does not disturb the program.** After any operations on a new session, failed
ones and cancelled ones among them, the thread is the one that starts with the loaded program and
takes as many bare steps as instructions ran since the last load or reload, none of which it took
after its end. The state tells whether a program was loaded, has not begun, is live or has ended; no
two breakpoints are at one location; and an operation that fails without being cancelled leaves the
session as it was. -/
theorem Record.undisturbed (options : Thread.Options) (id : Bytes) (ops : List Operation) :
    let r := (Record.new options id).after ops
    (r.session.state = .notLoaded ↔ r.account = none) ∧
      (∀ a, r.session.active = some a → ∃ c t, r.account = some c ∧ a.program = c.program ∧
        Thread.start id c.program options = .ok t ∧ a.thread = t.ahead c.executed ∧
        t.LiveFor c.executed) ∧
      (∀ c, r.account = some c → r.session.state = .at .loaded → c.executed = 0) ∧
      (r.session.state = .at .completed ↔ r.session.exit.isSome = true) ∧
      (r.session.state = .at .running ∨ r.session.state = .at .waiting → r.session.exit = none) ∧
      (r.session.breakpoints.map (·.location)).Nodup ∧
      ∀ op e, (r.session.perform op).answer = .error e → e ≠ .canceled →
        (r.session.perform op).session = r.session := by
  have h := (Faithful.new options id).after ops
  intro r
  change r.Faithful options id at h
  have herror := @Session.perform_error r.session
  cases ha : r.session.active with
  | none =>
    have hacc : r.account = none := by
      have hrel := h.active
      rw [ha] at hrel
      generalize r.account = acc at hrel
      cases hrel
      rfl
    simp only [Session.state, Session.exit, Session.breakpoints, ha, hacc]
    refine ⟨by simp, fun a h => ?_, fun c h => ?_, by simp, by simp, by simp, fun _ _ => herror⟩
    · exact absurd h (Option.some_ne_none a).symm
    · exact absurd h (Option.some_ne_none c).symm
  | some a =>
    obtain ⟨c, hc, hf⟩ := h.follows ha
    obtain ⟨t, ht, hthread, hlive⟩ := hf.thread
    simp only [Session.state, Session.exit, Session.breakpoints, ha, hc, Option.bind_some,
      Option.map_some, Option.getD_some, SessionState.at.injEq]
    refine ⟨by simp, ?_, ?_, hf.completed.symm, ?_, hf.distinct, fun _ _ => herror⟩
    · rintro _ ⟨rfl⟩
      exact ⟨c, t, rfl, hf.program, ht, hthread, hlive⟩
    · rintro _ ⟨rfl⟩
      exact hf.loaded
    · rintro (hstage | hstage) <;> exact hf.live (by rw [hstage]; exact (nomatch ·))

end RegisterMachine.Debugger
