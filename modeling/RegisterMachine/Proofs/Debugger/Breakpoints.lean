import RegisterMachine.Proofs.Debugger.Stops
import RegisterMachine.Proofs.Debugger.SymbolLines

/-!
# Where breakpoints are

A position means a breakpoint (`Active.Means`): the index of an instruction means itself, and a line
of a module's source means the start of the first header on that line. An index is looked at before
it becomes a breakpoint, but the start of a header is taken as the debug file has it. So every
breakpoint comes from a position (`Active.Marked`, kept by every operation), and
`Session.breakpoints_located` says that it lies in the program unless a header does not.
-/

namespace RegisterMachine

/-- The number is the index of an instruction. -/
def Program.HasLocation (p : Program) (i : Int) : Prop := 0 ≤ i ∧ i < p.length

/-- Whether a program has a location can be computed. -/
instance (p : Program) (i : Int) : Decidable (p.HasLocation i) :=
  inferInstanceAs (Decidable (_ ∧ _))

namespace Debugger

/-! ## What positions mean -/

/-- The header is one of a module, and its range starts on a line, counted from one in signed
numbers of 64 bits. -/
structure Header.StartsOn (h : Header) (module : Bytes) (line : Int) : Prop where
  module : h.module = module
  startLine : h.range.startLine = (line - 1).bmod (2 ^ 64)

/-- The header is the first one of the module whose range starts on the line. -/
def Symbols.Locates (s : Symbols) (module : Bytes) (line : Int) (h : Header) : Prop :=
  ∃ before after, s.headers = before ++ h :: after ∧ h.StartsOn module line ∧
    ∀ g ∈ before, ¬ g.StartsOn module line

/-- **Looking up a line finds the first header on it.** -/
theorem Symbols.locate?_eq_some_iff {s : Symbols} {module : Bytes} {line : Int} {h : Header} :
    s.locate? module line = some h ↔ s.Locates module line h := by
  have htest : ∀ g : Header, (g.module == module &&
      g.range.startLine == signed (UInt64.ofInt (line - 1))) = true ↔ g.StartsOn module line := by
    intro g
    rw [Bool.and_eq_true, beq_iff_eq, beq_iff_eq, signed_ofInt]
    exact ⟨fun ⟨hm, hl⟩ => ⟨hm, hl⟩, fun hg => ⟨hg.module, hg.startLine⟩⟩
  rw [locate?, List.find?_eq_some_iff_append, htest]
  simp only [Bool.not_eq_true', ← Bool.not_eq_true, htest]
  exact ⟨fun ⟨hon, before, after, heq, hnot⟩ => ⟨before, after, heq, hon, hnot⟩,
    fun ⟨before, after, heq, hon, hnot⟩ => ⟨hon, before, after, heq, hnot⟩⟩

namespace Active

variable {a a' : Active} {op : Operation} {n : Nat} {b : Breakpoint} {p : Position}

/-- The first header on a line in the symbols of the program, if it has symbols. -/
def Locates (a : Active) (module : Bytes) (line : Int) (h : Header) : Prop :=
  ∃ s, a.symbols = some s ∧ s.Locates module line h

/-- The breakpoint that a position means: the index of an instruction means itself, and a line the
start of the first header on it, wherever that is. -/
inductive Means (a : Active) : Position → Breakpoint → Prop
  | instruction {i : Int} : a.program.HasLocation i → Means a (.instruction i) { location := i }
  | source {module : Bytes} {line : Int} {h : Header} : a.Locates module line h →
      Means a (.source module line) { location := h.start, module, line }

/-- **The breakpoint of a position** is the one that it means. -/
theorem find_eq_some_iff : a.find p = some b ↔ a.Means p b := by
  cases p with
  | instruction i =>
    rw [find]
    split
    · next hout =>
      refine iff_of_false nofun fun h => ?_
      cases h with
      | instruction hin => exact absurd hin.1 (by have := hin.2; omega)
    · next hin =>
      constructor
      · rintro ⟨⟩
        exact .instruction ⟨by omega, by omega⟩
      · rintro ⟨⟩
        rfl
  | source module line =>
    rw [find, Option.map_eq_some_iff]
    constructor
    · rintro ⟨h, hfound, rfl⟩
      obtain ⟨s, hs, hlocate⟩ := Option.bind_eq_some_iff.1 hfound
      exact .source ⟨s, hs, Symbols.locate?_eq_some_iff.1 hlocate⟩
    · intro h
      cases h with
      | source hlocates =>
        obtain ⟨s, hs, hlocates⟩ := hlocates
        exact ⟨_, Option.bind_eq_some_iff.2 ⟨s, hs, Symbols.locate?_eq_some_iff.2 hlocates⟩, rfl⟩

/-- A position means one breakpoint. -/
theorem Means.unique {b' : Breakpoint} (h : a.Means p b) (h' : a.Means p b') : b = b' :=
  Option.some.inj ((find_eq_some_iff.2 h).symm.trans (find_eq_some_iff.2 h'))

/-! ## Breakpoints come from positions -/

/-- The program with its symbols and breakpoints is the same. -/
structure SameMarks (a a' : Active) : Prop where
  program : a'.program = a.program
  symbols : a'.symbols = a.symbols
  breakpoints : a'.breakpoints = a.breakpoints

/-- An active program has the program, the symbols and the breakpoints that it has. -/
theorem SameMarks.refl (a : Active) : a.SameMarks a := ⟨rfl, rfl, rfl⟩

/-- Executing an instruction leaves the program, its symbols and its breakpoints alone. -/
theorem sameMarks_execute (a : Active) : a.SameMarks a.execute.2 := by
  unfold execute
  dsimp only
  split
  · exact ⟨rfl, rfl, rfl⟩
  · split <;> exact ⟨rfl, rfl, rfl⟩

/-- A tick leaves the program, its symbols and its breakpoints alone. -/
theorem sameMarks_tick (a : Active) : a.SameMarks a.tick.2 := by
  unfold tick
  split
  · exact ⟨rfl, rfl, rfl⟩
  · exact a.sameMarks_execute

/-- Running on leaves the program, its symbols and its breakpoints alone. -/
theorem sameMarks_advance (ticks : Nat) (a : Active) : a.SameMarks (a.advance ticks).2.2 := by
  induction ticks generalizing a with
  | zero => exact .refl a
  | succ ticks ih =>
    have htick := a.sameMarks_tick
    rw [advance]
    split
    · next a' heq =>
      rw [heq] at htick
      have hrest := ih a'
      exact ⟨hrest.program.trans htick.program, hrest.symbols.trans htick.symbols,
        hrest.breakpoints.trans htick.breakpoints⟩
    · next ev a' _ heq =>
      rw [heq] at htick
      exact htick

/-- Every breakpoint is what some position means. -/
def Marked (a : Active) : Prop := ∀ b ∈ a.breakpoints, ∃ p, a.Means p b

/-- What a position means depends on the program and its symbols only. -/
theorem Means.congr (h : a.Means p b) (hprogram : a'.program = a.program)
    (hsymbols : a'.symbols = a.symbols) : a'.Means p b := by
  cases h with
  | instruction hin => exact .instruction (hprogram ▸ hin)
  | source hlocates => exact .source (by rwa [Locates, hsymbols])

/-- Breakpoints that positions mean are still meant by them while program, symbols and breakpoints
stay. -/
theorem Marked.of_sameMarks (h : a.Marked) (hsame : a.SameMarks a') : a'.Marked := by
  intro b hb
  rw [hsame.breakpoints] at hb
  obtain ⟨p, hp⟩ := h b hb
  exact ⟨p, hp.congr hsame.program hsame.symbols⟩

/-- A change of a program leaves its breakpoints where positions are. -/
theorem Marked.change (h : a.Marked) (hchange : a.Change op n a') : a'.Marked := by
  cases hchange with
  | staged => exact h.of_sameMarks ⟨rfl, rfl, rfl⟩
  | marked _ hfind =>
    intro b' hb'
    rcases List.mem_append.1 hb' with hb' | hb'
    · obtain ⟨p, hp⟩ := h b' hb'
      exact ⟨p, hp.congr rfl rfl⟩
    · obtain rfl := List.mem_singleton.1 hb'
      exact ⟨_, (find_eq_some_iff.1 hfind).congr rfl rfl⟩
  | cleared => exact fun b hb => nomatch hb
  | ticked => exact h.of_sameMarks (a.sameMarks_advance _)
  | forced =>
    have hstaged : Marked { a with stage := .running } := h.of_sameMarks ⟨rfl, rfl, rfl⟩
    exact hstaged.of_sameMarks (sameMarks_execute _)

end Active

namespace Record

variable {r : Record}

/-- **An operation keeps breakpoints where positions are.** -/
theorem marked_perform (h : ∀ a, r.session.active = some a → a.Marked) (op : Operation) :
    ∀ a, (r.perform op).session.active = some a → a.Marked := by
  have hchange := r.change op
  generalize r.perform op = r' at hchange ⊢
  cases hchange with
  | kept => exact h
  | loaded =>
    rintro a ⟨⟩
    exact fun b hb => nomatch hb
  | reloaded _ ha =>
    rintro a ⟨⟩
    exact (h _ ha).of_sameMarks ⟨rfl, rfl, rfl⟩
  | replaced ha hchange =>
    rintro a ⟨⟩
    exact (h _ ha).change hchange

/-- Every breakpoint is what some position means, whatever operations follow. -/
theorem marked_after (h : ∀ a, r.session.active = some a → a.Marked) (ops : List Operation) :
    ∀ a, (r.after ops).session.active = some a → a.Marked := by
  induction ops generalizing r with
  | nil => exact h
  | cons op ops ih => exact ih (marked_perform h op)

end Record

/-! ## Breakpoints and the program -/

namespace Session

variable {s : Session} {a : Active} {p : Position} {b : Breakpoint}

/-- A position that means nothing is refused. -/
theorem perform_setBreakpoint_of_none (ha : s.active = some a) (h : ∀ b, ¬ a.Means p b) :
    s.perform (.setBreakpoint p) = ⟨.error (.noPosition p), s⟩ := by
  have hfind : a.find p = none := Option.eq_none_iff_forall_ne_some.2 fun b hb =>
    h b (Active.find_eq_some_iff.1 hb)
  rw [perform, setBreakpoint, ha]
  dsimp only
  rw [hfind]
  rfl

/-- A position that means a breakpoint is accepted. -/
theorem perform_setBreakpoint_of_means (ha : s.active = some a) (h : a.Means p b) :
    ∃ s', s.perform (.setBreakpoint p) = ⟨.ok (.breakpoint b), s'⟩ ∧
      b.location ∈ s'.breakpoints.map (·.location) := by
  rw [perform, setBreakpoint, ha]
  dsimp only
  rw [Active.find_eq_some_iff.2 h]
  dsimp only
  split
  · next hstop =>
    refine ⟨s, rfl, ?_⟩
    obtain ⟨b', hb', hlocation⟩ := List.any_eq_true.1 hstop
    rw [breakpoints, ha]
    exact List.mem_map.2 ⟨b', hb', by simpa using hlocation⟩
  · exact ⟨_, rfl, List.mem_map_of_mem (List.mem_append_right _ (List.mem_singleton_self b))⟩

/-- **Breakpoints lie in the program unless a header of the debug file does not.** After any
operations on a new session with a program loaded: every breakpoint is at an instruction, or at the
start of the header on the line that it was set by. A position that means a breakpoint is accepted
and one that means none refused, which leaves the session as it was. Every position that names no
instruction is refused exactly if the headers that lines lead to all start in the program, and then
all breakpoints are in the program. -/
theorem breakpoints_located (options : Thread.Options) (id : Bytes) (ops : List Operation) :
    let s := ((Record.new options id).after ops).session
    ∀ a, s.active = some a →
      (∀ b ∈ s.breakpoints, a.program.HasLocation b.location ∨
        ∃ h, a.Locates b.module b.line h ∧ b.location = h.start) ∧
      (∀ p b, a.Means p b → ∃ s', s.perform (.setBreakpoint p) = ⟨.ok (.breakpoint b), s'⟩ ∧
        b.location ∈ s'.breakpoints.map (·.location)) ∧
      (∀ p, (∀ b, ¬ a.Means p b) → s.perform (.setBreakpoint p) = ⟨.error (.noPosition p), s⟩) ∧
      ((∀ p, (∀ b, a.Means p b → ¬ a.program.HasLocation b.location) →
          s.perform (.setBreakpoint p) = ⟨.error (.noPosition p), s⟩) ↔
        ∀ module line h, a.Locates module line h → a.program.HasLocation h.start) ∧
      ((∀ module line h, a.Locates module line h → a.program.HasLocation h.start) →
        ∀ b ∈ s.breakpoints, a.program.HasLocation b.location) := by
  intro s a ha
  have hmarked : a.Marked := Record.marked_after (r := Record.new options id)
    (fun b hb => absurd hb (Option.some_ne_none b).symm) ops a ha
  have hbreakpoints : s.breakpoints = a.breakpoints := by rw [breakpoints, ha]; rfl
  have hlocated : ∀ b ∈ s.breakpoints, a.program.HasLocation b.location ∨
      ∃ h, a.Locates b.module b.line h ∧ b.location = h.start := by
    intro b hb
    obtain ⟨p, hp⟩ := hmarked b (hbreakpoints ▸ hb)
    cases hp with
    | instruction hin => exact .inl hin
    | source hlocates => exact .inr ⟨_, hlocates, rfl⟩
  refine ⟨hlocated, fun p b => perform_setBreakpoint_of_means ha,
    fun p => perform_setBreakpoint_of_none ha,
    ⟨fun hrefused module line h hlocates => ?_, fun hheaders p hp => ?_⟩, fun hheaders b hb => ?_⟩
  · by_contra hout
    -- The line means the start of its header and nothing else, so it is accepted.
    obtain ⟨s', haccepted, _⟩ := perform_setBreakpoint_of_means ha (.source hlocates)
    have hnone : ∀ b, a.Means (.source module line) b → ¬ a.program.HasLocation b.location := by
      intro b hb
      rwa [hb.unique (.source hlocates)]
    rw [hrefused _ hnone] at haccepted
    cases haccepted
  · refine perform_setBreakpoint_of_none ha fun b hb => hp b hb ?_
    cases hb with
    | instruction hin => exact hin
    | source hlocates => exact hheaders _ _ _ hlocates
  · rcases hlocated b hb with hin | ⟨h, hlocates, hstart⟩
    · exact hin
    · exact hstart ▸ hheaders _ _ _ hlocates

/-- A header on the second line of a module, which starts at a given place. -/
def headerAt (start : Int) : Header where
  kind := .function
  hash := 7
  module := [97]
  moduleHash := 1
  name := [109]
  start := start
  stop := start + 1
  range := ⟨1, 0, 3, 0⟩

/-- `trapProgram` with a header, and a breakpoint on the header's line. -/
def headedSession (start : Int) : Session :=
  ((Record.new {} []).after [.loadProgram trapProgram (some { headers := [headerAt start] }),
    .setBreakpoint (.source [97] 2)]).session

/-- With a header at the trap, every breakpoint is in the program and what names no instruction is
refused. -/
theorem breakpoints_located_headedSession :
    ∃ a, (headedSession 3).active = some a ∧
      (∀ module line h, a.Locates module line h → a.program.HasLocation h.start) ∧
      (∀ b ∈ (headedSession 3).breakpoints, a.program.HasLocation b.location) ∧
      (headedSession 3).perform (.setBreakpoint (.instruction 5)) =
        ⟨.error (.noPosition (.instruction 5)), headedSession 3⟩ := by
  obtain ⟨a, ha, hprogram, hsymbols⟩ : ∃ a, (headedSession 3).active = some a ∧
      a.program = trapProgram ∧ a.symbols = some { headers := [headerAt 3] } := ⟨_, rfl, rfl, rfl⟩
  have hheaders : ∀ module line h, a.Locates module line h → a.program.HasLocation h.start := by
    rintro module line h ⟨s, hs, before, after, heq, _⟩
    obtain rfl := Option.some.inj (hs.symm.trans hsymbols)
    have hsplit : [headerAt 3] = before ++ h :: after := heq
    have hmem : h ∈ [headerAt 3] := by
      rw [hsplit]
      exact List.mem_append_right _ List.mem_cons_self
    rw [List.mem_singleton.1 hmem, hprogram]
    decide
  unfold headedSession at ha ⊢
  obtain ⟨_, _, _, hrefused, hlocated⟩ := breakpoints_located {} [] _ a ha
  refine ⟨a, ha, hheaders, hlocated hheaders, hrefused.2 hheaders _ fun b hb => ?_⟩
  cases hb with
  | instruction hin =>
    rw [hprogram] at hin
    exact absurd hin (by decide)

-- A header behind the last of the five instructions takes the breakpoint with it.
example : (headedSession 99).breakpoints = [⟨99, [97], 2⟩] := rfl

end Session

end Debugger

end RegisterMachine
