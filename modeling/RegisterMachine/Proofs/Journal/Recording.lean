import RegisterMachine.Journal.Basic
import RegisterMachine.Proofs.Wire.Reports

/-!
# Recording reports that were read

A reader of reports asks for an exit and for no more. An exit is of use if it is graceful or tells
of a panic (`ExitRecord.IsComplete`), as the exits of threads are, but an exit that is neither is
accepted too: `ExitReport.decode_encode_iff` does not ask what a report says. Such an exit has no
text and such a report is not recorded. `Journal.record_of_decode` tells the two apart.
-/

namespace RegisterMachine

namespace ExitRecord

/-- The exit is graceful or tells of a panic. -/
def IsComplete (e : ExitRecord) : Prop := e.kind = 0 ∨ e.panic ≠ none

variable {e : ExitRecord}

/-- Graceful exits are those of kind zero. -/
theorem isGraceful_iff : e.isGraceful = true ↔ e.kind = 0 := beq_iff_eq

/-- The name of the kind is that of graceful exits for those only. -/
theorem kindName_eq_iff : utf8 e.kindName = utf8 "exit_gracefully" ↔ e.isGraceful = true := by
  unfold kindName
  cases e.isGraceful with
  | false => exact iff_of_false (by decide +kernel) Bool.false_ne_true
  | true => exact iff_of_true rfl rfl

/-- **An exit has a text exactly if it is complete.** -/
theorem isSome_text?_iff : e.text?.isSome = true ↔ e.IsComplete := by
  rw [text?, IsComplete, ← isGraceful_iff]
  cases e.isGraceful with
  | false => simp [Option.isSome_iff_ne_none]
  | true => simp

end ExitRecord

/-- A report that was read has an exit. -/
theorem ExitReport.exists_exit_of_decode {data : Bytes} {r : ExitReport} (h : decode data = .ok r) :
    ∃ e, r.exit = some e := by
  unfold decode at h
  split at h
  · cases h
  · split at h
    · cases h
    · next hexit =>
      cases h
      exact Option.ne_none_iff_exists'.1 (by simpa using hexit)

namespace Journal

variable {j : Journal} {program : Bytes} {r : ExitReport} {e : ExitRecord} {id : RunId} {now : Int}

/-- What an entry says of a run. -/
structure Describes (entry : JournalEntry) (id : RunId) (program : Bytes) (r : ExitReport) :
    Prop where
  id : entry.id = id
  program : entry.program = program
  programHash : entry.programHash = Bytes.hex r.programHash
  arch : entry.arch = r.arch
  steps : entry.steps = r.steps
  report : entry.report = r.encode
  outcome : entry.outcome = utf8 "exit_gracefully" ↔ r.isGraceful = true

/-- There is an entry for a report with a complete exit. -/
theorem exists_entryOf (hid : RunId.parse r.id = .ok id) (hexit : r.exit = some e)
    (he : e.IsComplete) :
    ∃ entry, entryOf program r now = .ok entry ∧ Describes entry id program r := by
  have hgraceful : r.isGraceful = e.isGraceful := by rw [ExitReport.isGraceful, hexit]
  have houtcome : utf8 e.kindName = utf8 "exit_gracefully" ↔ r.isGraceful = true :=
    hgraceful ▸ ExitRecord.kindName_eq_iff
  rw [entryOf, hid, hexit]
  cases hkind : e.isGraceful with
  | true => exact ⟨_, by simp only [hkind]; rfl, rfl, rfl, rfl, rfl, rfl, rfl, houtcome⟩
  | false =>
    have hpanic : e.panic ≠ none := he.resolve_left fun h0 => by
      rw [ExitRecord.isGraceful_iff.2 h0] at hkind
      cases hkind
    obtain ⟨p, hp⟩ := Option.ne_none_iff_exists'.1 hpanic
    exact ⟨_, by simp only [hkind, hp]; rfl, rfl, rfl, rfl, rfl, rfl, rfl, houtcome⟩

/-- There is none for a report with an exit that is not complete. -/
theorem entryOf_of_not_isComplete (hid : RunId.parse r.id = .ok id) (hexit : r.exit = some e)
    (he : ¬ e.IsComplete) : entryOf program r now = .error .unfinished := by
  obtain ⟨hkind, hpanic⟩ := not_or.1 he
  have hgraceful : e.isGraceful = false :=
    Bool.eq_false_iff.2 fun h => hkind (ExitRecord.isGraceful_iff.1 h)
  have hnone : e.panic = none := not_not.1 hpanic
  rw [entryOf, hid, hexit]
  simp only [hgraceful, hnone]
  rfl

/-- **Reports that were read are of use if their exits are complete**, and only then. A report that
was read has an exit. If the exit is graceful or tells of a panic, it has a text, and the report is
recorded unless its identifier is that of no run, or of one that is recorded already; the entry's
outcome is `exit_gracefully` exactly if the report is graceful. If the exit is neither, it has no
text and the report cannot be recorded. -/
theorem record_of_decode {data : Bytes} (h : ExitReport.decode data = .ok r) :
    ∃ e, r.exit = some e ∧ (e.text?.isSome = true ↔ e.IsComplete) ∧
      ∀ (j : Journal) (program : Bytes) (now : Int) (id : RunId), RunId.parse r.id = .ok id →
        (e.IsComplete → ∃ entry, Describes entry id program r ∧
          j.record program r now =
            if (j.get? id).isSome then .error .duplicate else .ok (entry, ⟨j.entries ++ [entry]⟩)) ∧
        (¬ e.IsComplete → j.record program r now = .error .unfinished) := by
  obtain ⟨e, hexit⟩ := ExitReport.exists_exit_of_decode h
  refine ⟨e, hexit, ExitRecord.isSome_text?_iff,
    fun j program now id hid => ⟨fun he => ?_, fun he => ?_⟩⟩
  · obtain ⟨entry, hentry, hdescribes⟩ :
        ∃ entry, entryOf program r now = .ok entry ∧ Describes entry id program r :=
      exists_entryOf hid hexit he
    refine ⟨entry, hdescribes, ?_⟩
    rw [record, hentry, ← hdescribes.id]
    change (if (j.get? entry.id).isSome then _ else _) = _
    split <;> rfl
  · rw [record, entryOf_of_not_isComplete hid hexit he]
    rfl

/-- The report of a run of five steps that ended with an exit. -/
def shortReport (e : ExitRecord) : ExitReport where
  id := RunId.text ⟨List.replicate 16 7⟩
  arch := utf8 "b64"
  steps := 5
  exit := some e

/-- A graceful report is read and recorded. One with an exit of another kind and no panic is read as
well, but has no text and is not recorded. -/
theorem record_of_decode_shortReport :
    (∃ entry, ExitReport.decode (shortReport {}).encode = .ok (shortReport {}) ∧
      ({} : Journal).record [112] (shortReport {}) 0 = .ok (entry, ⟨[entry]⟩) ∧
      entry.outcome = utf8 "exit_gracefully") ∧
    ExitReport.decode (shortReport { kind := 1 }).encode = .ok (shortReport { kind := 1 }) ∧
      ({ kind := 1 } : ExitRecord).text? = none ∧
      ({} : Journal).record [112] (shortReport { kind := 1 }) 0 = .error .unfinished := by
  have hid : RunId.parse (RunId.text ⟨List.replicate 16 7⟩) = .ok ⟨List.replicate 16 7⟩ := by
    decide +kernel
  have hgraceful : ExitReport.decode (shortReport {}).encode = .ok (shortReport {}) := by
    decide +kernel
  have hempty : ExitReport.decode (shortReport { kind := 1 }).encode =
      .ok (shortReport { kind := 1 }) := by
    decide +kernel
  constructor
  · obtain ⟨e, hexit, _, hrecord⟩ := record_of_decode hgraceful
    obtain rfl := Option.some.inj hexit
    obtain ⟨entry, hdescribes, hrecord⟩ := (hrecord {} [112] 0 _ hid).1 (.inl rfl)
    exact ⟨entry, hgraceful, hrecord, hdescribes.outcome.2 rfl⟩
  · obtain ⟨e, hexit, htext, hrecord⟩ := record_of_decode hempty
    obtain rfl := Option.some.inj hexit
    have hnot : ¬ ExitRecord.IsComplete { kind := 1 } := by simp [ExitRecord.IsComplete]
    refine ⟨hempty, ?_, (hrecord {} [112] 0 _ hid).2 hnot⟩
    exact Option.not_isSome_iff_eq_none.1 fun hsome => hnot (htext.1 hsome)

end Journal

end RegisterMachine
