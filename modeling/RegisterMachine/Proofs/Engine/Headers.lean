import Mathlib.Algebra.Group.Int.Defs
import Mathlib.Algebra.Group.Nat.Defs
import RegisterMachine.Engine.Thread

/-!
# Looking up functions

A function is looked up by the index of its header (`functionAt`), an unsigned number that is taken
as a signed one. What is found is what stands there (`functionAt_eq_ok`,
`functionAt_of_instructions`), so a function is found exactly where there is a header
(`functionAt_ok_iff`). Elsewhere the lookup fails with the same reason, but for 2^63 - 1, the one
index whose successor is no signed number (`reason_of_functionAt`).
-/

namespace RegisterMachine

variable {code : Array Instruction} {a : UInt64} {n stop : Nat}

/-! ## Headers -/

/-- At an index of some code stands the header of a function that ends at `stop`: a function
instruction with an immediate value, and behind it a store of A with the end as its immediate value,
an integer of any width. The end lies behind the header and within the code. -/
structure HeaderAt (code : Array Instruction) (n stop : Nat) : Prop where
  header : ∃ v, code[n]? = some ⟨.function, .immediate v⟩
  marker : ∃ w b, code[n + 1]? = some ⟨.store .a, .immediate (.int w b)⟩ ∧ b.toInt = stop
  body : n + 2 ≤ stop
  stop_le : stop ≤ code.size

/-- A function ends in one place. -/
theorem HeaderAt.stop_unique {stop' : Nat} (h : HeaderAt code n stop) (h' : HeaderAt code n stop') :
    stop = stop' := by
  obtain ⟨w, b, hmarker, hstop⟩ := h.marker
  obtain ⟨w', b', hmarker', hstop'⟩ := h'.marker
  rw [hmarker] at hmarker'
  cases hmarker'
  omega

/-! ## Lookups that succeed -/

/-- A function that is found has its header at that index. -/
theorem functionAt_eq_ok {entry : Int} {fn : FunctionHeader} (h : functionAt code entry = .ok fn) :
    ∃ n : Nat, entry = n ∧ HeaderAt code n fn.stop := by
  unfold functionAt at h
  split at h
  · cases h
  · split at h
    · cases h
    · next hrange =>
      obtain ⟨n, rfl⟩ := Int.eq_ofNat_of_zero_le (a := entry) (by omega)
      have hget : ∀ {m i}, m < code.size → code.getD m default = i → code[m]? = some i := by
        intro m i hm hi
        rw [← hi, Array.getElem?_eq_getElem hm, Array.getD, dif_pos hm]
        rfl
      dsimp only [Int.toNat_natCast] at h
      split at h
      · next v hheader =>
        split at h
        · next w b hmarker =>
          split at h
          · cases h
          · cases h
            have hn : n + 1 < code.size := by omega
            refine ⟨n, rfl, ⟨v, hget (by omega) hheader⟩, ⟨w, b, hget hn hmarker, ?_⟩, ?_, ?_⟩
            · dsimp only
              omega
            · dsimp only
              omega
            · dsimp only
              omega
        · cases h
      · cases h

/-- What a header holds is found there. -/
theorem functionAt_of_instructions {v : Value} {w : IntWidth} {b : BitVec w.bits}
    (hheader : code[n]? = some ⟨.function, .immediate v⟩)
    (hmarker : code[n + 1]? = some ⟨.store .a, .immediate (.int w b)⟩) (hb : b.toInt = stop)
    (hbody : n + 2 ≤ stop) (hend : stop ≤ code.size) (hsize : code.size < 2 ^ 63) :
    functionAt code n = .ok ⟨UInt64.ofInt v.toInt, stop⟩ := by
  rw [functionAt, if_neg (by omega), if_neg (by omega)]
  simp only [Int.toNat_natCast, Array.getD_eq_getD_getElem?, hheader, hmarker, Option.getD_some, hb]
  rw [if_neg (by omega)]

/-! ## Addresses -/

/-- An address as a signed number. -/
theorem toInt_toInt64 (a : UInt64) :
    a.toInt64.toInt = if a.toNat < 2 ^ 63 then (a.toNat : Int) else a.toNat - 2 ^ 64 := by
  have hint : a.toInt64.toInt = a.toBitVec.toInt := rfl
  have hnat : a.toNat = a.toBitVec.toNat := rfl
  rw [hint, hnat, BitVec.toInt_eq_toNat_cond]
  split <;> split <;> omega

/-- The address of a call that finds a function is the function's index. -/
theorem toNat_of_toInt64 (h : a.toInt64.toInt = n) : a.toNat = n := by
  have := a.toNat_lt
  rw [toInt_toInt64] at h
  split at h <;> omega

/-- **A function is found at an address exactly if its header stands there.** -/
theorem functionAt_ok_iff (hsize : code.size < 2 ^ 63) :
    (∃ fn, functionAt code a.toInt64.toInt = .ok fn ∧ fn.stop = stop) ↔
      HeaderAt code a.toNat stop := by
  constructor
  · rintro ⟨fn, hfn, rfl⟩
    obtain ⟨n, hn, h⟩ := functionAt_eq_ok hfn
    rwa [toNat_of_toInt64 hn]
  · rintro ⟨⟨v, hheader⟩, ⟨w, b, hmarker, hb⟩, hbody, hend⟩
    rw [toInt_toInt64, if_pos (by omega)]
    exact ⟨_, functionAt_of_instructions hheader hmarker hb hbody hend hsize, rfl⟩

/-- Why no function is found: the target is unknown, but for the one address at which the lookup
itself fails. -/
theorem reason_of_functionAt {fault : Fault} (h : functionAt code a.toInt64.toInt = .error fault) :
    fault.reason = if a.toNat = 2 ^ 63 - 1 then .internalError else .callToUnknown := by
  have hlast : a.toInt64.toInt = 2 ^ 63 - 1 ↔ a.toNat = 2 ^ 63 - 1 := by
    rw [toInt_toInt64]
    have := a.toNat_lt
    split <;> omega
  unfold functionAt at h
  simp only [hlast] at h
  split at h
  · next ha =>
    cases h
    rw [if_pos ha]
    rfl
  · next ha =>
    rw [if_neg ha]
    repeat' split at h
    all_goals cases h
    all_goals rfl

end RegisterMachine
