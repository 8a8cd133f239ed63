import RegisterMachine.Assembly.Operand
import RegisterMachine.Proofs.Codec.Limits
import RegisterMachine.Proofs.Text.Words

/-!
# What a short literal can hold

The strings and arrays in a literal are not much longer than its text: a quoted text stands for at
most three bytes for each of its own (`Text.length_le_of_unquote?`), and an array has at most one
element more than its text has bytes (`Literal.length_splitTop_le`). So the value of a text of
moderate length has lengths that fit 32 bits: `Literal.lengthsFit_of_readLevels`, by induction on
the nesting, and `Assembly.lengthsFit_of_readOperand` for operands.
-/

namespace RegisterMachine

/-- What stands behind a separator is shorter than the whole. -/
theorem Bytes.length_le_of_cut? {sep : UInt8} {s l r : Bytes} (h : cut? sep s = some (l, r)) :
    l.length ≤ s.length ∧ r.length ≤ s.length := by
  have hdrop := (List.dropWhile_sublist (l := s) (· != sep)).length_le
  rw [cut?] at h
  split at h
  · cases h
  · next heq =>
    cases h
    rw [heq, List.length_cons] at hdrop
    exact ⟨(List.takeWhile_sublist _).length_le, Nat.le_of_succ_le hdrop⟩

/-! ## Quoted texts -/

namespace Text

/-- Taking hexadecimal digits takes as many bytes as asked for. -/
theorem length_of_takeHex? {n v w : Nat} {s r : Bytes} (h : takeHex? n v s = some (w, r)) :
    r.length + n = s.length := by
  induction n generalizing v s with
  | zero => cases h; rfl
  | succ n ih =>
    cases s with
    | nil => cases h
    | cons c s =>
      rw [takeHex?] at h
      split at h
      · rw [List.length_cons, ← ih h, Nat.add_assoc]
      · cases h

/-- A character has at most four bytes. -/
theorem length_encodeScalar_le (c : Nat) : (encodeScalar c).length ≤ 4 := by
  rw [encodeScalar]
  split
  · simp
  split
  · simp
  split
  · simp
  · simp

variable {q : UInt8}

/-- An escape stands for at most three bytes for each of its own. -/
theorem length_of_unescape? {s bs r : Bytes} (h : unescape? q s = some (bs, r)) :
    bs.length + 3 * r.length ≤ 3 * s.length := by
  cases s with
  | nil => cases h
  | cons c s =>
    rw [List.length_cons]
    rw [unescape?] at h
    split at h
    · cases h
      simp only [List.length_cons, List.length_nil]
      omega
    split at h
    · obtain ⟨⟨v, r'⟩, hhex, heq⟩ := Option.map_eq_some_iff.1 h
      cases heq
      have := length_of_takeHex? hhex
      simp only [List.length_cons, List.length_nil]
      omega
    split at h
    · split at h
      · next v r' hhex =>
        split at h
        · cases h
          have hdigits := length_of_takeHex? hhex
          have hfour : 4 ≤ if c = 117 then 4 else 8 := by split <;> decide
          have hbytes := length_encodeScalar_le v
          omega
        · cases h
      · cases h
    split at h
    · split at h
      · split at h
        · dsimp only at h
          split at h
          · cases h
            simp only [List.length_cons, List.length_nil]
            omega
          · cases h
        · cases h
      · cases h
    split at h
    · cases h
      simp only [List.length_cons, List.length_nil]
      omega
    split at h
    · cases h
      simp only [List.length_cons, List.length_nil]
      omega
    · cases h

/-- A character stands for at most three bytes for each of its own. -/
theorem length_of_unquoteOne? {s bs r : Bytes} (h : unquoteOne? q s = some (bs, r)) :
    bs.length + 3 * r.length ≤ 3 * s.length := by
  cases s with
  | nil => cases h
  | cons b s =>
    rw [unquoteOne?] at h
    split at h
    · cases h
    split at h
    · have := length_of_unescape? h
      rw [List.length_cons]
      omega
    · have hbytes := congrArg List.length (bytes_nextGlyph b s)
      obtain ⟨g, rest, hnext⟩ : ∃ g rest, nextGlyph b s = (g, rest) := ⟨_, _, rfl⟩
      rw [hnext] at h hbytes
      cases h
      dsimp only at hbytes
      rw [List.length_append, List.length_cons] at hbytes
      rw [List.length_cons]
      cases g with
      | scalar c =>
        rw [Glyph.bytes] at hbytes
        rw [Glyph.code]
        omega
      | stray b' =>
        have hlen : (encodeScalar replacement).length = 3 := rfl
        rw [Glyph.bytes, List.length_singleton] at hbytes
        rw [Glyph.code, hlen]
        omega

/-- Characters stand for at most three bytes for each of their own. -/
theorem length_of_unquoteMany? {fuel : Nat} {done s t r : Bytes}
    (h : unquoteMany? q fuel done s = some (t, r)) : t.length ≤ done.length + 3 * s.length := by
  induction fuel generalizing done s with
  | zero => cases h
  | succ fuel ih =>
    cases s with
    | nil => cases h
    | cons b s =>
      rw [unquoteMany?] at h
      split at h
      · cases h
        rw [List.length_reverse]
        exact Nat.le_add_right _ _
      · split at h
        · next hone =>
          have hlen := length_of_unquoteOne? hone
          have hrest := ih h
          rw [List.length_append, List.length_reverse] at hrest
          omega
        · cases h

/-- **A quoted text stands for at most three bytes for each of its own.** -/
theorem length_le_of_unquote? {s t : Bytes} (h : unquote? s = some t) :
    t.length ≤ 3 * s.length := by
  unfold unquote? at h
  split at h
  · split at h
    · next hmany =>
      cases h
      have hlen := length_of_unquoteMany? hmany
      rw [List.length_nil] at hlen
      rw [List.length_cons]
      omega
    · cases h
  · cases h
    exact Nat.zero_le _
  · split at h
    · next hone =>
      cases h
      have hlen := length_of_unquoteOne? hone
      rw [List.length_cons]
      omega
    · cases h
  · split at h
    · next raw hcut =>
      cases h
      have hlen := (Bytes.length_le_of_cut? hcut).1
      have hfilter := List.length_filter_le (· != 13) raw
      rw [List.length_cons]
      omega
    · cases h
  · cases h

end Text

/-! ## Literals -/

namespace Literal

/-- Splitting takes a character into the part being read, or ends that part at a comma. -/
theorem splitFrom_cons (st : SplitState) (c : UInt8) (cs : Bytes) :
    (∃ st', st'.part = c :: st.part ∧ splitFrom st (c :: cs) = splitFrom st' cs) ∨
      ∃ st', st'.part = [] ∧ splitFrom st (c :: cs) = st.part.reverse :: splitFrom st' cs := by
  rw [splitFrom]
  dsimp only
  split
  · exact .inl ⟨_, rfl, rfl⟩
  split
  · split
    · exact .inl ⟨_, rfl, rfl⟩
    split
    · exact .inl ⟨_, rfl, rfl⟩
    · exact .inl ⟨_, rfl, rfl⟩
  split
  · exact .inl ⟨_, rfl, rfl⟩
  split
  · exact .inl ⟨_, rfl, rfl⟩
  split
  · exact .inl ⟨_, rfl, rfl⟩
  split
  · exact .inr ⟨_, rfl, rfl⟩
  · exact .inl ⟨_, rfl, rfl⟩

/-- There are no more parts than commas and one, and no part is longer than the text. -/
theorem length_splitFrom_le (st : SplitState) (cs : Bytes) :
    (splitFrom st cs).length ≤ cs.length + 1 ∧
      ∀ part ∈ splitFrom st cs, part.length ≤ st.part.length + cs.length := by
  induction cs generalizing st with
  | nil => simp [splitFrom]
  | cons c cs ih =>
    rw [List.length_cons]
    rcases splitFrom_cons st c cs with ⟨st', hpart, h⟩ | ⟨st', hpart, h⟩
    · obtain ⟨hcount, hlen⟩ := ih st'
      rw [hpart, List.length_cons] at hlen
      rw [h]
      refine ⟨by omega, fun part hmem => ?_⟩
      have := hlen part hmem
      omega
    · obtain ⟨hcount, hlen⟩ := ih st'
      rw [hpart, List.length_nil] at hlen
      rw [h, List.length_cons]
      refine ⟨by omega, fun part hmem => ?_⟩
      rcases List.mem_cons.1 hmem with rfl | hmem
      · rw [List.length_reverse]
        omega
      · have := hlen part hmem
        omega

/-- Splitting at commas gives at most one part more than there are bytes, and no part is longer than
the text. -/
theorem length_splitTop_le (s : Bytes) :
    (splitTop s).length ≤ s.length + 1 ∧ ∀ part ∈ splitTop s, part.length ≤ s.length := by
  have h := length_splitFrom_le ⟨[], 0, none, false⟩ s
  rwa [List.length_nil, Nat.zero_add] at h

/-- What stands behind the type of a literal is no longer than the literal. -/
theorem length_le_of_splitType {s type body : Bytes} (h : splitType s = .ok (type, body)) :
    body.length ≤ s.length := by
  unfold splitType at h
  split at h
  · split at h
    · next hcut =>
      cases h
      have hrest := (Bytes.length_le_of_cut? hcut).2
      have htrim := Text.length_trim_le
      rw [List.length_cons]
      exact Nat.le_trans (htrim _) (Nat.le_succ_of_le hrest)
    · cases h
  · cases h

/-- What stands in brackets is no longer than the text. -/
theorem length_le_of_bracketed? {s inner : Bytes} (h : bracketed? s = some inner) :
    inner.length ≤ s.length := by
  unfold bracketed? at h
  split at h
  · split at h
    · cases h
      rw [List.length_dropLast, List.length_cons]
      omega
    · cases h
  · cases h

/-- A literal other than an array is a string or holds no length. -/
theorem lengthsFit_of_readScalar {labels : Labels} {s type body : Bytes} {v : Value}
    (hlen : 3 * body.length < 2 ^ 32) (h : readScalar labels s type body = .ok v) :
    v.lengthsFit = true := by
  unfold readScalar at h
  extract_lets int word at h
  have hint : ∀ {w : IntWidth}, int w = .ok v → v.lengthsFit = true := by
    intro w hw
    obtain ⟨_, _, rfl⟩ := Except.map_eq_ok.1 hw
    rfl
  have hword : ∀ {make : UInt64 → Value}, (∀ n, (make n).lengthsFit = true) → word make = .ok v →
      v.lengthsFit = true := by
    intro make hmake hw
    obtain ⟨n, _, rfl⟩ := Except.map_eq_ok.1 hw
    exact hmake _
  iterate 4
    rcases ite_eq_iff.1 h with ⟨_, h⟩ | ⟨_, h⟩
    · exact hint h
  iterate 4
    rcases ite_eq_iff.1 h with ⟨_, h⟩ | ⟨_, h⟩
    · obtain ⟨_, _, rfl⟩ := Except.map_eq_ok.1 h
      rfl
  rcases ite_eq_iff.1 h with ⟨_, h⟩ | ⟨_, h⟩
  · split at h
    · cases h
      rfl
    · cases h
  rcases ite_eq_iff.1 h with ⟨_, h⟩ | ⟨_, h⟩
  · split at h
    · next t ht =>
      cases h
      rw [Value.lengthsFit, decide_eq_true_eq]
      exact Nat.lt_of_le_of_lt (Text.length_le_of_unquote? ht) hlen
    · cases h
  rcases ite_eq_iff.1 h with ⟨_, h⟩ | ⟨_, h⟩
  · cases h
    rfl
  rcases ite_eq_iff.1 h with ⟨_, h⟩ | ⟨_, h⟩
  · cases h
    rfl
  rcases ite_eq_iff.1 h with ⟨_, h⟩ | ⟨_, h⟩
  · exact hword (fun _ => rfl) h
  rcases ite_eq_iff.1 h with ⟨_, h⟩ | ⟨_, h⟩
  · exact hword (fun _ => rfl) h
  · cases h

/-- **The value of a literal of moderate length has lengths that fit.** -/
theorem lengthsFit_of_readLevels {labels : Labels} {levels : Nat} {s : Bytes} {v : Value}
    (hlen : 3 * s.length < 2 ^ 32) (h : readLevels labels levels s = .ok v) :
    v.lengthsFit = true := by
  induction levels generalizing s v with
  | zero => cases h
  | succ levels ih =>
    rw [readLevels] at h
    obtain ⟨⟨type, body⟩, htype, h⟩ := Except.bind_eq_ok.1 h
    have hbody := length_le_of_splitType htype
    dsimp only at h
    rcases ite_eq_iff.1 h with ⟨_, h⟩ | ⟨_, h⟩
    · split at h
      · cases h
      · next inner hinner =>
        have hshort := Nat.le_trans (Text.length_trim_le inner) (length_le_of_bracketed? hinner)
        obtain ⟨hcount, hparts⟩ := length_splitTop_le (Text.trim inner)
        rcases ite_eq_iff.1 h with ⟨_, h⟩ | ⟨_, h⟩
        · cases h
          rfl
        · obtain ⟨es, hes, h⟩ := Except.bind_eq_ok.1 h
          cases h
          have hsize : (splitTop (Text.trim inner)).length = es.length :=
            (Except.mapM_eq_ok.1 hes).length_eq
          rw [Value.lengthsFit, Bool.and_eq_true, decide_eq_true_eq, Value.lengthsFitAll_iff]
          refine ⟨by omega, fun e he => ?_⟩
          obtain ⟨part, hpart, hread⟩ := Except.exists_of_mem_mapM hes he
          have htrim := Text.length_trim_le part
          have hle := hparts part hpart
          exact ih (by omega) hread
    · exact lengthsFit_of_readScalar (by omega) h

end Literal

/-! ## Operands -/

namespace Assembly

variable {labels : Labels}

/-- An operand with slots holds no immediate value. -/
theorem lengthsFit_of_readSlot {s body : Bytes} {op : Operand}
    (h : readSlot labels s body = .ok op) : op.lengthsFit = true := by
  unfold readSlot at h
  split at h
  · split at h
    · cases h
    · obtain ⟨_, _, h⟩ := Except.bind_eq_ok.1 h
      obtain ⟨_, _, h⟩ := Except.bind_eq_ok.1 h
      cases h
      rfl
  · split at h
    · obtain ⟨_, _, h⟩ := Except.bind_eq_ok.1 h
      obtain ⟨_, _, h⟩ := Except.bind_eq_ok.1 h
      cases h
      rfl
    · obtain ⟨_, _, rfl⟩ := Except.map_eq_ok.1 h
      rfl

/-- **An operand of moderate length has lengths that fit.** -/
theorem lengthsFit_of_readOperand {s : Bytes} {op : Operand} (hlen : 3 * s.length < 2 ^ 32)
    (h : readOperand labels s = .ok op) : op.lengthsFit = true := by
  unfold readOperand at h
  split at h
  · cases h
    rfl
  · next body =>
    obtain ⟨v, hv, rfl⟩ := Except.map_eq_ok.1 h
    have htrim := Text.length_trim_le body
    rw [List.length_cons] at hlen
    exact Literal.lengthsFit_of_readLevels (by omega) (Except.mapError_eq_ok.1 hv)
  · split at h
    · cases h
      rfl
    · cases h
  · obtain ⟨_, _, rfl⟩ := Except.map_eq_ok.1 h
    rfl
  · exact lengthsFit_of_readSlot h
  · split at h
    · obtain ⟨_, _, rfl⟩ := Except.map_eq_ok.1 h
      rfl
    · cases h

end Assembly

end RegisterMachine
