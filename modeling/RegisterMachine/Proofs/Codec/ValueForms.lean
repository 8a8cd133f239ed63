import RegisterMachine.Proofs.Wire.Values

/-!
# The binary forms of values

Values and what the reader accepts correspond one to one (`Value.decode_bijective`): a value that
nests within the limit is read back wherever its binary form stands, and whatever is read at some
position is the value whose binary form stands there. A value that nests deeper is refused for that
reason alone (`Value.refuses_toBinary`), because everything that the reader meets before it is too
deep is in order. No binary form goes on as another one, however deeply the values nest
(`Value.eq_of_isPrefix`).
-/

namespace RegisterMachine

/-- The reader finds an error in `bs`, whatever follows. -/
def Refuses {α : Type} (read : Cursor → ReadResult α) (bs : Bytes) (e : CodecError) : Prop :=
  ∀ pos suf, ∃ p, read ⟨pos, bs ++ suf⟩ = .error ⟨e, p⟩

/-- Of things that are read one by one, the first that is refused is reported. -/
theorem Refuses.many {α : Type} {read : Cursor → ReadResult α} {written : α → Bytes}
    {e : CodecError} {as : List α}
    (h : ∀ a ∈ as, Reads read (written a) a ∨ Refuses read (written a) e)
    (hbad : ∃ a ∈ as, Refuses read (written a) e) :
    Refuses (readMany read as.length) (as.map written).flatten e := by
  induction as with
  | nil =>
    obtain ⟨_, ha, _⟩ := hbad
    cases ha
  | cons a as ih =>
    intro pos suf
    obtain ⟨ha, has⟩ := List.forall_mem_cons.1 h
    rw [List.map_cons, List.flatten_cons, List.append_assoc, List.length_cons, readMany]
    by_cases hrefused : Refuses read (written a) e
    · obtain ⟨p, hp⟩ := hrefused pos ((as.map written).flatten ++ suf)
      exact ⟨p, by rw [hp]⟩
    · obtain ⟨b, hb, hbad⟩ := hbad
      have hb := (List.mem_cons.1 hb).resolve_left fun he => hrefused (he ▸ hbad)
      obtain ⟨p, hp⟩ := ih has ⟨b, hb, hbad⟩ (pos + (written a).length) suf
      rw [ha.resolve_right hrefused pos]
      exact ⟨p, by dsimp only; rw [hp]⟩

/-- What is refused is refused where it stands in some data. -/
theorem Refuses.readAt? {α : Type} {read : Cursor → ReadResult α} {bs : Bytes} {e : CodecError}
    (h : Refuses read bs e) (pre suf : Bytes) :
    ∃ next, readAt? read (pre ++ bs ++ suf) pre.length = some (next, .error e) := by
  obtain ⟨p, hp⟩ := h pre.length suf
  rw [List.append_assoc, readAt?_append, hp]
  exact ⟨p, rfl⟩

namespace Value

variable {v w : Value} {levels : Nat}

/-- **A value that nests too deeply is refused** for its depth: what stands before is read. -/
theorem refuses_toBinary (hfit : v.lengthsFit = true) (hdeep : levels < v.depth) :
    Refuses (decodeLevels levels) v.toBinary (.malformed (.nestedTooDeep maxDepth)) := by
  induction levels generalizing v with
  | zero =>
    cases v with
    | array es => exact fun pos suf => ⟨pos + 1, decodeTagged_array none es pos suf⟩
    | _ => cases hdeep
  | succ levels ih =>
    cases v with
    | array es =>
      rw [lengthsFit, Bool.and_eq_true, decide_eq_true_eq, lengthsFitAll_iff] at hfit
      obtain ⟨hlen, hes⟩ := hfit
      rw [depth, Nat.add_lt_add_iff_right] at hdeep
      have heach : ∀ e ∈ es, Reads (decodeLevels levels) e.toBinary e ∨
          Refuses (decodeLevels levels) e.toBinary (.malformed (.nestedTooDeep maxDepth)) := by
        intro e he
        rcases Nat.lt_or_ge levels e.depth with hlt | hle
        · exact .inr (ih (hes e he) hlt)
        · exact .inl (reads_toBinary (isEncodable_iff.2 ⟨hle, hes e he⟩))
      have hbad : ∃ e ∈ es,
          Refuses (decodeLevels levels) e.toBinary (.malformed (.nestedTooDeep maxDepth)) := by
        by_contra hno
        refine Nat.not_le_of_lt hdeep (depthAll_le_iff.2 fun e he => ?_)
        exact Nat.le_of_not_lt fun hlt => hno ⟨e, he, ih (hes e he) hlt⟩
      intro pos suf
      obtain ⟨p, hp⟩ := Refuses.many heach hbad (pos + 1 + 4) suf
      refine ⟨p, ?_⟩
      rw [decodeLevels, decodeTagged_array, decodeArrayWith_payload _ hlen, hp]
      rfl
    | _ => cases hdeep

/-- **No binary form goes on as another one.** -/
theorem eq_of_isPrefix (hv : v.lengthsFit = true) (hw : w.lengthsFit = true)
    (hpre : v.toBinary <+: w.toBinary) : v = w := by
  have hreads : ∀ {x : Value}, x.lengthsFit = true → x.depth ≤ max v.depth w.depth →
      Reads (decodeLevels (max v.depth w.depth)) x.toBinary x :=
    fun hfit hle => reads_toBinary (isEncodable_iff.2 ⟨hle, hfit⟩)
  exact (hreads hv (Nat.le_max_left ..)).eq_of_isPrefix (hreads hw (Nat.le_max_right ..)) hpre

/-- **The binary forms of values and what the reader accepts correspond one to one.** A value whose
lengths fit 32 bits and whose arrays nest within the limit is read back wherever its binary form
stands, with the position behind it; one that nests deeper is refused as malformed. Whatever is read
at some position is such a value, and its binary form is what stands between that position and the
next. Hence values are equal exactly if their binary forms are, and none of these begins another. -/
theorem decode_bijective :
    (∀ (v : Value) (pre suf : Bytes), v.lengthsFit = true → v.depth ≤ maxDepth →
        readAt? decode (pre ++ v.toBinary ++ suf) pre.length =
          some ((pre.length : Int) + v.toBinary.length, .ok v)) ∧
      (∀ (v : Value) (pre suf : Bytes), v.lengthsFit = true → maxDepth < v.depth →
        ∃ next e, readAt? decode (pre ++ v.toBinary ++ suf) pre.length = some (next, .error e) ∧
          e = .malformed (.nestedTooDeep maxDepth) ∧ e.category = .malformed) ∧
      (∀ (data : Bytes) (pos next : Int) (v : Value), readAt? decode data pos = some (next, .ok v) →
        0 ≤ pos ∧ pos < next ∧ next ≤ data.length ∧
          v.toBinary = (data.drop pos.toNat).take (next - pos).toNat ∧
          v.lengthsFit = true ∧ v.depth ≤ maxDepth) ∧
      ∀ v w : Value, v.lengthsFit = true → w.lengthsFit = true →
        (v.beq w = true ↔ v.toBinary = w.toBinary) ∧ (v.toBinary <+: w.toBinary → v = w) := by
  refine ⟨fun v pre suf hfit hdepth => ?_, fun v pre suf hfit hdeep => ?_,
    fun data pos next v hread => ?_, fun v w hv hw => ⟨⟨fun heq => ?_, fun heq => ?_⟩, ?_⟩⟩
  · exact (reads_toBinary (isEncodable_iff.2 ⟨hdepth, hfit⟩)).readAt? pre suf
  · obtain ⟨next, hnext⟩ := (refuses_toBinary hfit hdeep).readAt? pre suf
    exact ⟨next, _, hnext, rfl, rfl⟩
  · obtain ⟨hpos, c, hok, _⟩ := readAt?_eq_ok hread
    obtain ⟨_, rfl, rfl, hpre⟩ := (writesBack_decodeLevels maxDepth).readAt? hread
    have hlength := hpre.length_le
    have hone : 0 < v.toBinary.length := Nat.succ_pos _
    rw [List.length_drop] at hlength
    refine ⟨hpos, by omega, by omega, ?_, lengthsFit_of_decodeLevels hok,
      depth_le_of_decodeLevels hok⟩
    rw [show (pos + v.toBinary.length - pos).toNat = v.toBinary.length by omega]
    exact List.prefix_iff_eq_take.1 hpre
  · rw [eq_of_beq v w heq]
  · obtain rfl := eq_of_isPrefix hv hw (heq ▸ List.prefix_rfl)
    exact beq_refl v
  · exact eq_of_isPrefix hv hw

/-- Arrays around an empty one. -/
def wrapped : Nat → Value
  | 0 => .array []
  | n + 1 => .array [wrapped n]

/-- A string and a number in an array are read back between other bytes, an empty array inside 64
others is refused, and a byte that is read has the two bytes that it was read from, which no other
byte has. -/
theorem decode_bijective_wrapped :
    readAt? decode ([9] ++ (array [string [97, 98], int .w16 7]).toBinary ++ [255]) 1 =
        some (17, .ok (array [string [97, 98], int .w16 7])) ∧
      (∃ next, readAt? decode ([] ++ (wrapped 64).toBinary ++ []) 0 =
        some (next, .error (.malformed (.nestedTooDeep maxDepth)))) ∧
      (byte 7).toBinary = ([0, 4, 7].drop 1).take 2 ∧
      ((byte 7).beq (byte 8) = true ↔ (byte 7).toBinary = (byte 8).toBinary) := by
  obtain ⟨hread, hdeep, hback, heq⟩ := decode_bijective
  refine ⟨hread (array [string [97, 98], int .w16 7]) [9] [255] (by decide) (by decide), ?_, ?_,
    (heq (byte 7) (byte 8) rfl rfl).1⟩
  · obtain ⟨next, e, hnext, rfl, _⟩ :=
      hdeep (wrapped 64) [] [] (by decide +kernel) (by decide +kernel)
    exact ⟨next, hnext⟩
  · exact (hback [0, 4, 7] 1 3 (byte 7) (by decide +kernel)).2.2.2.1

end Value

end RegisterMachine
