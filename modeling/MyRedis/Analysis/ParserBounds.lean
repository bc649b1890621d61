import MyRedis.Analysis.QueueChunking
import MyRedis.Model.CheckedRespValue

/-!
# The RESP parser stays inside its input and comes to an end

The parser with checked steps does what `RespValue.parseVariant` says: it finds no index out of
bounds and no assertion that fails, no position wraps in a string that leaves room for a length
of up to `2 ^ 63 - 1`, and three steps per byte are enough (`parseVariant_yields`).  The
elements of an array each take at least a byte, so the loop over them does not depend on how
many the input declares.

The loop of `PopValue` takes the bytes of a value off the buffer each time, and ends when there
is no whole value left (`parseBuffer_yields`).
-/

set_option autoImplicit false

namespace MyRedis.Analysis

open MyRedis.Model MyRedis.Model.RespValue MyRedis.Lib MyRedis.Lib.Checked

/-- `std::string` of this size and more leave no room for a length: a position in them may
wrap. -/
def TooLong (str : Bytes) : Prop := 2 ^ 63 - 2 < str.length

/-- The text of a header line and the position of its terminator. -/
def headerAt (missing : String) (str : Bytes) (pos : ℕ) : Except StdException (Bytes × ℕ) :=
  match find str crlf (pos + 1) with
  | none => .error (.outOfRange missing)
  | some e => .ok (substr str (pos + 1) (e - pos - 1), e)

section Header

variable {missing : String} {str : Bytes} {pos : ℕ}

/-- A line and the step over its terminator, before what follows.
SOURCE: resp_value.cc:34-39, 71-77, 104-110 -/
theorem lineAt_bind {α : Type} (k : Bytes × ℕ → Except StdException α) :
    lineAt missing str pos >>= k =
      headerAt missing str pos >>= fun line => k (line.1, line.2 + 2) := by
  rw [lineAt_eq, headerAt]
  cases find str crlf (pos + 1) <;> rfl

/-- A line and the step over its terminator, before a function of both.
SOURCE: resp_value.cc:34-39, 71-77, 104-110 -/
theorem lineAt_map {α : Type} (f : Bytes × ℕ → α) :
    (lineAt missing str pos).map f =
      headerAt missing str pos >>= fun line => .ok (f (line.1, line.2 + 2)) := by
  rw [lineAt_eq, headerAt]
  cases find str crlf (pos + 1) <;> rfl

/-- A line ends in the string, with its terminator.
SOURCE: resp_value.cc:34-38, 46-50, 58-62, 71-75, 104-108 -/
theorem headerAt_bounds {line : Bytes × ℕ} (h : headerAt missing str pos = .ok line) :
    pos + 1 ≤ line.2 ∧ line.2 + 2 ≤ str.length := by
  rw [headerAt] at h
  cases hfind : find str crlf (pos + 1) with
  | none =>
    rw [hfind] at h
    cases h
  | some e =>
    rw [hfind] at h
    cases h
    exact ⟨((find_eq_some (by decide)).mp hfind).1, find_add_length_le (by decide) hfind⟩

end Header

section Steps

variable {str : Bytes} {pos : ℕ}

/-- A string that is not too long has a size that fits with room to spare.
SOURCE: resp_value.cc:34-39, 71-77, 104-110 -/
theorem size_lt_of_not_tooLong (h : ¬ TooLong str) : str.length < 2 ^ 63 - 1 := by
  rw [TooLong] at h
  omega

/-- `substr` from a position in the string throws nothing.
SOURCE: resp_value.cc:38, 95-96 -/
theorem substrAt_yields {W : Prop} {count : ℕ} (h : pos ≤ str.length) :
    Yields W (CheckedRespValue.substrAt str pos count) (.ok (substr str pos count)) := by
  rw [CheckedRespValue.substrAt, if_neg (Nat.not_lt_of_le h)]
  apply Yields.pure

/-- Finding a header line reads no byte outside the string.
SOURCE: resp_value.cc:34-38, 46-50, 58-62, 71-75, 104-108 -/
theorem parseLine_yields {opening : UInt8} (missing : String) (h : str[pos]? = some opening) :
    Yields (TooLong str) (CheckedRespValue.parseLine opening missing str pos)
      (headerAt missing str pos) := by
  have hpos : pos < str.length := (List.getElem?_eq_some_iff.mp h).1
  have hstart : ¬ TooLong str → pos + 1 < 2 ^ 64 := by
    intro hlong
    have hsize := size_lt_of_not_tooLong hlong
    omega
  apply Yields.step (Yields.getAt h)
  apply Yields.step (Yields.ensure rfl)
  apply Yields.step (Yields.addSize hstart)
  rw [headerAt]
  cases hfind : find str crlf (pos + 1) with
  | none => apply Yields.throw
  | some endPos =>
    have hle := ((find_eq_some (by decide)).mp hfind).1
    apply Yields.step (Yields.addSize hstart)
    apply Yields.step (Yields.subSize (by omega))
    apply Yields.step (Yields.subSize (by omega))
    apply Yields.step (substrAt_yields hpos)
    apply Yields.pure

/-- The step over the terminator of a header line.
SOURCE: resp_value.cc:39, 51, 64, 77, 110 -/
theorem addTwo_yields {missing : String} {line : Bytes × ℕ}
    (h : headerAt missing str pos = .ok line) :
    Yields (TooLong str) (addSize line.2 2 : CheckedRespValue.Parse ℕ) (.ok (line.2 + 2)) := by
  apply Yields.addSize
  intro hlong
  have hbounds := headerAt_bounds h
  have hsize := size_lt_of_not_tooLong hlong
  omega

/-- A value that is the text of its line.
SOURCE: resp_value.cc:31-53 -/
theorem textLine_yields (value : Bytes → RespValue) {opening : UInt8} (missing : String)
    (h : str[pos]? = some opening) :
    Yields (TooLong str)
      (CheckedRespValue.parseLine opening missing str pos >>= fun line =>
        addSize line.2 2 >>= fun next => pure (value line.1, next))
      ((lineAt missing str pos).map fun line => (value line.1, line.2)) := by
  rw [lineAt_map]
  apply Yields.bind (parseLine_yields _ h)
  intro line hline
  apply Yields.step (addTwo_yields hline)
  apply Yields.pure

/-- `ParseInteger` does what the model says, without a fault.
SOURCE: resp_value.cc:55-66 -/
theorem parseInteger_yields (h : str[pos]? = some 58) :
    Yields (TooLong str) (CheckedRespValue.parseInteger str pos)
      (lineAt "Missing CRLF for integer" str pos >>= fun line =>
        (stoll line.1).map fun n => (integer n, line.2)) := by
  rw [lineAt_bind]
  apply Yields.bind (parseLine_yields _ h)
  intro line hline
  apply Yields.map (Yields.call _)
  intro n _
  apply Yields.step (addTwo_yields hline)
  apply Yields.pure

/-- A length is less than `2 ^ 63`. -/
theorem toNatClampNeg_lt (len : Int64) : len.toNatClampNeg < 2 ^ 63 := by
  have hrange := (int64_range len).2
  rw [Int64.toNatClampNeg]
  omega

/-- Behind its checks a payload is read inside the string, if the sum of its end does not wrap.
SOURCE: resp_value.cc:85-98 -/
theorem parsePayload_yields {len : Int64} (hpos : pos ≤ str.length) (h1 : len ≠ -1)
    (h2 : ¬ len ≤ -2) :
    Yields (TooLong str) (CheckedRespValue.parsePayload str pos len.toNatClampNeg)
      ((payloadAt str pos len).map fun r => (bulkString r.1, r.2)) := by
  have hlen := toNatClampNeg_lt len
  have hfits (n : ℕ) (hn : n ≤ pos + len.toNatClampNeg + 2) (hlong : ¬ TooLong str) :
      n < 2 ^ 64 := by
    have hsize := size_lt_of_not_tooLong hlong
    omega
  rw [payloadAt, if_neg h1, if_neg h2]
  apply Yields.step (Yields.addSize (hfits _ (by omega)))
  apply Yields.step (Yields.addSize (hfits _ le_rfl))
  by_cases hshort : str.length < pos + len.toNatClampNeg + 2
  · rw [if_pos hshort, if_pos hshort]
    apply Yields.throw
  rw [if_neg hshort, if_neg hshort]
  have hend : pos + len.toNatClampNeg + 2 ≤ str.length := Nat.le_of_not_lt hshort
  have hbytes := substr_two_eq_crlf hend
  have hfirst := List.getElem?_eq_getElem (l := str) (i := pos + len.toNatClampNeg) (by omega)
  have hsecond := List.getElem?_eq_getElem (l := str) (i := pos + len.toNatClampNeg + 1) (by omega)
  apply Yields.step (Yields.addSize (hfits _ (by omega)))
  apply Yields.step (Yields.getAt hfirst)
  by_cases hcr : str[pos + len.toNatClampNeg] = 13
  · rw [if_neg (not_not.mpr hcr)]
    apply Yields.step (Yields.addSize (hfits _ (by omega)))
    apply Yields.step (Yields.getAt hsecond)
    by_cases hlf : str[pos + len.toNatClampNeg + 1] = 10
    · rw [if_neg (not_not.mpr hlf), if_pos (hbytes.mpr ⟨hcr, hlf⟩)]
      apply Yields.step (substrAt_yields hpos)
      apply Yields.step (Yields.addSize (hfits _ (by omega)))
      apply Yields.step (Yields.addSize (hfits _ (by omega)))
      rw [← Nat.add_assoc]
      apply Yields.pure
    · rw [if_pos hlf, if_neg fun h => hlf (hbytes.mp h).2]
      apply Yields.throw
  · rw [if_pos hcr, if_neg fun h => hcr (hbytes.mp h).1]
    apply Yields.throw

/-- `ParseBulkString` does what the model says, without a fault.
SOURCE: resp_value.cc:68-99 -/
theorem parseBulkString_yields (h : str[pos]? = some 36) :
    Yields (TooLong str) (CheckedRespValue.parseBulkString str pos)
      ((lineAt "Missing CRLF after bulk-string length" str pos >>= fun line =>
        stoll line.1 >>= fun len => payloadAt str line.2 len).map
        fun r => (bulkString r.1, r.2)) := by
  rw [lineAt_bind]
  apply Yields.bind_map (parseLine_yields _ h)
  rintro ⟨text, endOfLength⟩ hline
  have hbounds := headerAt_bounds hline
  apply Yields.bind_map (Yields.call _)
  intro len _
  apply Yields.step (addTwo_yields hline)
  by_cases h1 : len = -1
  · rw [if_pos h1, payloadAt, if_pos h1]
    apply Yields.pure
  by_cases h2 : len ≤ -2
  · rw [if_neg h1, if_pos h2, payloadAt, if_neg h1, if_pos h2]
    apply Yields.throw
  · rw [if_neg h1, if_neg h2, if_neg (len_nonneg h1 h2)]
    exact parsePayload_yields hbounds.2 h1 h2

end Steps

/-! ## The recursion -/

section Recursion

variable {str : Bytes}

/-- Whatever a value costs, so much is enough for the elements of an array.
SOURCE: resp_value.cc:115-120 -/
theorem parseElements_yields {fuel : ℕ}
    (hvariant : ∀ pos fuel', 3 * (str.length - pos) + 2 ≤ fuel' → fuel' < fuel →
      Yields (TooLong str) (CheckedRespValue.parseVariant fuel' str pos) (variantAt str pos))
    {pos i arrayLength : ℕ} (output : List RespValue) (hpos : pos ≤ str.length)
    (hi : i ≤ arrayLength) (hfuel : 3 * (str.length - pos) + 3 ≤ fuel) :
    Yields (TooLong str) (CheckedRespValue.parseElements fuel str pos i arrayLength output)
      ((elementsAt str pos (arrayLength - i)).map fun r => (output ++ r.1, r.2)) := by
  induction fuel generalizing pos i output with
  | zero => omega
  | succ fuel ih =>
    rw [CheckedRespValue.parseElements]
    by_cases hlt : i < arrayLength
    · obtain ⟨count, hcount⟩ : ∃ count, arrayLength - i = count + 1 :=
        Nat.exists_eq_succ_of_ne_zero (Nat.sub_ne_zero_of_lt hlt)
      have hrest : arrayLength - (i + 1) = count := by omega
      rw [if_pos hlt, hcount, elementsAt_succ]
      by_cases hend : pos ≥ str.length
      · rw [if_pos hend, if_pos hend]
        apply Yields.throw
      · rw [if_neg hend, if_neg hend]
        apply Yields.bind_map (hvariant pos fuel (by omega) (Nat.lt_succ_self fuel))
        rintro ⟨v, next⟩ hv
        obtain ⟨hprogress, hbound⟩ := variantAt_bounds str pos v next hv
        have hloop := ih (fun q fuel' hq hfuel' => hvariant q fuel' hq (Nat.lt_succ_of_lt hfuel'))
          (output ++ [v]) hbound hlt (by omega)
        rw [hrest] at hloop
        cases helements : elementsAt str next count with
        | error e => simpa [helements, Except.map] using hloop
        | ok r => simpa [helements, Except.map] using hloop
    · have hnone : arrayLength - i = 0 := by omega
      rw [if_neg hlt, hnone, elementsAt_zero]
      simpa [Except.map] using Yields.pure (output, pos)

/-- `ParseArray` does what the model says, if the values inside do.
SOURCE: resp_value.cc:101-122 -/
theorem parseArray_yields {fuel pos : ℕ}
    (hvariant : ∀ pos fuel', 3 * (str.length - pos) + 2 ≤ fuel' → fuel' < fuel →
      Yields (TooLong str) (CheckedRespValue.parseVariant fuel' str pos) (variantAt str pos))
    (h : str[pos]? = some 42) (hfuel : 3 * (str.length - pos) + 1 ≤ fuel) :
    Yields (TooLong str) (CheckedRespValue.parseArray fuel str pos)
      ((lineAt "Missing CRLF after array length" str pos >>= fun line =>
        stoll line.1 >>= fun len =>
          if len < 0 then .error (.invalidArgument "Negative array length not allowed")
          else elementsAt str line.2 len.toNatClampNeg).map
        fun r => (array r.1, r.2)) := by
  obtain ⟨fuel, rfl⟩ : ∃ n, fuel = n + 1 := ⟨fuel - 1, by omega⟩
  rw [CheckedRespValue.parseArray, lineAt_bind]
  apply Yields.bind_map (parseLine_yields _ h)
  rintro ⟨text, endOfLength⟩ hline
  have hbounds := headerAt_bounds hline
  simp only at hbounds
  apply Yields.bind_map (Yields.call _)
  intro len _
  apply Yields.step (addTwo_yields hline)
  by_cases hneg : len < 0
  · rw [if_pos hneg, if_pos hneg]
    apply Yields.throw
  · rw [if_neg hneg, if_neg hneg]
    have helements := parseElements_yields
      (fun q fuel' hq hlt => hvariant q fuel' hq (Nat.lt_succ_of_lt hlt)) [] hbounds.2
      (Nat.zero_le len.toNatClampNeg) (by omega)
    have hall : ((elementsAt str (endOfLength + 2) len.toNatClampNeg).map
        fun r => ([] ++ r.1, r.2)) = elementsAt str (endOfLength + 2) len.toNatClampNeg := by
      cases elementsAt str (endOfLength + 2) len.toNatClampNeg <;> rfl
    rw [Nat.sub_zero, hall] at helements
    apply Yields.map helements
    intro r _
    apply Yields.pure

/-- **The parser comes to an end**, with what the model says and without a fault, if it is given
three steps per byte.
SOURCE: resp_value.cc:10-122 -/
theorem parseVariant_yields {fuel pos : ℕ} (hfuel : 3 * (str.length - pos) + 2 ≤ fuel) :
    Yields (TooLong str) (CheckedRespValue.parseVariant fuel str pos) (variantAt str pos) := by
  -- the elements of an array are parsed with less fuel
  induction fuel using Nat.strongRecOn generalizing pos with
  | ind fuel ih =>
    obtain ⟨fuel, rfl⟩ : ∃ n, fuel = n + 2 := ⟨fuel - 2, by omega⟩
    rw [CheckedRespValue.parseVariant, variantAt_eq]
    by_cases hend : pos ≥ str.length
    · rw [if_pos hend, List.getElem?_eq_none hend]
      apply Yields.throw
    obtain ⟨first, hfirst⟩ : ∃ first, str[pos]? = some first :=
      ⟨_, List.getElem?_eq_getElem (Nat.lt_of_not_le hend)⟩
    rw [if_neg hend, hfirst]
    apply Yields.step (Yields.getAt hfirst)
    apply Yields.ite
    · rintro rfl
      exact textLine_yields simpleString _ hfirst
    intro _
    apply Yields.ite
    · rintro rfl
      exact textLine_yields simpleError _ hfirst
    intro _
    apply Yields.ite
    · rintro rfl
      exact parseInteger_yields hfirst
    intro _
    apply Yields.ite
    · rintro rfl
      exact parseBulkString_yields hfirst
    intro _
    apply Yields.ite
    · rintro rfl
      exact parseArray_yields (fun q fuel' hq hlt => ih fuel' (by omega) hq) hfirst (by omega)
    intro _
    apply Yields.throw

end Recursion

/-! ## The loop of `PopValue` -/

/-- A parsed value leaves a shorter buffer.
SOURCE: resp_value_queue.cc:19-23 -/
theorem takeParsed_length_lt {q : RespValueQueue} {val : RespValue} {pos : ℕ}
    (h : fromString q.buffer = .ok (val, pos)) :
    (q.takeParsed val pos).buffer.length < q.buffer.length := by
  obtain ⟨hpos, hbuffer⟩ := RespValueQueue.fromString_pos h
  rw [takeParsed_eq, List.length_drop]
  omega

/-- `FromString` comes to an end within the fuel of its buffer.
SOURCE: resp_value.cc:185-188 -/
theorem fromString_yields {q : RespValueQueue} {fuel : ℕ}
    (hfuel : 3 * q.buffer.length + 3 ≤ fuel + 1) :
    Yields (TooLong q.buffer) (CheckedRespValue.parseVariant fuel q.buffer 0)
      (fromString q.buffer) := by
  rw [fromString_eq]
  exact parseVariant_yields (by omega)

/-- **The loop of `PopValue` comes to an end**, whatever the buffer holds.
SOURCE: resp_value_queue.cc:13-24 -/
theorem parseBuffer_yields (q : RespValueQueue) {fuel : ℕ}
    (hfuel : 3 * q.buffer.length + 3 ≤ fuel) :
    CheckedRespValue.parseBuffer fuel q = .ok q.parseBuffer ∨
      TooLong q.buffer ∧ CheckedRespValue.parseBuffer fuel q = .error .wrapped := by
  induction q using RespValueQueue.parseBuffer.induct generalizing fuel with
  | case1 q e h =>
    obtain ⟨fuel, rfl⟩ : ∃ n, fuel = n + 1 := ⟨fuel - 1, by omega⟩
    have hvariant := fromString_yields hfuel
    rw [CheckedRespValue.parseBuffer, RespValueQueue.parseBuffer_of_error h]
    rw [h] at hvariant
    obtain hrun | ⟨hlong, hrun⟩ := hvariant
    · rw [hrun]
      exact Or.inl rfl
    · rw [hrun]
      exact Or.inr ⟨hlong, rfl⟩
  | case2 q val pos h ih =>
    obtain ⟨fuel, rfl⟩ : ∃ n, fuel = n + 1 := ⟨fuel - 1, by omega⟩
    have hshorter := takeParsed_length_lt h
    have hvariant := fromString_yields hfuel
    rw [CheckedRespValue.parseBuffer, RespValueQueue.parseBuffer_of_ok h]
    rw [h] at hvariant
    obtain hrun | ⟨hlong, hrun⟩ := hvariant
    · rw [hrun]
      have henough : 3 * (q.takeParsed val pos).buffer.length + 3 ≤ fuel := by omega
      obtain hrest | ⟨hlong, hrest⟩ := ih henough
      · exact Or.inl hrest
      · refine Or.inr ⟨?_, hrest⟩
        exact lt_trans hlong hshorter
    · rw [hrun]
      exact Or.inr ⟨hlong, rfl⟩

/-- **Progress and bounds of the parser.**  With enough steps `ParseVariant` has an outcome on
every string of fewer than `2 ^ 62` bytes, and it is the one of the model: no index was out of
bounds, no assertion failed, no position wrapped.  A value ends behind where it started and inside
the string.  The loop of `PopValue` has an outcome on every buffer.
SOURCE: resp_value.cc:10-122, resp_value_queue.cc:10-28 -/
theorem parser_progress :
    (∀ (str : Bytes) (pos : ℕ), str.length < 2 ^ 62 →
      (∃ steps, ∀ fuel ≥ steps,
        (CheckedRespValue.parseVariant fuel str pos).run = .ok (variantAt str pos)) ∧
      ∀ value next, variantAt str pos = .ok (value, next) → pos < next ∧ next ≤ str.length) ∧
    ∀ q : RespValueQueue, ∃ steps, ∀ fuel ≥ steps,
      CheckedRespValue.parseBuffer fuel q ≠ .error .unfinished ∧
      (q.buffer.length < 2 ^ 62 → CheckedRespValue.parseBuffer fuel q = .ok q.parseBuffer) := by
  have hshort {str : Bytes} (h : str.length < 2 ^ 62) : ¬ TooLong str := by
    rw [TooLong]
    omega
  refine ⟨?_, ?_⟩
  · intro str pos hsize
    refine ⟨⟨3 * (str.length - pos) + 2, ?_⟩, variantAt_bounds str pos⟩
    intro fuel hfuel
    exact (parseVariant_yields hfuel).run_eq (hshort hsize)
  · intro q
    refine ⟨3 * q.buffer.length + 3, ?_⟩
    intro fuel hfuel
    obtain hrun | ⟨hlong, hrun⟩ := parseBuffer_yields q hfuel
    · rw [hrun]
      refine ⟨?_, fun _ => rfl⟩
      intro heq
      cases heq
    · rw [hrun]
      refine ⟨?_, fun hsize => absurd hlong (hshort hsize)⟩
      intro heq
      cases heq

end MyRedis.Analysis
