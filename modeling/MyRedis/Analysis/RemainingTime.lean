import MyRedis.Analysis.ExpiryPurge
import MyRedis.Analysis.KeyLocality

/-!
# What is left of a key's time

`Ttl` subtracts the clock from the deadline and compares the difference with zero; `Get` and
`Persist` compare the deadline with the clock.  The difference is the true one where it fits
`int64_t` (`ttl_shows_iff`), and otherwise the subtraction overflows: a client can set any
deadline, so it may lie further in the past than `int64_t` reaches.  Where it fits, the three
operations agree on whether the key is alive except in the one millisecond in which the deadline
and the clock are equal: `Ttl` then takes the key for gone, and the other two do not
(`agreeOnLife_iff`).
-/

set_option autoImplicit false

namespace MyRedis.Analysis

open MyRedis.Model MyRedis.Model.Store

/-- The time left at `now`, in unbounded integers, as `Ttl` reports it. -/
def remaining (d now : ℤ) : ℤ := if 0 < d - now then d - now else -2

/-- `Ttl`, `Get` and `Persist` agree on whether the key is alive. -/
def AgreeOnLife (s : Store) (now : Int64) (k : Bytes) : Prop :=
  ∃ t, s.ttl now k = .ok t ∧ (t = -2 ↔ s.get now k = none) ∧
    ((s.persist now k).1 = true ↔ t ≠ -1 ∧ t ≠ -2)

/-- The commands that report the time left, with their unit in milliseconds. -/
def ttlCommands : List (Bytes × ℤ) := [(ascii "TTL", 1000), (ascii "PTTL", 1)]

/-- `Ttl` is the time left until the deadline `d`, and the commands report it in their unit.  The
dispatcher does not accept an empty key. -/
def ShowsRemaining (s : Store) (now : Int64) (k : Bytes) (d : ℤ) : Prop :=
  (∃ t, s.ttl now k = .ok t ∧ t.toInt = remaining d now.toInt) ∧
    (k ≠ [] → ∀ command ∈ ttlCommands, ∃ reply,
      dispatch s now (.array [.bulkString (some command.1), .bulkString (some k)]) =
        .ok (.integer reply, s) ∧
      reply.toInt = if 0 < d - now.toInt then (d - now.toInt) / command.2 else -2)

/-! ## The subtraction -/

section Ttl

variable {s : Store} {k : Bytes} {entry : Entry} {now : Int64}

/-- Where the difference fits, `Ttl` returns the time left.
SOURCE: store.cc:74-82 -/
theorem ttl_of_range (h : s.lookUp k = some entry) (hd : entry.expiry ≠ noExpiry)
    (hrange : -2 ^ 63 ≤ entry.expiry.toInt - now.toInt ∧ entry.expiry.toInt - now.toInt < 2 ^ 63) :
    ∃ t, s.ttl now k = .ok t ∧ t.toInt = remaining entry.expiry.toInt now.toInt := by
  have hdifference := Int64.toInt_ofInt_of_le hrange.1 hrange.2
  have httl : s.ttl now k = .ok (if Int64.ofInt (entry.expiry.toInt - now.toInt) ≤ 0 then -2
      else Int64.ofInt (entry.expiry.toInt - now.toInt)) := by
    simp only [ttl, h, if_neg hd, signed64, if_pos hrange]
    rfl
  have hsign : Int64.ofInt (entry.expiry.toInt - now.toInt) ≤ 0 ↔
      ¬ 0 < entry.expiry.toInt - now.toInt := by
    rw [Int64.le_iff_toInt_le, hdifference, not_lt]
    rfl
  refine ⟨_, httl, ?_⟩
  unfold remaining
  by_cases hpositive : 0 < entry.expiry.toInt - now.toInt
  · rw [if_neg fun hle => hsign.mp hle hpositive, if_pos hpositive, hdifference]
  · rw [if_pos (hsign.mpr hpositive), if_neg hpositive]
    rfl

/-- Otherwise the subtraction overflows.
SOURCE: store.cc:79 -/
theorem ttl_of_overflow (h : s.lookUp k = some entry) (hd : entry.expiry ≠ noExpiry)
    (hrange : ¬ (-2 ^ 63 ≤ entry.expiry.toInt - now.toInt ∧
      entry.expiry.toInt - now.toInt < 2 ^ 63)) : s.ttl now k = .error .signedOverflow := by
  simp only [ttl, h, if_neg hd, signed64, if_neg hrange]
  rfl

end Ttl

/-! ## Alive or gone -/

section Life

variable {s : Store} {k value : Bytes} {entry : Entry} {now : Int64}

/-- For `Get` a key is gone behind its deadline.
SOURCE: store.cc:19-27 -/
theorem get_eq_none_iff (h : s.lookUp k = some entry) (hvalue : entry.value = some value) :
    s.get now k = none ↔ entry.expiry ≠ noExpiry ∧ entry.expiry.toInt < now.toInt := by
  rw [← expired_iff]
  simp only [Store.get, h]
  split_ifs with hexpired
  · exact iff_of_true rfl hexpired
  · rw [hvalue]
    exact iff_of_false (Option.some_ne_none value) hexpired

/-- For `Persist` a key is alive up to its deadline.
SOURCE: store.cc:86-94 -/
theorem persist_iff (h : s.lookUp k = some entry) :
    (s.persist now k).1 = true ↔ entry.expiry ≠ noExpiry ∧ now.toInt ≤ entry.expiry.toInt := by
  by_cases hnone : entry.expiry = noExpiry
  · simp [persist, h, hnone]
  · by_cases hpast : entry.expiry < now
    · have hlt := Int64.lt_iff_toInt_lt.mp hpast
      simp [persist, h, hnone, hpast, hlt]
    · have hle : now.toInt ≤ entry.expiry.toInt := by
        rw [Int64.lt_iff_toInt_lt] at hpast
        omega
      simp [persist, h, hnone, hpast, hle]

/-- **When `Get`, `Ttl` and `Persist` agree**, for a key that holds a value.
SOURCE: store.cc:19-27, 74-94 -/
theorem agreeOnLife_iff (h : s.lookUp k = some entry) (hvalue : entry.value = some value) :
    AgreeOnLife s now k ↔
      entry.expiry = noExpiry ∨
        entry.expiry ≠ now ∧ -2 ^ 63 ≤ entry.expiry.toInt - now.toInt ∧
          entry.expiry.toInt - now.toInt < 2 ^ 63 := by
  unfold AgreeOnLife
  rw [get_eq_none_iff h hvalue, persist_iff h]
  by_cases hnone : entry.expiry = noExpiry
  · have httl : s.ttl now k = .ok (-1) := by
      simp only [ttl, h, if_pos hnone]
    refine iff_of_true ⟨-1, httl, ?_, ?_⟩ (Or.inl hnone)
    · exact iff_of_false (by decide) fun hboth => hboth.1 hnone
    · exact iff_of_false (fun hboth => hboth.1 hnone) fun hboth => hboth.1 rfl
  · by_cases hrange : -2 ^ 63 ≤ entry.expiry.toInt - now.toInt ∧
        entry.expiry.toInt - now.toInt < 2 ^ 63
    · obtain ⟨t, httl, ht⟩ := ttl_of_range h hnone hrange
      have hminusTwo : t = -2 ↔ t.toInt = -2 := Int64.toInt_inj.symm
      have hminusOne : t = -1 ↔ t.toInt = -1 := Int64.toInt_inj.symm
      have hnow : entry.expiry ≠ now ↔ entry.expiry.toInt ≠ now.toInt :=
        not_congr Int64.toInt_inj.symm
      have hexists : (∃ t, s.ttl now k = .ok t ∧
          (t = -2 ↔ entry.expiry ≠ noExpiry ∧ entry.expiry.toInt < now.toInt) ∧
          (entry.expiry ≠ noExpiry ∧ now.toInt ≤ entry.expiry.toInt ↔ t ≠ -1 ∧ t ≠ -2)) ↔
          (t.toInt = -2 ↔ entry.expiry.toInt < now.toInt) ∧
            (now.toInt ≤ entry.expiry.toInt ↔ t.toInt ≠ -1 ∧ t.toInt ≠ -2) := by
        rw [httl]
        simp [hnone, hminusTwo, hminusOne]
      rw [hexists, hnow, ht, remaining]
      simp only [hnone, false_or]
      split_ifs <;> omega
    · rw [ttl_of_overflow h hnone hrange]
      refine iff_of_false ?_ ?_
      · rintro ⟨t, ht, -⟩
        cases ht
      · rintro (hsome | ⟨-, hfits⟩)
        · exact hnone hsome
        · exact hrange hfits

end Life

/-- A store in which a key has the deadline 100. -/
def deadlineStore : Store := empty.insert (ascii "k") ⟨100, some (ascii "v")⟩

/-- A key with a deadline at 100, asked at 50.
SOURCE: store.cc:19-94 -/
theorem agreeOnLife_iff_deadlineStore :
    deadlineStore.lookUp (ascii "k") = some ⟨100, some (ascii "v")⟩ ∧
      AgreeOnLife deadlineStore 50 (ascii "k") := by
  refine ⟨rfl, ?_⟩
  apply (agreeOnLife_iff rfl rfl).mpr
  decide

/-- A client gives a key the deadline 100. -/
def deadlineRun : List (Int64 × RespValue) :=
  [(0, asciiCommand "SET" ["k", "v"]), (0, asciiCommand "PEXPIREAT" ["k", "100"])]

/-- **At its deadline a key is gone for `Ttl` and alive for `Get` and `Persist`.**
SOURCE: store.cc:23-24, 80, 91 -/
theorem life_disagrees :
    ∃ replies s, dispatchAll empty deadlineRun = .ok (replies, s) ∧
      s.ttl 100 (ascii "k") = .ok (-2) ∧ s.get 100 (ascii "k") = some (ascii "v") ∧
      (s.persist 100 (ascii "k")).1 = true ∧ ¬ AgreeOnLife s 100 (ascii "k") := by
  refine ⟨_, _, rfl, rfl, rfl, rfl, ?_⟩
  rintro ⟨t, httl, hgone, -⟩
  cases httl
  exact Option.some_ne_none _ (hgone.mp rfl)

/-! ## Reports -/

section Reports

variable {s : Store} {k : Bytes} {entry : Entry} {now : Int64}

/-- A command that reports the time left reaches its handler.
SOURCE: request_dispatcher.cc:42-46, 56-64 -/
theorem dispatch_ttl {name : Bytes} {factor : Int64} (count : ℕ) {rest : List Handler}
    (hk : k ≠ []) (hname : name ≠ []) (hbefore : name ∉ keyCommands.take count)
    (hhandlers : handlers = (handlers.take 10).take count ++ .ttl name factor :: rest) {t : Int64}
    (httl : s.ttl now k = .ok t) :
    dispatch s now (.array [.bulkString (some name), .bulkString (some k)]) =
      .ok (.integer (if t < 0 then t else t / factor), s) := by
  have hcommand : parseCommand (.array [.bulkString (some name), .bulkString (some k)]) =
      some ⟨name, [some k]⟩ := by
    simp [parseCommand, parseArgs, hname]
  have hguard : Handler.keyAnd 1 [some k] = .ok true := by
    cases k with
    | nil => exact absurd rfl hk
    | cons c k => rfl
  have hown : (Handler.ttl name factor).isHandler
      (.array [.bulkString (some name), .bulkString (some k)]) = .ok true := by
    simp only [Handler.ttl, Handler.named, hcommand, if_true, hguard]
  have hkey : Handler.keyOf [some k] = .ok k := rfl
  rw [dispatch_at hcommand hbefore hhandlers hown]
  simp only [Handler.ttl, argsOf_eq hcommand, hkey, httl, bind, Except.bind]
  rfl

/-- A reported time is the time left in the unit of the command.
SOURCE: ttl_request_handler.h:33-39 -/
theorem toInt_report {t factor : Int64} {d : ℤ} (ht : t.toInt = remaining d now.toInt)
    (hfactor : 0 < factor.toInt) :
    (if t < 0 then t else t / factor).toInt =
      if 0 < d - now.toInt then (d - now.toInt) / factor.toInt else -2 := by
  have hsign : t < 0 ↔ t.toInt < 0 := Int64.lt_iff_toInt_lt
  rw [remaining] at ht
  by_cases hpositive : 0 < d - now.toInt
  · rw [if_pos hpositive] at ht ⊢
    have hminus : factor ≠ -1 := by
      rintro rfl
      exact absurd hfactor (by decide)
    have hnonneg : ¬ t < 0 := by
      rw [hsign]
      omega
    rw [if_neg hnonneg, Int64.toInt_div_of_ne_right _ _ hminus, ht,
      Int.tdiv_eq_ediv_of_nonneg (le_of_lt hpositive)]
  · rw [if_neg hpositive] at ht ⊢
    have hnegative : t < 0 := by
      rw [hsign]
      omega
    rw [if_pos hnegative, ht]

/-- **When `Ttl` reports the true remaining time**, for a key with a deadline and a clock reading
from 0 to `2^62`: when the deadline is not more than `2^63` milliseconds in the past.
SOURCE: store.cc:74-82, ttl_request_handler.h:33-39 -/
theorem ttl_shows_iff (h : s.lookUp k = some entry) (hd : entry.expiry ≠ noExpiry)
    (hnow : 0 ≤ now.toInt ∧ now.toInt < 2 ^ 62) :
    ShowsRemaining s now k entry.expiry.toInt ↔ now.toInt - 2 ^ 63 ≤ entry.expiry.toInt := by
  have hmax := entry.expiry.toInt_lt
  constructor
  · rintro ⟨⟨t, httl, -⟩, -⟩
    by_contra hpast
    have hrange : ¬ (-2 ^ 63 ≤ entry.expiry.toInt - now.toInt ∧
        entry.expiry.toInt - now.toInt < 2 ^ 63) := by omega
    rw [ttl_of_overflow h hd hrange] at httl
    cases httl
  · intro hpast
    have hrange : -2 ^ 63 ≤ entry.expiry.toInt - now.toInt ∧
        entry.expiry.toInt - now.toInt < 2 ^ 63 := by omega
    obtain ⟨t, httl, ht⟩ := ttl_of_range h hd hrange
    refine ⟨⟨t, httl, ht⟩, ?_⟩
    intro hk command hcommand
    simp only [ttlCommands, List.mem_cons, List.not_mem_nil, or_false] at hcommand
    rcases hcommand with rfl | rfl
    · refine ⟨_, dispatch_ttl 7 hk (by decide) (by decide) rfl httl, ?_⟩
      exact toInt_report ht (by decide)
    · refine ⟨_, dispatch_ttl 8 hk (by decide) (by decide) rfl httl, ?_⟩
      exact toInt_report ht (by decide)

end Reports

/-- A key with a deadline at 100, asked at 50.
SOURCE: store.cc:74-82, ttl_request_handler.h:33-39 -/
theorem ttl_shows_iff_deadlineStore :
    deadlineStore.lookUp (ascii "k") = some ⟨100, some (ascii "v")⟩ ∧
      ShowsRemaining deadlineStore 50 (ascii "k") 100 := by
  refine ⟨rfl, ?_⟩
  have hshows := @ttl_shows_iff deadlineStore (ascii "k") ⟨100, some (ascii "v")⟩ 50 rfl
    (by decide) (by decide)
  apply hshows.mpr
  decide

/-- A client gives a key the least deadline there is. -/
def leastDeadlineRun : List (Int64 × RespValue) :=
  [(0, asciiCommand "SET" ["k", "v"]), (0, asciiCommand "PEXPIREAT" ["k", "-9223372036854775808"])]

/-- **One millisecond later the subtraction overflows.**
SOURCE: store.cc:79 -/
theorem ttl_overflows :
    ∃ replies s, dispatchAll empty leastDeadlineRun = .ok (replies, s) ∧
      s.lookUp (ascii "k") = some ⟨-9223372036854775808, some (ascii "v")⟩ ∧
      s.ttl 1 (ascii "k") = .error .signedOverflow ∧
      ¬ ShowsRemaining s 1 (ascii "k") (-9223372036854775808) := by
  refine ⟨_, _, rfl, rfl, rfl, ?_⟩
  rintro ⟨⟨t, httl, -⟩, -⟩
  cases httl

end MyRedis.Analysis
