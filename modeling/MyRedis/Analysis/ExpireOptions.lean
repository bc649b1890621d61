import MyRedis.Analysis.ExpiryPurge
import MyRedis.Lib.Deadline

/-!
# The options of `ExpireAt`

An entry has a deadline or none; the source writes both in one `int64_t` and takes `-1`
(`NO_EXPIRY`) for none.  Seen as an optional deadline, `ExpireAt` follows the rule that its
option names, except for one timestamp: `-1` itself.  Where the option accepts it, the call
returns `true` and leaves the key without a deadline.  So a sequence of `Set`, `ExpireAt` and
`Persist` on a stored key keeps to the rules exactly when no `ExpireAt` of it is given `-1`
and accepts it (`expireAt_options_iff`).
-/

set_option autoImplicit false

namespace MyRedis.Analysis

open MyRedis.Model MyRedis.Model.Store MyRedis.Lib

/-! ## Deadlines -/

/-- The deadline of an entry; `⊤` is none.
SOURCE: store.h:68-71 -/
def deadlineOf (entry : Entry) : WithTop ℤ :=
  if entry.expiry = noExpiry then ⊤ else (entry.expiry.toInt : WithTop ℤ)

/-- The deadline of a key, if the key is stored. -/
def deadline (s : Store) (k : Bytes) : Option (WithTop ℤ) := (s.lookUp k).map deadlineOf

/-- The rule an option names. -/
def ruleOf : ExpireOption → DeadlineRule
  | .nx => .ifNone
  | .xx => .ifSome
  | .gt => .ifLater
  | .lt => .ifEarlier
  | .na => .always

/-- A call of `Set`, `ExpireAt` or `Persist` on the key. -/
def SetsDeadline (k : Bytes) : Call → Prop
  | .set key _ => key = k
  | .expireAt key _ _ => key = k
  | .persist key => key = k
  | .get _ => False
  | .del _ => False
  | .ttl _ => False

/-- What a call makes of the deadline of its key. -/
def deadlineStep (d : WithTop ℤ) (c : TimedCall) : WithTop ℤ :=
  match c.call with
  | .set _ _ => ⊤
  | .expireAt _ timestampMs option => (ruleOf option).replace d timestampMs.toInt
  | .persist _ => if Passed d c.now.toInt then d else ⊤
  | .get _ => d
  | .del _ => d
  | .ttl _ => d

/-! ## The property -/

/-- `ExpireAt` returns `true` where the rule accepts the timestamp, and then the deadline is that
timestamp: the key has a TTL and is gone once the clock has passed it.  Otherwise the deadline is
as it was. -/
def FollowsRule (s : Store) (k : Bytes) (t : Int64) (option : ExpireOption) : Prop :=
  ∃ d, deadline s k = some d ∧
    ((s.expireAt k t option).1 = true ↔ (ruleOf option).Accepts d t.toInt) ∧
    ((s.expireAt k t option).1 = true →
      deadline (s.expireAt k t option).2 k = some (t.toInt : WithTop ℤ) ∧
      (∀ now, (s.expireAt k t option).2.ttl now k ≠ .ok (-1)) ∧
      ∀ now, t < now → (s.expireAt k t option).2.get now k = none) ∧
    ((s.expireAt k t option).1 = false → deadline (s.expireAt k t option).2 k = some d)

/-- Every `ExpireAt` of the sequence follows the rule of its option. -/
def AllFollow (s : Store) (k : Bytes) (cs : List TimedCall) : Prop :=
  ∀ before now t option s₁, before ++ [⟨now, .expireAt k t option⟩] <+: cs →
    after s before = some s₁ → FollowsRule s₁ k t option

/-- After a sequence of `ExpireAt`s with one option the deadline is the bound of the values
involved. -/
def Bounds (s : Store) (k : Bytes) (cs : List TimedCall) (option : ExpireOption)
    (bound : Set (WithTop ℤ) → WithTop ℤ → Prop) : Prop :=
  ∀ ts : List Int64, cs.map TimedCall.call = ts.map (.expireAt k · option) →
    ∃ d s' d', deadline s k = some d ∧ after s cs = some s' ∧ deadline s' k = some d' ∧
      bound {x | x = d ∨ ∃ t ∈ ts, x = t.toInt} d'

/-- `ExpireAt` implements its options along the sequence. -/
def ImplementsOptions (s : Store) (k : Bytes) (cs : List TimedCall) : Prop :=
  AllFollow s k cs ∧ Bounds s k cs .lt IsEarliest ∧ Bounds s k cs .gt IsLatest

/-- No `ExpireAt` of the sequence is given the timestamp `-1` where its option accepts it. -/
def NoSentinel (s : Store) (k : Bytes) (cs : List TimedCall) : Prop :=
  ∀ before now option s₁ d, before ++ [⟨now, .expireAt k noExpiry option⟩] <+: cs →
    after s before = some s₁ → deadline s₁ k = some d → ¬ (ruleOf option).Accepts d (-1)

/-! ## One call -/

section Calls

variable {s : Store} {k : Bytes} {entry : Entry}

/-- The deadline of a stored key is that of its entry.
SOURCE: store.cc:41-43 -/
theorem deadline_of_lookUp (h : s.lookUp k = some entry) :
    deadline s k = some (deadlineOf entry) := by
  rw [deadline, h, Option.map_some]

/-- An entry without expiry is infinitely far from its end.
SOURCE: store.h:68 -/
theorem deadlineOf_eq_top : deadlineOf entry = ⊤ ↔ entry.expiry = noExpiry := by
  unfold deadlineOf
  split_ifs with h
  · exact iff_of_true rfl h
  · exact iff_of_false (WithTop.coe_ne_top) h

/-- **The `switch` of `ExpireAt` refuses what the rule does not accept.**
SOURCE: store.cc:45-67 -/
theorem refuses_iff (entry : Entry) (t : Int64) (option : ExpireOption) :
    option.refuses entry t = true ↔ ¬ (ruleOf option).Accepts (deadlineOf entry) t.toInt := by
  cases option with
  | nx =>
    simp only [ExpireOption.refuses, ruleOf, DeadlineRule.Accepts, deadlineOf_eq_top, bne_iff_ne]
  | xx =>
    simp only [ExpireOption.refuses, ruleOf, DeadlineRule.Accepts, ne_eq, deadlineOf_eq_top,
      beq_iff_eq, not_not]
  | gt =>
    simp only [ExpireOption.refuses, ruleOf, DeadlineRule.Accepts, Bool.or_eq_true, beq_iff_eq,
      decide_eq_true_eq, deadlineOf, ge_iff_le, Int64.le_iff_toInt_le]
    split_ifs with h
    · simp [h]
    · simp [h]
  | lt =>
    simp only [ExpireOption.refuses, ruleOf, DeadlineRule.Accepts, Bool.and_eq_true, bne_iff_ne,
      decide_eq_true_eq, deadlineOf, Int64.le_iff_toInt_le]
    split_ifs with h
    · simp [h]
    · simp [h]
  | na => simp [ExpireOption.refuses, ruleOf, DeadlineRule.Accepts]

/-- An accepted timestamp is stored as the expiry.
SOURCE: store.cc:39-72 -/
theorem expireAt_of_accepts (h : s.lookUp k = some entry) {t : Int64} {option : ExpireOption}
    (haccepts : (ruleOf option).Accepts (deadlineOf entry) t.toInt) :
    s.expireAt k t option = (true, s.insert k { entry with expiry := t }) := by
  have hrefuses : ¬ option.refuses entry t = true := by
    rw [refuses_iff, not_not]
    exact haccepts
  simp only [expireAt, h, if_neg hrefuses]

/-- A refused timestamp leaves the store as it is.
SOURCE: store.cc:45-67 -/
theorem expireAt_of_not_accepts (h : s.lookUp k = some entry) {t : Int64} {option : ExpireOption}
    (haccepts : ¬ (ruleOf option).Accepts (deadlineOf entry) t.toInt) :
    s.expireAt k t option = (false, s) := by
  have hrefuses : option.refuses entry t = true := (refuses_iff entry t option).mpr haccepts
  simp only [expireAt, h, if_pos hrefuses]

/-- A key with a deadline has a TTL, or is gone.
SOURCE: store.cc:74-82 -/
theorem ttl_ne_of_expiry (h : s.lookUp k = some entry) (hne : entry.expiry ≠ noExpiry)
    (now : Int64) : s.ttl now k ≠ .ok (-1) := by
  intro httl
  simp only [ttl, h, if_neg hne] at httl
  obtain ⟨remaining, -, hremaining⟩ := bind_eq_ok.mp httl
  split_ifs at hremaining with hle
  · cases hremaining
  · cases hremaining
    exact hle (by decide)

/-- `Get` does not find a key whose deadline the clock has passed.
SOURCE: store.cc:19-27 -/
theorem get_of_past (h : s.lookUp k = some entry) (hne : entry.expiry ≠ noExpiry) {now : Int64}
    (hpast : entry.expiry < now) : s.get now k = none := by
  have hexpired : entry.expired now := by
    rw [expired_iff]
    exact ⟨hne, Int64.lt_iff_toInt_lt.mp hpast⟩
  simp only [Store.get, h, hexpired, if_true]

/-- **The rule is followed unless it accepts the timestamp `-1`.**
SOURCE: store.cc:39-72 -/
theorem followsRule_iff (h : s.lookUp k = some entry) (t : Int64) (option : ExpireOption) :
    FollowsRule s k t option ↔
      (t = noExpiry → ¬ (ruleOf option).Accepts (deadlineOf entry) (-1)) := by
  have hbefore := deadline_of_lookUp h
  by_cases haccepts : (ruleOf option).Accepts (deadlineOf entry) t.toInt
  · have hcall := expireAt_of_accepts h haccepts
    have hlook : (s.insert k { entry with expiry := t }).lookUp k =
        some { entry with expiry := t } := by
      rw [lookUp_insert, if_pos rfl]
    constructor
    · rintro ⟨d, -, -, hset, -⟩ rfl hminus
      rw [hcall] at hset
      obtain ⟨hdeadline, -, -⟩ := hset rfl
      rw [deadline_of_lookUp hlook, deadlineOf, if_pos rfl] at hdeadline
      exact WithTop.coe_ne_top (Option.some.inj hdeadline).symm
    · intro hsentinel
      have hne : t ≠ noExpiry := by
        rintro rfl
        exact hsentinel rfl haccepts
      refine ⟨deadlineOf entry, hbefore, ?_, ?_, ?_⟩
      · rw [hcall]
        exact iff_of_true rfl haccepts
      · intro _
        rw [hcall]
        refine ⟨?_, ?_, ?_⟩
        · rw [deadline_of_lookUp hlook, deadlineOf, if_neg hne]
        · exact ttl_ne_of_expiry hlook hne
        · exact fun now hnow => get_of_past hlook hne hnow
      · rw [hcall]
        intro hfalse
        cases hfalse
  · have hcall := expireAt_of_not_accepts h haccepts
    constructor
    · rintro - rfl
      exact haccepts
    · intro _
      refine ⟨deadlineOf entry, hbefore, ?_, ?_, ?_⟩
      · rw [hcall]
        exact iff_of_false Bool.false_ne_true haccepts
      · rw [hcall]
        intro hfalse
        cases hfalse
      · rw [hcall]
        intro _
        exact hbefore

/-- `Persist` takes the deadline of a stored key away, unless it has passed.
SOURCE: store.cc:86-94 -/
theorem persist_deadline (h : s.lookUp k = some entry) (now : Int64) :
    ∃ entry', (s.persist now k).2.lookUp k = some entry' ∧
      deadlineOf entry' = if Passed (deadlineOf entry) now.toInt then deadlineOf entry else ⊤ := by
  simp only [persist, h]
  by_cases hnone : entry.expiry = noExpiry
  · rw [if_pos hnone]
    refine ⟨entry, h, ?_⟩
    rw [deadlineOf_eq_top.mpr hnone, ite_self]
  · have hsome : deadlineOf entry = (entry.expiry.toInt : WithTop ℤ) := if_neg hnone
    rw [if_neg hnone, hsome]
    by_cases hpast : entry.expiry < now
    · rw [if_pos hpast, if_pos (passed_coe.mpr (Int64.lt_iff_toInt_lt.mp hpast))]
      exact ⟨entry, h, hsome⟩
    · have hnot : ¬ Passed (entry.expiry.toInt : WithTop ℤ) now.toInt := by
        rw [passed_coe, ← Int64.lt_iff_toInt_lt]
        exact hpast
      rw [if_neg hpast, if_neg hnot]
      refine ⟨{ entry with expiry := noExpiry }, ?_, if_pos rfl⟩
      rw [lookUp_insert, if_pos rfl]

/-- A call on a stored key leaves it stored, with the deadline that `deadlineStep` says, unless it
is an `ExpireAt` that accepts `-1`.
SOURCE: store.cc:19-94 -/
theorem call_deadline (h : s.lookUp k = some entry) {c : TimedCall} (hc : SetsDeadline k c.call) :
    ∃ r s' entry', s.call c.now c.call = .ok (r, s') ∧ s'.lookUp k = some entry' ∧
      ((∀ option, c.call = .expireAt k noExpiry option →
        ¬ (ruleOf option).Accepts (deadlineOf entry) (-1)) →
      deadlineOf entry' = deadlineStep (deadlineOf entry) c) := by
  obtain ⟨now, call⟩ := c
  have hinsert (entry' : Entry) : (s.insert k entry').lookUp k = some entry' := by
    rw [lookUp_insert, if_pos rfl]
  cases call with
  | get key => exact hc.elim
  | del key => exact hc.elim
  | ttl key => exact hc.elim
  | set key value =>
    obtain rfl : key = k := hc
    refine ⟨.void, _, _, rfl, hinsert { value := value }, ?_⟩
    intro _
    exact if_pos rfl
  | expireAt key t option =>
    obtain rfl : key = k := hc
    by_cases haccepts : (ruleOf option).Accepts (deadlineOf entry) t.toInt
    · refine ⟨.bool true, _, _, ?_, hinsert { entry with expiry := t }, ?_⟩
      · simp only [Store.call, expireAt_of_accepts h haccepts]
      · intro hsentinel
        have hne : t ≠ noExpiry := by
          rintro rfl
          exact hsentinel option rfl haccepts
        simp only [deadlineStep, DeadlineRule.replace, if_pos haccepts]
        exact if_neg hne
    · refine ⟨.bool false, s, entry, ?_, h, ?_⟩
      · simp only [Store.call, expireAt_of_not_accepts h haccepts]
      · intro _
        simp only [deadlineStep, DeadlineRule.replace, if_neg haccepts]
  | persist key =>
    obtain rfl : key = k := hc
    obtain ⟨entry', hentry', hdeadline⟩ := persist_deadline h now
    exact ⟨_, _, entry', rfl, hentry', fun _ => hdeadline⟩

end Calls

/-! ## Sequences of calls -/

section Sequences

variable {s : Store} {k : Bytes} {entry : Entry} {cs : List TimedCall}

/-- A sequence of calls begins with its first one. -/
theorem after_cons {c : TimedCall} {r : Result} {s₁ : Store}
    (h : s.call c.now c.call = .ok (r, s₁)) (cs : List TimedCall) :
    after s (c :: cs) = after s₁ cs := by
  rw [after, h]

/-- The condition goes over to the rest of the sequence. -/
theorem NoSentinel.tail {c : TimedCall} {r : Result} {s₁ : Store} (h : NoSentinel s k (c :: cs))
    (hcall : s.call c.now c.call = .ok (r, s₁)) : NoSentinel s₁ k cs := by
  intro before now option s₂ d hpre hafter
  apply h (c :: before) now option s₂ d
  · exact (List.prefix_cons_inj c).mpr hpre
  · rw [after_cons hcall]
    exact hafter

/-- A stored key stays stored.
SOURCE: store.cc:39-94 -/
theorem stored_after (h : s.lookUp k = some entry) (hcs : ∀ c ∈ cs, SetsDeadline k c.call) :
    ∃ s' entry', after s cs = some s' ∧ s'.lookUp k = some entry' := by
  induction cs generalizing s entry with
  | nil => exact ⟨s, entry, rfl, h⟩
  | cons c cs ih =>
    obtain ⟨r, s₁, entry₁, hcall, h₁, -⟩ := call_deadline h (hcs c List.mem_cons_self)
    rw [after_cons hcall]
    exact ih h₁ fun c' hc' => hcs c' (List.mem_cons_of_mem c hc')

/-- **The deadline after a sequence of calls is that of the optional deadline.**
SOURCE: store.cc:39-72 -/
theorem deadline_after (h : s.lookUp k = some entry) (hcs : ∀ c ∈ cs, SetsDeadline k c.call)
    (hsentinel : NoSentinel s k cs) :
    ∃ s' entry', after s cs = some s' ∧ s'.lookUp k = some entry' ∧
      deadlineOf entry' = cs.foldl deadlineStep (deadlineOf entry) := by
  induction cs generalizing s entry with
  | nil => exact ⟨s, entry, rfl, h, rfl⟩
  | cons c cs ih =>
    obtain ⟨r, s₁, entry₁, hcall, h₁, hdeadline⟩ := call_deadline h (hcs c List.mem_cons_self)
    have hfirst : deadlineOf entry₁ = deadlineStep (deadlineOf entry) c := by
      apply hdeadline
      intro option hc
      apply hsentinel [] c.now option s (deadlineOf entry) _ rfl (deadline_of_lookUp h)
      rw [← hc]
      exact List.prefix_append [c] cs
    rw [after_cons hcall, List.foldl_cons, ← hfirst]
    exact ih h₁ (fun c' hc' => hcs c' (List.mem_cons_of_mem c hc')) (hsentinel.tail hcall)

/-- A sequence of `ExpireAt`s with one option offers its timestamps one after another.
SOURCE: store.cc:39-72 -/
theorem foldl_deadlineStep {option : ExpireOption} {ts : List Int64}
    (h : cs.map TimedCall.call = ts.map (.expireAt k · option)) (d : WithTop ℤ) :
    cs.foldl deadlineStep d = (ts.map Int64.toInt).foldl (ruleOf option).replace d := by
  induction cs generalizing ts d with
  | nil =>
    cases ts with
    | nil => rfl
    | cons t ts => cases h
  | cons c cs ih =>
    cases ts with
    | nil => cases h
    | cons t ts =>
      obtain ⟨hhead, htail⟩ := List.cons.inj h
      rw [List.foldl_cons, List.map_cons, List.foldl_cons, ih htail]
      simp only [deadlineStep, hhead]

/-- The deadline after `ExpireAt`s with one option is bounded as the rule bounds it.
SOURCE: store.cc:39-72 -/
theorem bounds_of_noSentinel (h : s.lookUp k = some entry)
    (hcs : ∀ c ∈ cs, SetsDeadline k c.call) (hsentinel : NoSentinel s k cs)
    {option : ExpireOption} {bound : Set (WithTop ℤ) → WithTop ℤ → Prop}
    (hbound : ∀ (d : WithTop ℤ) (ts : List ℤ),
      bound {x | x = d ∨ ∃ t ∈ ts, x = t} (ts.foldl (ruleOf option).replace d)) :
    Bounds s k cs option bound := by
  intro ts hts
  obtain ⟨s', entry', hafter, h', hdeadline⟩ := deadline_after h hcs hsentinel
  refine ⟨_, s', _, deadline_of_lookUp h, hafter, deadline_of_lookUp h', ?_⟩
  have hvalues := hbound (deadlineOf entry) (ts.map Int64.toInt)
  rw [hdeadline, foldl_deadlineStep hts]
  simpa using hvalues

/-- **The options of `ExpireAt`, over optional deadlines.**
SOURCE: store.cc:39-72 -/
theorem expireAt_options_iff (h : s.lookUp k = some entry)
    (hcs : ∀ c ∈ cs, SetsDeadline k c.call) : ImplementsOptions s k cs ↔ NoSentinel s k cs := by
  constructor
  · rintro ⟨hfollow, -⟩ before now option s₁ d hpre hafter hd
    obtain ⟨entry₁, h₁, rfl⟩ := Option.map_eq_some_iff.mp hd
    exact (followsRule_iff h₁ noExpiry option).mp
      (hfollow before now noExpiry option s₁ hpre hafter) rfl
  · intro hsentinel
    refine ⟨?_, ?_, ?_⟩
    · intro before now t option s₁ hpre hafter
      have hbefore : ∀ c ∈ before, SetsDeadline k c.call := by
        intro c hc
        exact hcs c (hpre.subset (List.mem_append_left _ hc))
      obtain ⟨s', entry₁, hafter', h₁⟩ := stored_after h hbefore
      cases hafter.symm.trans hafter'
      apply (followsRule_iff h₁ t option).mpr
      rintro rfl
      exact hsentinel before now option s₁ _ hpre hafter (deadline_of_lookUp h₁)
    · exact bounds_of_noSentinel h hcs hsentinel DeadlineRule.isEarliest_foldl_replace
    · exact bounds_of_noSentinel h hcs hsentinel DeadlineRule.isLatest_foldl_replace

end Sequences

/-- A key that was set. -/
def keyWithValue : Store := empty.set (ascii "k") (some (ascii "v"))

/-- Deadlines that are lowered, raised and taken away. -/
def deadlineCalls : List TimedCall :=
  [⟨0, .expireAt (ascii "k") 7 .lt⟩, ⟨1, .expireAt (ascii "k") 5 .lt⟩,
    ⟨2, .expireAt (ascii "k") 9 .gt⟩, ⟨3, .persist (ascii "k")⟩]

/-- None of these calls stores `-1`.
SOURCE: store.cc:39-72 -/
theorem noSentinel_deadlineCalls : NoSentinel keyWithValue (ascii "k") deadlineCalls := by
  intro before now option s₁ d hpre
  have hmem : (⟨now, .expireAt (ascii "k") noExpiry option⟩ : TimedCall) ∈ deadlineCalls :=
    hpre.subset (List.mem_append_right _ List.mem_cons_self)
  simp [deadlineCalls, noExpiry] at hmem

/-- All of them are `ExpireAt`s of one key.
SOURCE: store.cc:39-72 -/
theorem setsDeadline_deadlineCalls : ∀ c ∈ deadlineCalls, SetsDeadline (ascii "k") c.call := by
  simp [deadlineCalls, SetsDeadline]

/-- A key that gets its deadlines from these calls.
SOURCE: store.cc:39-72 -/
theorem expireAt_options_iff_deadlineCalls :
    keyWithValue.lookUp (ascii "k") = some { value := some (ascii "v") } ∧
      (∀ c ∈ deadlineCalls, SetsDeadline (ascii "k") c.call) ∧
      ImplementsOptions keyWithValue (ascii "k") deadlineCalls :=
  ⟨rfl, setsDeadline_deadlineCalls,
    (expireAt_options_iff rfl setsDeadline_deadlineCalls).mpr noSentinel_deadlineCalls⟩

/-- **`-1` is accepted and leaves the key without a deadline**: the call returns `true`, `Ttl` says
that there is no TTL and `Get` finds the value at every time.
SOURCE: store.cc:23, 69, 78 -/
theorem expireAt_sentinel :
    ¬ ImplementsOptions keyWithValue (ascii "k") [⟨0, .expireAt (ascii "k") (-1) .na⟩] ∧
      (keyWithValue.expireAt (ascii "k") (-1) .na).1 = true ∧
      (keyWithValue.expireAt (ascii "k") (-1) .na).2.ttl 10 (ascii "k") = .ok (-1) ∧
      (keyWithValue.expireAt (ascii "k") (-1) .na).2.get 10 (ascii "k") = some (ascii "v") := by
  refine ⟨?_, rfl, rfl, rfl⟩
  rintro ⟨hfollow, -⟩
  have hrule := hfollow [] 0 (-1) .na keyWithValue (List.prefix_refl _) rfl
  exact (followsRule_iff rfl (-1) .na).mp hrule rfl trivial

end MyRedis.Analysis
