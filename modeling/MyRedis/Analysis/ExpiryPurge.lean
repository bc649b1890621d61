import MyRedis.Analysis.StoreKeys

/-!
# Purging expired entries

The store never deletes an expired entry.  `purge s now` removes those that `Get` takes
for gone at the time `now`; it is not in the source but says what expiry means.  `Get` and
`Persist` treat an expired entry as gone.  `ExpireAt` does not look at the clock: where
its option allows it, it gives an expired entry a new deadline and so brings the key back.
`Ttl` subtracts before it compares, which for a deadline far enough in the past leaves the
range of `int64_t`.

`purge_transparent_iff` says that these are the only differences: purging before any of
the calls is invisible exactly if every `ExpireAt` that meets an expired entry is refused
by its option and every `Ttl` that meets one stays in range.
-/

set_option autoImplicit false

namespace MyRedis.Analysis

open MyRedis.Model MyRedis.Model.Store

/-! ## Purging -/

/-- The store without the entries that are expired at `now`. -/
def purge (s : Store) (now : Int64) : Store where
  data :=
    { entries := s.data.entries.filter fun e => ¬ e.2.expired now
      nodupKeys := Multiset.nodup_keys.mp (Multiset.nodup_of_le
        (Multiset.map_le_map (Multiset.filter_le _ _)) s.data.nodupKeys.nodup_keys) }

/-- A purge takes out the entries that are expired, and no others.
SOURCE: store.cc:19-94 -/
theorem lookUp_purge (s : Store) (now : Int64) (key : Bytes) :
    (purge s now).lookUp key = (s.lookUp key).filter fun entry => ¬ entry.expired now := by
  apply Option.ext
  intro entry
  rw [Option.filter_eq_some_iff, Store.lookUp, Store.lookUp, ← Option.mem_def, ← Option.mem_def,
    Finmap.mem_lookup_iff, Finmap.mem_lookup_iff, purge, Multiset.mem_filter]
  simp

/-- A call at a clock reading. -/
structure TimedCall where
  now : Int64
  call : Call

/-- What a sequence of calls returns, with a purge before those calls that are marked.  A
call without a defined result is the last one. -/
def purgedResults (s : Store) : List (Bool × TimedCall) → List (Defined Result)
  | [] => []
  | (mark, c) :: cs =>
    match (if mark then purge s c.now else s).call c.now c.call with
    | .ok (r, s) => .ok r :: purgedResults s cs
    | .error u => [.error u]

/-- What a sequence of calls returns. -/
def results (s : Store) : List TimedCall → List (Defined Result)
  | [] => []
  | c :: cs =>
    match s.call c.now c.call with
    | .ok (r, s) => .ok r :: results s cs
    | .error u => [.error u]

/-- The store a sequence of calls leaves, if every call is defined. -/
def after (s : Store) : List TimedCall → Option Store
  | [] => some s
  | c :: cs =>
    match s.call c.now c.call with
    | .ok (_, s) => after s cs
    | .error _ => none

/-- Clock readings do not decrease. -/
def ClockNondecreasing (cs : List TimedCall) : Prop := (cs.map (·.now)).Pairwise (· ≤ ·)

/-- Purging before any of the calls changes no return value. -/
def PurgeTransparent (s : Store) (cs : List TimedCall) : Prop :=
  ∀ marked : List (Bool × TimedCall), marked.map Prod.snd = cs →
    purgedResults s marked = results s cs

/-- Once `Get(key)` has found the deadline of `key` in the past, it finds no value at any
later time, unless `key` is set in between. -/
def StaysGone (s : Store) (cs : List TimedCall) : Prop :=
  ∀ before between now key s₁ entry s₂ later,
    before ++ ⟨now, .get key⟩ :: between <+: cs →
    after s before = some s₁ → s₁.lookUp key = some entry → entry.expired now →
    (∀ c ∈ between, ∀ value, c.call ≠ .set key value) →
    after s₁ (⟨now, .get key⟩ :: between) = some s₂ →
    now ≤ later → s₂.get later key = none

/-- How a call has to meet an expired entry: `ExpireAt` is refused by its option, and
`Ttl` can subtract. -/
def MeetsExpired (now : Int64) (entry : Entry) : Call → Prop
  | .expireAt _ _ .nx => True
  | .expireAt _ timestampMs .gt => timestampMs ≤ entry.expiry
  | .expireAt _ timestampMs .lt => entry.expiry ≤ timestampMs
  | .expireAt _ _ .xx => False
  | .expireAt _ _ .na => False
  | .ttl _ => -2 ^ 63 ≤ entry.expiry.toInt - now.toInt
  | .get _ => True
  | .set _ _ => True
  | .del _ => True
  | .persist _ => True

/-- The condition along a run: every call that meets an expired entry does so as
`MeetsExpired` says. -/
def ExpiredRefused (s : Store) : List TimedCall → Prop
  | [] => True
  | c :: cs =>
    (∀ entry, s.lookUp (key c.call) = some entry → entry.expired c.now →
      MeetsExpired c.now entry c.call) ∧
    ∀ r s', s.call c.now c.call = .ok (r, s') → ExpiredRefused s' cs

/-! ## One call on an expired entry -/

/-- An entry is expired if it has a deadline, and that lies before now.
SOURCE: store.cc:23-24 -/
theorem expired_iff {entry : Entry} {now : Int64} :
    entry.expired now ↔ entry.expiry ≠ noExpiry ∧ entry.expiry.toInt < now.toInt := by
  unfold Entry.expired
  rw [Bool.and_eq_true, bne_iff_ne, decide_eq_true_eq, Int64.lt_iff_toInt_lt]

/-- An entry stays expired.
SOURCE: store.cc:23-24 -/
theorem expired_of_le {entry : Entry} {now later : Int64} (h : entry.expired now)
    (hle : now ≤ later) : entry.expired later := by
  rw [expired_iff] at h ⊢
  rw [Int64.le_iff_toInt_le] at hle
  exact ⟨h.1, by omega⟩

/-- `Ttl` of an expired entry: where it can subtract, it says that there is no key.
SOURCE: store.cc:74-82 -/
theorem callAt_ttl_of_expired {entry : Entry} {now : Int64} (k : Bytes)
    (hexpired : entry.expired now) :
    callAt (some entry) now (.ttl k) =
      if -2 ^ 63 ≤ entry.expiry.toInt - now.toInt then .ok (.ms (-2), some entry)
      else .error .signedOverflow := by
  obtain ⟨hsome, hlt⟩ := expired_iff.mp hexpired
  unfold callAt signed64
  simp only [if_neg hsome]
  by_cases hrange : -2 ^ 63 ≤ entry.expiry.toInt - now.toInt
  · have hneg : Int64.ofInt (entry.expiry.toInt - now.toInt) ≤ 0 := by
      rw [Int64.le_iff_toInt_le, Int64.toInt_ofInt_of_le hrange (by omega)]
      show entry.expiry.toInt - now.toInt ≤ 0
      omega
    rw [if_pos ⟨hrange, by omega⟩, if_pos hrange]
    simp only [Except.map, if_pos hneg]
  · rw [if_neg (fun h => hrange h.1), if_neg hrange]
    rfl

/-- An option refuses a new deadline for an expired entry as `MeetsExpired` says.
SOURCE: store.cc:45-67 -/
theorem refuses_iff_of_expired {entry : Entry} {now timestampMs : Int64} {k : Bytes}
    {option : ExpireOption} (hexpired : entry.expired now) :
    option.refuses entry timestampMs ↔ MeetsExpired now entry (.expireAt k timestampMs option) := by
  have hsome := (expired_iff.mp hexpired).1
  cases option <;> simp [ExpireOption.refuses, MeetsExpired, hsome]

/-- A call that meets an expired entry as it should returns what it returns without the
entry, and writes the entry over or leaves it.
SOURCE: store.cc:19-94 -/
theorem callAt_of_meetsExpired {entry : Entry} {now : Int64} {c : Call}
    (hexpired : entry.expired now) (hmeets : MeetsExpired now entry c) :
    ∃ r found, callAt none now c = .ok (r, found) ∧
      (callAt (some entry) now c = .ok (r, found) ∨
        found = none ∧ callAt (some entry) now c = .ok (r, some entry)) := by
  obtain ⟨hsome, hlt⟩ := expired_iff.mp hexpired
  cases c with
  | get k => exact ⟨_, _, rfl, Or.inr ⟨rfl, by simp [callAt, hexpired]⟩⟩
  | set k value => exact ⟨_, _, rfl, Or.inl rfl⟩
  | del k => exact ⟨_, _, rfl, Or.inl rfl⟩
  | expireAt k timestampMs option =>
    have hrefused := (refuses_iff_of_expired hexpired).mpr hmeets
    exact ⟨_, _, rfl, Or.inr ⟨rfl, by simp [callAt, hrefused]⟩⟩
  | ttl k =>
    refine ⟨_, _, rfl, Or.inr ⟨rfl, ?_⟩⟩
    unfold MeetsExpired at hmeets
    rw [callAt_ttl_of_expired k hexpired, if_pos hmeets]
  | persist k =>
    have hpast : entry.expiry < now := Int64.lt_iff_toInt_lt.mpr hlt
    exact ⟨_, _, rfl, Or.inr ⟨rfl, by simp [callAt, hsome, hpast]⟩⟩

/-- Any other call on an expired entry shows that the entry is there.
SOURCE: store.cc:19-94 -/
theorem meetsExpired_of_callAt_eq {entry : Entry} {now : Int64} {c : Call}
    (hexpired : entry.expired now)
    (h : (callAt none now c).map Prod.fst = (callAt (some entry) now c).map Prod.fst) :
    MeetsExpired now entry c := by
  cases c with
  | get k => trivial
  | set k value => trivial
  | del k => trivial
  | expireAt k timestampMs option =>
    rw [← refuses_iff_of_expired hexpired]
    by_contra hallowed
    simp [callAt, hallowed, Except.map] at h
  | ttl k =>
    by_contra hrange
    unfold MeetsExpired at hrange
    rw [callAt_ttl_of_expired k hexpired, if_neg hrange] at h
    cases h
  | persist k => trivial

/-! ## Runs -/

/-- `s'` is `s` without some of the entries that are expired at `now`. -/
def Purged (now : Int64) (s' s : Store) : Prop :=
  ∀ k, s'.lookUp k = s.lookUp k ∨
    s'.lookUp k = none ∧ ∃ entry, s.lookUp k = some entry ∧ entry.expired now

/-- Nothing has been purged.
SOURCE: store.cc:19-94 -/
theorem Purged.refl (now : Int64) (s : Store) : Purged now s s := fun _ => Or.inl rfl

/-- What was expired is expired later.
SOURCE: store.cc:19-94 -/
theorem Purged.of_le {now later : Int64} {s' s : Store} (h : Purged now s' s)
    (hle : now ≤ later) : Purged later s' s := by
  intro k
  obtain heq | ⟨hnone, entry, hfound, hexpired⟩ := h k
  · exact Or.inl heq
  · exact Or.inr ⟨hnone, entry, hfound, expired_of_le hexpired hle⟩

/-- Purging once more.
SOURCE: store.cc:19-94 -/
theorem Purged.purge_left {now : Int64} {s' s : Store} (h : Purged now s' s) :
    Purged now (purge s' now) s := by
  intro k
  rw [lookUp_purge]
  obtain heq | ⟨hnone, hexpired⟩ := h k
  · rw [heq]
    cases hfound : s.lookUp k with
    | none => exact Or.inl rfl
    | some entry =>
      by_cases hexpired : entry.expired now
      · exact Or.inr ⟨by simp [hexpired], entry, rfl, hexpired⟩
      · exact Or.inl (by simp [hexpired])
  · exact Or.inr ⟨by rw [hnone]; rfl, hexpired⟩

/-- Writing the same entry on both sides, or leaving an expired one only in `s`.
SOURCE: store.cc:19-94 -/
theorem Purged.put_both {now : Int64} {s' s : Store} (h : Purged now s' s) (k : Bytes)
    {found' found : Option Entry}
    (hfound : found' = found ∨ found' = none ∧ ∃ entry, found = some entry ∧ entry.expired now) :
    Purged now (put s' k found') (put s k found) := by
  intro k'
  rw [lookUp_put, lookUp_put]
  split_ifs with hk
  · exact hfound
  · exact h k'

/-- **One call.**  If a call meets expired entries as it should, it returns the same on
both sides and keeps the relation.
SOURCE: store.cc:19-94 -/
theorem Purged.call {now : Int64} {s' s : Store} {c : Call} (h : Purged now s' s)
    (hmeets : ∀ entry, s.lookUp (key c) = some entry → entry.expired now →
      MeetsExpired now entry c) :
    (∃ r t' t, s'.call now c = .ok (r, t') ∧ s.call now c = .ok (r, t) ∧ Purged now t' t) ∨
      ∃ u, s'.call now c = .error u ∧ s.call now c = .error u := by
  rw [call_eq, call_eq]
  obtain heq | ⟨hnone, entry, hfound, hexpired⟩ := h (key c)
  · rw [heq]
    cases callAt (s.lookUp (key c)) now c with
    | error u => exact Or.inr ⟨u, rfl, rfl⟩
    | ok r => exact Or.inl ⟨r.1, _, _, rfl, rfl, h.put_both _ (Or.inl rfl)⟩
  · obtain ⟨r, found, hgone, hstill⟩ :=
      callAt_of_meetsExpired hexpired (hmeets entry hfound hexpired)
    rw [hnone, hfound, hgone]
    obtain hsame | ⟨rfl, hleft⟩ := hstill
    · rw [hsame]
      exact Or.inl ⟨r, _, _, rfl, rfl, h.put_both _ (Or.inl rfl)⟩
    · rw [hleft]
      exact Or.inl ⟨r, _, _, rfl, rfl, h.put_both _ (Or.inr ⟨rfl, entry, rfl, hexpired⟩)⟩

/-- **A whole run**, with purges on the side of `s'`.
SOURCE: store.cc:19-94 -/
theorem Purged.results_eq {now : Int64} {s' s : Store} (marked : List (Bool × TimedCall))
    (h : Purged now s' s) (hclock : ClockNondecreasing (marked.map Prod.snd))
    (hnow : ∀ c ∈ marked.map Prod.snd, now ≤ c.now)
    (hrefused : ExpiredRefused s (marked.map Prod.snd)) :
    purgedResults s' marked = results s (marked.map Prod.snd) := by
  induction marked generalizing now s' s with
  | nil => rfl
  | cons first marked ih =>
    obtain ⟨mark, c⟩ := first
    rw [List.map_cons] at hclock hnow hrefused
    have hnow' : Purged c.now s' s := h.of_le (hnow c List.mem_cons_self)
    have hmarked : Purged c.now (if mark then purge s' c.now else s') s := by
      split_ifs
      · exact hnow'.purge_left
      · exact hnow'
    obtain ⟨hmeets, hlater⟩ := hrefused
    rw [purgedResults, List.map_cons, results]
    obtain ⟨r, t', t, hcall', hcall, hnext⟩ | ⟨u, hcall', hcall⟩ := hmarked.call hmeets
    · rw [hcall', hcall]
      have hsorted := List.pairwise_cons.mp hclock
      exact congrArg _ (ih hnext hsorted.2
        (fun d hd => hsorted.1 _ (List.mem_map_of_mem hd)) (hlater r t hcall))
    · rw [hcall', hcall]

/-- The first result of a run with purges.
SOURCE: store.cc:19-94 -/
theorem head?_purgedResults (s : Store) (mark : Bool) (c : TimedCall)
    (marked : List (Bool × TimedCall)) :
    (purgedResults s ((mark, c) :: marked)).head? =
      some (((if mark then purge s c.now else s).call c.now c.call).map Prod.fst) := by
  rw [purgedResults]
  split
  all_goals next hcall => rw [hcall]; rfl

/-- The first result of a run without.
SOURCE: store.cc:19-94 -/
theorem head?_results (s : Store) (c : TimedCall) (cs : List TimedCall) :
    (results s (c :: cs)).head? = some ((s.call c.now c.call).map Prod.fst) := by
  rw [results]
  split
  all_goals next hcall => rw [hcall]; rfl

/-- If purges are invisible, every call meets expired entries as it should: a purge right
before the first call that does not would show.
SOURCE: store.cc:19-94 -/
theorem expiredRefused_of_purgeTransparent {s : Store} {cs : List TimedCall}
    (h : PurgeTransparent s cs) : ExpiredRefused s cs := by
  induction cs generalizing s with
  | nil => trivial
  | cons c cs ih =>
    refine ⟨fun entry hfound hexpired => ?_, fun r s' hcall => ih fun marked hmarked => ?_⟩
    · have hlists := h ((true, c) :: cs.map fun d => (false, d)) (by simp [Function.comp_def])
      have hheads := congrArg List.head? hlists
      have hpurged : (purge s c.now).lookUp (key c.call) = none := by
        rw [lookUp_purge, hfound]
        simp [hexpired]
      rw [head?_purgedResults, head?_results, Option.some.injEq, if_pos rfl, call_eq, call_eq,
        hpurged, hfound] at hheads
      apply meetsExpired_of_callAt_eq hexpired
      revert hheads
      cases callAt none c.now c.call <;> cases callAt (some entry) c.now c.call <;>
        simp [Except.map]
    · have hlists := h ((false, c) :: marked) (by simp [hmarked])
      rw [purgedResults, results] at hlists
      simpa only [Bool.false_eq_true, if_false, hcall, List.cons.injEq, true_and] using hlists

/-! ## No resurrection -/

/-- A run that meets expired entries as it should does so in both its parts.
SOURCE: store.cc:19-94 -/
theorem expiredRefused_append {s : Store} {cs ds : List TimedCall}
    (h : ExpiredRefused s (cs ++ ds)) :
    ExpiredRefused s cs ∧ ∀ s', after s cs = some s' → ExpiredRefused s' ds := by
  induction cs generalizing s with
  | nil =>
    refine ⟨trivial, ?_⟩
    rintro s' ⟨⟩
    exact h
  | cons c cs ih =>
    obtain ⟨hmeets, hlater⟩ := h
    refine ⟨⟨hmeets, fun r s' hcall => (ih (hlater r s' hcall)).1⟩, fun s' hafter => ?_⟩
    rw [after] at hafter
    split at hafter
    · next r t hcall => exact (ih (hlater r t hcall)).2 s' hafter
    · cases hafter

/-- Only `Set` puts an entry where there is none.
SOURCE: store.cc:19-94 -/
theorem callAt_none_found {now : Int64} {c : Call} {r : Result} {found : Option Entry}
    (hset : ∀ value, c ≠ .set (key c) value) (h : callAt none now c = .ok (r, found)) :
    found = none := by
  cases c with
  | set k value => exact absurd rfl (hset value)
  | get k => cases h; rfl
  | del k => cases h; rfl
  | expireAt k timestampMs option => cases h; rfl
  | ttl k => cases h; rfl
  | persist k => cases h; rfl

/-- A key without an entry, or with one that is expired at `now`, stays so when a call
meets expired entries as it should and does not set the key.
SOURCE: store.cc:19-94 -/
theorem gone_call {s t : Store} {now later : Int64} {k : Bytes} {c : Call} {r : Result}
    (hgone : ∀ entry, s.lookUp k = some entry → entry.expired now) (hle : now ≤ later)
    (hmeets : ∀ entry, s.lookUp (key c) = some entry → entry.expired later →
      MeetsExpired later entry c)
    (hset : ∀ value, c ≠ .set k value) (hcall : s.call later c = .ok (r, t)) :
    ∀ entry, t.lookUp k = some entry → entry.expired now := by
  rw [call_eq] at hcall
  obtain ⟨⟨r', found⟩, hat, hpair⟩ := map_eq_ok.mp hcall
  cases hpair
  intro entry hentry
  rw [lookUp_put] at hentry
  split_ifs at hentry with hk
  · subst hk
    cases hfound : s.lookUp (key c) with
    | none =>
      rw [hfound] at hat
      rw [callAt_none_found hset hat] at hentry
      cases hentry
    | some old =>
      have hold := hgone old hfound
      have hexpired := expired_of_le hold hle
      rw [hfound] at hat
      obtain ⟨r'', found', hnone, hstill⟩ :=
        callAt_of_meetsExpired hexpired (hmeets old hfound hexpired)
      have hempty := callAt_none_found hset hnone
      obtain hsame | ⟨-, hleft⟩ := hstill
      · cases hat.symm.trans hsame
        rw [hempty] at hentry
        cases hentry
      · cases hat.symm.trans hleft
        cases hentry
        exact hold
  · exact hgone entry hentry

/-- A key that is gone stays so along a run that does not set it.
SOURCE: store.cc:19-94 -/
theorem gone_after {s s' : Store} {now : Int64} {k : Bytes} {cs : List TimedCall}
    (hgone : ∀ entry, s.lookUp k = some entry → entry.expired now)
    (hnow : ∀ c ∈ cs, now ≤ c.now) (hrefused : ExpiredRefused s cs)
    (hset : ∀ c ∈ cs, ∀ value, c.call ≠ .set k value) (hafter : after s cs = some s') :
    ∀ entry, s'.lookUp k = some entry → entry.expired now := by
  induction cs generalizing s with
  | nil =>
    cases hafter
    exact hgone
  | cons c cs ih =>
    obtain ⟨hmeets, hlater⟩ := hrefused
    rw [after] at hafter
    split at hafter
    · next r t hcall =>
      have hnext := gone_call hgone (hnow c List.mem_cons_self) hmeets
        (hset c List.mem_cons_self) hcall
      exact ih hnext (fun d hd => hnow d (List.mem_cons_of_mem _ hd)) (hlater r t hcall)
        (fun d hd => hset d (List.mem_cons_of_mem _ hd)) hafter
    · cases hafter

/-- A key that is gone stays gone until it is set, whichever part of the run is looked at.
SOURCE: store.cc:19-94 -/
theorem staysGone_of_expiredRefused {s : Store} {cs : List TimedCall}
    (hclock : ClockNondecreasing cs) (h : ExpiredRefused s cs) : StaysGone s cs := by
  intro before between now k s₁ entry s₂ later hprefix hbefore hentry hexpired hset hafter hle
  obtain ⟨behind, rfl⟩ := hprefix
  have hfrom := (expiredRefused_append (expiredRefused_append h).1).2 s₁ hbefore
  have hsorted : ∀ c ∈ between, now ≤ c.now := by
    unfold ClockNondecreasing at hclock
    rw [List.map_append, List.map_append, List.map_cons, List.pairwise_append] at hclock
    have hget := (List.pairwise_append.mp hclock.1).2.1
    intro c hc
    exact (List.pairwise_cons.mp hget).1 _ (List.mem_map_of_mem hc)
  have hgone : ∀ e, s₁.lookUp k = some e → e.expired now := by
    rintro e he
    cases he.symm.trans hentry
    exact hexpired
  have hlast := gone_after hgone
    (fun c hc => (List.mem_cons.mp hc).elim (fun heq => by rw [heq]; exact Int64.le_refl now)
      (hsorted c)) hfrom
    (fun c hc value => (List.mem_cons.mp hc).elim (fun heq => by rw [heq]; simp)
      (fun hc => hset c hc value)) hafter
  unfold Store.get
  cases hfound : s₂.lookUp k with
  | none => rfl
  | some e => simp [expired_of_le (hlast e hfound) hle]

/-- **Expiry and purging.**  Purging before any of the calls changes no return value
exactly if, along the run, every `ExpireAt` that meets an expired entry is refused by its
option (`NX`; `GT` with no later timestamp; `LT` with no earlier one) and no `Ttl` that
meets one leaves the range of `int64_t`.  Then no expired key comes back either.
SOURCE: store.cc:19-94 -/
theorem purge_transparent_iff (s : Store) (cs : List TimedCall)
    (hclock : ClockNondecreasing cs) :
    (PurgeTransparent s cs ↔ ExpiredRefused s cs) ∧ (ExpiredRefused s cs → StaysGone s cs) := by
  refine ⟨⟨expiredRefused_of_purgeTransparent, fun h => ?_⟩, staysGone_of_expiredRefused hclock⟩
  rintro marked rfl
  cases marked with
  | nil => rfl
  | cons first marked =>
    refine Purged.results_eq (first :: marked) (Purged.refl first.2.now s) hclock ?_ h
    intro c hc
    rcases List.mem_cons.mp hc with rfl | hc
    · exact Int64.le_refl _
    · exact (List.pairwise_cons.mp hclock).1 _ (List.mem_map_of_mem hc)

/-- A key that expires at 10 and gets a new deadline at 20. -/
def expireTwice : List TimedCall :=
  [⟨0, .set (ascii "k") (some (ascii "v"))⟩, ⟨0, .expireAt (ascii "k") 10 .na⟩,
    ⟨20, .get (ascii "k")⟩, ⟨20, .expireAt (ascii "k") 100 .na⟩, ⟨20, .get (ascii "k")⟩]

/-- The calls of a key that gets two deadlines.
SOURCE: store.cc:19-94 -/
theorem purge_transparent_iff_expireTwice :
    (PurgeTransparent Store.empty expireTwice ↔ ExpiredRefused Store.empty expireTwice) ∧
      (ExpiredRefused Store.empty expireTwice → StaysGone Store.empty expireTwice) :=
  purge_transparent_iff Store.empty expireTwice (by unfold ClockNondecreasing; decide)

/-- **An expired key comes back.**  At 20 the key is gone, `ExpireAt` finds it all the
same, and its old value is there again; with a purge before that call it is not.
SOURCE: store.cc:39-72 -/
theorem expireAt_resurrects :
    results Store.empty expireTwice =
        [.ok .void, .ok (.bool true), .ok (.value none), .ok (.bool true),
          .ok (.value (some (ascii "v")))] ∧
      purgedResults Store.empty (expireTwice.map fun c => (decide (c.now = 20), c)) =
        [.ok .void, .ok (.bool true), .ok (.value none), .ok (.bool false),
          .ok (.value none)] := by
  decide

end MyRedis.Analysis
