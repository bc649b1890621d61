import Mathlib.Data.List.Nodup
import Mathlib.Data.Set.Card
import Mathlib.Logic.Function.Basic

/-!
# Finite maps, by their history

What a map answers is fixed by the operations before: the value under `k` is that of the last
insertion under `k` that no removal of `k` follows (`lastInsert`).  A table implements a map
when a relation between tables and maps is kept by every operation and makes its result the
right one; then every sequence of operations is answered as the history says
(`runMap_refines`).  Operations may be guarded: then the conclusion is about the sequences
whose operations all meet the guard.
-/

set_option autoImplicit false

namespace MyRedis.Lib

variable {K V T ε : Type}

/-- An operation on a map. -/
inductive MapOp (K V : Type) where
  | insert (key : K) (value : V)
  | remove (key : K)
  | lookUp (key : K)
  | forEach

/-- What an operation returns: nothing, a value if there is one, or the entries visited. -/
inductive MapResult (K V : Type) where
  | void
  | value (value : Option V)
  | visited (entries : List (K × V))
  deriving DecidableEq

/-! ## Listing a map -/

/-- The entries are those of the map, each key once. -/
def Lists (m : K → Option V) (entries : List (K × V)) : Prop :=
  (entries.map Prod.fst).Nodup ∧ ∀ k v, (k, v) ∈ entries ↔ m k = some v

namespace Lists

variable {m : K → Option V} {entries entries' : List (K × V)} {k : K} {v : V}

/-- Nothing is listed for a map without keys. -/
theorem nil : Lists (fun _ => none : K → Option V) [] :=
  ⟨List.nodup_nil, fun _ v => iff_of_false List.not_mem_nil (Option.some_ne_none v).symm⟩

/-- The order of the entries does not matter. -/
theorem perm (h : Lists m entries) (hperm : entries.Perm entries') : Lists m entries' := by
  refine ⟨(hperm.map Prod.fst).nodup_iff.mp h.1, ?_⟩
  intro k v
  rw [← hperm.mem_iff]
  exact h.2 k v

/-- Two maps with the same entries are equal. -/
theorem unique {m' : K → Option V} (h : Lists m entries) (h' : Lists m' entries) : m = m' := by
  funext k
  apply Option.ext
  intro v
  rw [← h.2, ← h'.2]

/-- The keys that are listed are those of the map. -/
theorem mem_keys (h : Lists m entries) : k ∈ entries.map Prod.fst ↔ (m k).isSome := by
  rw [Option.isSome_iff_exists, List.mem_map]
  constructor
  · rintro ⟨⟨k', v⟩, hmem, rfl⟩
    exact ⟨v, (h.2 k' v).mp hmem⟩
  · rintro ⟨v, hv⟩
    exact ⟨(k, v), (h.2 k v).mpr hv, rfl⟩

/-- Where two maps agree on some keys, the entries of these keys may stand in a list of the one
as in a list of the other. -/
theorem splice {m' : K → Option V} (h : Lists m entries) (h' : Lists m' entries') (p : K → Bool)
    (hagree : ∀ k, p k = true → m k = m' k) :
    Lists m' (entries.filter (fun entry => p entry.1) ++
      entries'.filter (fun entry => !p entry.1)) := by
  have hmem (k : K) (v : V) : (k, v) ∈ entries.filter (fun entry => p entry.1) ++
      entries'.filter (fun entry => !p entry.1) ↔ m' k = some v := by
    rw [List.mem_append, List.mem_filter, List.mem_filter, h.2, h'.2]
    cases hp : p k with
    | true => simp [hagree k hp]
    | false => simp
  refine ⟨?_, hmem⟩
  rw [List.map_append, List.nodup_append']
  refine ⟨h.1.sublist (List.filter_sublist.map _), h'.1.sublist (List.filter_sublist.map _), ?_⟩
  intro k hk hk'
  obtain ⟨entry, hentry, rfl⟩ := List.mem_map.mp hk
  obtain ⟨entry', hentry', hkey⟩ := List.mem_map.mp hk'
  have htrue : p entry.1 = true := (List.mem_filter.mp hentry).2
  have hfalse : (!p entry'.1) = true := (List.mem_filter.mp hentry').2
  rw [hkey, htrue] at hfalse
  cases hfalse

/-- A list of the entries of a map is as long as the map has keys. -/
theorem length_eq (h : Lists m entries) : entries.length = {k | (m k).isSome}.ncard := by
  classical
  have hset : {k | (m k).isSome} = ((entries.map Prod.fst).toFinset : Set K) := by
    ext k
    rw [List.coe_toFinset]
    exact h.mem_keys.symm
  rw [hset, Set.ncard_coe_finset, List.toFinset_card_of_nodup h.1, List.length_map]

variable [DecidableEq K]

/-- A new key is one more entry. -/
theorem cons (h : Lists m entries) (hk : m k = none) (v : V) :
    Lists (Function.update m k (some v)) ((k, v) :: entries) := by
  have habsent : k ∉ entries.map Prod.fst := by
    rw [h.mem_keys, hk]
    exact Bool.false_ne_true
  refine ⟨List.nodup_cons.mpr ⟨habsent, h.1⟩, ?_⟩
  intro k' v'
  rw [List.mem_cons, h.2]
  by_cases hk' : k' = k
  · subst hk'
    rw [Function.update_self, hk]
    simp [eq_comm]
  · rw [Function.update_of_ne hk']
    simp [hk']

/-- A key that is removed is one entry less. -/
theorem tail (h : Lists m ((k, v) :: entries)) : Lists (Function.update m k none) entries := by
  obtain ⟨hk, hnodup⟩ := List.nodup_cons.mp h.1
  refine ⟨hnodup, ?_⟩
  intro k' v'
  by_cases hk' : k' = k
  · subst hk'
    rw [Function.update_self]
    refine iff_of_false ?_ (Option.some_ne_none v').symm
    intro hmem
    exact hk (List.mem_map.mpr ⟨_, hmem, rfl⟩)
  · rw [Function.update_of_ne hk', ← h.2, List.mem_cons]
    simp [hk']

/-- A key with a new value keeps its place. -/
theorem overwrite (h : Lists m ((k, v) :: entries)) (v' : V) :
    Lists (Function.update m k (some v')) ((k, v') :: entries) := by
  have hlists := h.tail.cons (Function.update_self k none m) v'
  rw [Function.update_idem] at hlists
  exact hlists

end Lists

/-! ## Histories -/

section Spec

variable [DecidableEq K]

/-- The value under `k` after a history, newest operation first. -/
def valueAfter (k : K) : List (MapOp K V) → Option V
  | [] => none
  | .insert key value :: older => if key = k then some value else valueAfter k older
  | .remove key :: older => if key = k then none else valueAfter k older
  | .lookUp _ :: older => valueAfter k older
  | .forEach :: older => valueAfter k older

/-- The value of the last insertion under `k` that no removal of `k` follows, in a history with
the oldest operation first. -/
def lastInsert (history : List (MapOp K V)) (k : K) : Option V := valueAfter k history.reverse

/-- What an operation makes of a map. -/
def effect (m : K → Option V) : MapOp K V → K → Option V
  | .insert key value => Function.update m key (some value)
  | .remove key => Function.update m key none
  | .lookUp _ => m
  | .forEach => m

/-- One more operation does to the map what it does. -/
theorem lastInsert_append (history : List (MapOp K V)) (op : MapOp K V) :
    lastInsert (history ++ [op]) = effect (lastInsert history) op := by
  funext k
  rw [lastInsert, List.reverse_append, List.reverse_singleton, List.singleton_append]
  cases op with
  | insert key value =>
    rw [valueAfter, effect]
    by_cases h : key = k
    · rw [if_pos h, h, Function.update_self]
    · rw [if_neg h, Function.update_of_ne (Ne.symm h)]
      rfl
  | remove key =>
    rw [valueAfter, effect]
    by_cases h : key = k
    · rw [if_pos h, h, Function.update_self]
    · rw [if_neg h, Function.update_of_ne (Ne.symm h)]
      rfl
  | lookUp key => rfl
  | forEach => rfl

/-- The result of an operation is that of the map. -/
def ResultOk (m : K → Option V) : MapOp K V → MapResult K V → Prop
  | .insert _ _, .void => True
  | .remove _, .void => True
  | .lookUp key, .value value => value = m key
  | .forEach, .visited entries => Lists m entries
  | _, _ => False

/-- The results of a sequence of operations, after a history, are what the history says. -/
def ResultsOk : List (MapOp K V) → List (MapOp K V) → List (MapResult K V) → Prop
  | _, [], [] => True
  | history, op :: ops, result :: results =>
    ResultOk (lastInsert history) op result ∧ ResultsOk (history ++ [op]) ops results
  | _, _, _ => False

end Spec

/-! ## Tables -/

variable (step : T → MapOp K V → Except ε (MapResult K V × T))

/-- A sequence of operations on a table: the results and the table it leaves. -/
def runMap : T → List (MapOp K V) → Except ε (List (MapResult K V) × T)
  | t, [] => .ok ([], t)
  | t, op :: ops =>
    match step t op with
    | .error e => .error e
    | .ok (result, t') => (runMap t' ops).map fun r => (result :: r.1, r.2)

/-- Every operation meets the guard in the table it is applied to. -/
def Guarded (guard : T → MapOp K V → Prop) : T → List (MapOp K V) → Prop
  | _, [] => True
  | t, op :: ops => guard t op ∧ ∀ result t', step t op = .ok (result, t') → Guarded guard t' ops

/-- Without a condition every sequence of operations is allowed. -/
theorem guarded_true (t : T) (ops : List (MapOp K V)) : Guarded step (fun _ _ => True) t ops := by
  induction ops generalizing t with
  | nil => trivial
  | cons op ops ih => exact ⟨trivial, fun _ t' _ => ih t'⟩

/-- What every operation keeps, a sequence of them keeps. -/
theorem runMap_keeps {I : T → Prop}
    (hstep : ∀ t op result t', I t → step t op = .ok (result, t') → I t') {t t' : T}
    {ops : List (MapOp K V)} {results : List (MapResult K V)} (hI : I t)
    (hrun : runMap step t ops = .ok (results, t')) : I t' := by
  induction ops generalizing t results with
  | nil =>
    cases hrun
    exact hI
  | cons op ops ih =>
    rw [runMap] at hrun
    cases hop : step t op with
    | error e =>
      rw [hop] at hrun
      cases hrun
    | ok r =>
      obtain ⟨result, t₁⟩ := r
      rw [hop] at hrun
      cases hrest : runMap step t₁ ops with
      | error e =>
        simp only [hrest, Except.map] at hrun
        cases hrun
      | ok r =>
        simp only [hrest, Except.map] at hrun
        cases hrun
        exact ih (hstep t op result t₁ hI hop) hrest

/-- A sequence of operations goes through if each one does that meets the guard. -/
theorem runMap_defined {guard : T → MapOp K V → Prop} {I : T → Prop}
    (hstep : ∀ t op, I t → guard t op → ∃ result t', step t op = .ok (result, t') ∧ I t') {t : T}
    {ops : List (MapOp K V)} (hI : I t) (hguard : Guarded step guard t ops) :
    ∃ results t', runMap step t ops = .ok (results, t') := by
  induction ops generalizing t with
  | nil => exact ⟨[], t, rfl⟩
  | cons op ops ih =>
    obtain ⟨hop, hrest⟩ := hguard
    obtain ⟨result, t₁, hrun, hI₁⟩ := hstep t op hI hop
    obtain ⟨results, t₂, hruns⟩ := ih hI₁ (hrest result t₁ hrun)
    refine ⟨result :: results, t₂, ?_⟩
    simp only [runMap, hrun, hruns, Except.map]

variable [DecidableEq K]

/-- **A table that implements a map answers every sequence of operations as its history says.** -/
theorem runMap_refines {guard : T → MapOp K V → Prop} {R : T → (K → Option V) → Prop}
    (hstep : ∀ t m op, R t m → guard t op →
      ∃ result t', step t op = .ok (result, t') ∧ ResultOk m op result ∧ R t' (effect m op))
    {t : T} {history ops : List (MapOp K V)} (hR : R t (lastInsert history))
    (hguard : Guarded step guard t ops) :
    ∃ results t', runMap step t ops = .ok (results, t') ∧ ResultsOk history ops results ∧
      R t' (lastInsert (history ++ ops)) := by
  induction ops generalizing t history with
  | nil =>
    refine ⟨[], t, rfl, trivial, ?_⟩
    rw [List.append_nil]
    exact hR
  | cons op ops ih =>
    obtain ⟨hop, hrest⟩ := hguard
    obtain ⟨result, t₁, hrun, hresult, hR₁⟩ := hstep t (lastInsert history) op hR hop
    rw [← lastInsert_append] at hR₁
    obtain ⟨results, t₂, hruns, hresults, hR₂⟩ := ih hR₁ (hrest result t₁ hrun)
    refine ⟨result :: results, t₂, ?_, ⟨hresult, hresults⟩, ?_⟩
    · simp only [runMap, hrun, hruns, Except.map]
    · rw [List.append_assoc] at hR₂
      exact hR₂

end MyRedis.Lib
