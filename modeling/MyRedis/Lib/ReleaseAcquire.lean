import Mathlib.Data.Fintype.Basic
import Mathlib.Logic.Function.Basic

/-!
# Threads that synchronise by release and acquire

Each thread has one atomic variable, which it alone stores to and all load; the other memory is
cells, which are not atomic.  A thread has a view: how many of the stores and of the accesses to
cells happen before its next step.  A store with release order carries the view of the thread; a
load with acquire order adds the view of the store it reads.  A load may read any store that is
not older than one the thread knows of.  Two accesses to a cell by different threads race if
neither happens before the other, and with a race the behaviour is undefined (`raced`).

`Synced` is the invariant of variables that count: whoever knows of the `k`-th store of a thread
knows of the accesses that the thread had to make before it (`progress`).
-/

set_option autoImplicit false

namespace MyRedis.Lib

/-- What happens before the next step of a thread: this many stores to each variable, and this many
accesses to each cell by each thread. -/
structure ThreadView (Thread Cell : Type) where
  stores : Thread → ℕ
  accesses : Cell → Thread → ℕ

/-- What happens before either. -/
def ThreadView.join {Thread Cell : Type} (v w : ThreadView Thread Cell) : ThreadView Thread Cell :=
  ⟨fun j => max (v.stores j) (w.stores j), fun x j => max (v.accesses x j) (w.accesses x j)⟩

/-- The variables with all that was stored to them, each value with the view it carries; the cells,
and how often each thread has accessed them. -/
structure WeakMemory (Thread Cell Val Content : Type) where
  messages : Thread → List (Val × ThreadView Thread Cell)
  cells : Cell → Content
  accesses : Cell → Thread → ℕ
  views : Thread → ThreadView Thread Cell
  raced : Bool

namespace WeakMemory

variable {Thread Cell Val Content : Type} [DecidableEq Thread]

/-- All variables and cells have been initialised, before any thread runs. -/
def start (v₀ : Val) (c₀ : Content) : WeakMemory Thread Cell Val Content where
  messages _ := [(v₀, ⟨fun _ => 0, fun _ _ => 0⟩)]
  cells _ := c₀
  accesses _ _ := 0
  views _ := ⟨fun _ => 0, fun _ _ => 0⟩
  raced := false

/-- The view of a thread that has read the `k`-th store to a variable. -/
def readView (view : ThreadView Thread Cell) (j : Thread) (k : ℕ) : ThreadView Thread Cell :=
  { view with stores := Function.update view.stores j k }

/-- A relaxed load of the variable of thread `j` by thread `i`, which reads the `k`-th store. -/
def loadRelaxed (m : WeakMemory Thread Cell Val Content) (i j : Thread) (k : ℕ) :
    Option (Val × WeakMemory Thread Cell Val Content) :=
  if (m.views i).stores j ≤ k then
    (m.messages j)[k]?.map fun message =>
      (message.1, { m with views := Function.update m.views i (readView (m.views i) j k) })
  else none

/-- An acquire load. -/
def loadAcquire (m : WeakMemory Thread Cell Val Content) (i j : Thread) (k : ℕ) :
    Option (Val × WeakMemory Thread Cell Val Content) :=
  if (m.views i).stores j ≤ k then
    (m.messages j)[k]?.map fun message =>
      (message.1, { m with
        views := Function.update m.views i ((readView (m.views i) j k).join message.2) })
  else none

/-- A release store of thread `i` to its variable. -/
def storeRelease (m : WeakMemory Thread Cell Val Content) (i : Thread) (v : Val) :
    WeakMemory Thread Cell Val Content :=
  let view := readView (m.views i) i (m.messages i).length
  { m with
    messages := Function.update m.messages i (m.messages i ++ [(v, view)])
    views := Function.update m.views i view }

variable [DecidableEq Cell]

/-- One access more to a cell. -/
def countAccess (accesses : Cell → Thread → ℕ) (x : Cell) (i : Thread) : Cell → Thread → ℕ :=
  Function.update accesses x (Function.update (accesses x) i (accesses x i + 1))

/-- Thread `i` accesses a cell and leaves this content in it. -/
def access [Fintype Thread] (m : WeakMemory Thread Cell Val Content) (i : Thread) (x : Cell)
    (content : Content) : WeakMemory Thread Cell Val Content :=
  { m with
    cells := Function.update m.cells x content
    accesses := countAccess m.accesses x i
    views := Function.update m.views i
      { m.views i with accesses := countAccess (m.views i).accesses x i }
    raced := m.raced || decide (∃ j, j ≠ i ∧ (m.views i).accesses x j < m.accesses x j) }

end WeakMemory

/-! ## Variables that count -/

section Synced

variable {Thread Cell Val Content : Type}

/-- Who knows of the `k`-th store of a thread knows of the accesses it made before. -/
def Consistent (progress : Thread → ℕ → Cell → ℕ) (view : ThreadView Thread Cell) : Prop :=
  ∀ j x, progress j (view.stores j) x ≤ view.accesses x j

/-- The `k`-th store of thread `i` is `value i k`, and the accesses `progress i k` happen before. -/
structure Synced (value : Thread → ℕ → Val) (progress : Thread → ℕ → Cell → ℕ)
    (m : WeakMemory Thread Cell Val Content) : Prop where
  own : ∀ i, (m.messages i).length = (m.views i).stores i + 1
  known : ∀ i, Consistent progress (m.views i)
  behind : ∀ i j, (m.views i).stores j < (m.messages j).length
  messages : ∀ i k message, (m.messages i)[k]? = some message → message.1 = value i k ∧
    message.2.stores i = k ∧ Consistent progress message.2 ∧
    ∀ j, message.2.stores j < (m.messages j).length
  accesses : ∀ i x, m.accesses x i ≤ (m.views i).accesses x i

variable {value : Thread → ℕ → Val} {progress : Thread → ℕ → Cell → ℕ}
  {m m' : WeakMemory Thread Cell Val Content} {i j : Thread} {k : ℕ} {v : Val}

/-- What is known from two consistent views is consistent. -/
theorem Consistent.join {view view' : ThreadView Thread Cell} (h : Consistent progress view)
    (h' : Consistent progress view') : Consistent progress (view.join view') := by
  intro j x
  have hj := h j x
  have hj' := h' j x
  show progress j (max _ _) x ≤ max _ _
  obtain hle | hle := Nat.le_total (view.stores j) (view'.stores j)
  · rw [max_eq_right hle]
    omega
  · rw [max_eq_left hle]
    omega

/-- Nobody knows of more stores of a thread than the thread itself. -/
theorem Synced.le_own (h : Synced value progress m) (i j : Thread) :
    (m.views i).stores j ≤ (m.views j).stores j := by
  have hbehind := h.behind i j
  rw [h.own j] at hbehind
  omega

variable [DecidableEq Thread]

/-- To read the newest store one knows of teaches nothing new. -/
theorem readView_self (view : ThreadView Thread Cell) (j : Thread) :
    WeakMemory.readView view j (view.stores j) = view := by
  rw [WeakMemory.readView, Function.update_eq_self]

/-- **A thread that loads its own variable** reads what it stored last. -/
theorem Synced.loadRelaxed (h : Synced value progress m)
    (hload : m.loadRelaxed i i k = some (v, m')) : v = value i ((m.views i).stores i) ∧ m' = m := by
  rw [WeakMemory.loadRelaxed] at hload
  split_ifs at hload with hle
  obtain ⟨message, hmessage, heq⟩ := Option.map_eq_some_iff.mp hload
  cases heq
  have hlt := (List.getElem?_eq_some_iff.mp hmessage).1
  have hown := h.own i
  obtain rfl : k = (m.views i).stores i := by omega
  refine ⟨(h.messages i _ message hmessage).1, ?_⟩
  rw [readView_self, Function.update_eq_self]

/-- A thread learns something. -/
theorem Synced.setView (h : Synced value progress m) (view : ThreadView Thread Cell)
    (hown : view.stores i = (m.views i).stores i) (hconsistent : Consistent progress view)
    (hbehind : ∀ j, view.stores j < (m.messages j).length)
    (haccesses : ∀ x, m.accesses x i ≤ view.accesses x i) :
    Synced value progress { m with views := Function.update m.views i view } := by
  refine ⟨?_, ?_, ?_, h.messages, ?_⟩
  · intro i'
    by_cases hi : i' = i
    · subst hi
      simp only [Function.update_self, hown]
      exact h.own i'
    · simp only [Function.update_of_ne hi]
      exact h.own i'
  · intro i'
    by_cases hi : i' = i
    · subst hi
      simp only [Function.update_self]
      exact hconsistent
    · simp only [Function.update_of_ne hi]
      exact h.known i'
  · intro i' j
    by_cases hi : i' = i
    · subst hi
      simp only [Function.update_self]
      exact hbehind j
    · simp only [Function.update_of_ne hi]
      exact h.behind i' j
  · intro i' x
    by_cases hi : i' = i
    · subst hi
      simp only [Function.update_self]
      exact haccesses x
    · simp only [Function.update_of_ne hi]
      exact h.accesses i' x

/-- What a thread has after an acquire load of the `k`-th store of thread `j`. -/
structure Acquired (m m' : WeakMemory Thread Cell Val Content) (i j : Thread) (k : ℕ) : Prop where
  least : (m.views i).stores j ≤ k
  most : k ≤ (m.views j).stores j
  stores : (m'.views i).stores j = k
  own : (m'.views i).stores i = (m.views i).stores i
  others : ∀ i', i' ≠ i → m'.views i' = m.views i'
  cells : m'.cells = m.cells
  accesses : m'.accesses = m.accesses
  raced : m'.raced = m.raced

/-- **An acquire load.** -/
theorem Synced.loadAcquire (h : Synced value progress m)
    (hload : m.loadAcquire i j k = some (v, m')) :
    v = value j k ∧ Synced value progress m' ∧ Acquired m m' i j k := by
  rw [WeakMemory.loadAcquire] at hload
  split_ifs at hload with hle
  obtain ⟨message, hmessage, heq⟩ := Option.map_eq_some_iff.mp hload
  cases heq
  obtain ⟨hvalue, hstores, hconsistent, hbehind⟩ := h.messages j k message hmessage
  have hlt := (List.getElem?_eq_some_iff.mp hmessage).1
  have hown := h.own j
  -- the store that is read carries its own number
  have hjoin : (WeakMemory.readView (m.views i) j k).join message.2 =
      (m.views i).join message.2 := by
    have hfun : (fun j' => max ((WeakMemory.readView (m.views i) j k).stores j')
        (message.2.stores j')) = fun j' => max ((m.views i).stores j') (message.2.stores j') := by
      funext j'
      by_cases hj : j' = j
      · subst hj
        simp only [WeakMemory.readView, Function.update_self]
        omega
      · simp only [WeakMemory.readView, Function.update_of_ne hj]
    rw [ThreadView.join, hfun]
    rfl
  have hself : ((m.views i).join message.2).stores i = (m.views i).stores i := by
    have hlast := hbehind i
    rw [h.own i] at hlast
    exact max_eq_left (Nat.lt_succ_iff.mp hlast)
  rw [hjoin]
  refine ⟨hvalue, h.setView _ hself ((h.known i).join hconsistent)
    (fun j' => max_lt (h.behind i j') (hbehind j'))
    (fun x => (h.accesses i x).trans (le_max_left _ _)), hle, by omega, ?_, ?_, ?_, rfl, rfl, rfl⟩
  · simp only [Function.update_self, ThreadView.join]
    omega
  · simp only [Function.update_self]
    exact hself
  · intro i' hi
    exact Function.update_of_ne hi _ _

/-- **A release store**, when the accesses that have to come before it have been made. -/
theorem Synced.storeRelease (h : Synced value progress m) {k : ℕ}
    (hk : (m.views i).stores i = k)
    (hprogress : ∀ x, progress i (k + 1) x ≤ m.accesses x i) :
    Synced value progress (m.storeRelease i (value i (k + 1))) := by
  have hlength : (m.messages i).length = k + 1 := by rw [h.own i, hk]
  have hview : Consistent progress (WeakMemory.readView (m.views i) i (k + 1)) := by
    intro j x
    by_cases hj : j = i
    · subst hj
      simp only [WeakMemory.readView, Function.update_self]
      exact (hprogress x).trans (h.accesses j x)
    · simp only [WeakMemory.readView, Function.update_of_ne hj]
      exact h.known i j x
  have hlengths (j : Thread) : (m.messages j).length ≤
      (Function.update m.messages i (m.messages i ++
        [(value i (k + 1), WeakMemory.readView (m.views i) i (k + 1))]) j).length := by
    by_cases hj : j = i
    · subst hj
      rw [Function.update_self, List.length_append]
      exact Nat.le_add_right _ _
    · rw [Function.update_of_ne hj]
  have hbehind (j : Thread) : (WeakMemory.readView (m.views i) i (k + 1)).stores j <
      (Function.update m.messages i (m.messages i ++
        [(value i (k + 1), WeakMemory.readView (m.views i) i (k + 1))]) j).length := by
    by_cases hj : j = i
    · subst hj
      simp only [WeakMemory.readView, Function.update_self, List.length_append, hlength,
        List.length_singleton]
      omega
    · simp only [WeakMemory.readView, Function.update_of_ne hj]
      exact h.behind i j
  rw [WeakMemory.storeRelease, hlength]
  refine ⟨?_, ?_, ?_, ?_, ?_⟩
  · intro i'
    by_cases hi : i' = i
    · subst hi
      simp only [WeakMemory.readView, Function.update_self, List.length_append, hlength,
        List.length_singleton]
    · simp only [Function.update_of_ne hi]
      exact h.own i'
  · intro i'
    by_cases hi : i' = i
    · subst hi
      simp only [Function.update_self]
      exact hview
    · simp only [Function.update_of_ne hi]
      exact h.known i'
  · intro i' j
    by_cases hi : i' = i
    · subst hi
      simp only [Function.update_self]
      exact hbehind j
    · simp only [Function.update_of_ne hi]
      exact (h.behind i' j).trans_le (hlengths j)
  · intro i' k' message hmessage
    by_cases hi : i' = i
    · subst hi
      simp only [Function.update_self] at hmessage
      rw [List.getElem?_append] at hmessage
      split_ifs at hmessage with hlt
      · obtain ⟨hvalue, hstores, hconsistent, hold⟩ := h.messages i' k' message hmessage
        exact ⟨hvalue, hstores, hconsistent, fun j => (hold j).trans_le (hlengths j)⟩
      · obtain ⟨hindex, rfl⟩ := List.getElem?_eq_some_iff.mp hmessage
        rw [List.length_singleton] at hindex
        obtain rfl : k' = k + 1 := by omega
        simp only [hlength, Nat.sub_self, List.getElem_cons_zero]
        exact ⟨trivial, Function.update_self _ _ _, hview, hbehind⟩
    · simp only [Function.update_of_ne hi] at hmessage
      obtain ⟨hvalue, hstores, hconsistent, hold⟩ := h.messages i' k' message hmessage
      exact ⟨hvalue, hstores, hconsistent, fun j => (hold j).trans_le (hlengths j)⟩
  · intro i' x
    by_cases hi : i' = i
    · subst hi
      simp only [Function.update_self]
      exact h.accesses i' x
    · simp only [Function.update_of_ne hi]
      exact h.accesses i' x

variable [DecidableEq Cell]

/-- The access is counted for its cell and its thread. -/
theorem countAccess_self (accesses : Cell → Thread → ℕ) (x : Cell) (i : Thread) :
    WeakMemory.countAccess accesses x i x i = accesses x i + 1 := by
  rw [WeakMemory.countAccess, Function.update_self, Function.update_self]

/-- It is counted for no other cell and no other thread. -/
theorem countAccess_of_ne (accesses : Cell → Thread → ℕ) {x x' : Cell} {i i' : Thread}
    (hne : x' ≠ x ∨ i' ≠ i) : WeakMemory.countAccess accesses x i x' i' = accesses x' i' := by
  rw [WeakMemory.countAccess]
  by_cases hx : x' = x
  · subst hx
    rw [Function.update_self, Function.update_of_ne (hne.resolve_left fun h => h rfl)]
  · rw [Function.update_of_ne hx]

/-- A number of accesses never goes down. -/
theorem le_countAccess (accesses : Cell → Thread → ℕ) (x x' : Cell) (i i' : Thread) :
    accesses x' i' ≤ WeakMemory.countAccess accesses x i x' i' := by
  by_cases hne : x' ≠ x ∨ i' ≠ i
  · rw [countAccess_of_ne accesses hne]
  · obtain ⟨rfl, rfl⟩ : x' = x ∧ i' = i := by
      rw [not_or, not_not, not_not] at hne
      exact hne
    rw [countAccess_self]
    exact Nat.le_succ _

variable [Fintype Thread]

/-- **An access to a cell.** -/
theorem Synced.access (h : Synced value progress m) (i : Thread) (x : Cell) (content : Content) :
    Synced value progress (m.access i x content) := by
  have hview := h.setView (i := i)
    { m.views i with accesses := WeakMemory.countAccess (m.views i).accesses x i } rfl
    (fun j x' => (h.known i j x').trans (le_countAccess _ _ _ _ _)) (h.behind i)
    (fun x' => (h.accesses i x').trans (le_countAccess _ _ _ _ _))
  refine ⟨hview.own, hview.known, hview.behind, hview.messages, ?_⟩
  intro i' x'
  show WeakMemory.countAccess m.accesses x i x' i' ≤ (Function.update m.views i _ i').accesses x' i'
  by_cases hne : x' ≠ x ∨ i' ≠ i
  · rw [countAccess_of_ne m.accesses hne]
    exact hview.accesses i' x'
  · obtain ⟨rfl, rfl⟩ : x' = x ∧ i' = i := by
      rw [not_or, not_not, not_not] at hne
      exact hne
    rw [countAccess_self, Function.update_self]
    show _ ≤ WeakMemory.countAccess (m.views i').accesses x' i' x' i'
    rw [countAccess_self]
    exact Nat.succ_le_succ (h.accesses i' x')

/-- The variables stay as they are. -/
theorem access_stores (i i' j : Thread) (x : Cell) (content : Content) :
    ((m.access i x content).views i').stores j = (m.views i').stores j := by
  rw [WeakMemory.access]
  by_cases hi : i' = i
  · subst hi
    simp only [Function.update_self]
  · simp only [Function.update_of_ne hi]

/-- **There is no race** if all other accesses to the cell happen before. -/
theorem raced_access {x : Cell} (hraced : m.raced = false)
    (hknown : ∀ j, j ≠ i → m.accesses x j ≤ (m.views i).accesses x j) (content : Content) :
    (m.access i x content).raced = false := by
  have hnone : ¬ ∃ j, j ≠ i ∧ (m.views i).accesses x j < m.accesses x j := by
    rintro ⟨j, hj, hlt⟩
    exact absurd (hknown j hj) (Nat.not_le.mpr hlt)
  simp only [WeakMemory.access, hraced, Bool.false_or, decide_eq_false hnone]

end Synced

end MyRedis.Lib
