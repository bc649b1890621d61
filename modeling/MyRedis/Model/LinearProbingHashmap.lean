import MyRedis.Lib.MapHistory
import MyRedis.Lib.Probing

/-!
# The hash map with linear probing

`linear_probing_hashmap.h`, with the default load factor of 3/4.  The product
`load_factor_ * entries_.size()` is exact for tables of fewer than `2 ^ 51` entries.
`size_` counts insertions: neither overwriting a value nor removing a key is taken off.

The two loops that look for a bucket go round the table.  `InternalFind` gives up when it is
back where it started; the loop of `InsertWithoutSize` would then go on for ever.
`InternalFind` returns an `int`, so an index from `2 ^ 31` on is not what it was.
-/

set_option autoImplicit false

namespace MyRedis.Model

open MyRedis.Lib

/-- What may go wrong in a hash map: a loop that never ends, an index outside the table, an
entry without a key or a value. -/
inductive MapFailure where
  | loops
  | outOfBounds
  | noValue
  deriving DecidableEq

namespace LinearProbingHashmap

/-- `State`
SOURCE: linear_probing_hashmap.h:20 -/
inductive State where
  | empty
  | deleted
  | element
  deriving DecidableEq

/-- `Entry`
SOURCE: linear_probing_hashmap.h:21-28 -/
structure Entry (K V : Type) where
  state : State
  key : Option K
  value : Option V
  deriving DecidableEq

end LinearProbingHashmap

open LinearProbingHashmap

/-- `LinearProbingHashmap`
SOURCE: linear_probing_hashmap.h:18-33 -/
structure LinearProbingHashmap (K V : Type) where
  hash : K → ℕ
  entries : List (Entry K V)
  size : ℕ

namespace LinearProbingHashmap

variable {K V : Type}

/-- `Entry()` -/
def Entry.new : Entry K V := ⟨.empty, none, none⟩

/-- The constructor.
SOURCE: linear_probing_hashmap.h:74-80 -/
def new (hash : K → ℕ) (initialCapacity : ℕ) : LinearProbingHashmap K V :=
  ⟨hash, List.replicate initialCapacity .new, 0⟩

/-- `size_ > load_factor_ * entries_.size()` -/
def overloaded (size buckets : ℕ) : Bool := 3 * buckets < 4 * size

/-- `entry.key.value()` and `entry.value.value()` -/
def Entry.pair (entry : Entry K V) : Except MapFailure (K × V) :=
  match entry.key, entry.value with
  | some key, some value => .ok (key, value)
  | _, _ => .error .noValue

variable [DecidableEq K]

/-- The bucket holds another key.
SOURCE: linear_probing_hashmap.h:122-124 -/
def heldByOther (entries : List (Entry K V)) (key : K) (i : ℕ) : Bool :=
  match entries[i]? with
  | none => false
  | some entry => entry.state == .element && entry.key.isSome && entry.key != some key

/-- The condition under which `InternalFind` goes on.
SOURCE: linear_probing_hashmap.h:153-156 -/
def passes (entries : List (Entry K V)) (key : K) (i : ℕ) : Bool :=
  match entries[i]? with
  | none => false
  | some entry => entry.state == .deleted || heldByOther entries key i

/-- `InsertWithoutSize`, behind the check of the load.
SOURCE: linear_probing_hashmap.h:121-130 -/
def place (hash : K → ℕ) (entries : List (Entry K V)) (key : K) (value : V) :
    Except MapFailure (List (Entry K V)) :=
  match walk entries.length (fun i => !heldByOther entries key i) entries.length
      (hash key % entries.length) with
  | none => .error .loops
  | some i => .ok (entries.set i ⟨.element, some key, some value⟩)

/-- The body of the loop of `Resize`, with the `InsertWithoutSize` it calls.
SOURCE: linear_probing_hashmap.h:140-144 -/
def reinsert (insertWithoutSize : List (Entry K V) → K → V → Except MapFailure (List (Entry K V)))
    (entries : List (Entry K V)) (entry : Entry K V) : Except MapFailure (List (Entry K V)) :=
  if entry.state = .element then do
    let (key, value) ← entry.pair
    insertWithoutSize entries key value
  else .ok entries

/-- `Resize`
SOURCE: linear_probing_hashmap.h:133-146 -/
def resize (insertWithoutSize : List (Entry K V) → K → V → Except MapFailure (List (Entry K V)))
    (oldEntries : List (Entry K V)) : Except MapFailure (List (Entry K V)) :=
  oldEntries.foldlM (reinsert insertWithoutSize)
    (List.replicate (max 2 (oldEntries.length * 2)) .new)

/-- `InsertWithoutSize`.  It and `Resize` call each other; `depth` bounds how deep.
SOURCE: linear_probing_hashmap.h:116-131 -/
def insertWithoutSize (hash : K → ℕ) (size : ℕ) :
    (depth : ℕ) → List (Entry K V) → K → V → Except MapFailure (List (Entry K V))
  | 0, _, _, _ => .error .loops
  | depth + 1, entries, key, value =>
    if overloaded size entries.length then do
      let entries ← resize (insertWithoutSize hash size depth) entries
      place hash entries key value
    else place hash entries key value

/-- `static_cast<int>` of a `size_t`: the low 32 bits, signed. -/
def toInt (i : ℕ) : ℤ :=
  let low : ℕ := i % 2 ^ 32
  if low < 2 ^ 31 then low else low - 2 ^ 32

/-- `InternalFind`
SOURCE: linear_probing_hashmap.h:149-168 -/
def internalFind (t : LinearProbingHashmap K V) (key : K) : ℤ :=
  match walk t.entries.length (fun i => !passes t.entries key i) t.entries.length
      (t.hash key % t.entries.length) with
  | none => -1
  | some i =>
    match t.entries[i]? with
    | some ⟨.element, _, _⟩ => toInt i
    | _ => -1

/-- `entries_[i]` for an `int`, which becomes a `size_t`. -/
def entryAt (t : LinearProbingHashmap K V) (i : ℤ) : Except MapFailure (ℕ × Entry K V) :=
  let i := (i % 2 ^ 64).toNat
  match t.entries[i]? with
  | none => .error .outOfBounds
  | some entry => .ok (i, entry)

/-- `LookUp`
SOURCE: linear_probing_hashmap.h:82-92 -/
def lookUp (t : LinearProbingHashmap K V) (key : K) : Except MapFailure (Option V) :=
  let valueBucketIndex := t.internalFind key
  if valueBucketIndex ≠ -1 then do
    let (_, entry) ← t.entryAt valueBucketIndex
    match entry.value with
    | none => .error .noValue
    | some value => return some value
  else .ok none

/-- `Insert`.  Each `Resize` inside another one at least doubles the table, so that
`size + 2` levels are more than there can be.
SOURCE: linear_probing_hashmap.h:94-97 -/
def insert (t : LinearProbingHashmap K V) (key : K) (value : V) :
    Except MapFailure (LinearProbingHashmap K V) := do
  let entries ← insertWithoutSize t.hash t.size (t.size + 2) t.entries key value
  return { t with entries, size := t.size + 1 }

/-- `Remove`
SOURCE: linear_probing_hashmap.h:99-104 -/
def remove (t : LinearProbingHashmap K V) (key : K) :
    Except MapFailure (LinearProbingHashmap K V) :=
  let bucketIndex := t.internalFind key
  if bucketIndex ≠ -1 then do
    let (i, entry) ← t.entryAt bucketIndex
    return { t with entries := t.entries.set i { entry with state := .deleted } }
  else .ok t

/-- `ForEach`, with an action that only reads.
SOURCE: linear_probing_hashmap.h:106-113 -/
def forEach (t : LinearProbingHashmap K V) : Except MapFailure (List (K × V)) :=
  (t.entries.filter fun entry => entry.state = .element).mapM Entry.pair

/-- An operation of `Map`. -/
def step (t : LinearProbingHashmap K V) :
    MapOp K V → Except MapFailure (MapResult K V × LinearProbingHashmap K V)
  | .insert key value => (t.insert key value).map fun t => (.void, t)
  | .remove key => (t.remove key).map fun t => (.void, t)
  | .lookUp key => (t.lookUp key).map fun value => (.value value, t)
  | .forEach => t.forEach.map fun entries => (.visited entries, t)

end LinearProbingHashmap

end MyRedis.Model
