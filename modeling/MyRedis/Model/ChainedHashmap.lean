import MyRedis.Lib.MapHistory

/-!
# The hash maps with chains

`LinkedListHashmap` of v2 (`linked_list_hashmap.h`) and `StripedHashmap` of v1
(`StripedHashmap.h`) keep a vector of chains and have the same `InsertWithoutResize` and
`Resize`; the striped one also has mutexes.  A chain of `Entry`s is the list of its keys and
values.  When the table is resized depends on a comparison of `size_` with
`entries_.size() * load_factor_`; `overloaded` is its outcome, so that any load factor and
any rounding of the product is covered.
-/

set_option autoImplicit false

namespace MyRedis.Model

open MyRedis.Lib

/-- The data members that the two maps share.
SOURCE: linked_list_hashmap.h:25-28, StripedHashmap.h:20-23 -/
structure ChainedHashmap (K V : Type) where
  hash : K → ℕ
  size : ℕ
  entries : List (List (K × V))

namespace ChainedHashmap

variable {K V : Type}

/-- `kDefaultCapacity` of v2 and `DEFAULT_CAPACITY` of v1.
SOURCE: map.h:10, Map.h:8 -/
def defaultCapacity : ℕ := 16

/-- The constructors.
SOURCE: linked_list_hashmap.h:91-96, StripedHashmap.h:79-84 -/
def new (hash : K → ℕ) : ChainedHashmap K V := ⟨hash, 0, List.replicate defaultCapacity []⟩

/-- `hash_(key) % entries_.size()`
SOURCE: StripedHashmap.h:26 -/
def getBucketIndex (t : ChainedHashmap K V) (key : K) : ℕ := t.hash key % t.entries.length

/-- `entries_[hash_(key) % entries_.size()]` -/
def bucket (t : ChainedHashmap K V) (key : K) : List (K × V) :=
  t.entries.getD (t.getBucketIndex key) []

/-- The same table with another chain in a bucket. -/
def setBucket (t : ChainedHashmap K V) (key : K) (chain : List (K × V)) : ChainedHashmap K V :=
  { t with entries := t.entries.set (t.getBucketIndex key) chain }

variable [DecidableEq K]

/-- The walk of `InsertWithoutResize` along a chain: the chain it leaves, and whether it has
one entry more.
SOURCE: linked_list_hashmap.h:32-49 -/
def insertChain (key : K) (value : V) : List (K × V) → List (K × V) × Bool
  | [] => ([(key, value)], true)
  | entry :: next =>
    if entry.1 = key then ((entry.1, value) :: next, false)
    else
      let (next, added) := insertChain key value next
      (entry :: next, added)

/-- The walk of `Remove` along a chain: the chain it leaves, and whether it has one entry less.
SOURCE: linked_list_hashmap.h:121-134 -/
def removeChain (key : K) : List (K × V) → List (K × V) × Bool
  | [] => ([], false)
  | entry :: next =>
    if entry.1 = key then (next, true)
    else
      let (next, removed) := removeChain key next
      (entry :: next, removed)

/-- The walk of `LookUp` along a chain.
SOURCE: linked_list_hashmap.h:100-108 -/
def lookUpChain (key : K) : List (K × V) → Option V
  | [] => none
  | entry :: next => if entry.1 = key then some entry.2 else lookUpChain key next

/-- `InsertWithoutResize`
SOURCE: linked_list_hashmap.h:30-50, StripedHashmap.h:29-50 -/
def insertWithoutResize (t : ChainedHashmap K V) (key : K) (value : V) : ChainedHashmap K V :=
  let (chain, added) := insertChain key value (t.bucket key)
  { t.setBucket key chain with size := if added then t.size + 1 else t.size }

/-- `Resize`
SOURCE: linked_list_hashmap.h:52-67, StripedHashmap.h:52-72 -/
def resize (t : ChainedHashmap K V) : ChainedHashmap K V :=
  let flatEntries := t.entries.flatten
  flatEntries.foldl (fun t entry => t.insertWithoutResize entry.1 entry.2)
    { t with entries := List.replicate (max 2 (t.size * 2)) [], size := 0 }

/-- `LookUp`
SOURCE: linked_list_hashmap.h:98-109, StripedHashmap.h:86-99 -/
def lookUp (t : ChainedHashmap K V) (key : K) : Option V :=
  if t.entries = [] then none else lookUpChain key (t.bucket key)

/-- `Insert`
SOURCE: linked_list_hashmap.h:111-116, StripedHashmap.h:101-111 -/
def insert (overloaded : ℕ → ℕ → Bool) (t : ChainedHashmap K V) (key : K) (value : V) :
    ChainedHashmap K V :=
  let t := if t.entries = [] ∨ overloaded t.size t.entries.length then t.resize else t
  t.insertWithoutResize key value

/-- `Remove`
SOURCE: linked_list_hashmap.h:118-135, StripedHashmap.h:113-132 -/
def remove (t : ChainedHashmap K V) (key : K) : ChainedHashmap K V :=
  if t.entries = [] then t
  else
    let (chain, removed) := removeChain key (t.bucket key)
    { t.setBucket key chain with size := if removed then t.size - 1 else t.size }

/-- `ForEach`, with an action that only reads.
SOURCE: linked_list_hashmap.h:137-145, StripedHashmap.h:134-148 -/
def forEach (t : ChainedHashmap K V) : List (K × V) := t.entries.flatten

/-- An operation of `Map`.  None of them can fail. -/
def step (overloaded : ℕ → ℕ → Bool) (t : ChainedHashmap K V) :
    MapOp K V → Except Empty (MapResult K V × ChainedHashmap K V)
  | .insert key value => .ok (.void, t.insert overloaded key value)
  | .remove key => .ok (.void, t.remove key)
  | .lookUp key => .ok (.value (t.lookUp key), t)
  | .forEach => .ok (.visited t.forEach, t)

end ChainedHashmap

/-- `LinkedListHashmap`
SOURCE: linked_list_hashmap.h:16-28 -/
abbrev LinkedListHashmap (K V : Type) : Type := ChainedHashmap K V

/-- `StripedHashmap`: the number of its mutexes is fixed by the constructor.
SOURCE: StripedHashmap.h:11-24 -/
structure StripedHashmap (K V : Type) where
  table : ChainedHashmap K V
  locks : ℕ

namespace StripedHashmap

variable {K V : Type}

/-- The constructor with the default number of locks.
SOURCE: StripedHashmap.h:75-84 -/
def new (hash : K → ℕ) : StripedHashmap K V := ⟨.new hash, ChainedHashmap.defaultCapacity⟩

/-- `GetBucketIndex`
SOURCE: StripedHashmap.h:26 -/
def getBucketIndex (t : StripedHashmap K V) (key : K) : ℕ := t.table.getBucketIndex key

/-- `GetLockIndex`
SOURCE: StripedHashmap.h:27 -/
def getLockIndex (t : StripedHashmap K V) (key : K) : ℕ := t.table.hash key % t.locks

/-- `size_ > entries_.size() * load_factor_` for the load factor 3/4. -/
def overloaded (size buckets : ℕ) : Bool := 3 * buckets < 4 * size

variable [DecidableEq K]

/-- `LookUp`
SOURCE: StripedHashmap.h:86-99 -/
def lookUp (t : StripedHashmap K V) (key : K) : Option V := t.table.lookUp key

/-- Does the next `Insert` call `Resize`, which destroys the entries?
SOURCE: StripedHashmap.h:104-108 -/
def resizes (t : StripedHashmap K V) : Bool :=
  t.table.entries = [] ∨ overloaded t.table.size t.table.entries.length

/-- `Insert` of one thread; between giving its lock back and taking it again for `Resize`
nothing happens.
SOURCE: StripedHashmap.h:101-111 -/
def insert (t : StripedHashmap K V) (key : K) (value : V) : StripedHashmap K V :=
  { t with table := t.table.insert overloaded key value }

/-- `Remove`
SOURCE: StripedHashmap.h:113-132 -/
def remove (t : StripedHashmap K V) (key : K) : StripedHashmap K V :=
  { t with table := t.table.remove key }

/-- What a call leaves of the map.  `LookUp` and `ForEach` change nothing. -/
def call (t : StripedHashmap K V) : MapOp K V → StripedHashmap K V
  | .insert key value => t.insert key value
  | .remove key => t.remove key
  | .lookUp _ => t
  | .forEach => t

/-- The map after a sequence of calls, one after another. -/
def after (hash : K → ℕ) (history : List (MapOp K V)) : StripedHashmap K V :=
  history.foldl call (.new hash)

end StripedHashmap

end MyRedis.Model
