import Mathlib.Data.Finmap
import MyRedis.Model.Prelude

/-!
# The store

`store.h` and `store.cc` without the snapshot format, which is in `Serialise.lean`.  The
map behind the store (`Map`, `StandardMap`) is a finite map; an operation that asks
`time_->NowMs()` takes the reading as its argument `now`.
-/

set_option autoImplicit false

namespace MyRedis.Model

namespace Store

/-- `Store::ExpireOption`
SOURCE: store.h:32 -/
inductive ExpireOption where
  | nx
  | xx
  | gt
  | lt
  | na
  deriving DecidableEq, Repr

/-- `Store::ToExpireOption`
SOURCE: store.h:33-39 -/
def toExpireOption (option : Bytes) : Option ExpireOption :=
  if option = ascii "NX" then some .nx
  else if option = ascii "XX" then some .xx
  else if option = ascii "GT" then some .gt
  else if option = ascii "LT" then some .lt
  else none

/-- `Store::NO_EXPIRY`
SOURCE: store.h:68 -/
def noExpiry : Int64 := -1

/-- `Store::Entry`
SOURCE: store.h:70-77 -/
structure Entry where
  expiry : Int64 := noExpiry
  value : Option Bytes
  deriving DecidableEq

end Store

open Store in
/-- `Store`: the map `data_`.
SOURCE: store.h:84 -/
structure Store where
  data : Finmap fun _ : Bytes => Entry

namespace Store

/-- A store as the constructor leaves it. -/
def empty : Store := ⟨∅⟩

/-- `data_->LookUp`
SOURCE: standard_map.h:35-39 -/
def lookUp (s : Store) (key : Bytes) : Option Entry := s.data.lookup key

/-- `data_->Insert`
SOURCE: standard_map.h:41-43 -/
def insert (s : Store) (key : Bytes) (entry : Entry) : Store := ⟨s.data.insert key entry⟩

/-- `data_->Remove`
SOURCE: standard_map.h:45 -/
def remove (s : Store) (key : Bytes) : Store := ⟨s.data.erase key⟩

/-- Two stores with the same entries are equal. -/
@[ext] theorem ext {s t : Store} (h : ∀ key, s.lookUp key = t.lookUp key) : s = t := by
  obtain ⟨s⟩ := s
  obtain ⟨t⟩ := t
  congr 1
  apply Finmap.ext_lookup
  exact h

/-- The empty store has no entries. -/
@[simp] theorem lookUp_empty (key : Bytes) : empty.lookUp key = none := Finmap.lookup_empty key

/-- `Insert` puts the entry under its key and leaves the others. -/
theorem lookUp_insert (s : Store) (key key' : Bytes) (entry : Entry) :
    (s.insert key entry).lookUp key' = if key' = key then some entry else s.lookUp key' := by
  unfold lookUp insert
  split_ifs with h
  · rw [h, Finmap.lookup_insert]
  · rw [Finmap.lookup_insert_of_ne _ h]

/-- `Remove` takes out the entry of its key and leaves the others. -/
theorem lookUp_remove (s : Store) (key key' : Bytes) :
    (s.remove key).lookUp key' = if key' = key then none else s.lookUp key' := by
  unfold lookUp remove
  split_ifs with h
  · rw [h, Finmap.lookup_erase]
  · rw [Finmap.lookup_erase_ne h]

/-- `entry.expiry_ != NO_EXPIRY && entry.expiry_ < now`: the test by which `Get` takes an
entry for gone.
SOURCE: store.cc:23-24 -/
def Entry.expired (entry : Entry) (now : Int64) : Bool :=
  entry.expiry != noExpiry && entry.expiry < now

/-- `Store::Get`
SOURCE: store.cc:19-27 -/
def get (s : Store) (now : Int64) (key : Bytes) : Option Bytes :=
  match s.lookUp key with
  | none => none
  | some entry => if entry.expired now then none else entry.value

/-- `Store::Set`
SOURCE: store.cc:29-31 -/
def set (s : Store) (key : Bytes) (value : Option Bytes) : Store :=
  s.insert key { value := value }

/-- `Store::Del`
SOURCE: store.cc:33 -/
def del (s : Store) (key : Bytes) : Store := s.remove key

/-- The `switch` of `Store::ExpireAt`: does the option refuse the new deadline?
SOURCE: store.cc:45-67 -/
def ExpireOption.refuses (option : ExpireOption) (entry : Entry) (timestampMs : Int64) : Bool :=
  match option with
  | .nx => entry.expiry != noExpiry
  | .xx => entry.expiry == noExpiry
  | .gt => entry.expiry == noExpiry || entry.expiry ≥ timestampMs
  | .lt => entry.expiry != noExpiry && entry.expiry ≤ timestampMs
  | .na => false

/-- `Store::ExpireAt`.  It does not ask for the time.
SOURCE: store.cc:39-72 -/
def expireAt (s : Store) (key : Bytes) (timestampMs : Int64) (option : ExpireOption) :
    Bool × Store :=
  match s.lookUp key with
  | none => (false, s)
  | some entry =>
    if option.refuses entry timestampMs then (false, s)
    else (true, s.insert key { entry with expiry := timestampMs })

/-- `Store::Ttl`
SOURCE: store.cc:74-82 -/
def ttl (s : Store) (now : Int64) (key : Bytes) : Defined Int64 :=
  match s.lookUp key with
  | none => .ok (-2)
  | some entry =>
    if entry.expiry = noExpiry then .ok (-1)
    else do
      let remainingMs ← signed64 (entry.expiry.toInt - now.toInt)
      return if remainingMs ≤ 0 then -2 else remainingMs

/-- `Store::Persist`
SOURCE: store.cc:86-94 -/
def persist (s : Store) (now : Int64) (key : Bytes) : Bool × Store :=
  match s.lookUp key with
  | none => (false, s)
  | some entry =>
    if entry.expiry = noExpiry then (false, s)
    else if entry.expiry < now then (false, s)
    else (true, s.insert key { entry with expiry := noExpiry })

/-! ## Calls -/

/-- A call of one of the operations above. -/
inductive Call where
  | get (key : Bytes)
  | set (key : Bytes) (value : Option Bytes)
  | del (key : Bytes)
  | expireAt (key : Bytes) (timestampMs : Int64) (option : ExpireOption)
  | ttl (key : Bytes)
  | persist (key : Bytes)
  deriving DecidableEq

/-- What a call returns. -/
inductive Result where
  | value (value : Option Bytes)
  | void
  | bool (b : Bool)
  | ms (n : Int64)
  deriving DecidableEq

/-- A call at the clock reading `now`. -/
def call (s : Store) (now : Int64) : Call → Defined (Result × Store)
  | .get key => .ok (.value (s.get now key), s)
  | .set key value => .ok (.void, s.set key value)
  | .del key => .ok (.void, s.del key)
  | .expireAt key timestampMs option =>
    let (set, s) := s.expireAt key timestampMs option
    .ok (.bool set, s)
  | .ttl key => (s.ttl now key).map fun ms => (.ms ms, s)
  | .persist key =>
    let (persisted, s) := s.persist now key
    .ok (.bool persisted, s)

end Store

end MyRedis.Model
