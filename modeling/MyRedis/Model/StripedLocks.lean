import Mathlib.Data.Fin.Basic
import Mathlib.Data.List.FinRange
import Mathlib.Data.Prod.Lex
import MyRedis.Lib.OrderedLocks
import MyRedis.Lib.TransitionSystem

/-!
# The locks of the striped maps

Which locks the methods of `StripedHashmap.h` take and release, and what they do under them, for
any number of maps and threads.  The store, the clients' connections, the channels and the set of
each channel are such maps; a thread calls a method of one of them at a time.  What a method does
under its locks is one piece of work, which takes as long as it takes.

`size_` is changed under different locks and read under any, so the test of `Insert` may come out
either way.
-/

set_option autoImplicit false

namespace MyRedis.Model

open MyRedis.Lib MyRedis.Lib.LockProgram

namespace StripedLocks

/-- The locks of all maps; those of a map are in the order of `locks_`. -/
abbrev Lock (M : Type) (n : ℕ) : Type := M ×ₗ Fin n

/-- The pieces of work that are done under locks; the stripe is the one of the key. -/
inductive Work (n : ℕ) where
  | lookUp (stripe : Fin n)
  | testLoad (stripe : Fin n)
  | insertWithoutResize (stripe : Fin n)
  | remove (stripe : Fin n)
  | resize
  | forEach

/-- The stripe of a piece of work; none if it is on the whole map. -/
def Work.stripe {n : ℕ} : Work n → Option (Fin n)
  | lookUp stripe => some stripe
  | testLoad stripe => some stripe
  | insertWithoutResize stripe => some stripe
  | remove stripe => some stripe
  | resize => none
  | forEach => none

/-- A call of a method of `Map`. -/
inductive Method (K : Type) where
  | lookUp (key : K)
  | insert (key : K)
  | remove (key : K)
  | forEach

variable {M K : Type} {n : ℕ}

/-- What a thread does in a method: its work, on which map. -/
abbrev Program (M : Type) (n : ℕ) : Type := LockProgram (Lock M n) (M × Work n)

/-- `locks_`, of one map -/
def locks (m : M) : List (Lock M n) := (List.finRange n).map fun i => toLex (m, i)

/-- `std::lock_guard lock(locks_[stripe])`, the body of the method and its end.
SOURCE: StripedHashmap.h:87, 114 -/
def guarded (m : M) (stripe : Fin n) (w : Work n) : Program M n :=
  .lock (toLex (m, stripe)) (.work (m, w) fun _ => .unlock (toLex (m, stripe)) .done)

/-- A vector of locks: all are taken in order, and released when the vector is destroyed.
SOURCE: StripedHashmap.h:54-56, 136-138 -/
def exclusively (m : M) (w : Work n) (rest : Program M n) : Program M n :=
  lockAll (locks m) (.work (m, w) fun _ => unlockAll (locks m) rest)

variable [NeZero n]

/-- `GetLockIndex`
SOURCE: StripedHashmap.h:27 -/
def getLockIndex (n : ℕ) [NeZero n] (hash : K → ℕ) (key : K) : Fin n := Fin.ofNat n (hash key)

/-- `Insert`: it releases its lock for the time of `Resize`.
SOURCE: StripedHashmap.h:101-111 -/
def insert (m : M) (stripe : Fin n) : Program M n :=
  .lock (toLex (m, stripe)) (.work (m, .testLoad stripe) fun overloaded =>
    let last : Program M n :=
      .work (m, .insertWithoutResize stripe) fun _ => .unlock (toLex (m, stripe)) .done
    if overloaded then
      .unlock (toLex (m, stripe)) (exclusively m .resize (.lock (toLex (m, stripe)) last))
    else last)

/-- The methods.
SOURCE: StripedHashmap.h:86-149 -/
def program (hash : K → ℕ) (m : M) : Method K → Program M n
  | .lookUp key => guarded m (getLockIndex n hash key) (.lookUp (getLockIndex n hash key))
  | .insert key => insert m (getLockIndex n hash key)
  | .remove key => guarded m (getLockIndex n hash key) (.remove (getLockIndex n hash key))
  | .forEach => exclusively m .forEach .done

/-- The threads and the locks. -/
abbrev State (T M : Type) (n : ℕ) : Type := LockState T (Lock M n) (M × Work n)

/-- All locks are free, and no method has been called. -/
def init {T : Type} : State T M n := ⟨fun _ => none, fun _ => .done⟩

/-- A thread calls a method of a map, or goes on with the one it is in. -/
inductive Action (T M K : Type) where
  | call (t : T) (m : M) (method : Method K)
  | advance (t : T) (answer : Bool)

/-- A step of one thread. -/
def step {T : Type} [DecidableEq T] [LinearOrder M] (hash : K → ℕ) (s : State T M n) :
    Action T M K → Option (State T M n)
  | .call t m method =>
    match s.programs t with
    | .done => some ⟨s.owner, Function.update s.programs t (program hash m method)⟩
    | _ => none
  | .advance t answer => s.advance t answer

end StripedLocks

end MyRedis.Model
