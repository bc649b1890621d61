import MyRedis.Model.Store

/-!
# An operation of the store works on the entry of its key

`callAt` says what a call does to the entry stored under its key (`none`: no entry), and
`call_eq` that this is all a call does: it reads the entry of its key, writes it back and
leaves every other key alone.  Facts about single operations are then facts about one
entry.
-/

set_option autoImplicit false

namespace MyRedis.Analysis

open MyRedis.Model MyRedis.Model.Store

/-- The key a call works on. -/
def key : Call → Bytes
  | .get key => key
  | .set key _ => key
  | .del key => key
  | .expireAt key _ _ => key
  | .ttl key => key
  | .persist key => key

/-- What a call returns, and makes of the entry under its key. -/
def callAt (found : Option Entry) (now : Int64) : Call → Defined (Result × Option Entry)
  | .get _ =>
    .ok (.value (found.bind fun entry => if entry.expired now then none else entry.value), found)
  | .set _ value => .ok (.void, some { value := value })
  | .del _ => .ok (.void, none)
  | .expireAt _ timestampMs option =>
    match found with
    | none => .ok (.bool false, none)
    | some entry =>
      if option.refuses entry timestampMs then .ok (.bool false, some entry)
      else .ok (.bool true, some { entry with expiry := timestampMs })
  | .ttl _ =>
    match found with
    | none => .ok (.ms (-2), none)
    | some entry =>
      if entry.expiry = noExpiry then .ok (.ms (-1), some entry)
      else (signed64 (entry.expiry.toInt - now.toInt)).map fun remainingMs =>
        (.ms (if remainingMs ≤ 0 then -2 else remainingMs), some entry)
  | .persist _ =>
    match found with
    | none => .ok (.bool false, none)
    | some entry =>
      if entry.expiry = noExpiry then .ok (.bool false, some entry)
      else if entry.expiry < now then .ok (.bool false, some entry)
      else .ok (.bool true, some { entry with expiry := noExpiry })

/-- The store with the entry under `key` replaced. -/
def put (s : Store) (key : Bytes) : Option Entry → Store
  | none => s.remove key
  | some entry => s.insert key entry

/-- The entry that was written is found under its key, and the others as before.
SOURCE: store.cc:19-94 -/
theorem lookUp_put (s : Store) (key key' : Bytes) (found : Option Entry) :
    (put s key found).lookUp key' = if key' = key then found else s.lookUp key' := by
  cases found with
  | none => exact lookUp_remove s key key'
  | some entry => exact lookUp_insert s key key' entry

/-- Writing back what is there changes nothing.
SOURCE: store.cc:19-94 -/
theorem put_lookUp {s : Store} {key : Bytes} {found : Option Entry} (h : s.lookUp key = found) :
    put s key found = s := by
  apply Store.ext
  intro key'
  rw [lookUp_put]
  split_ifs with hkey
  · rw [hkey, h]
  · rfl

/-- **A call works on the entry of its key.**
SOURCE: store.cc:19-94 -/
theorem call_eq (s : Store) (now : Int64) (c : Call) :
    s.call now c = (callAt (s.lookUp (key c)) now c).map fun r => (r.1, put s (key c) r.2) := by
  cases c with
  | get k =>
    have hput : put s k (s.lookUp k) = s := put_lookUp rfl
    simp only [Store.call, Store.get, callAt, key, Except.map, hput]
    cases s.lookUp k <;> rfl
  | set k value => rfl
  | del k => rfl
  | expireAt k timestampMs option =>
    simp only [Store.call, Store.expireAt, callAt, key]
    cases hfound : s.lookUp k with
    | none => simp only [Except.map, put_lookUp hfound]
    | some entry =>
      simp only
      split_ifs
      · simp only [Except.map, put_lookUp hfound]
      · rfl
  | ttl k =>
    simp only [Store.call, Store.ttl, callAt, key]
    cases hfound : s.lookUp k with
    | none => simp only [Except.map, put_lookUp hfound]
    | some entry =>
      simp only
      split_ifs
      · simp only [Except.map, put_lookUp hfound]
      · cases signed64 (entry.expiry.toInt - now.toInt) with
        | error u => rfl
        | ok remainingMs =>
          simp only [Except.map, put_lookUp hfound]
          rfl
  | persist k =>
    simp only [Store.call, Store.persist, callAt, key]
    cases hfound : s.lookUp k with
    | none => simp only [Except.map, put_lookUp hfound]
    | some entry =>
      simp only
      split_ifs
      · simp only [Except.map, put_lookUp hfound]
      · simp only [Except.map, put_lookUp hfound]
      · rfl

end MyRedis.Analysis
