import MyRedis.Model.Requests

/-!
# What the guards of v1 accept

The values that `IsRequest` of a type of request accepts, and what its constructor makes of them.
-/

set_option autoImplicit false

namespace MyRedis.Analysis

open MyRedis.Model

/-- A name and a key. -/
def withKey (name key : Bytes) : RespValue :=
  .array [.bulkString (some name), .bulkString (some key)]

/-- A name, a key and a value. -/
def withKeyAndValue (name key : Bytes) (value : Option Bytes) : RespValue :=
  .array [.bulkString (some name), .bulkString (some key), .bulkString value]

/-- The first element of an array, if it is a bulk string. -/
def commandName : RespValue → Option Bytes
  | .array (.bulkString name :: _) => name
  | _ => none

section Guards

variable {request : RespValue} {requestType : String} {key : Bytes}

/-- A value that is a given text is that bulk string. -/
theorem isText_eq_true {text : Bytes} (h : request.isText text = true) :
    request = .bulkString (some text) := by
  unfold RespValue.isText at h
  split at h
  · rw [of_decide_eq_true h]
  · cases h

/-- A bulk string with text is not null and not empty. -/
theorem hasText_eq_true {s : Option Bytes} (h : hasText s = true) :
    ∃ c text, s = some (c :: text) := by
  unfold hasText at h
  split at h
  · cases h
  · rename_i text
    cases text with
    | nil => cases h
    | cons c text => exact ⟨c, text, rfl⟩

/-- What `OneArgRequest::IsRequest` accepts.
SOURCE: OneArgRequest.cpp:51-75 -/
theorem oneArg_isRequest (h : OneArgRequest.isRequest requestType request = true) :
    ∃ key, key ≠ [] ∧ request = withKey (ascii requestType) key := by
  unfold OneArgRequest.isRequest at h
  split at h
  · rename_i get key
    rw [Bool.and_eq_true] at h
    obtain ⟨c, text, rfl⟩ := hasText_eq_true h.2
    exact ⟨c :: text, List.cons_ne_nil c text, by rw [isText_eq_true h.1, withKey]⟩
  · cases h

/-- What `SetRequest::IsRequest` accepts.
SOURCE: SetRequest.cpp:46-73 -/
theorem set_isRequest (h : SetRequest.isRequest request = true) :
    ∃ key value, key ≠ [] ∧ request = withKeyAndValue (ascii "SET") key value := by
  unfold SetRequest.isRequest at h
  split at h
  · rename_i set key value
    rw [Bool.and_eq_true] at h
    obtain ⟨c, text, rfl⟩ := hasText_eq_true h.2
    exact ⟨c :: text, value, List.cons_ne_nil c text, by rw [isText_eq_true h.1, withKeyAndValue]⟩
  · cases h

/-- What `PublishRequest::IsRequest` accepts has the name PUBLISH.
SOURCE: PublishRequest.cpp:47-79 -/
theorem publish_isRequest (h : PublishRequest.isRequest request = true) :
    commandName request = some (ascii "PUBLISH") := by
  unfold PublishRequest.isRequest at h
  split at h
  · rw [Bool.and_eq_true, Bool.and_eq_true] at h
    rw [isText_eq_true h.1.1, commandName]
  · cases h

/-- What `VarArgRequest::IsRequest` accepts has the name of its type.
SOURCE: VarArgRequest.cpp:55-70 -/
theorem varArg_isRequest (h : VarArgRequest.isRequest requestType request = true) :
    commandName request = some (ascii requestType) := by
  unfold VarArgRequest.isRequest at h
  split at h
  · rw [isText_eq_true h, commandName]
  · cases h

/-! ## Constructors -/

/-- A text is itself. -/
theorem isText_bulkString (text : Bytes) : (RespValue.bulkString (some text)).isText text = true :=
  decide_eq_true rfl

/-- The constructor of a request with one argument takes the key.
SOURCE: OneArgRequest.cpp:5-41 -/
theorem oneArg_new (requestType : String) (hkey : key ≠ []) :
    OneArgRequest.new (withKey (ascii requestType) key) requestType = .ok ⟨key, hkey⟩ := by
  rw [withKey, OneArgRequest.new, if_pos (isText_bulkString _), dif_neg hkey]

/-- The constructor of SET takes the key and the value.
SOURCE: SetRequest.cpp:5-38 -/
theorem set_new (hkey : key ≠ []) (value : Option Bytes) :
    SetRequest.new (withKeyAndValue (ascii "SET") key value) = .ok ⟨key, value, hkey⟩ := by
  rw [withKeyAndValue, SetRequest.new, if_pos (isText_bulkString _), dif_neg hkey]

/-- A key that is not empty has text. -/
theorem hasText_some (hkey : key ≠ []) : hasText (some key) = true := by
  cases key with
  | nil => exact absurd rfl hkey
  | cons c key => rfl

/-- The guard of a request with one argument accepts any key that is not empty.
SOURCE: OneArgRequest.cpp:51-75 -/
theorem oneArg_isRequest_withKey (requestType : String) (hkey : key ≠ []) :
    OneArgRequest.isRequest requestType (withKey (ascii requestType) key) = true := by
  rw [withKey, OneArgRequest.isRequest, isText_bulkString, hasText_some hkey]
  rfl

/-- The guard of SET accepts any key that is not empty, with any value.
SOURCE: SetRequest.cpp:46-73 -/
theorem set_isRequest_withKeyAndValue (hkey : key ≠ []) (value : Option Bytes) :
    SetRequest.isRequest (withKeyAndValue (ascii "SET") key value) = true := by
  rw [withKeyAndValue, SetRequest.isRequest, isText_bulkString, hasText_some hkey]
  rfl

end Guards

end MyRedis.Analysis
