import MyRedis.Model.Prelude

/-!
# The command line of the client

`client/string_helpers.cc`, and what the sender of `client/worker.cc` makes of a line of input.
`Split` does not return if the delimiter is empty, so it is only modelled where it is not.
-/

set_option autoImplicit false

namespace MyRedis.Model.Client

/-- The loop of `Split`.  Without another delimiter the rest of the input is the last string.
SOURCE: client/string_helpers.cc:9-16 -/
def splitFrom (delimiter input : Bytes) (hdelimiter : delimiter ≠ []) (current : ℕ) :
    List Bytes :=
  if current < input.length then
    match _hnext : find input delimiter current with
    | none => [input.drop current]
    | some next =>
      substr input current (next - current) ::
        splitFrom delimiter input hdelimiter (next + delimiter.length)
  else []
termination_by input.length - current
decreasing_by
  have hle := ((find_eq_some hdelimiter).mp _hnext).1
  have hpos := List.length_pos_iff.mpr hdelimiter
  omega

/-- `Split`
SOURCE: client/string_helpers.cc:5-18 -/
def split (delimiter input : Bytes) (hdelimiter : delimiter ≠ []) : List Bytes :=
  splitFrom delimiter input hdelimiter 0

/-- The loop of `JoinDelimitedStrings`, on the result and the accumulator.
SOURCE: client/string_helpers.cc:28-41 -/
def joinWord (state : List Bytes × Bytes) (word : Bytes) : List Bytes × Bytes :=
  let (result, acc) := state
  if acc ≠ [] then
    let acc := acc ++ (ascii " " ++ word)
    if acc.getLast? = some 34 then (result ++ [substr acc 1 (acc.length - 2)], [])
    else (result, acc)
  else if word.head? = some 34 then (result, word)
  else (result ++ [word], acc)

/-- `JoinDelimitedStrings`
SOURCE: client/string_helpers.cc:24-46 -/
def joinDelimitedStrings (input : List Bytes) : List Bytes :=
  let (result, acc) := input.foldl joinWord ([], [])
  if acc ≠ [] then result ++ [acc] else result

/-- `split_input` of `SenderWorker`
SOURCE: client/worker.cc:26-27 -/
def splitInput (input : Bytes) : List Bytes :=
  joinDelimitedStrings (split (ascii " ") input (by decide))

end MyRedis.Model.Client
