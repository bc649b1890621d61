import MyRedis.Analysis.RespLayout

/-!
# Parsed values are encoded faithfully

However irregular the bytes were that `RespValue::FromString` accepted, the value it returned is
`Readable`: a simple string or error was cut off at the first `"\r\n"`, and a length came out of a
`long long`.  So `RespValue::Serialize` writes a frame that is parsed to the same value, whatever
follows (`fromString_reencodes`).
-/

set_option autoImplicit false

namespace MyRedis.Analysis

open MyRedis.Model MyRedis.Model.RespValue MyRedis.Lib

/-- **Only readable values are parsed.**
SOURCE: resp_value.cc:10-122 -/
theorem Layout.readable {b : Bytes} {fields : List Field} {v : RespValue}
    (h : Layout b fields v) : Readable v := by
  induction h with
  | simpleString hs => exact .simpleString hs
  | simpleError hm => exact .simpleError hm
  | @integer _ n _ _ => exact .integer n
  | nullBulkString _ _ => exact .nullBulkString
  | @bulkString _ _ len _ _ hlen =>
    apply Readable.bulkString
    have hrange := int64_range len
    omega
  | @array _ len pieces _ _ hlen _ ih =>
    have hlength : (pieces.map RespFrame.value).length < 2 ^ 63 := by
      have hrange := int64_range len
      rw [List.length_map]
      omega
    apply Readable.array hlength
    intro v hv
    obtain ⟨p, hp, rfl⟩ := List.mem_map.mp hv
    exact ih p hp

/-- **A parsed value is written as a frame that is parsed to the same value**, whatever follows.
SOURCE: resp_value.cc:10-151, 185-188 -/
theorem fromString_reencodes {s : Bytes} {v : RespValue} {n : ℕ} (h : fromString s = .ok (v, n)) :
    LineSafe v ∧ ∀ t, fromString (v.serialize ++ t) = .ok (v, v.serialize.length) := by
  obtain ⟨-, fields, hlayout⟩ := fromString_eq_ok_iff.mp h
  have hreadable := hlayout.readable
  refine ⟨hreadable.lineSafe, ?_⟩
  intro t
  have hdecodes := hreadable.decodesAnywhere [] t
  rw [List.nil_append, List.length_nil, Nat.zero_add] at hdecodes
  exact hdecodes

/-- The elements of an array with white space and a remark in a number, and a simple string that
ends in a lone carriage return. -/
def irregularPieces : List RespFrame :=
  [⟨43 :: (ascii "x\r" ++ crlf), [], .simpleString (ascii "x\r")⟩,
    ⟨58 :: (ascii "\t-007z" ++ crlf), [.int (ascii "\t-007z")], .integer (-7)⟩]

/-- Their value. -/
def irregularValue : RespValue := .array [.simpleString (ascii "x\r"), .integer (-7)]

/-- An array whose numbers have white space, signs and letters around them.
SOURCE: resp_value.cc:10-122 -/
theorem irregular_parses :
    fromString (ascii "* +2 of\r\n+x\r\r\n:\t-007z\r\n") = .ok (irregularValue, 23) := by
  have hpieces : ∀ p ∈ irregularPieces, Layout p.bytes p.fields p.value := by
    intro p hp
    rcases List.mem_cons.mp hp with rfl | hp
    · exact .simpleString (by decide)
    · obtain rfl := List.mem_singleton.mp hp
      exact .integer (by decide +kernel) (by decide +kernel)
  have hlayout := @Layout.array (ascii " +2 of") 2 irregularPieces (by decide +kernel)
    (by decide +kernel) (by decide) hpieces
  have hbytes : 42 :: (ascii " +2 of" ++ (crlf ++ irregularPieces.flatMap RespFrame.bytes)) =
      ascii "* +2 of\r\n+x\r\r\n:\t-007z\r\n" := by
    decide +kernel
  have hparse := hlayout.fromString []
  rw [List.append_nil, hbytes] at hparse
  exact hparse

/-- The same array: its value can be sent and is read back.
SOURCE: resp_value.cc:10-151 -/
theorem fromString_reencodes_irregular :
    fromString (ascii "* +2 of\r\n+x\r\r\n:\t-007z\r\n") = .ok (irregularValue, 23) ∧
      LineSafe irregularValue ∧ ∀ t, fromString (irregularValue.serialize ++ t) =
        .ok (irregularValue, irregularValue.serialize.length) :=
  ⟨irregular_parses, fromString_reencodes irregular_parses⟩

end MyRedis.Analysis
