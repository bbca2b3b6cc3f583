import JobPipeline.Json.Codec

/-!
# Payloads

A payload is kept as bytes. The API takes it as a JSON value and keeps its compact text, `null`
being no bytes at all. A payload may have come in some other way, so showing one never fails: bytes
that are exactly one JSON value are that value, and any others are shown as a string.
-/

namespace JobPipeline.Payload

/-- The bytes a submitted value is kept as. -/
def ofJson (v : Json) : List UInt8 := if v.isNull then [] else Utf8.encode v.render

/-- The value that bytes are shown as. -/
def toJson (bytes : List UInt8) : Json :=
  if bytes.isEmpty then .null
  else match Json.Codec.free.decodeBytes? bytes with
    | some v => v
    | none => .string (Utf8.repair bytes)

end JobPipeline.Payload
