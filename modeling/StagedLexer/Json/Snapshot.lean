import StagedLexer.Event
import StagedLexer.Json.Parser
import StagedLexer.StreamState

/-! Spans, events and stream states as JSON. A structure is an object with its fields in order; when
one is read, the fields may come in any order, unknown fields are passed over, and an array of all
fields in order is accepted, too. An event is an object whose only field names the kind. -/
namespace StagedLexer

namespace Json

def toPosition? : Json → Option Nat
  | integer value => if 0 ≤ value && value < positionBound then some value.toNat else none
  | _ => none

def codeBound : Int := 0x8000000000000000

def toCode? : Json → Option Int
  | integer value => if -codeBound ≤ value && value < codeBound then some value else none
  | _ => none

def toUnit? : Json → Option UInt8
  | integer value => if 0 ≤ value && value < 256 then some (UInt8.ofNat value.toNat) else none
  | _ => none

def toText? : Json → Option String
  | string text => some text
  | _ => none

def toOptionalText? : Json → Option (Option String)
  | null => some none
  | string text => some (some text)
  | _ => none

def toUnits? : Json → Option Bytes
  | array items => (·.toArray) <$> items.mapM toUnit?
  | _ => none

def single? : List (String × Json) → Option (Option Json)
  | [] => some none
  | [field] => some (some field.2)
  | _ => none

/-- The values of the fields with the given names. In an object a field may be missing, and no name
may be repeated; an array holds all fields in order. -/
def fields? (names : List String) : Json → Option (List (Option Json))
  | object fields => do
    -- A name that forms no characters is an error, also of an unknown field.
    let fields ← fields.mapM fun field => field.1.map (·, field.2)
    names.mapM fun name => single? (fields.filter (·.1 == name))
  | array items => if items.length = names.length then some (items.map some) else none
  | _ => none

end Json

namespace Span

def toJson (span : Span) : Json :=
  .ofFields [("start", .ofNat span.start), ("end", .ofNat span.stop)]

def ofJson? (json : Json) : Option Span := do
  let [some start, some stop] ← json.fields? ["start", "end"] | none
  return ⟨← start.toPosition?, ← stop.toPosition?⟩

end Span

namespace Event

def toJson : Event → Json
  | token tokenType span =>
    .ofFields [("Token", .ofFields [("token_type", .string tokenType), ("span", span.toJson)])]
  | error tokenType offset code =>
    .ofFields [("Error", .ofFields [("token_type", .string tokenType), ("offset", .ofNat offset),
      ("code", .integer code)])]
  | unrecognized offset => .ofFields [("Unrecognized", .ofFields [("offset", .ofNat offset)])]

def ofJson? : Json → Option Event
  | .object [(some "Token", json)] => do
    let [some tokenType, some span] ← json.fields? ["token_type", "span"] | none
    return token (← tokenType.toText?) (← Span.ofJson? span)
  | .object [(some "Error", json)] => do
    let [some tokenType, some offset, some code] ←
      json.fields? ["token_type", "offset", "code"] | none
    return error (← tokenType.toText?) (← offset.toPosition?) (← code.toCode?)
  | .object [(some "Unrecognized", json)] => do
    let [some offset] ← json.fields? ["offset"] | none
    return unrecognized (← offset.toPosition?)
  | _ => none

end Event

namespace StreamState

def toJson (state : StreamState) : Json :=
  .ofFields [
    ("stage", match state.stage with
      | some stage => .string stage
      | none => .null),
    ("chunk", .array (state.chunk.toList.map fun b => .ofNat b.toNat)),
    ("offset", .ofNat state.offset),
    ("chunkOffset", .ofNat state.chunkOffset)]

def ofJson? (json : Json) : Option StreamState := do
  let [stage, some chunk, some offset, some chunkOffset] ←
    json.fields? ["stage", "chunk", "offset", "chunkOffset"] | none
  return {
    stage := ← (stage.getD .null).toOptionalText?
    chunk := ← chunk.toUnits?
    offset := ← offset.toPosition?
    chunkOffset := ← chunkOffset.toPosition? }

end StreamState

end StagedLexer
