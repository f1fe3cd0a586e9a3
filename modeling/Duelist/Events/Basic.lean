import Duelist.Json.Reading
import Duelist.Json.Record
/-!
# Events

The events of the duel stream. Each has a type and a payload; types without a meaning to the
client are passed over without a look at the payload.
-/

namespace Duelist

/-- Something that happened to the player. -/
inductive Event where
  /-- A duel began. Opponent and task need not be told yet. -/
  | started (duel : Int64) (opponent : Option Int64) (task : Option String)
  /-- A duel ended. -/
  | finished (duel : Int64)
  deriving Repr, DecidableEq

namespace Event

/-- The duel that an event is about. -/
def duel : Event → Int64
  | .started duel _ _ => duel
  | .finished duel => duel

/-- Reads the payload of an event that begins a duel. -/
def started? (v : Json) : Option Event := do
  let field ← v.record? ["duel_id", "opponent_id", "task_id"]
  return .started
    (← Json.required Json.int64? (field "duel_id"))
    (← Json.defaulted none (Json.nullable Json.int64?) (field "opponent_id"))
    (← Json.defaulted none (Json.nullable Json.string?) (field "task_id"))

/-- Reads the payload of an event that ends a duel. -/
def finished? (v : Json) : Option Event := do
  let field ← v.record? ["duel_id"]
  return .finished (← Json.required Json.int64? (field "duel_id"))

/-- How payloads of the given type are read, `none` for types without a meaning. -/
def reader? (type : String) : Option (Json → Option Event) :=
  if type = "DuelStarted" then some started?
  else if type = "DuelFinished" then some finished?
  else none

/-- What a type and a payload amount to. -/
inductive Decoded where
  /-- An event. -/
  | event (e : Event)
  /-- The type has no meaning. -/
  | foreign
  /-- The type has a meaning and the payload does not fit it. -/
  | misfit
  deriving Repr, DecidableEq

/-- Reads an event from its type and its payload. -/
def decode (type data : String) : Decoded :=
  match reader? type with
  | none => .foreign
  | some read =>
    match (Json.ofText? data).bind read with
    | some e => .event e
    | none => .misfit

end Event

end Duelist
