import Duelist.Json.Basic
import Duelist.Text.Quoted
/-!
# Requests

What is asked of the service: a `Query` names a path, and becomes a `Request` once the address of
the service and a token are put to it.
-/

namespace Duelist

/-- The two verbs that the service understands. -/
inductive Method where
  /-- Ask for something. -/
  | get
  /-- Hand something in. -/
  | post
  deriving Repr, DecidableEq

/-- The verb as it is sent. -/
def Method.verb : Method → String
  | .get => "GET"
  | .post => "POST"

/-- The verb in diagnostics. -/
def Method.name : Method → String
  | .get => "Get"
  | .post => "Post"

/-- What a caller wants of the service. -/
structure Query where
  /-- The verb. -/
  method : Method := .get
  /-- The path behind the address of the service, with a leading slash. -/
  path : String
  /-- The media type that is asked for. -/
  accept : Option String := none
  /-- The body. -/
  json : Option Json := none
  /-- True if the reply is read while it is being written, without a time limit. -/
  streaming : Bool := false

/-- The media type of the event stream. -/
def eventStream : String := "text/event-stream"

namespace Query

/-- Asks for what is at `path`. -/
def get (path : String) : Query :=
  { path }

/-- Hands in `json` at `path`. -/
def post (path : String) (json : Json) : Query :=
  { method := .post, path, json := some json }

/-- Opens the event stream at `path`. -/
def stream (path : String) : Query :=
  { path, accept := some eventStream, streaming := true }

end Query

/-- A request, ready to be sent. -/
structure Request where
  /-- The verb. -/
  method : Method
  /-- The full address. -/
  url : String
  /-- The access token sent along. -/
  bearer : Option String
  /-- The media type that is asked for. -/
  accept : Option String
  /-- The body. -/
  json : Option Json
  /-- True if the reply is read while it is being written, without a time limit. -/
  streaming : Bool

namespace Request

/-- The request for `q` at the address `base`. -/
def ofQuery (base : String) (q : Query) (bearer : Option String) : Request where
  method := q.method
  url := base ++ q.path
  bearer := bearer
  accept := q.accept
  json := q.json
  streaming := q.streaming

/-- A request as diagnostics show it. The token is veiled, the body left out. -/
def diagnostic (r : Request) : String :=
  let optional (shown : Option String) : String := match shown with
    | some text => "Some(" ++ Text.quoted text ++ ")"
    | none => "None"
  String.join ["ApiRequest \x7b method: ", r.method.name, ", url: ", Text.quoted r.url,
    ", bearer: ", optional (r.bearer.map fun _ => "***"), ", accept: ", optional r.accept,
    ", streaming: ", if r.streaming then "true" else "false", " \x7d"]

end Request

end Duelist
