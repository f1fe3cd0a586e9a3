import Duelist.Exchange.World
/-!
# Rehearsed services

A service whose answers are written down beforehand, for playing a session without a network. A
request takes the first route that fits it. The answers of a route are used up in order, and the
last one is given again and again.
-/

namespace Duelist

/-- A route of a rehearsed service, with the answers that are left. -/
structure Route where
  /-- The verb that fits. -/
  method : Method
  /-- The path that fits. -/
  path : String
  /-- The token that fits; any request does if there is none. -/
  bearer : Option String := none
  /-- The answers that are left. -/
  answers : List Outcome

namespace Route

/-- True if the request takes this route. -/
def fits (base : String) (request : Request) (route : Route) : Bool :=
  route.method == request.method && base ++ route.path == request.url &&
    (route.bearer.isNone || route.bearer == request.bearer)

/-- What is answered where nothing fits. -/
def notFound : Outcome :=
  .ok { status := 404, body := .whole {} }

/-- The next answer of the route. -/
def answer (route : Route) : Outcome :=
  route.answers.head?.getD notFound

/-- The route after it has answered. -/
def next (route : Route) : Route :=
  { route with answers := if route.answers.length ≤ 1 then route.answers else route.answers.tail }

end Route

/-- Answers a request by the first route that fits. -/
def answerByRoute (base : String) (request : Request) : List Route → Outcome × List Route
  | [] => (Route.notFound, [])
  | route :: routes =>
    if route.fits base request then (route.answer, route.next :: routes)
    else
      let (outcome, routes) := answerByRoute base request routes
      (outcome, route :: routes)

/-- The way to a rehearsed service at the address `base`. -/
def Link.rehearsed (base : String) : Link (List Route) where
  base := base
  answer := answerByRoute base

/-- The way to nowhere: no request is answered. -/
def Link.unreachable (base : String) : Link Unit where
  base := base
  answer request _ := (.error [s!"no service behind {request.url}"], ())

end Duelist
