import Duelist.Session.Seat
/-!
# Queueing

Joining the queue opens the event stream. From then on the stream drives the session until it ends.
-/

namespace Duelist

variable {σ : Type} (venue : Venue σ)

/-- Joins the queue; refused unless the player is idle. -/
def Session.joinQueue : Errand (Session σ) (Except Failure Unit) := do
  if ← attempt (σ := σ) Standing.joinQueue? then
    say (σ := σ) "You joined the duel queue!"
    return .ok ()
  else return .error (.refused .alreadyQueued)

namespace Seat

/-- Opens the event stream and reads what is there. -/
def listen : Errand (Session σ) (Except StreamEnd Subscription) := do
  let reply ← venue.link.openEvents
  Subscription.follow (Session.handler venue) reply

/-- Joins the queue and begins to read the event stream. -/
def joinQueue : StateM (Seat σ) (Except Failure Unit) := do
  match ← inSession Session.joinQueue.atOnce with
  | .error e => return .error e
  | .ok () =>
    modify fun seat => settled (listen venue seat.session)
    return .ok ()

/-- Takes bytes that have arrived; they are lost unless the reader waits for something. -/
def feed (bytes : List UInt8) : StateM (Seat σ) Unit :=
  modify fun seat => match seat.reader with
    | .waiting subscription =>
      settled (subscription.receive (Session.handler venue) bytes seat.session)
    | .stopped arrived resume => { seat with reader := .stopped (arrived ++ bytes) resume }
    | .absent | .ended => seat

/-- Takes the end of what the service was writing, with the reason if it broke. -/
def hangUp (reason : Option String) : StateM (Seat σ) Unit :=
  modify fun seat => match seat.reader with
    | .waiting subscription => closed venue reason subscription seat.session
    | .stopped arrived resume =>
      let (result, s) :=
        (resume { bytes := arrived, failure := reason } seat.session).drain { failure := reason }
      match result with
      | .ok subscription => closed venue reason subscription s
      | .error ending => concluded ending s
    | .absent | .ended => seat

end Seat

end Duelist
