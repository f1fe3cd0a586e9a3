import Duelist.Session.Playing
/-!
# Seats

A player's seat: the session, and the reader of the event stream that drives it. The reader waits
for the next line, or it has stopped in the midst of an event, whose errand waits for the end of
what the service is still writing.

A service writes one stream at a time. While the reader has stopped, all bytes that arrive belong to
the body that the errand waits for.
-/

namespace Duelist

/-- What the reader of the event stream does. -/
inductive Reader (τ : Type) where
  /-- It was not started. -/
  | absent
  /-- It waits for the rest of a line. -/
  | waiting (s : Subscription)
  /-- It has stopped in the midst of an event. `arrived` is what has come since, and `resume` goes
  on once all has come. -/
  | stopped (arrived : List UInt8)
    (resume : Content → τ → Progress τ (Except StreamEnd Subscription))
  /-- It is done. -/
  | ended

/-- True while the reader waits for something. -/
def Reader.isBusy {τ : Type} : Reader τ → Bool
  | .waiting _ | .stopped _ _ => true
  | .absent | .ended => false

/-- A session and the reader that drives it. -/
structure Seat (σ : Type) where
  /-- The session. -/
  session : Session σ
  /-- The reader. -/
  reader : Reader (Session σ) := .absent

namespace Seat

variable {σ : Type} (venue : Venue σ)

/-- Acts on the session. -/
def inSession {α : Type} (act : Play σ α) : StateM (Seat σ) α := fun seat =>
  ((act seat.session).1, { seat with session := (act seat.session).2 })

instance : MonadLift (StateM (Session σ)) (StateM (Seat σ)) := ⟨inSession⟩

/-- The seat once reading is over. The player is told why, unless the session itself stopped it. -/
def concluded (ending : StreamEnd) (s : Session σ) : Seat σ :=
  match ending.notice? with
  | some text => { session := ((Session.notify text).atOnce s).2, reader := .ended }
  | none => { session := s, reader := .ended }

/-- The seat once the reader has come as far as it can, with nobody in between. -/
def settled : Progress (Session σ) (Except StreamEnd Subscription) → Seat σ
  | .done (.ok subscription) s => { session := s, reader := .waiting subscription }
  | .done (.error ending) s => concluded ending s
  | .going s next => settled (next s)
  | .waiting s resume => { session := s, reader := .stopped [] resume }

/-- The seat once the stream has come to its end, when the reader waits for a line. Whatever is read
from then on is empty, or breaks for the same reason. -/
def closed (reason : Option String) (subscription : Subscription) (s : Session σ) : Seat σ :=
  let (ending, s) :=
    (subscription.finish (Session.handler venue) reason s).drain { failure := reason }
  concluded ending s

end Seat

end Duelist
