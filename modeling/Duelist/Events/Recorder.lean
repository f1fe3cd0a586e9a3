import Duelist.Exchange.Endpoints
import Duelist.Events.Subscription
/-!
# Recording events

A handler that does nothing but keep the events. It may be set to raise the stop signal at one event
and to ask for the end of reading at another, both counted from one.
-/

namespace Duelist

/-- Events that were kept. -/
structure Recorder (σ : Type) where
  /-- The world. -/
  world : World σ
  /-- The events, in the order of arrival. -/
  events : List Event := []
  /-- The stop signal. -/
  raised : Bool := false

namespace Recorder

variable {σ : Type}

instance : MonadLift (Errand (World σ)) (Errand (Recorder σ)) :=
  ⟨Errand.within world fun w r => { r with world := w }⟩

/-- Keeps an event. -/
def keep (raiseAt stopAt : Option Nat) (e : Event) : StateM (Recorder σ) Flow := do
  modify fun r => { r with events := r.events ++ [e] }
  let count := (← get).events.length
  modify fun r => { r with raised := r.raised || raiseAt == some count }
  return if stopAt == some count then .stop else .proceed

/-- The recorder as a handler. -/
def handler (raiseAt stopAt : Option Nat) : Handler (Recorder σ) where
  handle e := .lift (keep raiseAt stopAt e)
  raised := raised

/-- Opens the event stream and reads it to its end. A stream that stays open is taken to be closed
by the service. -/
def listen (link : Link σ) (raiseAt stopAt : Option Nat) : Errand (Recorder σ) StreamEnd := do
  let reply ← link.openEvents
  match ← Subscription.follow (handler raiseAt stopAt) reply with
  | .error ending => return ending
  | .ok subscription => subscription.finish (handler raiseAt stopAt) none

end Recorder

end Duelist
