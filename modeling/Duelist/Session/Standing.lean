import Duelist.Service.Duel
/-!
# Standing

Where the player stands: first idle, then in the queue, then in a duel until it ends, and then done.

    idle → queued → active → finishing → over

A standing changes in the ways given below and in no other. Each change that is not always possible
is a partial function, `none` where the standing stays as it is.
-/

namespace Duelist

/-- The phases of a session, in order. -/
inductive Phase where
  /-- Not in the queue yet. -/
  | idle
  /-- Waiting for an opponent. -/
  | queued
  /-- In a duel; solutions are accepted. -/
  | active
  /-- The duel is over; the result is being fetched and the followers are stopping. -/
  | finishing
  /-- The session is over. -/
  | over
  deriving Repr, DecidableEq, Inhabited

/-- The duel that is being played. -/
structure Duel where
  /-- The number of the duel. -/
  id : Int64
  /-- The number of the other player, once known. -/
  opponent : Option Int64
  /-- The task, once known. -/
  task : Option String
  /-- The result, pending while the duel runs. -/
  result : DuelResult := .pending
  deriving Repr, DecidableEq

/-- Where the player stands. -/
structure Standing where
  /-- The phase. -/
  phase : Phase := .idle
  /-- The duel, from its start until the result was asked for. -/
  duel : Option Duel := none
  /-- True while a duel runs. -/
  active : Bool := false
  /-- True once the followers were told to stop. -/
  stopping : Bool := false
  /-- Every phase so far, the oldest first. -/
  history : List Phase := [.idle]
  deriving Repr, DecidableEq

namespace Standing

/-- Goes on to another phase. -/
def enter (phase : Phase) (s : Standing) : Standing :=
  { s with phase, history := s.history ++ [phase] }

/-- Joins the queue, which only an idle player does. -/
def joinQueue? (s : Standing) : Option Standing :=
  if s.phase = .idle then some (s.enter .queued) else none

/-- Begins a duel, which only a player in the queue does. -/
def begin? (duel : Int64) (opponent : Option Int64) (task : Option String) (s : Standing) :
    Option Standing :=
  if s.phase = .queued then
    some ({ s with duel := some { id := duel, opponent, task }, active := true }.enter .active)
  else none

/-- Notes the opponent and the task of the duel. -/
def learn (opponent : Int64) (task : String) (s : Standing) : Standing :=
  { s with duel := s.duel.map fun d => { d with opponent := some opponent, task := some task } }

/-- The number of the duel for which solutions are accepted. -/
def accepting? (s : Standing) : Option Int64 :=
  if s.active ∧ s.phase = .active then s.duel.map Duel.id else none

/-- Begins to finish the duel `id`, if it is the one that is being played. -/
def finish? (id : Int64) (s : Standing) : Option Standing :=
  if s.duel.map Duel.id = some id ∧ s.phase = .active then some (s.enter .finishing) else none

/-- The duel that is being played as it goes down, with the result if one is known. -/
def outcome (result : Option DuelResult) (s : Standing) : Option Duel :=
  s.duel.map fun d => { d with result := result.getD d.result }

/-- Closes the duel and asks the followers to stop. -/
def close (s : Standing) : Standing :=
  { s with duel := none, active := false, stopping := true }

/-- Asks the followers to stop. -/
def leave (s : Standing) : Standing :=
  { s with stopping := true }

end Standing

/-- How a session ended. -/
structure Closing where
  /-- The duel with its result, which is still pending if it could not be fetched. -/
  duel : Option Duel
  /-- The number of followers that were given up. -/
  givenUp : Nat
  deriving Repr, DecidableEq

end Duelist
