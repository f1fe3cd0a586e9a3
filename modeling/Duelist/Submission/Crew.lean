import Duelist.Submission.Follower
/-!
# Crews

All followers of a player, numbered from zero in the order in which they were started, with the
world that they share and the stop signal. A follower is started only while the signal is not
raised. When it is raised, each follower finishes the question it is at, in order of number. Joining
waits for the followers that were not waited for before; those that do not answer in time are given
up and counted.

Which followers never answer is not for the client to say: it is given from outside, as a predicate
on their numbers.
-/

namespace Duelist

/-- The followers of a player, and what they share. -/
structure Crew (σ : Type) where
  /-- The world. -/
  world : World σ
  /-- The stop signal. -/
  raised : Bool := false
  /-- The followers in order of number. -/
  followers : List Follower := []
  /-- How many of them, from the first on, were waited for. -/
  joined : Nat := 0

namespace Crew

variable {σ : Type} (link : Link σ)

/-- Acts in the world of the crew. -/
def inWorld {α : Type} (act : Act σ α) : StateM (Crew σ) α := fun crew =>
  ((act crew.world).1, { crew with world := (act crew.world).2 })

instance : MonadLift (StateM (World σ)) (StateM (Crew σ)) := ⟨inWorld⟩

/-- The number of followers that were not waited for. -/
def size (crew : Crew σ) : Nat :=
  crew.followers.length - crew.joined

/-- Why a follower is not started. -/
def refusal : String :=
  "the session is closing"

/-- Starts a follower, and tells whether it did. -/
def follow (duel submission : Int64) : StateM (Crew σ) Bool := do
  if (← get).raised then return false
  else
    let follower ← Follower.start link duel submission
    modify fun crew => { crew with followers := crew.followers ++ [follower] }
    return true

/-- What comes of moving a follower. -/
inductive Moved where
  /-- There is no follower of that number. -/
  | absent
  /-- It had ended before. -/
  | alreadyEnded
  /-- It has ended now. -/
  | ended
  /-- It is at rest again. -/
  | asking
  deriving Repr, DecidableEq

/-- Lets the follower numbered `n` make one move. -/
def move (n : Nat) : StateM (Crew σ) Moved := do
  let crew ← get
  match crew.followers[n]? with
  | none => return .absent
  | some follower =>
    if follower.hasEnded then return .alreadyEnded
    else
      let follower ← Follower.move link crew.raised follower
      modify fun crew => { crew with followers := crew.followers.set n follower }
      return if follower.hasEnded then .ended else .asking

/-- Lets the followers numbered from `n` on conclude, except those that never answer. -/
def concludeFrom (hangs : Nat → Bool) : Nat → List Follower → Act σ (List Follower)
  | _, [] => return []
  | n, follower :: followers => do
    let follower ← if hangs n then pure follower else Follower.conclude link follower
    return follower :: (← concludeFrom hangs (n + 1) followers)

/-- Raises the stop signal; the followers conclude. -/
def raise (hangs : Nat → Bool) : StateM (Crew σ) Unit := do
  modify fun crew => { crew with raised := true }
  -- one after the other, in order of number, all of them under the raised signal
  let followers ← inWorld (concludeFrom link hangs 0 (← get).followers)
  modify fun crew => { crew with followers }

/-- True if a follower that was not waited for has not ended. -/
def isBusy (crew : Crew σ) : Bool :=
  (crew.followers.drop crew.joined).any fun follower => !follower.hasEnded

/-- Waits for the followers that were not waited for, and tells how many were given up. -/
def join : StateM (Crew σ) Nat := do
  let crew ← get
  -- the list is taken as a whole, and the next one who waits finds it empty
  set { crew with joined := crew.followers.length }
  return (crew.followers.drop crew.joined).countP fun follower => !follower.hasEnded

end Crew

end Duelist
