import Duelist.Json.Record
/-!
# Duels and players

What the service tells about a duel and about its players.
-/

namespace Duelist

/-- How a duel ended, seen from the player who asks. -/
inductive DuelResult where
  /-- The player won. -/
  | win
  /-- The player lost. -/
  | lose
  /-- Neither won. -/
  | draw
  /-- Not known yet. -/
  | pending
  deriving Repr, DecidableEq, Inhabited

/-- The result with the given name; a name that is not known stands for a pending result. -/
def DuelResult.ofName (name : String) : DuelResult :=
  if name = "Win" then .win
  else if name = "Lose" then .lose
  else if name = "Draw" then .draw
  else .pending

/-- Reads a result. -/
def DuelResult.ofJson? (v : Json) : Option DuelResult :=
  v.choice?.map ofName

/-- How a result is announced to the player. -/
def DuelResult.headline : DuelResult → String
  | .win => "VICTORY!"
  | .lose => "DEFEAT"
  | .draw | .pending => "DRAW"

/-- The opponent, the task and the result of a duel. -/
structure DuelSummary where
  /-- The number of the duel. -/
  id : Int64
  /-- The task that is played. -/
  task : String
  /-- The number of the other player. -/
  opponent : Int64
  /-- The result, pending unless the service gives one. -/
  result : DuelResult
  deriving Repr, DecidableEq

/-- Reads a duel. -/
def DuelSummary.ofJson? (v : Json) : Option DuelSummary := do
  let field ← v.record? ["id", "task_id", "opponent_id", "result"]
  return {
    id := ← Json.required Json.int64? (field "id")
    task := ← Json.required Json.string? (field "task_id")
    opponent := ← Json.required Json.int64? (field "opponent_id")
    result := ← Json.defaulted .pending DuelResult.ofJson? (field "result") }

/-- The public profile of a player. -/
structure Player where
  /-- The name shown to others. -/
  nickname : String
  deriving Repr, DecidableEq

/-- Reads a profile. -/
def Player.ofJson? (v : Json) : Option Player := do
  let field ← v.record? ["nickname"]
  return { nickname := ← Json.required Json.string? (field "nickname") }

end Duelist
