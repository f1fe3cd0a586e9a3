import Duelist.Exchange.Call
import Duelist.Exchange.Errand
/-!
# Asking

A query sent on behalf of the player by somebody who sees it through: with the stored access token,
and a second time with a fresh one when the first was refused. The reply to a refresh is read to its
end, and so is the reply to the query if the one who asks wants to read it.

Main statement: done at once, this is what a `Call` comes to (`Link.request_atOnce`).
-/

namespace Duelist.Link

variable {σ : Type} (link : Link σ)

/-- An access token other than `used`: the stored one if it is another by now, or else that of a new
pair, which is stored. -/
def freshToken (used : String) : Errand (World σ) (Except Failure String) := do
  let stored ← Act.tokens (σ := σ)
  -- somebody else has stored another pair in the meantime
  if stored.access ≠ used then return .ok stored.access
  else if stored.refresh.isEmpty then return .error (.notSignedIn none)
  else match ← link.sendAnonymously (.refresh stored.refresh) with
    | .error e => return .error e
    | .ok reply =>
      -- a refused refresh is not read: its status is all that counts
      match refreshedTokens (.ok (← if reply.isSuccess then reply.awaited else pure reply)) with
      | .error e => return .error e
      | .ok pair =>
        Act.store (σ := σ) pair
        return .ok pair.access

/-- Sends `q` on behalf of the player. -/
def request (q : Query) : Errand (World σ) (Except Failure Reply) := do
  let used := (← Act.tokens (σ := σ)).access
  match ← link.send q used with
  | .error e => return .error e
  | .ok reply =>
    if reply.isUnauthorized then
      match ← link.freshToken used with
      | .error e => return .error e
      | .ok fresh => link.send q fresh
    else return .ok reply

/-- Sends `q` on behalf of the player and reads the reply to its end. -/
def ask (q : Query) : Errand (World σ) (Except Failure Reply) := do
  match ← link.request q with
  | .error e => return .error e
  | .ok reply => return .ok (← reply.awaited)

/-! ### The same as a call -/

/-- Finding a fresh token and sending the query with it is the rest of the call. -/
theorem freshToken_atOnce (q : Query) (used : String) :
    ((link.freshToken used).atOnce >>= fun
      | .error e => pure (.error e)
      | .ok fresh => link.send q fresh) = (Call.deciding q used).complete link := by
  rw [Call.complete_eq]
  simp only [freshToken, Call.step, Errand.atOnce_bind, Errand.atOnce_liftM, bind_assoc, pure_bind]
  congr 1
  funext stored
  unfold Call.decided
  split
  · simp [Call.complete_eq link (.retrying _ _), Call.step]
  split
  · simp
  rw [Call.complete_eq]
  simp [Call.step]
  congr 1
  funext answer
  cases answer with
  | error e => rfl
  | ok reply =>
    have h : refreshedTokens (.ok { reply with body := .whole reply.body.content }) =
        refreshedTokens (.ok reply) := rfl
    by_cases hs : reply.isSuccess = true <;> cases hr : refreshedTokens (.ok reply) <;>
      simp [Call.refreshed, hs, hr, h, Reply.atOnce_awaited,
        Call.complete_eq link (.storing _ _), Call.complete_eq link (.retrying _ _), Call.step]

/-- To see a query through at once is to take a call to its end with no other call in between. -/
theorem request_atOnce (q : Query) :
    (link.request q).atOnce = (Call.reading q).complete link := by
  rw [Call.complete_eq]
  simp only [request, Call.step, Errand.atOnce_bind, Errand.atOnce_liftM, bind_assoc, pure_bind]
  congr 1
  funext stored
  rw [Call.complete_eq]
  simp only [Call.step, bind_assoc, pure_bind]
  congr 1
  funext answer
  cases answer with
  | error e => simp [Call.answered]
  | ok reply =>
    by_cases h : reply.isUnauthorized
    · rw [show Call.answered q stored.access (.ok reply) = .refused q stored.access by
        simp [Call.answered, h], Call.complete_eq]
      simp [Call.step, h, ← freshToken_atOnce]
      congr 1
      funext answer
      cases answer <;> rfl
    · simp [Call.answered, h]

end Duelist.Link
