import Duelist.Exchange.World
/-!
# Calls

A call sends one query on behalf of the player. When the access token is not accepted, the tokens
are refreshed and the query is sent once more; what comes back then is the result, whatever it is.

Several calls may be under way at a time. A call is therefore a value that says how far it has
come, and `Call.step` takes it on by one indivisible step: an exchange with the service, a read or
a write of the tokens, or the taking of the refresh lock. The lock is held from the second look at
the tokens until the new pair is stored, so that of several calls whose token was refused only the
first one refreshes; the others find other tokens stored and go on with those.

Main statements: each step brings a call closer to its end (`Call.rank_step_lt`), so that
`Call.complete` is defined for every call; it takes the call one step on and then to its end
(`Call.complete_eq`).
-/

namespace Duelist

/-- How far a call has come. -/
inductive Call where
  /-- About to read the access token. -/
  | reading (q : Query)
  /-- About to send `q` for the first time. -/
  | sending (q : Query) (used : String)
  /-- The token `used` was refused; about to take the refresh lock. -/
  | refused (q : Query) (used : String)
  /-- About to look at the stored tokens, holding the lock. -/
  | deciding (q : Query) (used : String)
  /-- About to send `spent`, the stored refresh token, holding the lock. -/
  | refreshing (q : Query) (spent : String)
  /-- About to store `pair` and to release the lock. -/
  | storing (q : Query) (pair : Tokens)
  /-- About to send `q` again. -/
  | retrying (q : Query) (fresh : String)
  /-- Over. -/
  | finished (result : Except Failure Reply)

/-- Asks for a new pair of tokens. -/
def Query.refresh (token : String) : Query :=
  .post "/users/refresh" (.strings [("refresh_token", token)])

/-- The pair of tokens in the reply to `Query.refresh`. -/
def refreshedTokens (reply : Except Failure Reply) : Except Failure Tokens := do
  let reply ← reply
  if reply.isSuccess then
    (reply.record Tokens.ofJson?).mapError .misfit
  else
    throw (.notSignedIn (some reply.status))

namespace Call

variable {σ : Type}

/-- True while the call holds the refresh lock. -/
def holdsLock : Call → Bool
  | .deciding _ _ | .refreshing _ _ | .storing _ _ => true
  | _ => false

/-- True if the next step sends the query of the call itself, or if there is no next step. -/
def isAtRest : Call → Bool
  | .sending _ _ | .retrying _ _ | .finished _ => true
  | _ => false

/-- A bound on the number of steps that are left. -/
def rank : Call → Nat
  | .reading _ => 7
  | .sending _ _ => 6
  | .refused _ _ => 5
  | .deciding _ _ => 4
  | .refreshing _ _ => 3
  | .storing _ _ => 2
  | .retrying _ _ => 1
  | .finished _ => 0

/-- Where a call goes once it has seen the stored tokens under the lock. -/
def decided (q : Query) (used : String) (stored : Tokens) : Call :=
  -- somebody else has stored another pair in the meantime, which is not to be refreshed again
  if stored.access ≠ used then .retrying q stored.access
  else if stored.refresh.isEmpty then .finished (.error (.notSignedIn none))
  else .refreshing q stored.refresh

/-- Where a call goes once its query was answered for the first time. -/
def answered (q : Query) (used : String) : Except Failure Reply → Call
  | .ok reply => if reply.isUnauthorized then .refused q used else .finished (.ok reply)
  | .error e => .finished (.error e)

/-- Where a call goes once the refresh was answered. -/
def refreshed (q : Query) (reply : Except Failure Reply) : Call :=
  match refreshedTokens reply with
  | .ok pair => .storing q pair
  | .error e => .finished (.error e)

/-- The next step of a call. -/
def step (link : Link σ) : Call → Act σ Call
  | .reading q => return .sending q (← Act.tokens).access
  | .sending q used => return answered q used (← link.send q used)
  | .refused q used => return .deciding q used
  | .deciding q used => return decided q used (← Act.tokens)
  | .refreshing q spent => return refreshed q (← link.sendAnonymously (.refresh spent))
  | .storing q pair => do
    Act.store pair
    return .retrying q pair.access
  | .retrying q fresh => return .finished (← link.send q fresh)
  | .finished result => return .finished result

/-! ### Every step counts -/

/-- Once it was decided what to do, fewer than four steps are left. -/
theorem rank_decided_lt (q : Query) (used : String) (stored : Tokens) :
    (decided q used stored).rank < 4 := by
  unfold decided
  split
  · simp [rank]
  · split <;> simp [rank]

/-- Once a reply has come, fewer than six steps are left. -/
theorem rank_answered_lt (q : Query) (used : String) (reply : Except Failure Reply) :
    (answered q used reply).rank < 6 := by
  cases reply with
  | error e => simp [answered, rank]
  | ok reply => simp only [answered]; split <;> simp [rank]

/-- Once the refresh was answered, fewer than three steps are left. -/
theorem rank_refreshed_lt (q : Query) (reply : Except Failure Reply) :
    (refreshed q reply).rank < 3 := by
  unfold refreshed
  split <;> simp [rank]

/-- A step brings a call closer to its end. -/
theorem rank_step_lt (link : Link σ) (c : Call) (w : World σ) (h : c.rank ≠ 0) :
    (c.step link w).1.rank < c.rank := by
  cases c with
  | reading q => exact (by decide : 6 < 7)
  | sending q used => exact rank_answered_lt q used _
  | refused q used => exact (by decide : 4 < 5)
  | deciding q used => exact rank_decided_lt q used _
  | refreshing q spent => exact rank_refreshed_lt q _
  | storing q pair => exact (by decide : 1 < 2)
  | retrying q fresh => exact (by decide : 0 < 1)
  | finished result => exact absurd rfl h

/-! ### Running calls -/

/-- Takes at most `n` steps, enough for a call whose rank is no more than `n`. -/
def completeWithin (link : Link σ) :
    (n : Nat) → (c : Call) → c.rank ≤ n → Act σ (Except Failure Reply)
  | _, .finished result, _ => return result
  | n + 1, c, h => fun w =>
    completeWithin link n (c.step link w).1
      (by
        by_cases h0 : c.rank = 0
        · have : (c.step link w).1.rank = 0 := by
            cases c with
            | finished result => rfl
            | _ => exact absurd h0 (by simp [rank])
          omega
        · have := rank_step_lt link c w h0
          omega)
      (c.step link w).2

/-- Takes a call to its end, with no other call in between. -/
def complete (link : Link σ) (c : Call) : Act σ (Except Failure Reply) :=
  c.completeWithin link c.rank (Nat.le_refl _)

/-- A call with no step ahead is finished. -/
theorem eq_finished_of_rank_le {c : Call} (h : c.rank ≤ 0) : ∃ result, c = .finished result := by
  cases c with
  | finished result => exact ⟨result, rfl⟩
  | _ => exact absurd h (by simp [rank])

/-- Steps beyond the last one change nothing. -/
theorem completeWithin_succ (link : Link σ) (n : Nat) (c : Call) (h : c.rank ≤ n)
    (h' : c.rank ≤ n + 1) : c.completeWithin link (n + 1) h' = c.completeWithin link n h := by
  induction n generalizing c with
  | zero => obtain ⟨result, rfl⟩ := eq_finished_of_rank_le h; rfl
  | succ n ih =>
    cases c with
    | finished result => rfl
    | _ => funext w; exact congrFun (ih _ _ _) _

/-- As many steps as the rank are enough, and more make no difference. -/
theorem completeWithin_eq (link : Link σ) (n : Nat) (c : Call) (h : c.rank ≤ n) :
    c.completeWithin link n h = c.complete link := by
  induction n with
  | zero => obtain ⟨result, rfl⟩ := eq_finished_of_rank_le h; rfl
  | succ n ih =>
    by_cases h' : c.rank ≤ n
    · rw [completeWithin_succ link n c h' h, ih h']
    · have h'' : c.rank = n + 1 := by omega
      unfold complete
      congr 1
      exact h''.symm

/-- To complete a call in a world, take a step there and complete what it has come to. -/
theorem complete_apply (link : Link σ) (c : Call) (w : World σ) :
    c.complete link w = (c.step link w).1.complete link (c.step link w).2 := by
  rw [← completeWithin_eq link (c.rank + 1) c (Nat.le_succ _)]
  cases c with
  | finished result => rfl
  | _ => simp only [completeWithin, completeWithin_eq]

/-- To take a call to its end is to take it one step on, and then to its end. -/
theorem complete_eq (link : Link σ) (c : Call) :
    c.complete link = c.step link >>= fun d => d.complete link :=
  funext (complete_apply link c)

/-- A finished call is complete. -/
@[simp]
theorem complete_finished (link : Link σ) (result : Except Failure Reply) :
    (Call.finished result).complete link = pure result := rfl

/-- Takes at most `n` steps, up to the next one that sends the query of the call itself. -/
def settleWithin (link : Link σ) : Nat → Call → Act σ Call
  | 0, c => return c
  | n + 1, c =>
    if c.isAtRest then return c
    else do settleWithin link n (← c.step link)

/-- Takes a call up to the next step that sends its own query, or to its end. -/
def settle (link : Link σ) (c : Call) : Act σ Call :=
  c.settleWithin link c.rank

end Call

end Duelist
