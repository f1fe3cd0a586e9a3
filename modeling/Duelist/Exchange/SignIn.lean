import Duelist.Exchange.World
/-!
# Signing in

A nickname and a password are exchanged for a pair of tokens. Signing in takes two steps, the
exchange and the storing of the pair; it does not wait for the refresh lock.
-/

namespace Duelist

/-- Hands in a nickname and a password. -/
def Query.signIn (nickname password : String) : Query :=
  .post "/users/login" (.strings [("nickname", nickname), ("password", password)])

/-- The pair of tokens in the reply to `Query.signIn`. -/
def grantedTokens (reply : Except Failure Reply) : Except Failure Tokens := do
  let reply ← (← reply).success
  (reply.record Tokens.ofJson?).mapError .misfit

namespace Link

variable {σ : Type}

/-- The first step: asks for a pair of tokens. -/
def askTokens (link : Link σ) (nickname password : String) : Act σ (Except Failure Tokens) :=
  return grantedTokens (← link.sendAnonymously (.signIn nickname password))

/-- Signs in: asks for a pair of tokens and, as the second step, stores it. -/
def signIn (link : Link σ) (nickname password : String) : Act σ (Except Failure Unit) := do
  match ← link.askTokens nickname password with
  | .ok tokens =>
    Act.store tokens
    return .ok ()
  | .error e => return .error e

end Link

end Duelist
