import Duelist.Json.Record
/-!
# Tokens

The pair of tokens by which the service knows a player: the access token goes with every request,
the refresh token is exchanged for a new pair when the access token is no longer accepted. Nothing
shown to the player depends on either.
-/

namespace Duelist

/-- An access token and the refresh token that came with it. Both are empty before the player has
signed in. -/
structure Tokens where
  /-- Sent with every request. -/
  access : String := ""
  /-- Exchanged for a new pair. -/
  refresh : String := ""
  deriving DecidableEq, Inhabited

/-- Reads a pair of tokens. -/
def Tokens.ofJson? (v : Json) : Option Tokens := do
  let field ← v.record? ["access_token", "refresh_token"]
  return {
    access := ← Json.required Json.string? (field "access_token")
    refresh := ← Json.required Json.string? (field "refresh_token") }

/-- True once there is a refresh token. -/
def Tokens.canRefresh (t : Tokens) : Bool :=
  !t.refresh.isEmpty

/-- What diagnostics show of a pair of tokens: nothing. -/
def Tokens.veiled (_ : Tokens) : String :=
  "Session \x7b access_token: \"***\", refresh_token: \"***\" \x7d"

end Duelist
