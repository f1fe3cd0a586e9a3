import Duelist.Proofs.Dealings
import Duelist.Proofs.RefreshAndRetry
/-!
# Renamed tokens

A renaming of strings that keeps them apart and keeps the empty one, and what it means that two
requests, or two replies to a request for tokens, differ by it only (`Renaming.Requests`,
`Renaming.Grants`). Such replies are read as pairs that differ by it, or fail for the same reason
(`Renaming.Grants.refreshedTokens_eq`, `Renaming.Grants.grantedTokens_eq`).
-/

namespace Duelist

variable {ε : Type}

/-! ### Renamings -/

/-- A renaming of strings, which keeps the empty one. -/
structure Renaming where
  /-- The new name of a string. -/
  apply : String → String
  /-- Strings are kept apart. -/
  injective : Function.Injective apply
  /-- The empty string is kept. -/
  apply_empty : apply "" = ""

namespace Renaming

variable (f : Renaming)

instance : CoeFun Renaming fun _ => String → String := ⟨apply⟩

/-- Only the empty string is renamed to the empty one. -/
lemma apply_eq_empty_iff {s : String} : f s = "" ↔ s = "" := by
  conv_lhs => rw [← f.apply_empty]
  exact f.injective.eq_iff

/-- A pair of tokens, renamed. -/
def tokens (t : Tokens) : Tokens where
  access := f t.access
  refresh := f t.refresh

/-- Two contents that hold the same pair of tokens up to the renaming, or are the same. -/
def Contents (c c' : Content) : Prop :=
  match c.pair? with
  | some pair => c'.pair? = some (f.tokens pair)
  | none => c' = c

/-- Two results of a request for tokens that are the same up to the renaming of a pair. -/
inductive Grants : Except ε Reply → Except ε Reply → Prop
  | unreached (e : ε) : Grants (.error e) (.error e)
  | refused (r : Reply) (hr : r.status ≠ 200) : Grants (.ok r) (.ok r)
  | live : Grants (.ok { status := 200, body := .live }) (.ok { status := 200, body := .live })
  | whole (c c' : Content) (h : f.Contents c c') :
      Grants (.ok { status := 200, body := .whole c }) (.ok { status := 200, body := .whole c' })

/-- Two requests that differ by the renaming of the access token, or of the refresh token in the
request for a new pair. -/
inductive Requests (base : String) : Request → Request → Prop
  | bearer (r : Request) (hr : r.asksTokens base = false) :
      Requests base r { r with bearer := r.bearer.map f }
  | refresh (token : String) :
      Requests base (.refresh base token) (.refresh base (f token))
  | signIn (nickname password : String) :
      Requests base (.signIn base nickname password) (.signIn base nickname password)

/-- Two outcomes of the request `r`: the same, up to the renaming of a pair if it asks for one. -/
def Outcomes (base : String) (r : Request) (o o' : Outcome) : Prop :=
  if r.asksTokens base then f.Grants o o' else o' = o

variable {f}

/-- Two results that grant the same pair up to the renaming are read as such. -/
lemma Grants.map_eq {a a' : Except Failure Reply} (h : f.Grants a a')
    {read : Except Failure Reply → Except Failure Tokens}
    (herror : ∀ e, read (.error e) = .error e)
    (hne : ∀ r : Reply, r.status ≠ 200 → ∃ e, read (.ok r) = .error e)
    (heq : ∀ r : Reply, r.status = 200 →
      read (.ok r) = (r.record Tokens.ofJson?).mapError .misfit) :
    read a' = (read a).map f.tokens := by
  -- without a pair, the record is refused in both cases and with the same words
  have hsame (r : Reply) (hr : r.status = 200) (hpair : r.body.content.pair? = none) :
      read (.ok r) = (read (.ok r)).map f.tokens := by
    rw [heq r hr]
    cases hrecord : r.record Tokens.ofJson? with
    | error what => rfl
    | ok pair =>
      rw [Reply.record_eq_ok_iff.mp hrecord] at hpair
      cases hpair
  cases h with
  | unreached e =>
    rw [herror]
    rfl
  | refused r hr =>
    obtain ⟨e, he⟩ := hne r hr
    rw [he]
    rfl
  | live => exact hsame _ rfl Content.pair?_empty
  | whole c c' hc =>
    unfold Contents at hc
    split at hc
    next pair hpair =>
      have hrecord : (Reply.mk 200 (.whole c)).record Tokens.ofJson? = .ok pair :=
        Reply.record_eq_ok_iff.mpr hpair
      have hrecord' : (Reply.mk 200 (.whole c')).record Tokens.ofJson? = .ok (f.tokens pair) :=
        Reply.record_eq_ok_iff.mpr hc
      rw [heq _ rfl, heq _ rfl, hrecord, hrecord']
      rfl
    next hpair =>
      subst hc
      exact hsame _ rfl hpair

/-- A refresh grants the same pair up to the renaming. -/
lemma Grants.refreshedTokens_eq {a a' : Except Failure Reply} (h : f.Grants a a') :
    refreshedTokens a' = (refreshedTokens a).map f.tokens :=
  h.map_eq (fun _ => rfl) (fun _ hr => ⟨_, refreshedTokens_of_ne hr⟩)
    fun _ hr => refreshedTokens_of_eq hr

/-- So does a sign-in. -/
lemma Grants.grantedTokens_eq {a a' : Except Failure Reply} (h : f.Grants a a') :
    grantedTokens a' = (grantedTokens a).map f.tokens :=
  h.map_eq (fun _ => rfl)
    (fun r hr => ⟨r.rejection, (grantedTokens_ok r).trans (if_neg hr)⟩)
    fun r hr => (grantedTokens_ok r).trans (if_pos hr)

/-- A service that is not reached fails in the same way in both cases. -/
lemma Grants.mapError {o o' : Outcome} (h : f.Grants o o') :
    f.Grants (o.mapError Failure.ofReasons) (o'.mapError Failure.ofReasons) := by
  cases h with
  | unreached reasons => exact .unreached _
  | refused r hr => exact .refused r hr
  | live => exact .live
  | whole c c' hc => exact .whole c c' hc

end Renaming

/-- True of a query that does not ask for tokens. -/
def Query.IsPlain (base : String) (q : Query) : Prop :=
  ∀ token, (q.carrying base token).asksTokens base = false

/-- The requests for one query differ by the renaming of the token. -/
lemma Renaming.requests_carrying (f : Renaming) {base : String} {q : Query} (hq : q.IsPlain base)
    (token : String) : f.Requests base (q.carrying base token) (q.carrying base (f token)) := by
  have h : q.carrying base (f token) =
      { q.carrying base token with bearer := (q.carrying base token).bearer.map f } := by
    simp only [Query.carrying, f.apply_eq_empty_iff]
    split <;> rfl
  rw [h]
  exact .bearer _ (hq token)

end Duelist
