import Duelist.Proofs.Dealings
import Duelist.Proofs.Expiry
import Duelist.Proofs.WireFormat
/-!
# Quotations

What becomes of a reply that should hold a pair of tokens and does not (`Link.quotes_grants`). It is
not stored, and nothing is shown by those who asked for it; but the failure that they are left with
quotes the reply word for word. Two such replies therefore lead to the same failure, and to the same
words for it, only if they are the same text. A token that comes without the other one is part of
that text: whoever is told of the failure is told the token (`half_pair_is_told`).
-/

namespace Duelist

variable {σ : Type}

/-! ### Replies that hold no pair -/

/-- A success that holds the text, which is no pair of tokens. -/
structure Reply.IsBadGrant (r : Reply) (text : String) : Prop where
  status : r.status = 200
  body : r.body = .ofText text
  bad : (Json.ofText? text).bind Tokens.ofJson? = none

/-- The failure of whoever gets the text instead of a pair of tokens. -/
def Failure.quoting (text : String) : Failure :=
  .misfit (.notRecord text)

/-- What comes of a question that fails. -/
def Question.failed (e : Failure) : Question → Answer
  | .events => .events (.error e)
  | .duel _ => .duel (.error e)
  | .player _ => .player (.error e)
  | .task _ => .task (.error e)
  | .taskFile _ _ => .taskFile (.error e)
  | .handIn _ _ _ => .handIn (.error e)
  | .grading _ _ => .grading (.error e)

namespace Link

/-- In the world `w` the token of the query is refused, and the text is what comes in exchange for
the refresh token, `c` being what is in a body that is still being written. -/
structure MeetsBadGrant (link : Link σ) (q : Query) (c : Content) (w : World σ) (text : String) :
    Prop where
  refused : ∃ refusal : Reply, refusal.status = 401 ∧
    link.outcome (q.carrying link.base w.tokens.access) w = .ok refusal
  refreshable : w.tokens.refresh ≠ ""
  granted : ∃ grant : Reply, (grant.read c).IsBadGrant text ∧
    link.outcome (.refresh link.base w.tokens.refresh)
      (link.asked (q.carrying link.base w.tokens.access) w) = .ok grant

/-- The world once the query was sent, and then a refresh, and nothing else was done. -/
def refreshAsked (link : Link σ) (q : Query) (w : World σ) : World σ :=
  link.asked (.refresh link.base w.tokens.refresh)
    (link.asked (q.carrying link.base w.tokens.access) w)

/-- Whoever gets no pair of tokens quotes what came instead. -/
structure QuotesGrants (link : Link σ) : Prop where
  /-- Signing in. -/
  signIn (w : World σ) (nickname password text : String) (grant : Reply)
    (hgrant : grant.IsBadGrant text)
    (h : link.outcome (.signIn link.base nickname password) w = .ok grant) :
    link.signIn nickname password w =
      (.error (.quoting text), link.asked (.signIn link.base nickname password) w)
  /-- Sending a query on behalf of the player. -/
  request (q : Query) (c : Content) (w : World σ) (text : String)
    (h : link.MeetsBadGrant q c w text) :
    (link.request q).reading c w = (.error (.quoting text), link.refreshAsked q w)
  /-- Asking a question. -/
  ask (q : Question) (c : Content) (w : World σ) (text : String)
    (h : link.MeetsBadGrant q.query c w text) :
    (q.ask link).reading c w = (q.failed (.quoting text), link.refreshAsked q.query w)
  /-- Nothing is stored, and nothing shown. -/
  silent (q : Query) (w : World σ) :
    (link.refreshAsked q w).tokens = w.tokens ∧ (link.refreshAsked q w).lines = w.lines
  /-- The failure is worded so. -/
  worded (text : String) : (Failure.quoting text).message =
    "unexpected response: " ++ ("invalid JSON body: '" ++ text ++ "'")
  /-- It is the same failure for the same text only, and it is worded alike for the same text
  only. -/
  apart (text text' : String) : (Failure.quoting text = .quoting text' ↔ text = text') ∧
    ((Failure.quoting text).message = (Failure.quoting text').message ↔ text = text')

/-! ### They are quoted -/

/-- A refresh that is granted with something else quotes it. -/
lemma refreshedTokens_of_isBadGrant {grant : Reply} {text : String} (h : grant.IsBadGrant text) :
    refreshedTokens (.ok grant) = .error (.quoting text) := by
  have hsuccess : grant.isSuccess = true := by simp [Reply.isSuccess, h.status]
  have hrecord := Reply.record_eq_error_of_bind h.body h.bad
  simp [refreshedTokens, bind, Except.bind, hsuccess, hrecord, Except.mapError, Failure.quoting]

variable (link : Link σ) (c : Content) (q : Query) (w : World σ)

/-- So does a sign-in. -/
lemma signIn_of_isBadGrant {nickname password text : String} {grant : Reply}
    (hgrant : grant.IsBadGrant text)
    (h : link.outcome (.signIn link.base nickname password) w = .ok grant) :
    link.signIn nickname password w =
      (.error (.quoting text), link.asked (.signIn link.base nickname password) w) := by
  have hrecord := Reply.record_eq_error_of_bind hgrant.body hgrant.bad
  have hasked : link.askTokens nickname password w =
      (.error (.quoting text), link.asked (.signIn link.base nickname password) w) := by
    rw [link.askTokens_apply, h, grantedTokens_ok, if_pos hgrant.status, hrecord]
    rfl
  rw [signIn, act_bind, hasked]
  rfl

/-- So does the search for a fresh token in which the refresh is made. -/
lemma reading_freshToken_of_isBadGrant {grant : Reply} {text : String}
    (hrefresh : w.tokens.refresh ≠ "") (hgrant : (grant.read c).IsBadGrant text)
    (h : link.outcome (.refresh link.base w.tokens.refresh) w = .ok grant) :
    (link.freshToken w.tokens.access).reading c w =
      (.error (.quoting text), link.asked (.refresh link.base w.tokens.refresh) w) := by
  have htokens : Act.tokens w = (w.tokens, w) := rfl
  have hempty : w.tokens.refresh.isEmpty = false := by simpa using hrefresh
  have hsuccess : grant.isSuccess = true := by
    simp [Reply.isSuccess, ← Reply.status_read c grant, hgrant.status]
  have hawaited (v : World σ) :
      (grant.awaited : Errand _ Reply).reading c v = (grant.read c, v) := by
    rw [Errand.reading_awaited]
    rfl
  have hrefreshed := refreshedTokens_of_isBadGrant hgrant
  simp only [freshToken, Errand.reading_bind, Errand.reading_liftM, act_bind, htokens, ne_eq,
    not_true_eq_false, if_false, hempty, Bool.false_eq_true, link.sendAnonymously_refresh_apply, h,
    Except.mapError, hsuccess, if_true, hawaited, hrefreshed]
  rfl

variable {c q w}

/-- So does a query sent on behalf of the player for which the refresh is made. -/
lemma reading_request_of_meetsBadGrant {text : String} (h : link.MeetsBadGrant q c w text) :
    (link.request q).reading c w = (.error (.quoting text), link.refreshAsked q w) := by
  obtain ⟨⟨refusal, hrefusal, hout⟩, hrefresh, grant, hgrant, hgranted⟩ := h
  have htokens : Act.tokens w = (w.tokens, w) := rfl
  have hunauthorized : refusal.isUnauthorized = true := by simp [Reply.isUnauthorized, hrefusal]
  have hsame : (link.asked (q.carrying link.base w.tokens.access) w).tokens = w.tokens := rfl
  have hfresh := link.reading_freshToken_of_isBadGrant c
    (link.asked (q.carrying link.base w.tokens.access) w) hrefresh hgrant hgranted
  rw [hsame] at hfresh
  simp only [request, Errand.reading_bind, Errand.reading_liftM, act_bind, htokens,
    link.send_apply, hout, Except.mapError, hunauthorized, if_true, hfresh, refreshAsked]
  rfl

/-- A question fails as its query does. -/
lemma reading_ask_of_error {q : Question} {e : Failure} {w' : World σ}
    (h : (link.request q.query).reading c w = (.error e, w')) :
    (q.ask link).reading c w = (q.failed e, w') := by
  have hanswer : q.answer c (.error e) = q.failed e := by cases q <;> rfl
  rw [q.reading_ask link c, ← hanswer]
  exact congrArg (fun p : Except Failure Reply × World σ => (q.answer c p.1, p.2)) h

/-- A reply that should hold a pair of tokens and does not is quoted to whoever asked for it. -/
theorem quotes_grants (link : Link σ) : link.QuotesGrants where
  signIn w _ _ _ _ := link.signIn_of_isBadGrant w
  request _ _ _ _ h := link.reading_request_of_meetsBadGrant h
  ask _ _ _ _ h := link.reading_ask_of_error (link.reading_request_of_meetsBadGrant h)
  silent q w := ⟨rfl, by simp [refreshAsked, asked, World.lines, Entry.line?]⟩
  worded _ := rfl
  apart text text' := by
    have hworded (text : String) : (Failure.quoting text).message =
        "unexpected response: " ++ ("invalid JSON body: '" ++ text ++ "'") := rfl
    constructor
    · simp [Failure.quoting]
    · rw [hworded, hworded]
      simp

/-! ### A token that is told -/

/-- The way to a service that accepts no access token, and answers `grant` whenever it is asked for
a pair. -/
def granting (grant : Reply) : Link Unit where
  base := ""
  answer r s := (.ok (if r.asksTokens "" then grant else { status := 401, body := .live }), s)

/-- An access token without a refresh token. -/
def halfPair (access : String) : Reply where
  status := 200
  body := .ofText ("\x7b\"access_token\":\"" ++ access ++ "\"\x7d")

/-- Whoever signs in, and whoever asks for a player when the token is refused, is told the access
token of a pair that lacks the other one. -/
theorem half_pair_is_told :
    ((granting (halfPair "secret-1")).signIn "ann" "pw" { service := () }).1.mapError
        Failure.message =
      .error "unexpected response: invalid JSON body: '\x7b\"access_token\":\"secret-1\"\x7d'" ∧
    ((granting (halfPair "secret-2")).signIn "ann" "pw" { service := () }).1.mapError
        Failure.message =
      .error "unexpected response: invalid JSON body: '\x7b\"access_token\":\"secret-2\"\x7d'" ∧
    (((granting (halfPair "secret-3")).player 3).atOnce
        { service := (), tokens := ⟨"a0", "r0"⟩ }).1.mapError Failure.message =
      .error "unexpected response: invalid JSON body: '\x7b\"access_token\":\"secret-3\"\x7d'" := by
  decide +kernel

end Link

end Duelist
