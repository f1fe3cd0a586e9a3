import Duelist.Exchange.Asking
import Mathlib.Tactic.Lemma
/-!
# What the steps of a call do

All that the theory needs to know about `Call.step`, said twice and never unfolded again.

`Call.leads_step` is about the world. A step does at most one thing to it: it sends a request, or it
stores a pair of tokens. `Call.deeds` lists what it does, and the step leads from the world that it
finds to the one that its deeds make of it.

`Call.goes_step` is about the call and the stored tokens. `Call.Goes` lists the twelve ways in which
a step can go, with all that can be known of the tokens in each.
-/

namespace Duelist

variable {σ : Type}

/-! ### Exchanges -/

namespace Link

/-- What the service answers to a request in the world `w`. -/
def outcome (link : Link σ) (request : Request) (w : World σ) : Outcome :=
  (link.answer request w.service).1

/-- The world `w` after a request. -/
def asked (link : Link σ) (request : Request) (w : World σ) : World σ :=
  { w with
    service := (link.answer request w.service).2
    transcript := w.transcript ++ [.sent request (link.outcome request w)] }

end Link

/-- The request for `q` with the access token `token`, which is left out if it is empty. -/
def Query.carrying (base : String) (q : Query) (token : String) : Request where
  method := q.method
  url := base ++ q.path
  bearer := if token = "" then none else some token
  accept := q.accept
  json := q.json
  streaming := q.streaming

/-- The request for a new pair of tokens in exchange for the refresh token `token`. -/
def Request.refresh (base token : String) : Request where
  method := .post
  url := base ++ "/users/refresh"
  bearer := none
  accept := none
  json := some (.strings [("refresh_token", token)])
  streaming := false

namespace Link

variable (link : Link σ)

/-- Sending a query on behalf of the player is one exchange. -/
lemma send_apply (q : Query) (token : String) (w : World σ) :
    link.send q token w = ((link.outcome (q.carrying link.base token) w).mapError .ofReasons,
      link.asked (q.carrying link.base token) w) := by
  have h : Request.ofQuery link.base q (if token.isEmpty then none else some token) =
      q.carrying link.base token := by
    by_cases h : token = "" <;> simp [Query.carrying, Request.ofQuery, h]
  rw [← h]
  rfl

/-- Refreshing the tokens is one exchange. -/
lemma sendAnonymously_refresh_apply (token : String) (w : World σ) :
    link.sendAnonymously (.refresh token) w =
      ((link.outcome (.refresh link.base token) w).mapError .ofReasons,
        link.asked (.refresh link.base token) w) := rfl

/-- The last that is done for a fresh token: the pair of a refresh that was granted is stored. -/
def keepRefreshed (reply : Reply) : Errand (World σ) (Except Failure String) :=
  match refreshedTokens (.ok reply) with
  | .error e => return .error e
  | .ok pair => do
    Act.store (σ := σ) pair
    return .ok pair.access

end Link

/-! ### Deeds -/

/-- Something that a call does to the world. -/
inductive Deed where
  /-- Sends a request; this came of it. -/
  | sent (request : Request) (outcome : Outcome)
  /-- Stores a pair of tokens. -/
  | stored (pair : Tokens)

namespace Deed

/-- The request that was sent, with its outcome. -/
def exchange? : Deed → Option (Request × Outcome)
  | .sent request outcome => some (request, outcome)
  | .stored _ => none

/-- The pair that was stored. -/
def pair? : Deed → Option Tokens
  | .sent _ _ => none
  | .stored pair => some pair

/-- How the deeds of one step lead from a world to the next. An answer is the one that the service
gives at that moment. -/
inductive Leads (link : Link σ) : World σ → List Deed → World σ → Prop
  | nothing (w : World σ) : Leads link w [] w
  | sent (w : World σ) (request : Request) :
      Leads link w [.sent request (link.outcome request w)] (link.asked request w)
  | stored (w : World σ) (pair : Tokens) : Leads link w [.stored pair] { w with tokens := pair }

variable {link : Link σ} {w w' : World σ} {deeds : List Deed}

/-- What a step sent is what the transcript has in addition. -/
lemma Leads.exchanges_eq (h : Leads link w deeds w') :
    w'.exchanges = w.exchanges ++ deeds.filterMap exchange? := by
  cases h with
  | nothing => simp
  | sent request => simp [Link.asked, World.exchanges, exchange?, Entry.exchange?]
  | stored pair => simp [World.exchanges, exchange?]

/-- A step of a call shows nothing. -/
lemma Leads.lines_eq (h : Leads link w deeds w') : w'.lines = w.lines := by
  cases h with
  | nothing => rfl
  | sent request => simp [Link.asked, World.lines, Entry.line?]
  | stored pair => rfl

/-- The tokens change by what a step stored, and by nothing else. -/
lemma Leads.tokens_eq (h : Leads link w deeds w') :
    w'.tokens = (deeds.filterMap pair?).getLast?.getD w.tokens := by
  cases h <;> rfl

end Deed

/-! ### The deeds of a step -/

namespace Call

/-- The request that the next step of a call sends. -/
def request? (base : String) : Call → Option Request
  | .sending q used => some (q.carrying base used)
  | .refreshing _ spent => some (.refresh base spent)
  | .retrying q fresh => some (q.carrying base fresh)
  | _ => none

/-- The pair that the next step of a call stores. -/
def pair? : Call → Option Tokens
  | .storing _ pair => some pair
  | _ => none

/-- What the next step of a call does in the world `w`. -/
def deeds (link : Link σ) (w : World σ) (c : Call) : List Deed :=
  ((c.request? link.base).map fun r => Deed.sent r (link.outcome r w)).toList ++
    (c.pair?.map Deed.stored).toList

/-- A step of a call leads from the world that it finds to the one that its deeds make of it. -/
theorem leads_step (link : Link σ) (c : Call) (w : World σ) :
    Deed.Leads link w (c.deeds link w) (c.step link w).2 := by
  cases c with
  | sending q used =>
    have h : (step link (.sending q used) w).2 = (link.send q used w).2 := rfl
    rw [h, link.send_apply]
    exact .sent w _
  | refreshing q spent => exact .sent w (.refresh link.base spent)
  | storing q pair => exact .stored w pair
  | retrying q fresh =>
    have h : (step link (.retrying q fresh) w).2 = (link.send q fresh w).2 := rfl
    rw [h, link.send_apply]
    exact .sent w _
  | reading q => exact .nothing w
  | refused q used => exact .nothing w
  | deciding q used => exact .nothing w
  | finished result => exact .nothing w

/-! ### Where a step goes -/

/-- The ways in which a step can go, from a call that finds the tokens `t` to the call afterwards
and the tokens that it leaves. -/
inductive Goes : Tokens → Call → Call → Tokens → Prop
  | read (t : Tokens) (q : Query) : Goes t (.reading q) (.sending q t.access) t
  | refuse (t : Tokens) (q : Query) (used : String) : Goes t (.sending q used) (.refused q used) t
  | answer (t : Tokens) (q : Query) (used : String) (result : Except Failure Reply) :
      Goes t (.sending q used) (.finished result) t
  | lock (t : Tokens) (q : Query) (used : String) : Goes t (.refused q used) (.deciding q used) t
  | overtake (t : Tokens) (q : Query) (used : String) (h : t.access ≠ used) :
      Goes t (.deciding q used) (.retrying q t.access) t
  | giveUp (t : Tokens) (q : Query) (h : t.refresh = "") :
      Goes t (.deciding q t.access) (.finished (.error (.notSignedIn none))) t
  | spend (t : Tokens) (q : Query) (h : t.refresh ≠ "") :
      Goes t (.deciding q t.access) (.refreshing q t.refresh) t
  | grant (t : Tokens) (q : Query) (spent : String) (pair : Tokens) :
      Goes t (.refreshing q spent) (.storing q pair) t
  | deny (t : Tokens) (q : Query) (spent : String) (e : Failure) :
      Goes t (.refreshing q spent) (.finished (.error e)) t
  | store (t : Tokens) (q : Query) (pair : Tokens) :
      Goes t (.storing q pair) (.retrying q pair.access) pair
  | retry (t : Tokens) (q : Query) (fresh : String) (result : Except Failure Reply) :
      Goes t (.retrying q fresh) (.finished result) t
  | rest (t : Tokens) (result : Except Failure Reply) :
      Goes t (.finished result) (.finished result) t

/-- Where a call goes once the answer to its query is there: on with a refused token if it was
refused, to the end otherwise. The tokens stay. -/
lemma goes_answered (t : Tokens) (q : Query) (used : String) (reply : Except Failure Reply) :
    Goes t (.sending q used) (answered q used reply) t := by
  cases reply with
  | error e => exact .answer t q used (.error e)
  | ok r =>
    rw [answered]
    split
    · exact .refuse t q used
    · exact .answer t q used (.ok r)

/-- Where a call goes that looks at the stored tokens `t`: to send its query again with another
token, to ask for a new pair, or to its end. -/
lemma goes_decided (t : Tokens) (q : Query) (used : String) :
    Goes t (.deciding q used) (decided q used t) t := by
  rw [decided]
  split
  next h => exact .overtake t q used h
  next h =>
    obtain rfl : t.access = used := Decidable.not_not.mp h
    split
    next hr => exact .giveUp t q (by simpa using hr)
    next hr => exact .spend t q (by simpa using hr)

/-- Where a call goes once the answer to its refresh is there: on to store the pair, or to the end.
-/
lemma goes_refreshed (t : Tokens) (q : Query) (spent : String) (reply : Except Failure Reply) :
    Goes t (.refreshing q spent) (refreshed q reply) t := by
  rw [refreshed]
  cases refreshedTokens reply with
  | error e => exact .deny t q spent e
  | ok pair => exact .grant t q spent pair

/-- A step goes in one of the twelve ways. -/
theorem goes_step (link : Link σ) (c : Call) (w : World σ) :
    Goes w.tokens c (c.step link w).1 (c.step link w).2.tokens := by
  cases c with
  | reading q => exact .read w.tokens q
  | sending q used =>
    have h := link.send_apply q used w
    have hs : step link (.sending q used) w =
        (answered q used (link.send q used w).1, (link.send q used w).2) := rfl
    rw [hs, h]
    exact goes_answered w.tokens q used _
  | refused q used => exact .lock w.tokens q used
  | deciding q used => exact goes_decided w.tokens q used
  | refreshing q spent => exact goes_refreshed w.tokens q spent _
  | storing q pair => exact .store w.tokens q pair
  | retrying q fresh =>
    have hs : step link (.retrying q fresh) w =
        (.finished (link.send q fresh w).1, (link.send q fresh w).2) := rfl
    rw [hs, link.send_apply]
    exact .retry w.tokens q fresh _
  | finished result => exact .rest w.tokens result

/-- The query that a call has yet to see through. -/
def query? : Call → Option Query
  | .reading q | .sending q _ | .refused q _ | .deciding q _ | .refreshing q _ | .storing q _
  | .retrying q _ => some q
  | .finished _ => none

/-- A call keeps to its query. -/
lemma Goes.query_eq {t t' : Tokens} {c c' : Call} {q : Query} (h : Goes t c c' t')
    (hq : c'.query? = some q) : c.query? = some q := by
  cases h <;> first | exact hq | cases hq

end Call
end Duelist
