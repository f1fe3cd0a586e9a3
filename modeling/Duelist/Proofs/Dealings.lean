import Duelist.Exchange.SignIn
import Duelist.Prompt.Loop
import Duelist.Proofs.Audience
import Duelist.Proofs.Expiry
import Duelist.Session.Queueing
/-!
# Dealings

All that is asked of the client, together with what comes of it. A `Dealing` is one thing that is
asked: to sign in, to put a question to the service, to join the queue, to take what has arrived on
the event stream, to take a message of the prompt, and so on. Each is an errand with a result of its
own (`Dealing.errand`).

A `Business` is a session with the dealings that are under way. Several may be, and whenever one has
come to a point between two steps, or waits for a body, any other may go on or begin. Of each
dealing the business remembers the last exchange that was made for it, as far as its body was read:
that is all that the one who goes on with it can know.
-/

namespace Duelist

variable {σ τ α : Type}

/-! ### Pairs of tokens -/

namespace Request

/-- The request by which a player signs in. -/
def signIn (base nickname password : String) : Request :=
  .ofQuery base (.signIn nickname password) none

/-- True of a request that is answered with a pair of tokens. -/
def asksTokens (base : String) (r : Request) : Bool :=
  r.method == .post && (r.url == base ++ "/users/refresh" || r.url == base ++ "/users/login")

/-- A refresh asks for a pair of tokens. -/
lemma asksTokens_refresh (base token : String) : (refresh base token).asksTokens base := by
  simp [asksTokens, refresh]

/-- So does a sign-in. -/
lemma asksTokens_signIn (base nickname password : String) :
    (signIn base nickname password).asksTokens base := by
  simp [asksTokens, signIn, ofQuery, Query.signIn, Query.post]

end Request

/-- The pair of tokens in a content, if it can be read and is the record of one. -/
def Content.pair? (c : Content) : Option Tokens :=
  c.text?.bind fun text => (Json.ofText? text).bind Tokens.ofJson?

/-- Nothing is no pair of tokens. -/
lemma Content.pair?_empty : ({} : Content).pair? = none := by decide

/-- A reply is read as the pair in its body. -/
lemma Reply.record_eq_ok_iff {r : Reply} {pair : Tokens} :
    r.record Tokens.ofJson? = .ok pair ↔ r.body.content.pair? = some pair := by
  unfold record text Content.pair? Body.text?
  cases r.body.content.text? with
  | none => simp [bind, Except.bind]
  | some text =>
    simp only [bind, Except.bind, Option.bind_some]
    cases (Json.ofText? text).bind Tokens.ofJson? <;> simp

/-- Asking for a pair of tokens is one exchange. -/
lemma Link.askTokens_apply (link : Link σ) (nickname password : String) (w : World σ) :
    link.askTokens nickname password w =
      (grantedTokens ((link.outcome (.signIn link.base nickname password) w).mapError .ofReasons),
        link.asked (.signIn link.base nickname password) w) := rfl

/-- What comes of a sign-in that is answered. -/
lemma grantedTokens_ok (reply : Reply) :
    grantedTokens ((Except.ok reply : Outcome).mapError .ofReasons) =
      if reply.status = 200 then (reply.record Tokens.ofJson?).mapError .misfit
      else .error reply.rejection := by
  by_cases hs : reply.status = 200 <;>
    simp [grantedTokens, Except.mapError, bind, Except.bind, Reply.success, Reply.isSuccess, hs]

/-! ### Steps of their own -/

/-- Signs in, step by step: asks for a pair of tokens, and stores it. -/
def Link.signingIn (link : Link σ) (nickname password : String) :
    Errand (World σ) (Except Failure Unit) := do
  match ← link.askTokens nickname password with
  | .ok pair =>
    Act.store (σ := σ) pair
    return .ok ()
  | .error e => return .error e

/-- With nobody in between this is the sign-in done at once. -/
lemma Link.signingIn_reading (link : Link σ) (nickname password : String) (c : Content) :
    (link.signingIn nickname password).reading c = link.signIn nickname password := by
  rw [signingIn, signIn, Errand.reading_bind, Errand.reading_liftM]
  congr 1
  funext granted
  cases granted <;> rfl

/-- Tells the player why reading is over, unless the session itself stopped it. -/
def Session.concluding (ending : StreamEnd) : Errand (Session σ) Unit :=
  match ending.notice? with
  | some text => notify text
  | none => return ()

/-- The seat of whoever is told so has come to the end of its reader. -/
lemma Session.concluded_eq (ending : StreamEnd) (s : Session σ) :
    Seat.concluded ending s =
      { session := ((concluding ending).atOnce s).2, reader := .ended } := by
  rw [Seat.concluded, concluding]
  cases ending.notice? <;> rfl

/-- Tells the player why reading is over, if it is. -/
def Session.heeding (result : Except StreamEnd Subscription) : Errand (Session σ) Unit :=
  match result with
  | .ok _ => return ()
  | .error ending => concluding ending

/-! ### Dealings -/

/-- Something that is asked of the client. -/
inductive Dealing where
  /-- To sign in. -/
  | signIn (nickname password : String)
  /-- To send a query on behalf of the player, and to leave the reply as it is. -/
  | request (q : Query)
  /-- To put a question to the service. -/
  | ask (q : Question)
  /-- To join the queue. -/
  | queue
  /-- To open the event stream, and to read what is there. -/
  | listen
  /-- To take bytes that have arrived on the event stream. -/
  | read (reader : Subscription) (bytes : List UInt8)
  /-- To take the end of the event stream, with the reason if it broke. -/
  | hangUp (reader : Subscription) (reason : Option String)
  /-- To take an event. -/
  | event (e : Event)
  /-- To hand in the solution at `path`. -/
  | submit (path : String)
  /-- To open the prompt numbered `number`. -/
  | openPrompt (number : ℕ)
  /-- To take a message at the prompt. -/
  | obey (message : Message)
  /-- To leave. -/
  | leave
  /-- To raise the stop signal. -/
  | raise
  /-- To let the follower numbered `n` make one move. -/
  | poll (n : ℕ)

namespace Dealing

/-- What comes of a dealing. -/
def Result : Dealing → Type
  | .signIn _ _ | .queue => Except Failure Unit
  | .request _ => Except Failure Reply
  | .ask _ => Answer
  | .listen | .read _ _ => Except StreamEnd Subscription
  | .hangUp _ _ => StreamEnd
  | .event _ => Flow
  | .submit _ => Except Failure Int64
  | .obey _ => Option Exit
  | .leave => ℕ
  | .openPrompt _ | .raise => Unit
  | .poll _ => Crew.Moved

/-- The errand of a dealing. -/
def errand (venue : Venue σ) : (d : Dealing) → Errand (Session σ) d.Result
  | .signIn nickname password => liftM (venue.link.signingIn nickname password)
  | .request q => liftM (venue.link.request q)
  | .ask q => liftM (q.ask venue.link)
  | .queue => Session.joinQueue
  | .listen => do
    let result ← Seat.listen venue
    Session.heeding result
    return result
  | .read reader bytes => do
    let result ← reader.receive (Session.handler venue) bytes
    Session.heeding result
    return result
  | .hangUp reader reason => do
    let ending ← reader.finish (Session.handler venue) reason
    Session.concluding ending
    return ending
  | .event e => Session.take venue e
  | .submit path => Session.handingIn venue path
  | .openPrompt number => Errand.lift (Session.openPrompt number)
  | .obey message => Session.obeying venue message
  | .leave => Session.leaving venue
  | .raise => Errand.lift (Session.raise venue)
  | .poll n => Errand.lift (Session.onCrew (Crew.move venue.link n))

end Dealing

/-! ### The last exchange -/

namespace Progress

/-- The state in which an errand has come so far. -/
def state : Progress τ α → τ
  | .done _ s | .going s _ | .waiting s _ => s

/-- True if a body has to be waited for. -/
def isWaiting : Progress τ α → Bool
  | .waiting _ _ => true
  | .done _ _ | .going _ _ => false

/-- Goes on in the state `s`, with the content `c` if it is waited for. -/
def goOn (c : Content) (s : τ) : Progress τ α → Progress τ α
  | .done a _ => .done a s
  | .going _ next => next s
  | .waiting _ resume => resume c s

end Progress

/-- The exchange with the body of its reply read to the end, `c` being what is in it if it is still
being written. -/
def readExchange (c : Content) (x : Request × Outcome) : Request × Outcome :=
  (x.1, x.2.map (Reply.read c))

/-- The last exchange in the transcript `after` that is not in `before` yet; the exchange `asked` if
there is none. -/
def lastExchange (before after : List Entry) (asked : Option (Request × Outcome)) :
    Option (Request × Outcome) :=
  ((after.drop before.length).filterMap Entry.exchange?).getLast?.or asked

/-- If nothing was added, the last exchange is the one that was made before. -/
lemma lastExchange_self (entries : List Entry) (asked : Option (Request × Outcome)) :
    lastExchange entries entries asked = asked := by
  simp [lastExchange]

/-- The last exchange is the last one among the new entries, if there is an exchange among them. -/
lemma lastExchange_append (before new : List Entry) (asked : Option (Request × Outcome)) :
    lastExchange before (before ++ new) asked =
      (new.filterMap Entry.exchange?).getLast?.or asked := by
  simp [lastExchange]

/-! ### Businesses -/

/-- A dealing that is under way. -/
structure Engagement (σ : Type) where
  /-- The dealing. -/
  dealing : Dealing
  /-- The last exchange that was made for it, with its body as far as it was read. -/
  asked : Option (Request × Outcome) := none
  /-- How far it has come. -/
  progress : Progress (Session σ) dealing.Result

/-- A session, with all that is asked of the client. -/
structure Business (σ : Type) where
  /-- The session. -/
  session : Session σ
  /-- What is under way. -/
  engagements : List (Engagement σ) := []
  /-- What came of the dealings that are done, in the order in which they were. -/
  results : List (Σ d : Dealing, d.Result) := []
  /-- The exchanges whose replies were still being written, as they were read. -/
  reads : List (Request × Outcome) := []

/-- Something that happens in a business. -/
inductive Moment where
  /-- A dealing begins. -/
  | begins (d : Dealing)
  /-- What is at place `n` goes on, with the content `c` if it waits for one. -/
  | goes (n : ℕ) (c : Content)

/-- The last exchange made for an engagement once it goes on, with the content `c` if it waits for
one. -/
def Engagement.hearing (c : Content) (e : Engagement σ) : Option (Request × Outcome) :=
  if e.progress.isWaiting then e.asked.map (readExchange c) else e.asked

namespace Business

variable (venue : Venue σ)

/-- The business once the dealing `d`, for which `asked` was exchanged last, has come so far. -/
def place (b : Business σ) (d : Dealing) (asked : Option (Request × Outcome))
    (p : Progress (Session σ) d.Result) : Business σ :=
  match p with
  | .done a s => { b with session := s, results := b.results ++ [⟨d, a⟩] }
  | p =>
    let asked := lastExchange b.session.world.transcript p.state.world.transcript asked
    { b with session := p.state, engagements := b.engagements ++ [⟨d, asked, p⟩] }

/-- The business without the engagement at place `n`, which goes on with the content `c` if it waits
for one. -/
def release (b : Business σ) (n : ℕ) (e : Engagement σ) (c : Content) : Business σ :=
  { b with
    engagements := b.engagements.eraseIdx n
    reads := if e.progress.isWaiting then b.reads ++ (e.hearing c).toList else b.reads }

/-- The business a moment later. -/
def step (b : Business σ) : Moment → Business σ
  | .begins d => b.place d none (d.errand venue b.session)
  | .goes n c =>
    match b.engagements[n]? with
    | some e => (b.release n e c).place e.dealing (e.hearing c) (e.progress.goOn c b.session)
    | none => b

/-- The business several moments later. -/
def run (b : Business σ) (moments : List Moment) : Business σ :=
  moments.foldl (step venue) b

/-- The last moment comes after all the others. -/
lemma run_concat (b : Business σ) (moments : List Moment) (m : Moment) :
    b.run venue (moments ++ [m]) = (b.run venue moments).step venue m :=
  List.foldl_concat ..

/-- The business of a player who has done nothing yet. -/
def begin (service : σ) (tokens : Tokens) : Business σ where
  session := .begin service tokens

end Business
end Duelist
