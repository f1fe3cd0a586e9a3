import Duelist.Exchange.Endpoints
import Duelist.Proofs.CallSteps
import Mathlib.Data.List.Forall2
/-!
# Expiry

A player asks one question after the other, and the access token expires now and then. A
`TokenService` answers whoever carries its current access token, without looking at it any further,
and refuses everybody else; in exchange for its current refresh token it gives a new pair.

The main statement is `TokenService.expiry_is_transparent`: the answers are those that the player
would have got had the token never expired, and so are the requests, except that two precede the
first one after an expiry: a copy of it that is refused, and a refresh. The proof walks along both
runs at once. What it keeps is that the rest of the service has seen the same in both of them, and
that each player holds the current pair, of which only the access token may have expired
(`TokenService.Stands`).
-/

namespace Duelist

variable {σ τ α β : Type}

/-! ### Errands that come upon a body -/

/-- Does the errand with nobody in between, `c` being what is in a body that is still being
written. -/
def Errand.reading (c : Content) (e : Errand τ α) : StateM τ α := fun s =>
  (e s).drain c

/-- The reply with its body read to the end, `c` being what is in it if it is still being
written. -/
def Reply.read (c : Content) (r : Reply) : Reply :=
  match r.body with
  | .whole _ => r
  | .live => { r with body := .whole c }

/-- Reading the body of a reply does not change its status. -/
lemma Reply.status_read (c : Content) (r : Reply) : (r.read c).status = r.status := by
  obtain ⟨status, body⟩ := r
  cases body <;> rfl

namespace Errand

variable (c : Content)

/-- To do nothing involves no body. -/
@[simp]
lemma reading_pure (a : α) : (pure a : Errand τ α).reading c = pure a := rfl

/-- A single step involves no body. -/
@[simp]
lemma reading_liftM (act : StateM τ α) : (liftM act : Errand τ α).reading c = act := rfl

/-- Every body is read as the same content, in the first errand and in the second. -/
@[simp]
lemma reading_bind (e : Errand τ α) (f : α → Errand τ β) :
    (e >>= f).reading c = e.reading c >>= fun a => (f a).reading c := by
  funext s
  exact drain_andThen c f (e s)

/-- To wait for the body of a reply is to read it. -/
@[simp]
lemma reading_awaited (r : Reply) :
    (r.awaited : Errand τ Reply).reading c = pure (r.read c) := by
  obtain ⟨status, body⟩ := r
  cases body <;> rfl

end Errand

/-! ### Questions -/

/-- A question that the client asks of the service. -/
inductive Question where
  /-- The event stream. -/
  | events
  /-- A duel. -/
  | duel (id : Int64)
  /-- The profile of a player. -/
  | player (id : Int64)
  /-- A task. -/
  | task (id : String)
  /-- A file of a task. -/
  | taskFile (id file : String)
  /-- The number given to a solution that is handed in. -/
  | handIn (id : Int64) (solution : String) (language : Language)
  /-- The grading of a submission. -/
  | grading (id submission : Int64)

/-- What comes of a question. -/
inductive Answer where
  /-- The event stream. -/
  | events (result : Except Failure Reply)
  /-- A duel. -/
  | duel (result : Except Failure DuelSummary)
  /-- The profile of a player. -/
  | player (result : Except Failure Player)
  /-- A task. -/
  | task (result : Except Failure Task)
  /-- A file of a task. -/
  | taskFile (result : Except Failure String)
  /-- The number given to a solution. -/
  | handIn (result : Except Failure Int64)
  /-- The grading of a submission. -/
  | grading (result : Except Failure Grading)

namespace Question

/-- Asks the question. -/
def ask (link : Link σ) : Question → Errand (World σ) Answer
  | .events => return .events (← link.openEvents)
  | .duel id => return .duel (← link.duel id)
  | .player id => return .player (← link.player id)
  | .task id => return .task (← link.task id)
  | .taskFile id file => return .taskFile (← link.taskFile id file)
  | .handIn id solution language => return .handIn (← link.handIn id solution language)
  | .grading id submission => return .grading (← link.grading id submission)

/-- The query that is sent for a question. -/
def query : Question → Query
  | .events => .events
  | .duel id => .duel id
  | .player id => .player id
  | .task id => .task id
  | .taskFile id file => .taskFile id file
  | .handIn id solution language => .solution id solution language
  | .grading id submission => .grading id submission

/-- What the reply to the query is for an answer, `c` being what is in its body if that is still
being written. -/
def answer (c : Content) (result : Except Failure Reply) : Question → Answer
  | .events => .events result
  | .duel _ => .duel (recordOf DuelSummary.ofJson? (result.map (Reply.read c)))
  | .player _ => .player (recordOf Player.ofJson? (result.map (Reply.read c)))
  | .task _ => .task (recordOf Task.ofJson? (result.map (Reply.read c)))
  | .taskFile _ _ => .taskFile (textOf (result.map (Reply.read c)))
  | .handIn _ _ _ => .handIn (recordOf Grading.receipt? (result.map (Reply.read c)))
  | .grading _ _ => .grading (recordOf Grading.ofJson? (result.map (Reply.read c)))

variable (link : Link σ) (c : Content)

/-- To see a query through with its reply is to read the reply that comes back. -/
lemma reading_linkAsk (q : Query) :
    (link.ask q).reading c = Except.map (Reply.read c) <$> (link.request q).reading c := by
  rw [Link.ask, Errand.reading_bind, map_eq_pure_bind]
  congr 1
  funext result
  cases result with
  | error e => rfl
  | ok reply => simp [Except.map]

/-- Asking a question is sending its query and reading the reply. -/
lemma reading_ask (q : Question) :
    (q.ask link).reading c = (q.answer c ·) <$> (link.request q.query).reading c := by
  cases q <;>
    simp only [ask, query, answer, Link.openEvents, Link.duel, Link.player, Link.task,
      Link.taskFile, Link.handIn, Link.grading, Errand.reading_bind, Errand.reading_pure,
      reading_linkAsk, bind_pure_comp, Functor.map_map]

end Question

/-! ### Requests -/

namespace Request

/-- True of a request for a new pair of tokens. -/
def isRefresh (base : String) (r : Request) : Bool :=
  r.method == .post && r.url == base ++ "/users/refresh"

/-- The request without its token. -/
def anonymous (r : Request) : Request :=
  { r with bearer := none }

end Request

/-- Without their tokens the requests for one query are the same. -/
lemma Query.anonymous_carrying (base token token' : String) (q : Query) :
    (q.carrying base token).anonymous = (q.carrying base token').anonymous := rfl

/-- No question is taken for a refresh. -/
lemma Question.isRefresh_query (base token : String) (q : Question) :
    (q.query.carrying base token).isRefresh base = false := by
  cases q with
  | handIn id solution language =>
    have hpath : (Query.solution id solution language).path ≠ "/users/refresh" := by
      intro h
      have hpath : "/duels/" ++ toString id ++ "/submissions" = "/users/refresh" := h
      simpa using congrArg String.toList hpath
    simpa [Request.isRefresh, query, Query.carrying] using fun _ => hpath
  | _ => rfl

namespace Link

variable (link : Link σ) (c : Content) (q : Query) (w : World σ)

/-- An exchange is noted. -/
lemma exchanges_asked (r : Request) :
    (link.asked r w).exchanges = w.exchanges ++ [(r, link.outcome r w)] := by
  simp [asked, World.exchanges, Entry.exchange?]

/-- Two acts in a row, the second one from where the first one has led. -/
lemma act_bind {ρ : Type} (act : Act σ ρ) (f : ρ → Act σ α) :
    (act >>= f) w = f (act w).1 (act w).2 := rfl

/-- A query whose token is not refused is sent once. -/
lemma reading_request_of_ne
    (h : ∀ reply, link.outcome (q.carrying link.base w.tokens.access) w = .ok reply →
      reply.status ≠ 401) :
    (link.request q).reading c w =
      ((link.outcome (q.carrying link.base w.tokens.access) w).mapError .ofReasons,
        link.asked (q.carrying link.base w.tokens.access) w) := by
  have htokens : Act.tokens w = (w.tokens, w) := rfl
  simp only [request, Errand.reading_bind, Errand.reading_liftM, act_bind, htokens, link.send_apply]
  cases hout : link.outcome (q.carrying link.base w.tokens.access) w with
  | error reasons => rfl
  | ok reply =>
    have hreply : reply.isUnauthorized = false := by simpa [Reply.isUnauthorized] using h reply hout
    simp only [Except.mapError, hreply]
    rfl

/-- The world once the query `q` was sent, its token refused, and in exchange for the refresh token
`pair` granted and stored. -/
def granted (pair : Tokens) : World σ :=
  { link.asked (.refresh link.base w.tokens.refresh)
      (link.asked (q.carrying link.base w.tokens.access) w) with tokens := pair }

/-- In exchange for the stored refresh token a pair is granted and stored. -/
lemma reading_freshToken_of_granted {content : Content} {pair : Tokens}
    (hrefresh : w.tokens.refresh ≠ "")
    (hgrant : link.outcome (.refresh link.base w.tokens.refresh) w =
      .ok { status := 200, body := .whole content })
    (hpair : (Reply.mk 200 (.whole content)).record Tokens.ofJson? = .ok pair) :
    (link.freshToken w.tokens.access).reading c w =
      (.ok pair.access, { link.asked (.refresh link.base w.tokens.refresh) w with
        tokens := pair }) := by
  have htokens : Act.tokens w = (w.tokens, w) := rfl
  have hempty : w.tokens.refresh.isEmpty = false := by simpa using hrefresh
  have hsuccess : (Reply.mk 200 (.whole content)).isSuccess = true := rfl
  have hawaited (v : World σ) :
      ((Reply.mk 200 (.whole content)).awaited : Errand _ Reply).reading c v =
        (Reply.mk 200 (.whole content), v) := rfl
  have hrefreshed : refreshedTokens (.ok (Reply.mk 200 (.whole content))) = .ok pair := by
    simp [refreshedTokens, bind, Except.bind, hsuccess, hpair, Except.mapError]
  simp only [freshToken, Errand.reading_bind, Errand.reading_liftM, act_bind, htokens, ne_eq,
    not_true_eq_false, if_false, hempty, Bool.false_eq_true,
    link.sendAnonymously_refresh_apply, hgrant, Except.mapError, hsuccess, if_true, hawaited,
    hrefreshed]
  rfl

/-- A query whose token is refused is sent again with the access token of the pair that is
granted. -/
lemma reading_request_of_granted {refusal : Reply} {content : Content} {pair : Tokens}
    (hout : link.outcome (q.carrying link.base w.tokens.access) w = .ok refusal)
    (hrefusal : refusal.status = 401) (hrefresh : w.tokens.refresh ≠ "")
    (hgrant : link.outcome (.refresh link.base w.tokens.refresh)
      (link.asked (q.carrying link.base w.tokens.access) w) =
        .ok { status := 200, body := .whole content })
    (hpair : (Reply.mk 200 (.whole content)).record Tokens.ofJson? = .ok pair) :
    (link.request q).reading c w =
      ((link.outcome (q.carrying link.base pair.access) (link.granted q w pair)).mapError
        .ofReasons, link.asked (q.carrying link.base pair.access) (link.granted q w pair)) := by
  have htokens : Act.tokens w = (w.tokens, w) := rfl
  have hunauthorized : refusal.isUnauthorized = true := by simp [Reply.isUnauthorized, hrefusal]
  have hfresh := link.reading_freshToken_of_granted c
    (link.asked (q.carrying link.base w.tokens.access) w) hrefresh hgrant hpair
  have hsame : (link.asked (q.carrying link.base w.tokens.access) w).tokens = w.tokens := rfl
  rw [hsame] at hfresh
  simp only [request, Errand.reading_bind, Errand.reading_liftM, act_bind, htokens,
    link.send_apply, hout, Except.mapError, hunauthorized, if_true, hfresh, granted]

end Link

/-! ### Services whose access tokens expire -/

/-- What a service knows about the tokens of the player, and all else that it knows. -/
structure Account (τ : Type) where
  /-- The access token that is accepted, unless it has expired. -/
  access : Option String
  /-- The refresh token that is accepted. -/
  refresh : String
  /-- All else. -/
  rest : τ

/-- True if the request carries the access token that is accepted. -/
def Account.admits (s : Account τ) (r : Request) : Bool :=
  s.access.isSome && r.bearer == s.access

/-- A service that answers whoever carries its current access token. A pair that it grants need not
be one that it never granted before. -/
structure TokenService (σ τ : Type) where
  /-- The way to the service. -/
  link : Link σ
  /-- What it knows. -/
  account : σ → Account τ
  /-- How it answers a request, and what it knows then. -/
  reply : Request → τ → Outcome × τ
  /-- The service once the access token has expired. -/
  expire : σ → σ
  /-- No access token is empty. -/
  access_ne (s : σ) : (account s).access ≠ some ""
  /-- No refresh token is empty. -/
  refresh_ne (s : σ) : (account s).refresh ≠ ""
  /-- Whoever does not carry the current access token is refused. -/
  refuses (r : Request) (s : σ) (hr : r.isRefresh link.base = false)
    (h : (account s).admits r = false) : ∃ refusal : Reply, refusal.status = 401 ∧
      (link.answer r s).1 = .ok refusal ∧ account (link.answer r s).2 = account s
  /-- Whoever carries it is answered without regard to it. -/
  answers (r : Request) (s : σ) (hr : r.isRefresh link.base = false)
    (h : (account s).admits r) :
      (link.answer r s).1 = (reply r.anonymous (account s).rest).1 ∧
      account (link.answer r s).2 =
        { account s with rest := (reply r.anonymous (account s).rest).2 }
  /-- Nobody else is refused. -/
  reply_ne (r : Request) (t : τ) (a : Reply) (h : (reply r t).1 = .ok a) : a.status ≠ 401
  /-- In exchange for the current refresh token a new pair is granted, which is current then. -/
  refreshes (s : σ) : ∃ (content : Content) (pair : Tokens),
      (link.answer (.refresh link.base (account s).refresh) s).1 =
        .ok { status := 200, body := .whole content } ∧
      (Reply.mk 200 (.whole content)).record Tokens.ofJson? = .ok pair ∧
      account (link.answer (.refresh link.base (account s).refresh) s).2 =
        { account s with access := some pair.access, refresh := pair.refresh }
  /-- When the access token expires, nothing else changes. -/
  expires (s : σ) : account (expire s) = { account s with access := none }

namespace TokenService

variable (svc : TokenService σ τ)

/-- The stored pair is the current one, except that its access token has expired if `late`. -/
structure Stands (late : Bool) (w : World σ) : Prop where
  /-- The access token. -/
  access : (svc.account w.service).access = if late then none else some w.tokens.access
  /-- The refresh token. -/
  refresh : (svc.account w.service).refresh = w.tokens.refresh

/-- What is sent ahead of the request `r`: nothing, or if `late` a copy of it that is refused, and a
refresh. -/
inductive Ahead (base : String) (r : Request) : Bool → List (Request × Outcome) → Prop
  | nothing : Ahead base r false []
  | renewal (copy : Request) (hcopy : copy.anonymous = r.anonymous) (refusal : Reply)
      (hrefusal : refusal.status = 401) (spent : String) (grant : Reply)
      (hgrant : grant.status = 200) :
      Ahead base r true [(copy, .ok refusal), (.refresh base spent, .ok grant)]

variable {svc} {w : World σ} {late : Bool} (c : Content) (q : Question)

/-- When the access token expires, the stored pair is the current one but for that token. -/
lemma Stands.expire (h : svc.Stands late w) :
    svc.Stands true { w with service := svc.expire w.service } where
  access := by rw [svc.expires]; rfl
  refresh := by rw [svc.expires]; exact h.refresh

/-- The query of a question with the current access token is answered. -/
lemma Stands.answers (h : svc.Stands false w) :
    let r := q.query.carrying svc.link.base w.tokens.access
    let answered := svc.reply r.anonymous (svc.account w.service).rest
    svc.link.outcome r w = answered.1 ∧ svc.Stands false (svc.link.asked r w) ∧
      (svc.account (svc.link.asked r w).service).rest = answered.2 := by
  have haccess : (svc.account w.service).access = some w.tokens.access := h.access
  have hne : w.tokens.access ≠ "" := fun hempty =>
    svc.access_ne w.service (by rw [haccess, hempty])
  have hadmits : (svc.account w.service).admits
      (q.query.carrying svc.link.base w.tokens.access) := by
    simp [Account.admits, haccess, Query.carrying, hne]
  obtain ⟨houtcome, haccount⟩ := svc.answers _ w.service (q.isRefresh_query _ _) hadmits
  exact ⟨houtcome, ⟨by rw [Link.asked, haccount]; exact h.access,
    by rw [Link.asked, haccount]; exact h.refresh⟩, by rw [Link.asked, haccount]⟩

/-- Once the access token has expired, a query is refused, and a pair is granted. -/
lemma Stands.renews (h : svc.Stands true w) :
    let asked := svc.link.asked (q.query.carrying svc.link.base w.tokens.access) w
    ∃ (refusal : Reply) (content : Content) (pair : Tokens), refusal.status = 401 ∧
      svc.link.outcome (q.query.carrying svc.link.base w.tokens.access) w = .ok refusal ∧
      w.tokens.refresh ≠ "" ∧
      svc.link.outcome (.refresh svc.link.base w.tokens.refresh) asked =
        .ok { status := 200, body := .whole content } ∧
      (Reply.mk 200 (.whole content)).record Tokens.ofJson? = .ok pair ∧
      svc.Stands false (svc.link.granted q.query w pair) ∧
      (svc.account (svc.link.granted q.query w pair).service).rest =
        (svc.account w.service).rest := by
  intro asked
  have hadmits : (svc.account w.service).admits
      (q.query.carrying svc.link.base w.tokens.access) = false := by
    simp [Account.admits, h.access]
  obtain ⟨refusal, hrefusal, houtcome, hrefused⟩ :=
    svc.refuses _ w.service (q.isRefresh_query _ _) hadmits
  have hasked : svc.account asked.service = svc.account w.service := hrefused
  obtain ⟨content, pair, hgrant, hpair, hgranted⟩ := svc.refreshes asked.service
  rw [hasked, h.refresh] at hgrant hgranted
  refine ⟨refusal, content, pair, hrefusal, houtcome, ?_, hgrant, hpair, ⟨?_, ?_⟩, ?_⟩
  · rw [← h.refresh]
    exact svc.refresh_ne w.service
  · exact congrArg Account.access hgranted
  · exact congrArg Account.refresh hgranted
  · exact (congrArg Account.rest hgranted :)

/-- What comes of a query, whether or not the access token has expired. -/
lemma Stands.request (h : svc.Stands late w) :
    ∃ (token : String) (before : List (Request × Outcome)),
      let r := q.query.carrying svc.link.base token
      let answered := svc.reply r.anonymous (svc.account w.service).rest
      let p := (svc.link.request q.query).reading c w
      p.1 = answered.1.mapError .ofReasons ∧
      p.2.exchanges = w.exchanges ++ (before ++ [(r, answered.1)]) ∧
      Ahead svc.link.base r late before ∧ svc.Stands false p.2 ∧
      (svc.account p.2.service).rest = answered.2 := by
  cases late with
  | false =>
    obtain ⟨houtcome, hstands, hrest⟩ := h.answers q
    have hrequest := svc.link.reading_request_of_ne c q.query w fun reply hreply =>
      svc.reply_ne _ _ reply (houtcome.symm.trans hreply)
    refine ⟨w.tokens.access, [], ?_⟩
    dsimp only
    rw [hrequest, ← houtcome]
    exact ⟨rfl, svc.link.exchanges_asked w _, .nothing, hstands, hrest⟩
  | true =>
    obtain ⟨refusal, content, pair, hrefusal, houtcome, hne, hgrant, hpair, hgranted, hrest⟩ :=
      h.renews q
    obtain ⟨hanswer, hstands, hrest'⟩ := hgranted.answers q
    have htokens : (svc.link.granted q.query w pair).tokens = pair := rfl
    rw [htokens, hrest] at hanswer hrest'
    have hrequest :=
      svc.link.reading_request_of_granted c q.query w houtcome hrefusal hne hgrant hpair
    refine ⟨pair.access, [(q.query.carrying svc.link.base w.tokens.access, .ok refusal),
      (.refresh svc.link.base w.tokens.refresh, .ok { status := 200, body := .whole content })],
      ?_⟩
    dsimp only
    rw [hrequest]
    refine ⟨congrArg (Except.mapError Failure.ofReasons) hanswer, ?_, ?_, hstands, hrest'⟩
    · have hexchanges : (svc.link.granted q.query w pair).exchanges = w.exchanges ++ _ ++ _ :=
        (svc.link.exchanges_asked _ _).trans (congrArg (· ++ _) (svc.link.exchanges_asked w _))
      rw [svc.link.exchanges_asked, hexchanges, houtcome, hgrant, ← hanswer]
      simp
    · exact .renewal _ (q.query.anonymous_carrying _ _ _) refusal hrefusal _ _ rfl

/-! ### Whole runs -/

/-- What happens next. -/
inductive Turn where
  /-- The access token expires. -/
  | expires
  /-- The player asks; `body` is what is in the body of the reply if it is still being written. -/
  | asks (q : Question) (body : Content)

/-- True of a question. -/
def Turn.isQuestion : Turn → Bool
  | .expires => false
  | .asks _ _ => true

/-- What came of a question. -/
structure Record where
  /-- True if the access token expired after the question before it. -/
  late : Bool
  /-- The answer. -/
  answer : Answer
  /-- What was sent meanwhile, oldest first. -/
  exchanges : List (Request × Outcome)

/-- The player asks the question `q`; `body` is what is in the body of the reply if it is still
being written. -/
def attend (svc : TokenService σ τ) (late : Bool) (w : World σ) (q : Question) (body : Content) :
    Record × World σ :=
  let p := (q.ask svc.link).reading body w
  ({ late, answer := p.1, exchanges := p.2.exchanges.drop w.exchanges.length }, p.2)

/-- What came of the questions; `late` if the access token has expired already. -/
def run (svc : TokenService σ τ) : Bool → World σ → List Turn → List Record
  | _, _, [] => []
  | _, w, .expires :: turns => svc.run true { w with service := svc.expire w.service } turns
  | late, w, .asks q body :: turns =>
    (svc.attend late w q body).1 :: svc.run false (svc.attend late w q body).2 turns

/-- `x` is as `y`, but for the bearers and for what is sent ahead of the request if `x` is late. -/
structure Record.Renders (base : String) (x y : Record) : Prop where
  /-- The answer is the same. -/
  answer : x.answer = y.answer
  /-- One request was sent in the one run. In the other one the same request was sent, and met with
  the same, after what was sent ahead of it. -/
  exchanges : ∃ r s outcome before, r.anonymous = s.anonymous ∧ y.exchanges = [(s, outcome)] ∧
    x.exchanges = before ++ [(r, outcome)] ∧ Ahead base r x.late before

/-- What is done for a question: its query is sent on behalf of the player, and the reply is read
for an answer. -/
lemma attend_eq (late : Bool) (w : World σ) (q : Question) (body : Content) :
    svc.attend late w q body =
      let p := (svc.link.request q.query).reading body w
      ({ late, answer := q.answer body p.1, exchanges := p.2.exchanges.drop w.exchanges.length },
        p.2) := by
  rw [attend, q.reading_ask]
  rfl

/-- A question leads to the same answer whether or not the access token has expired, and leaves
the rest of the service the same. -/
lemma Stands.attend {v : World σ} (hw : svc.Stands late w) (hv : svc.Stands false v)
    (hrest : (svc.account w.service).rest = (svc.account v.service).rest) :
    let x := svc.attend late w q c
    let y := svc.attend false v q c
    x.1.Renders svc.link.base y.1 ∧ svc.Stands false x.2 ∧ svc.Stands false y.2 ∧
      (svc.account x.2.service).rest = (svc.account y.2.service).rest := by
  obtain ⟨token, before, hresult, hexchanges, hahead, hstands, hafter⟩ := hw.request c q
  obtain ⟨token', nothing, hresult', hexchanges', hnothing, hstands', hafter'⟩ := hv.request c q
  cases hnothing
  have hanonymous := q.query.anonymous_carrying svc.link.base token token'
  rw [hrest, hanonymous] at hresult hexchanges hafter
  simp only [attend_eq]
  refine ⟨⟨?_, ?_⟩, hstands, hstands', hafter.trans hafter'.symm⟩
  · rw [hresult, hresult']
  · let outcome := (svc.reply (q.query.carrying svc.link.base token').anonymous
      (svc.account v.service).rest).1
    refine ⟨_, _, outcome, before, hanonymous, ?_, ?_, hahead⟩
    · rw [hexchanges', List.drop_left]
      rfl
    · rw [hexchanges, List.drop_left]

/-- Whatever the player asks, and whenever the access token expires in between, each question leads
to the same answer and to the same request as in the run without expiries; only where the access
token has expired since the question before, a refused copy of the request and a refresh come
first. -/
theorem expiry_is_transparent (svc : TokenService σ τ) (turns : List Turn) (w : World σ)
    (h : svc.Stands false w) :
    List.Forall₂ (Record.Renders svc.link.base) (svc.run false w turns)
      (svc.run false w (turns.filter Turn.isQuestion)) := by
  -- the run without expiries starts in the same world, but does not stay in it
  suffices hboth : ∀ late (w v : World σ), svc.Stands late w → svc.Stands false v →
      (svc.account w.service).rest = (svc.account v.service).rest →
      List.Forall₂ (Record.Renders svc.link.base) (svc.run late w turns)
        (svc.run false v (turns.filter Turn.isQuestion)) from hboth false w w h h rfl
  clear h w
  intro late w v hw hv hrest
  induction turns generalizing late w v with
  | nil => exact .nil
  | cons turn turns ih =>
    cases turn with
    | expires =>
      have hexpired := svc.expires w.service
      exact ih true _ v hw.expire hv ((congrArg Account.rest hexpired).trans hrest)
    | asks q body =>
      obtain ⟨hrenders, hw', hv', hrest'⟩ := hw.attend body q hv hrest
      exact .cons hrenders (ih false _ _ hw' hv' hrest')

/-- A service that grants two pairs of tokens in turn, and counts what it answers. -/
structure Rota where
  /-- True if the second pair is the current one. -/
  second : Bool
  /-- True if its access token has expired. -/
  expired : Bool
  /-- How many requests were answered. -/
  answered : ℕ

namespace Rota

/-- The two pairs. -/
def pair (second : Bool) : Tokens :=
  if second then ⟨"a1", "r1"⟩ else ⟨"a0", "r0"⟩

/-- What the service knows. -/
def account (s : Rota) : Account ℕ where
  access := if s.expired then none else some (pair s.second).access
  refresh := (pair s.second).refresh
  rest := s.answered

/-- A text as the content of a body. -/
def written (text : String) : Content where
  bytes := text.toList.map (·.toNat.toUInt8)

/-- A pair as the content of a body. -/
def writtenPair (second : Bool) : Content :=
  written (if second then "[\"a1\",\"r1\"]" else "[\"a0\",\"r0\"]")

/-- The number of the request, as a nickname. -/
def reply (_ : Request) (n : ℕ) : Outcome × ℕ :=
  (.ok { status := 200, body := .whole (written s!"[\"{n}\"]") }, n + 1)

/-- The answer to a request. -/
def answer (r : Request) (s : Rota) : Outcome × Rota :=
  if r.isRefresh "" then
    (.ok { status := 200, body := .whole (writtenPair !s.second) },
      { s with second := !s.second, expired := false })
  else if s.account.admits r then
    ((reply r.anonymous s.answered).1, { s with answered := (reply r.anonymous s.answered).2 })
  else (.ok { status := 401, body := .whole {} }, s)

/-- A pair that was written is read again. -/
lemma record_writtenPair (second : Bool) :
    (Reply.mk 200 (.whole (writtenPair second))).record Tokens.ofJson? = .ok (pair second) := by
  cases second <;> decide +kernel

/-- The service, which has nothing but such answers. -/
def service : TokenService Rota ℕ where
  link := { base := "", answer }
  account := account
  reply := reply
  expire s := { s with expired := true }
  access_ne s := by
    obtain ⟨second, expired, answered⟩ := s
    cases second <;> cases expired <;> simp [account, pair]
  refresh_ne s := by
    obtain ⟨second, expired, answered⟩ := s
    cases second <;> simp [account, pair]
  refuses r s hr h := by
    have hanswer : answer r s = (.ok { status := 401, body := .whole {} }, s) := by
      simp only [answer, hr, h, Bool.false_eq_true, if_false]
    exact ⟨_, rfl, congrArg Prod.fst hanswer, congrArg (account ·.2) hanswer⟩
  answers r s hr h := by
    have hanswer : answer r s = ((reply r.anonymous s.answered).1,
        { s with answered := (reply r.anonymous s.answered).2 }) := by
      simp only [answer, hr, h, Bool.false_eq_true, if_false, if_true]
    exact ⟨congrArg Prod.fst hanswer, congrArg (account ·.2) hanswer⟩
  reply_ne r n a h := by
    obtain rfl := Except.ok.inj h
    simp
  refreshes s := ⟨_, pair !s.second, rfl, record_writtenPair _, rfl⟩
  expires s := rfl

/-- The player holds the first pair. -/
def start : World Rota where
  service := { second := false, expired := false, answered := 0 }
  tokens := pair false

/-- Two questions before the access token expires, and two after it. -/
def turns : List Turn :=
  [.asks (.player 7) {}, .asks .events {}, .expires, .expires, .asks (.duel 3) {},
    .asks (.task "t") {}]

end Rota

/-- The questions before and after an expiry lead to the same answers as without it. -/
theorem expiry_is_transparent_rota : Rota.service.Stands false Rota.start ∧
    List.Forall₂ (Record.Renders "") (Rota.service.run false Rota.start Rota.turns)
      (Rota.service.run false Rota.start (Rota.turns.filter Turn.isQuestion)) :=
  have h : Rota.service.Stands false Rota.start := ⟨rfl, rfl⟩
  ⟨h, expiry_is_transparent Rota.service Rota.turns Rota.start h⟩

example :
    (Rota.service.run false Rota.start Rota.turns).map (·.exchanges.length) = [1, 1, 3, 1] := by
  decide +kernel

end TokenService
end Duelist
