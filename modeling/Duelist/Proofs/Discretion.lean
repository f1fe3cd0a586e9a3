import Duelist.Proofs.TwinErrands
import Duelist.Rehearsed
/-!
# Discretion

Tokens do not influence what is shown. Two players whose services are twins begin with tokens that
differ by the renaming, and the same is asked of both. Then the same is shown to both, the same
comes of all dealings, and their sessions end the same; what is sent differs by the renaming of the
access token and of the refresh token, and by nothing else.

The main statement is `Twins.tokens_are_not_shown`. `Twins.rehearsed` are twins of a kind that is
easy to come by: services whose answers are written down beforehand, for the bearers of certain
tokens only.
-/

namespace Duelist

variable {σ σ' : Type}

namespace Business

/-- The exchange that was made last for the engagement at place `n`. -/
def askedFor (b : Business σ) (n : ℕ) : Option (Request × Outcome) :=
  (b.engagements[n]?).bind Engagement.asked

end Business

/-- True of a moment in which no query of the player's asks for tokens, and in which nobody hears a
pair of tokens. -/
def Moment.IsPlain (base : String) : Moment → Prop
  | .begins d => d.IsPlain base
  | .goes _ c => c.pair? = none

namespace Twins

variable (T : Twins σ σ') (files : Files) (hangs : ℕ → Bool)

/-! ### Businesses side by side -/

/-- Two engagements that go on in parallel. -/
inductive Engagements : Engagement σ → Engagement σ' → Prop
  | intro (d : Dealing) (asked asked' : Option (Request × Outcome))
      (p : Progress (Session σ) d.Result) (p' : Progress (Session σ') d.Result)
      (h : ∀ c c' t t', T.Hears asked c c' → T.Sessions t t' →
        (p.goOn c t).Parallel T.Sessions (fun s => s.world.transcript) T.Hears (fun _ => Eq)
          (Engagement.hearing c ⟨d, asked, p⟩) t (p'.goOn c' t')) :
      Engagements ⟨d, asked, p⟩ ⟨d, asked', p'⟩

/-- Two businesses that differ by the renaming. -/
structure Businesses (b : Business σ) (b' : Business σ') : Prop where
  /-- The sessions. -/
  session : T.Sessions b.session b'.session
  /-- What is under way. -/
  engagements : List.Forall₂ T.Engagements b.engagements b'.engagements
  /-- What has come of the dealings that are done. -/
  results : b'.results = b.results

/-- The same happens to both. What the one hears who waits for a body in the business `b` is what
the other hears, up to the renaming of a pair if it is the body of a reply to a request for
tokens. -/
inductive Moments (b : Business σ) : Moment → Moment → Prop
  | begins (d : Dealing) (hd : d.IsPlain T.link.base) : Moments b (.begins d) (.begins d)
  | goes (n : ℕ) (c c' : Content) (h : T.Hears (b.askedFor n) c c') :
      Moments b (.goes n c) (.goes n c')

/-- The same happens to both, moment by moment, from the business `b` of the one on. -/
inductive Paired : Business σ → List Moment → List Moment → Prop
  | nil (b : Business σ) : Paired b [] []
  | cons (b : Business σ) (m m' : Moment) (ms ms' : List Moment) (hm : T.Moments b m m')
      (h : Paired (b.step (T.venue files hangs) m) ms ms') : Paired b (m :: ms) (m' :: ms')

variable {T} in
/-- Both may hear the same, unless it is a pair of tokens. -/
lemma hears_self (asked : Option (Request × Outcome)) {c : Content} (hc : c.pair? = none) :
    T.Hears asked c c := by
  rw [Hears, Renaming.Contents, hc]
  split <;> rfl

/-- The same may happen to both, as long as nobody hears a pair of tokens. -/
lemma paired_self (b : Business σ) {ms : List Moment} (h : ∀ m ∈ ms, m.IsPlain T.link.base) :
    T.Paired files hangs b ms ms := by
  induction ms generalizing b with
  | nil => exact .nil b
  | cons m ms ih =>
    refine .cons b m m ms ms ?_ (ih _ fun m' hm' => h m' (List.mem_cons_of_mem m hm'))
    have hm := h m List.mem_cons_self
    cases m with
    | begins d => exact .begins d hm
    | goes n c => exact .goes n c c (hears_self _ hm)

variable {T}

/-- Two businesses differ by the renaming once something has come so far for both. -/
lemma Businesses.place {b : Business σ} {b' : Business σ'} (hb : T.Businesses b b') {d : Dealing}
    {asked asked' : Option (Request × Outcome)} {p : Progress (Session σ) d.Result}
    {p' : Progress (Session σ') d.Result}
    (hp : p.Parallel T.Sessions (fun s => s.world.transcript) T.Hears (fun _ => Eq) asked b.session
      p') : T.Businesses (b.place d asked p) (b'.place d asked' p') := by
  -- both are done, or both go on, or both wait
  cases p with
  | done a s =>
    cases p' with
    | done a' s' =>
      obtain ⟨-, hs, rfl⟩ := hp
      exact ⟨hs, hb.engagements,
        congrArg (· ++ [(⟨d, a⟩ : Σ d : Dealing, d.Result)]) hb.results⟩
    | _ => exact hp.elim
  | going s next =>
    cases p' with
    | going s' next' =>
      refine ⟨hp.1, List.rel_append hb.engagements (.cons ?_ .nil), hb.results⟩
      exact .intro d _ _ _ _ fun _ _ t t' _ ht => hp.2 t t' ht
    | _ => exact hp.elim
  | waiting s resume =>
    cases p' with
    | waiting s' resume' =>
      refine ⟨hp.1, List.rel_append hb.engagements (.cons ?_ .nil), hb.results⟩
      exact .intro d _ _ _ _ fun c c' t t' hc ht => hp.2 c c' t t' hc ht
    | _ => exact hp.elim

/-- Whatever happens to both in a moment, the businesses differ by the renaming afterwards. -/
theorem Businesses.step {b : Business σ} {b' : Business σ'} (hb : T.Businesses b b')
    {m m' : Moment} (hm : T.Moments b m m') :
    T.Businesses (b.step (T.venue files hangs) m) (b'.step (T.venue' files hangs) m') := by
  cases hm with
  | begins d hd => exact hb.place (T.dealing files hangs d hd none _ _ hb.session)
  | goes n c c' hc =>
    have hget := forall₂_getElem? hb.engagements n
    rw [Business.askedFor] at hc
    rw [Business.step, Business.step]
    generalize b.engagements[n]? = found at hget hc
    generalize b'.engagements[n]? = found' at hget
    cases hget with
    | none => exact hb
    | some he =>
      cases he with
      | intro d asked asked' p p' hgo =>
        refine Businesses.place ?_ (hgo c c' _ _ hc hb.session)
        exact ⟨hb.session, forall₂_eraseIdx hb.engagements n, hb.results⟩

/-- So they do after a run. -/
lemma Businesses.run {b : Business σ} {b' : Business σ'} (hb : T.Businesses b b')
    {ms ms' : List Moment} (h : T.Paired files hangs b ms ms') :
    T.Businesses (b.run (T.venue files hangs) ms) (b'.run (T.venue' files hangs) ms') := by
  induction h generalizing b' with
  | nil b => exact hb
  | cons b m m' ms ms' hm h ih => exact ih (hb.step files hangs hm)

/-! ### The main statement -/

variable (T)

/-- What two players see and get is the same, and what they send differs by the renaming. -/
structure Same (b : Business σ) (b' : Business σ') : Prop where
  /-- The lines that were shown. -/
  lines : b'.session.world.lines = b.session.world.lines
  /-- What came of the dealings that are done, with the texts of all failures. -/
  results : b'.results = b.results
  /-- Where the player stands. -/
  standing : b'.session.standing = b.session.standing
  /-- The stop signal. -/
  raised : b'.session.crew.raised = b.session.crew.raised
  /-- Who is to be told of the end. -/
  audience : b'.session.audience = b.session.audience
  /-- Who was told of it, and what. -/
  told : b'.session.told = b.session.told
  /-- The requests that were sent. -/
  requests : List.Forall₂ (T.names.Requests T.link.base)
    (b.session.world.exchanges.map Prod.fst) (b'.session.world.exchanges.map Prod.fst)
  /-- In which order all this was sent and shown. -/
  transcript : List.Forall₂ T.Entries b.session.world.transcript b'.session.world.transcript
  /-- The tokens that are stored. -/
  tokens : b'.session.world.tokens = T.names.tokens b.session.world.tokens

variable {T} in
/-- Businesses that differ by the renaming look the same. -/
lemma Businesses.same {b : Business σ} {b' : Business σ'} (h : T.Businesses b b') :
    T.Same b b' where
  lines := (entries_views h.session.crew.world.transcript).1
  results := h.results
  standing := h.session.standing
  raised := h.session.crew.raised
  audience := h.session.audience
  told := h.session.told
  requests := List.forall₂_map_left_iff.mpr (List.forall₂_map_right_iff.mpr
    (entries_views h.session.crew.world.transcript).2)
  transcript := h.session.crew.world.transcript
  tokens := h.session.crew.world.tokens

/-- Two players begin with tokens that differ by a renaming, at services that differ by it, and the
same happens to both. At every moment they have been shown the same and have got the same. -/
theorem tokens_are_not_shown {service : σ} {service' : σ'} (hservice : T.alike service service')
    (tokens : Tokens) {ms ms' : List Moment}
    (h : T.Paired files hangs (.begin service tokens) ms ms') :
    T.Same ((Business.begin service tokens).run (T.venue files hangs) ms)
      ((Business.begin service' (T.names.tokens tokens)).run (T.venue' files hangs) ms') :=
  have hbegin : T.Businesses (.begin service tokens) (.begin service' (T.names.tokens tokens)) :=
    ⟨⟨⟨⟨hservice, rfl, .nil⟩, rfl, .nil, rfl⟩, rfl, rfl, rfl⟩, .nil, rfl⟩
  (hbegin.run files hangs h).same

end Twins

/-! ### Rehearsed twins -/

namespace Renaming

variable (f : Renaming)

/-- True of a route that answers requests for tokens. -/
def asksTokens (base : String) (route : Route) : Bool :=
  route.method == .post &&
    (base ++ route.path == base ++ "/users/refresh" || base ++ route.path == base ++ "/users/login")

/-- Two routes that differ by the renaming of the token that fits, and of the pairs in the answers
to requests for tokens. -/
structure Routes (base : String) (route route' : Route) : Prop where
  /-- The verb. -/
  method : route'.method = route.method
  /-- The path. -/
  path : route'.path = route.path
  /-- The token that fits. -/
  bearer : route'.bearer = route.bearer.map f
  /-- The answers. -/
  answers : List.Forall₂
    (fun o o' => if asksTokens base route then f.Grants o o' else o' = o)
    route.answers route'.answers

variable {f} {base : String}

/-- Requests that differ by the renaming have the same verb and address, and bearers that differ by
it. -/
lemma Requests.frame {r r' : Request} (h : f.Requests base r r') :
    r'.method = r.method ∧ r'.url = r.url ∧ r'.bearer = r.bearer.map f := by
  cases h with
  | bearer r hr => exact ⟨rfl, rfl, rfl⟩
  | refresh token => exact ⟨rfl, rfl, rfl⟩
  | signIn nickname password => exact ⟨rfl, rfl, rfl⟩

/-- A route fits a request if the other one fits the other. -/
lemma Routes.fits_eq {route route' : Route} (h : f.Routes base route route') {r r' : Request}
    (hr : f.Requests base r r') : route'.fits base r' = route.fits base r := by
  obtain ⟨hmethod, hurl, hbearer⟩ := hr.frame
  have hsame : (route.bearer.map f == r.bearer.map f) = (route.bearer == r.bearer) := by
    rw [Bool.eq_iff_iff, beq_iff_eq, beq_iff_eq]
    exact (Option.map_injective f.injective).eq_iff
  rw [Route.fits, Route.fits, h.method, h.path, h.bearer, hmethod, hurl, hbearer, hsame,
    Option.isNone_map]

/-- They give the same answer, up to the renaming, and go on alike. -/
lemma Routes.answer {route route' : Route} (h : f.Routes base route route') {r : Request}
    (hr : route.fits base r) :
    f.Outcomes base r route.answer route'.answer ∧ f.Routes base route.next route'.next := by
  have hasks : asksTokens base route = r.asksTokens base := by
    simp only [Route.fits, Bool.and_eq_true, beq_iff_eq] at hr
    rw [asksTokens, Request.asksTokens, hr.1.1, hr.1.2]
  obtain ⟨method, path, bearer, answers⟩ := route
  obtain ⟨method', path', bearer', answers'⟩ := route'
  obtain ⟨hmethod, hpath, hbearer, hanswers⟩ := h
  dsimp only at hmethod hpath hbearer hanswers
  constructor
  · rw [Outcomes, ← hasks]
    cases hanswers with
    | nil =>
      split
      · exact .refused _ (by decide)
      · rfl
    | cons ho _ => exact ho
  · refine ⟨hmethod, hpath, hbearer, ?_⟩
    -- the last answer is given again and again, and both lists come to it at the same time
    have hlength := hanswers.length_eq
    simp only [Route.next, ← hlength]
    split
    · exact hanswers
    · cases hanswers with
      | nil => exact .nil
      | cons _ htail => exact htail

/-- Rehearsed services whose routes differ by the renaming answer alike. -/
lemma answerByRoute {routes routes' : List Route}
    (h : List.Forall₂ (f.Routes base) routes routes') {r r' : Request} (hr : f.Requests base r r') :
    f.Outcomes base r (answerByRoute base r routes).1 (answerByRoute base r' routes').1 ∧
      List.Forall₂ (f.Routes base) (answerByRoute base r routes).2
        (answerByRoute base r' routes').2 := by
  induction h with
  | nil =>
    refine ⟨?_, .nil⟩
    rw [Outcomes]
    split
    · exact .refused _ (by decide)
    · rfl
  | @cons route route' routes routes' hroute hroutes ih =>
    rw [Duelist.answerByRoute, Duelist.answerByRoute, hroute.fits_eq hr]
    split
    next hfits =>
      obtain ⟨ho, hnext⟩ := hroute.answer hfits
      exact ⟨ho, .cons hnext hroutes⟩
    next => exact ⟨ih.1, .cons hroute ih.2⟩

end Renaming

/-- Rehearsed services whose routes differ by a renaming are twins. -/
def Twins.rehearsed (f : Renaming) (base : String) : Twins (List Route) (List Route) where
  names := f
  link := .rehearsed base
  link' := .rehearsed base
  base_eq := rfl
  alike := List.Forall₂ (f.Routes base)
  answers hr hs := Renaming.answerByRoute hs hr

namespace Renaming

/-- Marks all strings but the empty one. -/
def marked : Renaming where
  apply s := if s = "" then "" else "x" ++ s
  injective s t h := by
    simp only at h
    split at h
    next hs =>
      split at h
      next ht => rw [hs, ht]
      next => simp at h
    next hs =>
      split at h
      next => simp at h
      next => exact (String.append_right_inj "x").mp h
  apply_empty := rfl

/-- A text as the content of a body. -/
def written (text : String) : Content where
  bytes := text.toList.map (·.toNat.toUInt8)

/-- A service that knows a player, but tells it only to the bearer of `access`. It gives the pair
`first` for a password, and the pair `second` for a refresh. -/
def routes (access first second : String) : List Route :=
  [{ method := .post, path := "/users/login"
     answers := [.ok { status := 200, body := .whole (written first) }] },
    { method := .post, path := "/users/refresh"
      answers := [.ok { status := 200, body := .whole (written second) }] },
    { method := .get, path := "/users/7", bearer := some access
      answers := [.ok { status := 200, body := .whole (written "[\"Ada\"]") }] },
    { method := .get, path := "/users/7", answers := [.ok { status := 401, body := .whole {} }] }]

/-- A service with short names for its tokens. -/
def bare : List Route :=
  routes "a1" "[\"a0\",\"r0\"]" "[\"a1\",\"r1\"]"

/-- The same service with marked names. -/
def disguised : List Route :=
  routes "xa1" "[\"xa0\",\"xr0\"]" "[\"xa1\",\"xr1\"]"

/-- Two contents that are read as pairs are alike if the pairs differ by the renaming. -/
lemma contents_of_eq {f : Renaming} {c c' : Content} {pair : Tokens} (h : c.pair? = some pair)
    (h' : c'.pair? = some (f.tokens pair)) : f.Contents c c' := by
  rw [Contents, h]
  exact h'

/-- The marked names in one reply. -/
lemma grants_written {first second : String} {pair : Tokens}
    (h : (written first).pair? = some pair)
    (h' : (written second).pair? = some (marked.tokens pair)) :
    marked.Grants (.ok { status := 200, body := .whole (written first) } : Outcome)
      (.ok { status := 200, body := .whole (written second) }) :=
  .whole _ _ (contents_of_eq h h')

/-- The two services differ by the renaming in the tokens that they give and in the one that they
ask for, and in nothing else. -/
lemma alike_bare_disguised : List.Forall₂ (marked.Routes "") bare disguised := by
  have hfirst : marked.Grants (.ok { status := 200, body := .whole (written "[\"a0\",\"r0\"]") } :
      Outcome) (.ok { status := 200, body := .whole (written "[\"xa0\",\"xr0\"]") }) :=
    grants_written (show _ = some ⟨"a0", "r0"⟩ by decide +kernel) (by decide +kernel)
  have hsecond : marked.Grants (.ok { status := 200, body := .whole (written "[\"a1\",\"r1\"]") } :
      Outcome) (.ok { status := 200, body := .whole (written "[\"xa1\",\"xr1\"]") }) :=
    grants_written (show _ = some ⟨"a1", "r1"⟩ by decide +kernel) (by decide +kernel)
  have hbearer : some "xa1" = (some "a1").map marked := by decide +kernel
  have hasks (path : String) (hpath : path = "/users/login" ∨ path = "/users/refresh")
      (answers : List Outcome) :
      asksTokens "" { method := .post, path := path, answers := answers } = true := by
    rcases hpath with rfl | rfl <;> simp [asksTokens]
  refine .cons ⟨rfl, rfl, rfl, .cons ?_ .nil⟩ (.cons ⟨rfl, rfl, rfl, .cons ?_ .nil⟩
    (.cons ⟨rfl, rfl, hbearer, .cons rfl .nil⟩ (.cons ⟨rfl, rfl, rfl, .cons rfl .nil⟩ .nil)))
  · rw [hasks _ (.inl rfl), if_pos rfl]
    exact hfirst
  · rw [hasks _ (.inr rfl), if_pos rfl]
    exact hsecond

/-- A sign-in, and a question for which the tokens have to be refreshed. -/
def moments : List Moment :=
  .begins (.signIn "me" "secret") :: List.replicate 2 (.goes 0 {}) ++
    .begins (.ask (.player 7)) :: List.replicate 6 (.goes 0 {})

end Renaming

open Renaming in
/-- The pairs of the one service are marked, and so is the token that it asks for. -/
theorem Twins.tokens_are_not_shown_marked :
    let T := Twins.rehearsed marked ""
    T.alike bare disguised ∧ T.Paired {} (fun _ => false) (.begin bare {}) moments moments ∧
      T.Same ((Business.begin bare {}).run (T.venue {} fun _ => false) moments)
        ((Business.begin disguised (T.names.tokens {})).run (T.venue' {} fun _ => false)
          moments) := by
  intro T
  have hplain : ∀ m ∈ moments, m.IsPlain T.link.base := by
    intro m hm
    simp only [moments, List.replicate, List.cons_append, List.nil_append, List.mem_cons,
      List.not_mem_nil, or_false] at hm
    rcases hm with rfl | rfl | rfl | rfl | rfl | rfl | rfl | rfl | rfl | rfl <;>
      first | exact Content.pair?_empty | trivial
  have hpaired := T.paired_self {} (fun _ => false) (.begin bare {}) hplain
  exact ⟨alike_bare_disguised, hpaired,
    T.tokens_are_not_shown {} (fun _ => false) alike_bare_disguised {} hpaired⟩

open Renaming in
example : let b := (Business.begin bare {}).run { link := .rehearsed "" } moments
    b.session.world.exchanges.map (fun x => x.2.toOption.map Reply.status) =
      [some 200, some 401, some 200, some 200] := by
  decide +kernel

end Duelist
