import Duelist.Proofs.Earnings
import Duelist.Proofs.RefreshAndRetry
/-!
# What dealings do to the tokens

`Errand.Earns` says of what is done step by step, with others in between, that whoever replaces the
tokens has the new ones from the last exchange of its own. Others may do what they want, except that
they leave the followers at rest. The main statement is `Dealing.earns`: so it is with all that is
asked of the client.
-/

namespace Duelist

variable {σ τ α β : Type}

/-! ### In many steps -/

/-- Each step to come is an earning, the last exchange before the first one being `asked`, and in
the end `post` holds of the last exchange and the result. Others may do in between what they want,
as long as `sound` holds. -/
def Progress.Earns (base : String) (world : τ → World σ) (sound : τ → Prop)
    (post : Option (Request × Outcome) → α → Prop) :
    (asked : Option (Request × Outcome)) → (v : τ) → Progress τ α → Prop
  | asked, v, .done a s => s = v ∧ post asked a
  | asked, v, .going s next =>
    sound s ∧ (∃ new, Earning base asked.toList new (world v) (world s)) ∧
      ∀ t, sound t → (next t).Earns base world sound post
        (lastExchange (world v).transcript (world s).transcript asked) t
  | asked, v, .waiting s resume =>
    sound s ∧ (∃ new, Earning base asked.toList new (world v) (world s)) ∧
      ∀ c t, sound t → (resume c t).Earns base world sound post
        ((lastExchange (world v).transcript (world s).transcript asked).map (readExchange c)) t

section

variable {base : String} {world : τ → World σ} {sound : τ → Prop}
  {post : Option (Request × Outcome) → α → Prop} {asked : Option (Request × Outcome)}

/-- If all steps of one thing are earnings, and so are those of all that may come after it, then all
steps of both together are. What comes after starts with the last exchange that was made. -/
lemma Progress.Earns.andThen {post' : Option (Request × Outcome) → β → Prop} {p : Progress τ α}
    {v : τ} (h : p.Earns base world sound post asked v) (hv : sound v) {f : α → Errand τ β}
    (hf : ∀ asked a t, sound t → post asked a → (f a t).Earns base world sound post' asked t) :
    (p.andThen f).Earns base world sound post' asked v := by
  induction p generalizing asked v with
  | done a s =>
    obtain ⟨rfl, hpost⟩ := h
    exact hf asked a s hv hpost
  | going s next ih => exact ⟨h.1, h.2.1, fun t ht => ih t (h.2.2 t ht) ht⟩
  | waiting s resume ih => exact ⟨h.1, h.2.1, fun c t ht => ih c t (h.2.2 c t ht) ht⟩

/-- Each step of the errand is an earning. -/
def Errand.Earns (base : String) (world : τ → World σ) (sound : τ → Prop)
    (asked : Option (Request × Outcome)) (e : Errand τ α)
    (post : Option (Request × Outcome) → α → Prop) : Prop :=
  ∀ s, sound s → (e s).Earns base world sound post asked s

namespace Errand

/-- To do nothing earns nothing, and is an earning as such. -/
lemma earns_pure {a : α} (h : post asked a) :
    (pure a : Errand τ α).Earns base world sound asked post :=
  fun _ _ => ⟨rfl, h⟩

/-- Two errands one after the other are an earning if each of them is, the second one with the last
exchange of the first. -/
lemma earns_bind {mid : Option (Request × Outcome) → β → Prop} {e : Errand τ β}
    {f : β → Errand τ α} (h : e.Earns base world sound asked mid)
    (hf : ∀ asked b, mid asked b → (f b).Earns base world sound asked post) :
    (e >>= f).Earns base world sound asked post :=
  fun s hs => (h s hs).andThen hs fun asked b t ht hb => hf asked b hb t ht

/-- What holds of the last exchange and the result may be weakened. -/
lemma Earns.imp {post' : Option (Request × Outcome) → α → Prop} {e : Errand τ α}
    (h : e.Earns base world sound asked post) (hpost : ∀ asked a, post asked a → post' asked a) :
    e.Earns base world sound asked post' :=
  fun s hs => by
    rw [← (e s).andThen_done]
    exact (h s hs).andThen hs fun asked a t _ ha => ⟨rfl, hpost asked a ha⟩

/-- To make something else of the result changes nothing. -/
lemma Earns.map {e : Errand τ α} (h : e.Earns base world sound asked fun _ _ => True)
    (f : α → β) : (do return f (← e) : Errand τ β).Earns base world sound asked fun _ _ => True :=
  earns_bind h fun _ _ _ => earns_pure trivial

end Errand

end

/-! ### In the world -/

/-- In the world every state is sound. -/
abbrev Errand.EarnsAt (base : String) (asked : Option (Request × Outcome))
    (e : Errand (World σ) α) (post : Option (Request × Outcome) → α → Prop) : Prop :=
  e.Earns base id (fun _ => True) asked post

namespace Link

open Errand

variable (link : Link σ) {asked : Option (Request × Outcome)}

/-- Sending a query without a token is one exchange. -/
lemma sendAnonymously_apply (q : Query) (w : World σ) :
    link.sendAnonymously q w =
      ((link.outcome (.ofQuery link.base q none) w).mapError .ofReasons,
        link.asked (.ofQuery link.base q none) w) := rfl

/-- One step in the world. -/
lemma earns_lift {act : Act σ α} {post : Option (Request × Outcome) → α → Prop}
    (h : ∀ w, ∃ new, Earning link.base asked.toList new w (act w).2 ∧
      post ((new.filterMap Entry.exchange?).getLast?.or asked) (act w).1) :
    (liftM act : Errand (World σ) α).EarnsAt link.base asked post := by
  intro w _
  obtain ⟨new, hearning, hpost⟩ := h w
  have hasked : lastExchange w.transcript (act w).2.transcript asked =
      (new.filterMap Entry.exchange?).getLast?.or asked := by
    rw [hearning.transcript_eq, lastExchange_append]
  exact ⟨trivial, ⟨new, hearning⟩, fun t _ => ⟨rfl, hasked ▸ hpost⟩⟩

/-- One step in the world of which nothing else is said. -/
lemma earns_liftM {act : Act σ α} {post : List (Request × Outcome) → α → Prop}
    (h : Act.Earns link.base asked.toList act post) :
    (liftM act : Errand (World σ) α).EarnsAt link.base asked fun _ _ => True :=
  link.earns_lift fun w => (h w).imp fun _ hnew => ⟨hnew.1, trivial⟩

/-- To send a query without a token makes that query the last exchange. -/
lemma earns_sendAnonymously (q : Query) :
    (liftM (link.sendAnonymously q) : Errand (World σ) _).EarnsAt link.base asked
      fun asked result => ∃ outcome, result = outcome.mapError .ofReasons ∧
        asked = some (.ofQuery link.base q none, outcome) := by
  refine link.earns_lift fun w => ?_
  rw [sendAnonymously_apply]
  exact ⟨[.sent _ _], ⟨rfl, .inl rfl⟩, _, rfl, rfl⟩

/-- A reply is read, and with it the exchange that brought it. -/
lemma earns_awaited (r : Reply) :
    (r.awaited : Errand (World σ) Reply).EarnsAt link.base asked fun asked' r' =>
      ∃ c, r' = r.read c ∧ asked' = if r.body = .live then asked.map (readExchange c)
        else asked := by
  obtain ⟨status, body⟩ := r
  cases body with
  | whole content => exact earns_pure ⟨{}, rfl, rfl⟩
  | live =>
    intro w _
    refine ⟨trivial, ⟨[], .refl w⟩, fun c t _ => ⟨rfl, c, rfl, ?_⟩⟩
    rw [lastExchange_self]
    rfl

/-- Whoever gets a fresh token has it from the refresh that was just made. -/
lemma earns_freshToken (used : String) :
    (link.freshToken used).EarnsAt link.base asked fun _ _ => True := by
  refine earns_bind (link.earns_liftM (Act.earns_tokens)) fun asked stored _ => ?_
  by_cases hused : stored.access = used
  swap
  · rw [if_pos hused]
    exact earns_pure trivial
  rw [if_neg (not_not.mpr hused)]
  by_cases hrefresh : stored.refresh.isEmpty
  · rw [if_pos hrefresh]
    exact earns_pure trivial
  rw [if_neg hrefresh]
  refine earns_bind (link.earns_sendAnonymously (.refresh stored.refresh)) ?_
  rintro asked result ⟨outcome, rfl, rfl⟩
  cases outcome with
  | error reasons => exact earns_pure trivial
  | ok reply =>
    have hgo (r : Reply) : EarnsAt link.base (some (.refresh link.base stored.refresh, .ok r))
        (keepRefreshed (σ := σ) r) fun _ _ => True := by
      rw [keepRefreshed]
      cases hpair : refreshedTokens (.ok r) with
      | error e => exact earns_pure trivial
      | ok pair =>
        refine earns_bind (link.earns_liftM (Act.earns_store ?_)) fun _ _ _ => earns_pure trivial
        exact ⟨_, List.mem_singleton.mpr rfl, .of_refreshedTokens hpair⟩
    simp only [Except.mapError]
    split
    · refine earns_bind (link.earns_awaited reply) ?_
      rintro _ _ ⟨c, rfl, rfl⟩
      -- the reply was read, and so was the last exchange
      have hread : (if reply.body = .live then
          (some (Request.refresh link.base stored.refresh, .ok reply)).map (readExchange c)
          else some (.refresh link.base stored.refresh, .ok reply)) =
          some (.refresh link.base stored.refresh, .ok (reply.read c)) := by
        obtain ⟨status, body⟩ := reply
        cases body <;> rfl
      exact hread ▸ hgo (reply.read c)
    · exact hgo reply

/-- Whatever becomes of a query that is sent on behalf of the player, each pair that is stored on
the way was given in the exchange before. -/
lemma earns_request (q : Query) :
    (link.request q).EarnsAt link.base asked fun _ _ => True := by
  refine earns_bind (link.earns_liftM Act.earns_tokens) fun asked stored _ => ?_
  refine earns_bind (link.earns_liftM (Act.earns_send link q stored.access)) fun asked reply _ => ?_
  cases reply with
  | error e => exact earns_pure trivial
  | ok reply =>
    simp only
    split
    · refine earns_bind (link.earns_freshToken stored.access) fun asked fresh _ => ?_
      cases fresh with
      | error e => exact earns_pure trivial
      | ok fresh => exact link.earns_liftM (Act.earns_send link q fresh)
    · exact earns_pure trivial

/-- To read the reply to its end earns no other pair. -/
lemma earns_ask (q : Query) : (link.ask q).EarnsAt link.base asked fun _ _ => True := by
  refine earns_bind (link.earns_request q) fun asked result _ => ?_
  cases result with
  | error e => exact earns_pure trivial
  | ok reply => exact ((link.earns_awaited reply).imp fun _ _ _ => trivial).map _

/-- So it is when a file of a task is asked for. -/
lemma earns_taskFile (task file : String) :
    (link.taskFile task file).EarnsAt link.base asked fun _ _ => True :=
  (link.earns_ask _).map _

/-- So it is for the files of all samples, one after the other. -/
lemma earns_sampleTexts (task : String) (samples : List Sample) :
    (link.sampleTexts task samples).EarnsAt link.base asked fun _ _ => True := by
  induction samples generalizing asked with
  | nil => exact earns_pure trivial
  | cons sample samples ih =>
    refine earns_bind (link.earns_taskFile task sample.input) fun _ input _ => ?_
    refine earns_bind (link.earns_taskFile task sample.output) fun _ output _ => ?_
    refine earns_bind ih fun _ rest _ => ?_
    split
    · exact earns_pure trivial
    · exact earns_pure trivial

/-- So it is for a task with its files. -/
lemma earns_sheet (id : String) : (link.sheet id).EarnsAt link.base asked fun _ _ => True := by
  refine earns_bind ((link.earns_ask _).map _) fun _ task _ => ?_
  cases task with
  | error e => exact earns_pure trivial
  | ok task =>
    refine earns_bind (link.earns_taskFile id task.statement) fun _ statement _ => ?_
    exact (link.earns_sampleTexts id task.samples).map _

/-- Whoever signs in has the pair from the exchange that was just made. -/
lemma earns_signingIn (nickname password : String) :
    (link.signingIn nickname password).EarnsAt link.base asked fun _ _ => True := by
  have hasks : (liftM (link.askTokens nickname password) : Errand (World σ) _).EarnsAt link.base
      asked fun asked granted => ∀ pair, granted = .ok pair →
        ∃ x ∈ asked.toList, Grants link.base pair x := by
    refine link.earns_lift fun w => ⟨[.sent _ _], ⟨rfl, .inl rfl⟩, fun pair hpair => ?_⟩
    exact ⟨_, List.mem_singleton.mpr rfl, .of_grantedTokens hpair⟩
  refine earns_bind hasks fun asked granted hgranted => ?_
  cases granted with
  | error e => exact earns_pure trivial
  | ok pair => exact (link.earns_liftM (Act.earns_store (hgranted pair rfl))).map _

/-- So it is for all questions that the client asks. -/
lemma earns_question (q : Question) :
    (q.ask link).EarnsAt link.base asked fun _ _ => True := by
  cases q with
  | events => exact (link.earns_request _).map _
  | _ => exact ((link.earns_ask _).map _).map _

end Link

/-! ### In the crew -/

/-- All followers have ended or are about to send their questions. -/
def Crew.Rests (crew : Crew σ) : Prop :=
  ∀ f ∈ crew.followers, f.Rests

/-- What happens to the tokens in one step is an earning of this very step, and the followers are at
rest again. -/
def Crew.Earns (base : String) (act : StateM (Crew σ) α) : Prop :=
  ∀ crew : Crew σ, crew.Rests → (act crew).2.Rests ∧
    ∃ new, Earning base [] new crew.world (act crew).2.world

namespace Crew

variable {base : String} (link : Link σ)

/-- What is an earning in the world is one for the crew, since the followers stay as they are. -/
lemma earns_inWorld {act : Act σ α} {post : List (Request × Outcome) → α → Prop}
    (h : Act.Earns base [] act post) : Earns base (inWorld act) :=
  fun crew hrests => ⟨hrests, (h crew.world).imp fun _ hnew => hnew.1⟩

/-- To wait for the followers earns nothing. -/
lemma earns_join : Earns base (join : StateM (Crew σ) ℕ) :=
  fun crew hrests => ⟨hrests, [], .refl crew.world⟩

/-- A follower that is started has read its token and asks next, so that it is at rest. -/
lemma earns_follow (duel submission : Int64) : Earns link.base (follow link duel submission) := by
  intro crew hrests
  cases hraised : crew.raised with
  | true =>
    rw [follow_of_raised link crew duel submission hraised]
    exact ⟨hrests, [], .refl crew.world⟩
  | false =>
    rw [follow_of_free link crew duel submission hraised]
    obtain ⟨new, hearning, hrest⟩ := Follower.earns_start duel submission crew.world
    refine ⟨fun f hf => ?_, new, hearning⟩
    rcases List.mem_append.mp hf with hf | hf
    · exact hrests f hf
    · obtain rfl := List.mem_singleton.mp hf
      exact hrest

/-- A move of a follower is an earning of that very step, and leaves it at rest. -/
lemma earns_move (n : ℕ) : Earns link.base (move link n) := by
  intro crew hrests
  rw [move_eq]
  cases hf : crew.followers[n]? with
  | none => exact ⟨hrests, [], .refl crew.world⟩
  | some f =>
    have hmem : f ∈ crew.followers := List.mem_of_getElem? hf
    by_cases hended : f.hasEnded
    · simp only [hended]
      exact ⟨hrests, [], .refl crew.world⟩
    · simp only [hended]
      obtain ⟨new, hearning, hrest⟩ :=
        Follower.earns_move crew.raised (hrests f hmem) crew.world
      refine ⟨fun g hg => ?_, new, hearning⟩
      rcases List.mem_or_eq_of_mem_set hg with hg | rfl
      · exact hrests g hg
      · exact hrest

/-- To raise the signal is an earning: all requests that the followers still make fall into the same
step. -/
lemma earns_raise (hangs : ℕ → Bool) : Earns link.base (raise link hangs) := by
  intro crew hrests
  obtain ⟨new, hearning, hrest⟩ := earns_concludeFrom hangs 0 hrests crew.world
  exact ⟨hrest, new, hearning⟩

end Crew

/-! ### In the session -/

/-- All followers have ended or are about to send their questions. -/
def Session.Rests (s : Session σ) : Prop :=
  s.crew.Rests

/-- Each step of what is done with a session is an earning. -/
def Session.Earns (base : String) (e : Errand (Session σ) α) : Prop :=
  ∀ asked, e.Earns base world Rests asked fun _ _ => True

namespace Session

open Errand

variable {base : String}

/-- To do nothing with a session is an earning. -/
lemma earns_pure (a : α) : Session.Earns base (pure a : Errand (Session σ) α) :=
  fun _ => Errand.earns_pure trivial

/-- Two errands one after the other are an earning of a session if each of them is. -/
lemma earns_bind {e : Errand (Session σ) β} {f : β → Errand (Session σ) α}
    (h : Session.Earns base e) (hf : ∀ b, Session.Earns base (f b)) :
    Session.Earns base (e >>= f) :=
  fun asked => Errand.earns_bind (h asked) fun asked' b _ => hf b asked'

/-- What is done in the world is done to the session. -/
lemma earns_world {e : Errand (World σ) α}
    (h : ∀ asked, e.EarnsAt base asked fun _ _ => True) :
    Session.Earns base (liftM e : Errand (Session σ) α) := by
  suffices hwithin : ∀ (p : Progress (World σ) α) (asked : Option (Request × Outcome))
      (s : Session σ), s.Rests → p.Earns base id (fun _ => True) (fun _ _ => True) asked s.world →
      (p.within world placed s).Earns base world Rests (fun _ _ => True) asked s from
    fun asked s hs => hwithin (e s.world) asked s hs (h asked s.world trivial)
  intro p
  induction p with
  | done a w =>
    intro asked s hs hp
    obtain rfl : w = s.world := hp.1
    exact ⟨rfl, trivial⟩
  | going w next ih =>
    intro asked s hs hp
    exact ⟨hs, hp.2.1, fun t ht => ih t.world _ t ht (hp.2.2 t.world trivial)⟩
  | waiting w resume ih =>
    intro asked s hs hp
    exact ⟨hs, hp.2.1, fun c t ht => ih c t.world _ t ht (hp.2.2 c t.world trivial)⟩

/-- What is done with the crew is done to the session. -/
lemma earns_onCrew {act : StateM (Crew σ) α} (h : Crew.Earns base act) :
    Session.Earns base (Errand.lift (onCrew act)) := by
  intro asked s hs
  obtain ⟨hrests, new, hearning⟩ := h s.crew hs
  exact ⟨hrests, ⟨new, hearning.mono (List.nil_subset _)⟩, fun t _ => ⟨rfl, trivial⟩⟩

/-- What leaves the crew alone has nothing to do with the tokens. -/
lemma earns_frame {act : Play σ α} (h : ∀ s, (act s).2.crew = s.crew) :
    Session.Earns base (Errand.lift act) := by
  intro asked s hs
  have hcrew := h s
  refine ⟨?_, ⟨[], ?_⟩, fun t _ => ⟨rfl, trivial⟩⟩
  · rw [Rests, hcrew]
    exact hs
  · rw [world, world, hcrew]
    exact .refl s.crew.world

/-- To show a line earns nothing. -/
lemma earns_put (line : Line) :
    Session.Earns base (Errand.lift (inWorld (Act.put (σ := σ) line))) :=
  earns_onCrew (Crew.earns_inWorld (Act.earns_put line))

/-- To change the standing if that is possible earns nothing. -/
lemma earns_attempt (change : Standing → Option Standing) :
    Session.Earns base (Errand.lift (attempt (σ := σ) change)) := by
  refine earns_frame fun s => ?_
  rw [attempt]
  split <;> rfl

/-- To change the standing earns nothing. -/
lemma earns_restand (change : Standing → Standing) :
    Session.Earns base (Errand.lift (restand (σ := σ) change)) :=
  earns_frame fun _ => rfl

/-- To tell the audience earns nothing. -/
lemma earns_tell (closing : Closing) :
    Session.Earns base (Errand.lift (tell (σ := σ) closing)) := by
  refine earns_frame fun s => ?_
  obtain ⟨crew, standing, audience, told⟩ := s
  cases audience <;> rfl

/-- To join the queue earns nothing: nobody is asked. -/
lemma earns_joinQueue :
    Session.Earns base (joinQueue : Errand (Session σ) (Except Failure Unit)) := by
  refine earns_bind (earns_attempt _) fun changed => ?_
  cases changed with
  | false => exact earns_pure _
  | true => exact earns_bind (earns_put _) fun _ => earns_pure _

variable (venue : Venue σ)

/-- A question whose answer is a record. -/
lemma earns_recordOf {read : Json → Option α} (q : Query) :
    Session.Earns venue.link.base
      (liftM (do return recordOf read (← venue.link.ask q) : Errand (World σ) _) :
        Errand (Session σ) (Except Failure α)) :=
  earns_world fun _ => (venue.link.earns_ask q).map _

/-- The presentation of a duel asks several questions, and each of them may earn a pair. -/
lemma earns_present (duel : Int64) : Session.Earns venue.link.base (present venue duel) := by
  refine earns_bind (earns_recordOf venue _) fun summary => ?_
  cases summary with
  | error e => exact earns_put _
  | ok summary =>
    refine earns_bind (earns_restand _) fun _ => ?_
    refine earns_bind (earns_recordOf venue _) fun player => ?_
    refine earns_bind (earns_put _) fun _ => ?_
    refine earns_bind (earns_world fun _ => venue.link.earns_sheet _) fun sheet => ?_
    cases sheet with
    | error e => exact earns_put _
    | ok sheet => exact earns_put _

/-- The start of a duel earns what its presentation earns. -/
lemma earns_started (duel : Int64) (opponent : Option Int64) (task : Option String) :
    Session.Earns venue.link.base (started venue duel opponent task) := by
  refine earns_bind (earns_attempt _) fun changed => ?_
  cases changed with
  | false => exact earns_pure _
  | true =>
    refine earns_bind (earns_put _) fun _ => ?_
    refine earns_bind (earns_present venue duel) fun _ => ?_
    exact earns_bind (earns_put _) fun _ => earns_pure _

/-- The announcement of the result asks one question. -/
lemma earns_announce (duel : Int64) : Session.Earns venue.link.base (announce venue duel) := by
  refine earns_bind (earns_recordOf venue _) fun summary => ?_
  cases summary with
  | error e => exact earns_bind (earns_put _) fun _ => earns_pure _
  | ok summary => exact earns_bind (earns_put _) fun _ => earns_pure _

/-- When the signal is raised, the followers conclude, all in one step. -/
lemma earns_raise : Session.Earns venue.link.base (Errand.lift (raise venue)) :=
  earns_onCrew (Crew.earns_raise venue.link venue.hangs)

/-- The end of a duel earns what the announcement and the followers earn. -/
lemma earns_finished (duel : Int64) : Session.Earns venue.link.base (finished venue duel) := by
  refine earns_bind (earns_attempt _) fun changed => ?_
  cases changed with
  | false => exact earns_pure _
  | true =>
    refine earns_bind (earns_announce venue duel) fun result => ?_
    refine earns_bind (earns_frame fun _ => rfl) fun outcome => ?_
    refine earns_bind (earns_raise venue) fun _ => ?_
    refine earns_bind (earns_onCrew Crew.earns_join) fun givenUp => ?_
    refine earns_bind (earns_restand _) fun _ => ?_
    exact earns_bind (earns_tell _) fun _ => earns_pure _

/-- Taking an event is an earning, whichever event it is. -/
lemma earns_take (e : Event) : Session.Earns venue.link.base (take venue e) := by
  refine earns_bind (earns_frame fun _ => rfl) fun s => ?_
  split
  · exact earns_pure _
  · cases e with
    | started duel opponent task => exact earns_started venue duel opponent task
    | finished duel => exact earns_finished venue duel

/-- Handing in a solution is an earning, with the query and with the follower that is started. -/
lemma earns_handingIn (path : String) :
    Session.Earns venue.link.base (handingIn venue path) := by
  refine earns_bind (earns_frame fun _ => rfl) fun s => ?_
  split
  · exact earns_pure _
  refine earns_bind (earns_recordOf venue _) fun result => ?_
  cases result with
  | error e => exact earns_pure _
  | ok submission =>
    refine earns_bind (earns_put _) fun _ => ?_
    refine earns_bind (earns_onCrew (Crew.earns_follow _ _ _)) fun followed => ?_
    cases followed with
    | true => exact earns_pure _
    | false => exact earns_bind (earns_put _) fun _ => earns_pure _

/-- Leaving is an earning, since the followers conclude. -/
lemma earns_leaving : Session.Earns venue.link.base (leaving venue) := by
  refine earns_bind (earns_restand _) fun _ => ?_
  exact earns_bind (earns_raise venue) fun _ => earns_onCrew Crew.earns_join

/-- Obeying a message is an earning, whichever message it is. -/
lemma earns_obeying (message : Message) :
    Session.Earns venue.link.base (obeying venue message) := by
  obtain text | - | closing := message
  · refine earns_bind ?_ fun _ => earns_bind (earns_put _) fun _ => earns_pure _
    cases Command.ofLine text with
    | submit path =>
      refine earns_bind (earns_handingIn venue path) fun result => ?_
      cases result with
      | ok submission => exact earns_pure _
      | error e => exact earns_put _
    | empty => exact earns_frame fun _ => rfl
    | usage => exact earns_put _
    | unknown line => exact earns_put _
  · refine earns_bind (earns_put _) fun _ => ?_
    exact earns_bind (earns_leaving venue) fun _ => earns_pure _
  · exact earns_pure _

/-! ### Reading the event stream -/

/-- To look at the signal earns nothing. -/
lemma earns_unlessRaised (a : α) :
    Session.Earns base (Errand.lift (Subscription.unlessRaised (handler venue) a)) := by
  refine earns_frame fun s => ?_
  rw [Subscription.unlessRaised]
  simp only [bind, StateT.bind, get, getThe, MonadStateOf.get, StateT.get, pure]
  split <;> rfl

/-- To read a line of the stream earns what the event in it earns, if there is one. -/
lemma earns_readLine (line : List UInt8) (f : Framer) :
    Session.Earns venue.link.base (Subscription.readLine (handler venue) line f) := by
  rw [Subscription.readLine]
  split
  · exact earns_pure _
  split
  · exact earns_pure _
  · refine earns_bind (earns_take venue _) fun flow => ?_
    cases flow with
    | stop => exact earns_pure _
    | proceed => exact earns_unlessRaised venue _
  · exact earns_unlessRaised venue _

/-- So it is for several lines. -/
lemma earns_readLines (lines : List (List UInt8)) (f : Framer) :
    Session.Earns venue.link.base (Subscription.readLines (handler venue) lines f) := by
  induction lines generalizing f with
  | nil => exact earns_pure _
  | cons line lines ih =>
    refine earns_bind (earns_readLine venue line f) fun result => ?_
    cases result with
    | error ending => exact earns_pure _
    | ok f => exact ih f

/-- So it is for bytes that have arrived, which may hold several lines. -/
lemma earns_receive (reader : Subscription) (bytes : List UInt8) :
    Session.Earns venue.link.base (reader.receive (handler venue) bytes) := by
  refine earns_bind (earns_readLines venue _ _) fun result => ?_
  cases result <;> exact earns_pure _

/-- At the end of the stream one more line may be read. -/
lemma earns_finish (reader : Subscription) (reason : Option String) :
    Session.Earns venue.link.base (reader.finish (handler venue) reason) := by
  cases reason with
  | some reason => exact earns_pure _
  | none =>
    rw [Subscription.finish]
    split
    · exact earns_pure _
    · refine earns_bind (earns_readLine venue _ _) fun result => ?_
      cases result <;> exact earns_pure _

/-- To open the stream is a question like any other; what is read of it then are lines. -/
lemma earns_listen : Session.Earns venue.link.base (Seat.listen venue) := by
  refine earns_bind (earns_world fun _ => venue.link.earns_request _) fun reply => ?_
  rw [Subscription.follow]
  split
  · exact earns_pure _
  next body _ =>
    cases body with
    | live => exact earns_unlessRaised venue _
    | whole content =>
      refine earns_bind (earns_unlessRaised venue _) fun started => ?_
      cases started with
      | error ending => exact earns_pure _
      | ok reader =>
        refine earns_bind (earns_receive venue reader content.bytes) fun result => ?_
        cases result with
        | error ending => exact earns_pure _
        | ok reader =>
          exact earns_bind (earns_finish venue reader content.failure) fun _ => earns_pure _

/-- To say why reading is over earns nothing. -/
lemma earns_concluding (ending : StreamEnd) :
    Session.Earns base (concluding ending : Errand (Session σ) Unit) := by
  rw [concluding]
  split
  · exact earns_put _
  · exact earns_pure _

/-- Nor does it if reading is not over. -/
lemma earns_heeding (result : Except StreamEnd Subscription) :
    Session.Earns base (heeding result : Errand (Session σ) Unit) := by
  cases result with
  | ok reader => exact earns_pure _
  | error ending => exact earns_concluding ending

end Session

/-- Each step of a dealing is an earning. -/
theorem Dealing.earns (venue : Venue σ) (d : Dealing) :
    Session.Earns venue.link.base (d.errand venue) := by
  cases d with
  | signIn nickname password =>
    exact Session.earns_world fun _ => venue.link.earns_signingIn nickname password
  | request q => exact Session.earns_world fun _ => venue.link.earns_request q
  | ask q => exact Session.earns_world fun _ => venue.link.earns_question q
  | queue => exact Session.earns_joinQueue
  | listen =>
    refine Session.earns_bind (Session.earns_listen venue) fun result => ?_
    exact Session.earns_bind (Session.earns_heeding result) fun _ => Session.earns_pure _
  | read reader bytes =>
    refine Session.earns_bind (Session.earns_receive venue reader bytes) fun result => ?_
    exact Session.earns_bind (Session.earns_heeding result) fun _ => Session.earns_pure _
  | hangUp reader reason =>
    refine Session.earns_bind (Session.earns_finish venue reader reason) fun ending => ?_
    exact Session.earns_bind (Session.earns_concluding ending) fun _ => Session.earns_pure _
  | event e => exact Session.earns_take venue e
  | submit path => exact Session.earns_handingIn venue path
  | openPrompt number =>
    intro asked s hs
    exact Session.earns_put .prompt asked { s with audience := some (.prompt number) } hs
  | obey message => exact Session.earns_obeying venue message
  | leave => exact Session.earns_leaving venue
  | raise => exact Session.earns_raise venue
  | poll n => exact Session.earns_onCrew (Crew.earns_move venue.link n)

end Duelist
