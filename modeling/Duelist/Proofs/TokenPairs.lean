import Duelist.Proofs.DealingEarnings
import Duelist.Proofs.Inquiries
/-!
# Pairs of tokens

The stored tokens are the first ones, or the two values of one single reply, at every moment and
whatever is asked of the client meanwhile. There is one way only to get others: a reply with the
status 200 to a request for tokens, whose body can be read and is the record of a pair.

The main statement is `Business.pairs_are_whole`. Besides what holds in every business
(`Business.Whole`) and what each moment does to the tokens (`Earning`), it says what comes of a
sign-in, of a request and of a question when nobody is in between (`SignsIn`, `Renews`).
-/

namespace Duelist

variable {σ : Type}

/-! ### Every moment of a business -/

/-- What has been read is not read again. -/
lemma readExchange_readExchange (c c' : Content) (x : Request × Outcome) :
    readExchange c (readExchange c' x) = readExchange c' x := by
  obtain ⟨r, outcome⟩ := x
  cases outcome with
  | error reasons => rfl
  | ok reply =>
    obtain ⟨status, body⟩ := reply
    cases body <;> rfl

namespace Business

/-- The exchange that was made last for the engagement that goes on, as it has been read then. -/
def asked? (b : Business σ) : Moment → Option (Request × Outcome)
  | .begins _ => none
  | .goes n c => (b.engagements[n]?).bind (Engagement.hearing c)

/-- What holds of a business at any time. -/
structure Sound (base : String) (b : Business σ) : Prop where
  /-- The followers are at rest. -/
  rests : b.session.Rests
  /-- What was read was sent before. -/
  reads : ∀ x ∈ b.reads, ∃ y ∈ b.session.world.exchanges, ∃ c, x = readExchange c y
  /-- What was asked last for an engagement was sent before. -/
  asked : ∀ e ∈ b.engagements, ∀ x ∈ e.asked, x ∈ b.session.world.exchanges ∨ x ∈ b.reads
  /-- What is under way goes on with earnings. -/
  earns : ∀ e ∈ b.engagements, ∀ c (t : Session σ), t.Rests →
    (e.progress.goOn c t).Earns base Session.world Session.Rests (fun _ _ => True) (e.hearing c) t

variable {base : String} {b : Business σ}

/-- Nothing is wrong with a business that has just begun. -/
lemma sound_begin (base : String) (service : σ) (tokens : Tokens) :
    (begin service tokens).Sound base where
  rests := fun f hf => by cases hf
  reads := fun x hx => by cases hx
  asked := fun e he => by cases he
  earns := fun e he => by cases he

/-- What is sent is added to what was sent before. -/
lemma exchanges_of_earning {before : List (Request × Outcome)} {new : List Entry} {w w' : World σ}
    (h : Earning base before new w w') :
    w'.exchanges = w.exchanges ++ new.filterMap Entry.exchange? := by
  rw [World.exchanges, h.transcript_eq, List.filterMap_append]
  rfl

section

variable {asked : Option (Request × Outcome)} {new : List Entry} {s : Session σ}

/-- The last exchange is one of the new ones, or the one before. -/
lemma mem_of_mem_lastExchange (h : Earning base asked.toList new b.session.world s.world)
    {x : Request × Outcome}
    (hx : x ∈ lastExchange b.session.world.transcript s.world.transcript asked) :
    x ∈ new.filterMap Entry.exchange? ∨ x ∈ asked := by
  rw [h.transcript_eq, lastExchange_append, Option.mem_def, Option.or_eq_some_iff] at hx
  exact hx.imp List.mem_of_getLast? And.right

/-- Something that has begun, or has come further, is under way. -/
lemma Sound.engage (hb : b.Sound base)
    (hasked : ∀ x ∈ asked, x ∈ b.session.world.exchanges ∨ x ∈ b.reads)
    (hearning : Earning base asked.toList new b.session.world s.world) (hs : s.Rests)
    {e : Engagement σ}
    (he : e.asked = lastExchange b.session.world.transcript s.world.transcript asked)
    (hgo : ∀ c (t : Session σ), t.Rests → (e.progress.goOn c t).Earns base Session.world
      Session.Rests (fun _ _ => True) (e.hearing c) t) :
    Sound base { b with session := s, engagements := b.engagements ++ [e] } := by
  have hsent := exchanges_of_earning hearning
  have hold {x : Request × Outcome} (hx : x ∈ b.session.world.exchanges ∨ x ∈ b.reads) :
      x ∈ s.world.exchanges ∨ x ∈ b.reads :=
    hx.imp_left fun hx => by rw [hsent]; exact List.mem_append_left _ hx
  refine ⟨hs, fun x hx => ?_, fun e' he' x hx => ?_, fun e' he' => ?_⟩
  · obtain ⟨y, hy, c, rfl⟩ := hb.reads x hx
    exact ⟨y, by rw [hsent]; exact List.mem_append_left _ hy, c, rfl⟩
  · rcases List.mem_append.mp he' with he' | he'
    · exact hold (hb.asked e' he' x hx)
    · obtain rfl := List.mem_singleton.mp he'
      rw [he] at hx
      rcases mem_of_mem_lastExchange hearning hx with hx | hx
      · exact .inl (by rw [hsent]; exact List.mem_append_right _ hx)
      · exact hold (hasked x hx)
  · rcases List.mem_append.mp he' with he' | he'
    · exact hb.earns e' he'
    · obtain rfl := List.mem_singleton.mp he'
      exact hgo

/-- Where a dealing has come a step further, that was an earning. -/
lemma Sound.place (hb : b.Sound base) {d : Dealing} {p : Progress (Session σ) d.Result}
    (hasked : ∀ x ∈ asked, x ∈ b.session.world.exchanges ∨ x ∈ b.reads)
    (hp : p.Earns base Session.world Session.Rests (fun _ _ => True) asked b.session) :
    (b.place d asked p).Sound base ∧ (b.place d asked p).reads = b.reads ∧
      ∃ new, Earning base asked.toList new b.session.world
        (b.place d asked p).session.world := by
  cases p with
  | done a s =>
    obtain rfl : s = b.session := hp.1
    exact ⟨⟨hb.rests, hb.reads, hb.asked, hb.earns⟩, rfl, [], .refl _⟩
  | going s next =>
    obtain ⟨hs, ⟨new, hearning⟩, hnext⟩ := hp
    exact ⟨hb.engage hasked hearning hs rfl fun _ => hnext, rfl, new, hearning⟩
  | waiting s resume =>
    obtain ⟨hs, ⟨new, hearning⟩, hresume⟩ := hp
    exact ⟨hb.engage hasked hearning hs rfl hresume, rfl, new, hearning⟩

end

/-- What goes on has its body read before. -/
lemma Sound.release (hb : b.Sound base) {n : ℕ} {e : Engagement σ}
    (he : b.engagements[n]? = some e) (c : Content) :
    (b.release n e c).Sound base ∧ b.reads ⊆ (b.release n e c).reads ∧
      ∀ x ∈ e.hearing c, x ∈ b.session.world.exchanges ∨ x ∈ (b.release n e c).reads := by
  have hmem : e ∈ b.engagements := List.mem_of_getElem? he
  have hothers {e' : Engagement σ} (he' : e' ∈ b.engagements.eraseIdx n) : e' ∈ b.engagements :=
    List.mem_of_mem_eraseIdx he'
  rw [Business.release]
  cases hwaiting : e.progress.isWaiting with
  | false =>
    have hhearing : e.hearing c = e.asked := by simp [Engagement.hearing, hwaiting]
    exact ⟨⟨hb.rests, hb.reads, fun e' he' => hb.asked e' (hothers he'),
      fun e' he' => hb.earns e' (hothers he')⟩, List.Subset.refl _,
      fun x hx => hb.asked e hmem x (hhearing ▸ hx)⟩
  | true =>
    have hhearing : e.hearing c = e.asked.map (readExchange c) := by
      simp [Engagement.hearing, hwaiting]
    refine ⟨⟨hb.rests, fun x hx => ?_, fun e' he' x hx => ?_,
      fun e' he' => hb.earns e' (hothers he')⟩, List.subset_append_left _ _, fun x hx => ?_⟩
    · rcases List.mem_append.mp hx with hx | hx
      · exact hb.reads x hx
      · rw [hhearing, Option.mem_toList, Option.map_eq_some_iff] at hx
        obtain ⟨y, hy, rfl⟩ := hx
        rcases hb.asked e hmem y hy with hsent | hread
        · exact ⟨y, hsent, c, rfl⟩
        · obtain ⟨z, hz, c', rfl⟩ := hb.reads y hread
          exact ⟨z, hz, c', readExchange_readExchange c c' z⟩
    · exact (hb.asked e' (hothers he') x hx).imp_right fun hx => List.mem_append_left _ hx
    · exact .inr (List.mem_append_right _ (Option.mem_toList.mpr hx))

variable (venue : Venue σ)

/-- What happens in a moment is an earning, the exchange before it being one of those that were
made. -/
lemma Sound.step (hb : b.Sound venue.link.base) (m : Moment) :
    (b.step venue m).Sound venue.link.base ∧ b.reads ⊆ (b.step venue m).reads ∧
      (∀ x ∈ b.asked? m, x ∈ b.session.world.exchanges ∨ x ∈ (b.step venue m).reads) ∧
      ∃ new, Earning venue.link.base (b.asked? m).toList new b.session.world
        (b.step venue m).session.world := by
  cases m with
  | begins d =>
    obtain ⟨hsound, hreads, hearning⟩ := hb.place (fun x hx => by cases hx)
      (d.earns venue none b.session hb.rests)
    exact ⟨hsound, hreads ▸ List.Subset.refl _, fun x hx => (by cases hx), hearning⟩
  | goes n c =>
    rw [Business.step, asked?]
    cases he : b.engagements[n]? with
    | none => exact ⟨hb, List.Subset.refl _, fun x hx => (by cases hx), [], .refl _⟩
    | some e =>
      obtain ⟨hreleased, hsub, hasked⟩ := hb.release he c
      obtain ⟨hsound, hreads, hearning⟩ := hreleased.place hasked
        (hb.earns e (List.mem_of_getElem? he) c b.session hb.rests)
      exact ⟨hsound, hreads ▸ hsub, fun x hx => hreads ▸ hasked x hx, hearning⟩

/-- Nor is anything wrong with one after any number of moments. -/
lemma Sound.run (hb : b.Sound venue.link.base) (moments : List Moment) :
    (b.run venue moments).Sound venue.link.base := by
  induction moments using List.reverseRecOn with
  | nil => exact hb
  | append_singleton moments m ih =>
    rw [run_concat]
    exact (ih.step venue m).1

/-- The stored tokens are the first ones, or those of one exchange. -/
structure Whole (base : String) (first : Tokens) (b : Business σ) : Prop where
  /-- Where the tokens come from. -/
  origin : b.session.world.tokens = first ∨
    ∃ x ∈ b.session.world.exchanges ++ b.reads, Grants base b.session.world.tokens x
  /-- What was read is the reply to something that was sent. -/
  reads : ∀ x ∈ b.reads, ∃ y ∈ b.session.world.exchanges, ∃ c, x = readExchange c y

/-- Whole pairs stay so. -/
lemma whole_run (service : σ) (tokens : Tokens) (moments : List Moment) :
    ((begin service tokens).run venue moments).Whole venue.link.base tokens := by
  induction moments using List.reverseRecOn with
  | nil => exact ⟨.inl rfl, fun x hx => by cases hx⟩
  | append_singleton moments m ih =>
    have hsound := (sound_begin venue.link.base service tokens).run venue moments
    rw [run_concat]
    obtain ⟨hstep, hreads, hasked, new, hearning⟩ := hsound.step venue m
    refine ⟨?_, hstep.reads⟩
    rw [exchanges_of_earning hearning]
    rcases hearning.tokens with hsame | ⟨x, hx, hgrants⟩
    · rw [hsame]
      refine ih.origin.imp_right fun horigin => ?_
      obtain ⟨x, hx, hgrants⟩ := horigin
      refine ⟨x, ?_, hgrants⟩
      rcases List.mem_append.mp hx with hx | hx
      · exact List.mem_append_left _ (List.mem_append_left _ hx)
      · exact List.mem_append_right _ (hreads hx)
    · refine .inr ⟨x, ?_, hgrants⟩
      rcases List.mem_append.mp hx with hx | hx
      · rcases hasked x (Option.mem_toList.mp hx) with hx | hx
        · exact List.mem_append_left _ (List.mem_append_left _ hx)
        · exact List.mem_append_right _ hx
      · exact List.mem_append_left _ (List.mem_append_right _ hx)

end Business

/-! ### A sign-in -/

/-- What comes of a sign-in that is answered with `outcome` when `tokens` are stored: the result,
and the tokens that are stored then. -/
inductive SignsIn (tokens : Tokens) : Outcome → Except Failure Unit → Tokens → Prop
  /-- The service is not reached. -/
  | unreached (reasons : List String) :
      SignsIn tokens (.error reasons) (.error (.ofReasons reasons)) tokens
  /-- The service refuses, which is told with the status and the text of the body. -/
  | rejected (r : Reply) (hr : r.status ≠ 200) :
      SignsIn tokens (.ok r) (.error (.rejected r.status (r.body.text?.getD ""))) tokens
  /-- The body cannot be read, or is no pair. -/
  | misfit (r : Reply) (hr : r.status = 200) (hpair : r.body.content.pair? = none) (what : Misfit) :
      SignsIn tokens (.ok r) (.error (.misfit what)) tokens
  /-- There is a pair. -/
  | granted (c : Content) (pair : Tokens) (hpair : c.pair? = some pair) :
      SignsIn tokens (.ok { status := 200, body := .whole c }) (.ok ()) pair

/-- Signing in with nobody in between, written out. -/
lemma Link.signIn_apply (link : Link σ) (nickname password : String) (w : World σ) :
    let r := Request.signIn link.base nickname password
    link.signIn nickname password w =
      match grantedTokens ((link.outcome r w).mapError .ofReasons) with
      | .ok pair => (.ok (), { link.asked r w with tokens := pair })
      | .error e => (.error e, link.asked r w) := by
  intro r
  rw [signIn, act_bind, askTokens_apply]
  cases grantedTokens ((link.outcome r w).mapError .ofReasons) <;> rfl

/-- What signing in does to the tokens. -/
lemma Link.signIn_signsIn (link : Link σ) (nickname password : String) (w : World σ) :
    let r := Request.signIn link.base nickname password
    (link.signIn nickname password w).2.transcript =
        w.transcript ++ [.sent r (link.outcome r w)] ∧
      SignsIn w.tokens (link.outcome r w) (link.signIn nickname password w).1
        (link.signIn nickname password w).2.tokens := by
  intro r
  rw [signIn_apply]
  have htranscript : (link.asked r w).transcript = w.transcript ++ [.sent r (link.outcome r w)] :=
    rfl
  cases hout : link.outcome r w with
  | error reasons =>
    rw [hout] at htranscript
    exact ⟨htranscript, .unreached reasons⟩
  | ok reply =>
    rw [hout] at htranscript
    rw [grantedTokens_ok]
    by_cases hs : reply.status = 200
    · rw [if_pos hs]
      cases hrecord : reply.record Tokens.ofJson? with
      | error what =>
        refine ⟨htranscript, .misfit reply hs ?_ what⟩
        refine Option.eq_none_iff_forall_not_mem.mpr fun pair hpair => ?_
        rw [Reply.record_eq_ok_iff.mpr hpair] at hrecord
        cases hrecord
      | ok pair =>
        obtain ⟨status, body⟩ := reply
        obtain rfl : status = 200 := hs
        have hpair : body.content.pair? = some pair := Reply.record_eq_ok_iff.mp hrecord
        cases body with
        | whole c => exact ⟨htranscript, .granted c pair hpair⟩
        | live =>
          rw [Body.content, Content.pair?_empty] at hpair
          cases hpair
    · rw [if_neg hs]
      exact ⟨htranscript, .rejected reply hs⟩

/-! ### A request -/

/-- What a request for `q` does to the tokens, `c` being what is in a body that is still being
written: nothing, unless its token is refused and a refresh is answered with a pair. -/
def Renews (base : String) (c : Content) (q : Query) (w w' : World σ) : Prop :=
  w'.tokens = w.tokens ∨ ∃ (refusal reply : Reply) (rest : List (Request × Outcome)),
    refusal.status = 401 ∧
    w'.exchanges = w.exchanges ++ (q.carrying base w.tokens.access, .ok refusal) ::
      (.refresh base w.tokens.refresh, .ok reply) :: rest ∧
    Grants base w'.tokens (readExchange c (.refresh base w.tokens.refresh, .ok reply))

namespace Link

variable (link : Link σ) (c : Content)

/-- Getting a fresh token with nobody in between, written out. -/
lemma reading_freshToken (used : String) (w : World σ) :
    (link.freshToken used).reading c w =
      if w.tokens.access ≠ used then (.ok w.tokens.access, w)
      else if w.tokens.refresh.isEmpty then (.error (.notSignedIn none), w)
      else
        let r := Request.refresh link.base w.tokens.refresh
        match refreshedTokens (((link.outcome r w).mapError .ofReasons).map (Reply.read c)) with
        | .error e => (.error e, link.asked r w)
        | .ok pair => (.ok pair.access, { link.asked r w with tokens := pair }) := by
  have htokens : Act.tokens w = (w.tokens, w) := rfl
  simp only [freshToken, Errand.reading_bind, Errand.reading_liftM, act_bind, htokens]
  split
  · rfl
  split
  · rfl
  rw [Errand.reading_bind, Errand.reading_liftM, act_bind, link.sendAnonymously_refresh_apply]
  cases link.outcome (.refresh link.base w.tokens.refresh) w with
  | error reasons => rfl
  | ok reply =>
    simp only [Except.mapError, Except.map]
    by_cases hs : reply.isSuccess
    · rw [if_pos hs, Errand.reading_bind, Errand.reading_awaited, pure_bind]
      cases refreshedTokens (.ok (reply.read c)) <;> rfl
    · -- only a success is read
      have hstatus : (reply.read c).status = reply.status := reply.status_read c
      have hfails (r : Reply) (hr : r.status = reply.status) :
          refreshedTokens (.ok r) = .error (.notSignedIn (some reply.status)) := by
        have hne : r.status ≠ 200 := by simpa [Reply.isSuccess, hr] using hs
        have h := refreshedTokens_of_ne hne
        rwa [hr] at h
      rw [if_neg hs, hfails _ hstatus, Errand.reading_bind, Errand.reading_pure, pure_bind,
        hfails _ rfl]
      rfl

/-- Getting a fresh token with nobody in between: the tokens stay, or one refresh is answered with a
pair. -/
lemma renews_freshToken (used : String) (w : World σ) :
    ((link.freshToken used).reading c w).2.tokens = w.tokens ∨ ∃ reply : Reply,
      ((link.freshToken used).reading c w).2.exchanges =
        w.exchanges ++ [(.refresh link.base w.tokens.refresh, .ok reply)] ∧
      Grants link.base ((link.freshToken used).reading c w).2.tokens
        (readExchange c (.refresh link.base w.tokens.refresh, .ok reply)) := by
  have hsent := link.exchanges_asked w (.refresh link.base w.tokens.refresh)
  rw [reading_freshToken]
  split
  · exact .inl rfl
  split
  · exact .inl rfl
  simp only
  split
  · exact .inl rfl
  -- only a reply to the refresh can have brought a pair
  next pair hpair =>
    cases hout : link.outcome (.refresh link.base w.tokens.refresh) w with
    | error reasons =>
      rw [hout] at hpair
      cases hpair
    | ok reply =>
      rw [hout] at hpair hsent
      exact .inr ⟨reply, hsent, .of_refreshedTokens hpair⟩

/-- A request with nobody in between. -/
lemma renews_request (q : Query) (w : World σ) :
    Renews link.base c q w ((link.request q).reading c w).2 := by
  by_cases hout : ∃ refusal : Reply,
      link.outcome (q.carrying link.base w.tokens.access) w = .ok refusal ∧ refusal.status = 401
  swap
  · rw [link.reading_request_of_ne c q w fun reply hreply h401 => hout ⟨reply, hreply, h401⟩]
    exact .inl rfl
  obtain ⟨refusal, hout, h401⟩ := hout
  have htokens : Act.tokens w = (w.tokens, w) := rfl
  have hunauthorized : refusal.isUnauthorized = true := by simp [Reply.isUnauthorized, h401]
  have hfresh := link.renews_freshToken c w.tokens.access
    (link.asked (q.carrying link.base w.tokens.access) w)
  have hsent := link.exchanges_asked w (q.carrying link.base w.tokens.access)
  rw [hout] at hsent
  rw [hsent] at hfresh
  -- with or without a fresh token, nothing is stored any more
  have hlast : ∃ rest : List (Request × Outcome),
      let v := ((link.freshToken w.tokens.access).reading c
        (link.asked (q.carrying link.base w.tokens.access) w)).2
      ((link.request q).reading c w).2.tokens = v.tokens ∧
        ((link.request q).reading c w).2.exchanges = v.exchanges ++ rest := by
    simp only [request, Errand.reading_bind, Errand.reading_liftM, act_bind, htokens,
      link.send_apply, hout, Except.mapError, hunauthorized, if_true]
    cases (link.freshToken w.tokens.access).reading c
        (link.asked (q.carrying link.base w.tokens.access) w) with
    | mk fresh v =>
      cases fresh with
      | error e => exact ⟨[], rfl, (List.append_nil _).symm⟩
      | ok fresh =>
        simp only [Errand.reading_liftM, link.send_apply]
        exact ⟨[_], rfl, link.exchanges_asked v _⟩
  obtain ⟨rest, hsame, hrest⟩ := hlast
  rw [Renews, hsame, hrest]
  refine hfresh.imp id fun hrenewed => ?_
  obtain ⟨reply, hreply, hgrants⟩ := hrenewed
  refine ⟨refusal, reply, rest, h401, ?_, hgrants⟩
  rw [hreply, List.append_assoc, List.append_assoc]
  rfl

end Link

/-! ### The main statement -/

/-- At every moment of every business the stored tokens are the first ones or the pair of one reply,
and they are replaced by nothing but a pair that was just given in the last exchange on the same
behalf. A sign-in that is not answered with a pair leaves them alone, and one that is rejected tells
so with the status and the text; so do a request and a question, unless their token is refused and a
refresh is answered with a pair. -/
theorem Business.pairs_are_whole (venue : Venue σ) (service : σ) (tokens : Tokens) :
    (∀ moments, ((begin service tokens).run venue moments).Whole venue.link.base tokens) ∧
    (∀ moments m, let b := (begin service tokens).run venue moments
      ∃ new, Earning venue.link.base (b.asked? m).toList new b.session.world
        (b.step venue m).session.world) ∧
    (∀ nickname password w, let r := Request.signIn venue.link.base nickname password
      let (result, w') := venue.link.signIn nickname password w
      w'.transcript = w.transcript ++ [.sent r (venue.link.outcome r w)] ∧
        SignsIn w.tokens (venue.link.outcome r w) result w'.tokens) ∧
    (∀ q c w, Renews venue.link.base c q w ((venue.link.request q).reading c w).2) ∧
    ∀ (q : Question) c w,
      Renews venue.link.base c q.query w ((q.ask venue.link).reading c w).2 := by
  refine ⟨whole_run venue service tokens, fun moments m => ?_, venue.link.signIn_signsIn,
    fun q c w => venue.link.renews_request c q w, fun q c w => ?_⟩
  · have hsound := (sound_begin venue.link.base service tokens).run venue moments
    exact (hsound.step venue m).2.2.2
  · rw [q.reading_ask]
    exact venue.link.renews_request c q.query w

end Duelist
