import Duelist.Proofs.Twins
/-!
# Errands of twins

Two players whose services are twins do the same step by step, with others in between.
`Errand.Parallel` says so: the two errands stop at the same places, between two steps or to wait for
a body, and come to the same. Whoever waits for the reply to a request for tokens may hear contents
that differ by the renaming of a pair; all other bodies are the same for both.

The main statement is `Twins.dealing`: all that is asked of both is done in parallel.
-/

namespace Duelist

variable {σ σ' τ τ' α α' β β' : Type}

/-- True of a dealing that does not send a request for tokens as a query of the player's. -/
def Dealing.IsPlain (base : String) : Dealing → Prop
  | .request q => q.IsPlain base
  | _ => True

/-! ### Errands side by side -/

/-- Both stop at the same places, in states that `S` relates as long as others leave them in such
states, and `R` relates the results. `asked` is the last exchange that the first of them made
before, as `log` shows; it is for `hears` to say which contents they may wait for after that
exchange. -/
def Progress.Parallel (S : τ → τ' → Prop) (log : τ → List Entry)
    (hears : Option (Request × Outcome) → Content → Content → Prop)
    (R : Option (Request × Outcome) → α → α' → Prop) :
    (asked : Option (Request × Outcome)) → (v : τ) → Progress τ α → Progress τ' α' → Prop
  | asked, v, .done a s, .done a' s' => s = v ∧ S s s' ∧ R asked a a'
  | asked, v, .going s next, .going s' next' =>
    S s s' ∧ ∀ t t', S t t' → (next t).Parallel S log hears R
      (lastExchange (log v) (log s) asked) t (next' t')
  | asked, v, .waiting s resume, .waiting s' resume' =>
    S s s' ∧ ∀ c c' t t', hears (lastExchange (log v) (log s) asked) c c' → S t t' →
      (resume c t).Parallel S log hears R
        ((lastExchange (log v) (log s) asked).map (readExchange c)) t (resume' c' t')
  | _, _, _, _ => False

section

variable {S : τ → τ' → Prop} {log : τ → List Entry}
  {hears : Option (Request × Outcome) → Content → Content → Prop}
  {R : Option (Request × Outcome) → α → α' → Prop} {asked : Option (Request × Outcome)}

/-- One thing after another. -/
lemma Progress.Parallel.andThen {Q : Option (Request × Outcome) → β → β' → Prop}
    {p : Progress τ α} {p' : Progress τ' α'} {v : τ} (h : p.Parallel S log hears R asked v p')
    {k : α → Errand τ β} {k' : α' → Errand τ' β'}
    (hk : ∀ asked a a' t t', S t t' → R asked a a' →
      (k a t).Parallel S log hears Q asked t (k' a' t')) :
    (p.andThen k).Parallel S log hears Q asked v (p'.andThen k') := by
  induction p generalizing p' asked v with
  | done a s =>
    cases p' with
    | done a' s' =>
      obtain ⟨rfl, hs, hR⟩ := h
      exact hk asked a a' s s' hs hR
    | _ => exact h.elim
  | going s next ih =>
    cases p' with
    | going s' next' => exact ⟨h.1, fun t t' ht => ih t (h.2 t t' ht)⟩
    | _ => exact h.elim
  | waiting s resume ih =>
    cases p' with
    | waiting s' resume' => exact ⟨h.1, fun c c' t t' hc ht => ih c t (h.2 c c' t t' hc ht)⟩
    | _ => exact h.elim

/-- Both errands do the same. -/
def Errand.Parallel (S : τ → τ' → Prop) (log : τ → List Entry)
    (hears : Option (Request × Outcome) → Content → Content → Prop)
    (asked : Option (Request × Outcome)) (R : Option (Request × Outcome) → α → α' → Prop)
    (e : Errand τ α) (e' : Errand τ' α') : Prop :=
  ∀ s s', S s s' → (e s).Parallel S log hears R asked s (e' s')

namespace Errand.Parallel

/-- Errands that come to related results at once go on in parallel. -/
lemma pure {a : α} {a' : α'} (h : R asked a a') :
    Errand.Parallel S log hears asked R (Pure.pure a) (Pure.pure a') :=
  fun _ _ hs => ⟨rfl, hs, h⟩

/-- If what comes first goes on in parallel, and so does what comes after it for any related
results, then so do both together. -/
lemma bind {Q : Option (Request × Outcome) → β → β' → Prop} {e : Errand τ β} {e' : Errand τ' β'}
    {k : β → Errand τ α} {k' : β' → Errand τ' α'}
    (h : Errand.Parallel S log hears asked Q e e')
    (hk : ∀ asked b b', Q asked b b' → Errand.Parallel S log hears asked R (k b) (k' b')) :
    Errand.Parallel S log hears asked R (e >>= k) (e' >>= k') :=
  fun s s' hs => (h s s' hs).andThen fun asked b b' t t' ht hb => hk asked b b' hb t t' ht

/-- Errands in parallel stay so when less is asked of their results. -/
lemma imp {Q : Option (Request × Outcome) → α → α' → Prop} {e : Errand τ α} {e' : Errand τ' α'}
    (h : Errand.Parallel S log hears asked R e e')
    (hR : ∀ asked a a', R asked a a' → Q asked a a') :
    Errand.Parallel S log hears asked Q e e' := by
  intro s s' hs
  rw [← (e s).andThen_done, ← (e' s').andThen_done]
  exact (h s s' hs).andThen fun asked a a' t t' ht ha => ⟨rfl, ht, hR asked a a' ha⟩

/-- A single step. -/
lemma lift {Q : α → α' → Prop} {act : StateM τ α} {act' : StateM τ' α'}
    (h : Duelist.Parallel S Q act act')
    (hR : ∀ s a a', a = (act s).1 → Q a a' → R (lastExchange (log s) (log (act s).2) asked) a a') :
    Errand.Parallel S log hears asked R (liftM act) (liftM act') :=
  fun s s' hs => ⟨(h s s' hs).2, fun _ _ ht => ⟨rfl, ht, hR s _ _ rfl (h s s' hs).1⟩⟩

/-- What is worked out from equal results is equal. -/
lemma map {e : Errand τ α} {e' : Errand τ' α}
    (h : Errand.Parallel S log hears asked (fun _ => Eq) e e') (k : α → β) :
    Errand.Parallel S log hears asked (fun _ => Eq) (do return k (← e)) (do return k (← e')) :=
  h.bind fun _ _ _ ha => .pure (congrArg k ha)

end Errand.Parallel

end

namespace Twins

open Errand

variable (T : Twins σ σ')

/-- What two twins may hear when they wait for a body: the same, up to the renaming of a pair if it
is the body of a reply to a request for tokens. -/
def Hears (asked : Option (Request × Outcome)) (c c' : Content) : Prop :=
  if asked.any fun x => x.1.asksTokens T.link.base then T.names.Contents c c' else c' = c

/-! ### In the world -/

/-- Both do the same in worlds that differ by the renaming. -/
abbrev InWorlds (asked : Option (Request × Outcome))
    (R : Option (Request × Outcome) → α → α' → Prop) (e : Errand (World σ) α)
    (e' : Errand (World σ') α') : Prop :=
  Errand.Parallel T.Worlds World.transcript T.Hears asked R e e'

variable {asked : Option (Request × Outcome)}

/-- A step that gives both the same. -/
lemma inWorlds_lift {act : Act σ α} {act' : Act σ' α} (h : Parallel T.Worlds Eq act act') :
    T.InWorlds asked (fun _ => Eq) (liftM act) (liftM act') :=
  .lift h fun _ _ _ _ ha => ha

/-- Twins find the same tokens stored, up to the renaming. -/
lemma inWorlds_tokens : T.InWorlds asked (fun _ t t' => t' = T.names.tokens t)
    (liftM (Act.tokens (σ := σ))) (liftM (Act.tokens (σ := σ'))) :=
  .lift T.tokens fun _ _ _ _ ht => ht

/-- A query that does not ask for tokens is answered the same, and so is the last thing asked. -/
lemma inWorlds_send {q : Query} (hq : q.IsPlain T.link.base) (token : String) :
    T.InWorlds asked
      (fun asked a a' => a' = a ∧ asked.any (fun x => x.1.asksTokens T.link.base) = false)
      (liftM (T.link.send q token)) (liftM (T.link'.send q (T.names token))) := by
  refine .lift (T.send hq token) fun w a a' _ ha => ⟨ha.symm, ?_⟩
  rw [T.link.send_apply, Link.asked, lastExchange_append]
  exact hq token

/-- A refresh is what was asked last. -/
lemma inWorlds_refresh (spent : String) :
    T.InWorlds asked
      (fun asked a a' => T.names.Grants a a' ∧ ∀ reply, a = .ok reply →
        asked = some (.refresh T.link.base spent, .ok reply))
      (liftM (T.link.sendAnonymously (.refresh spent)))
      (liftM (T.link'.sendAnonymously (.refresh (T.names spent)))) := by
  refine .lift (T.refresh spent) fun w a a' ha hgrants => ⟨hgrants, fun reply hreply => ?_⟩
  rw [T.link.sendAnonymously_refresh_apply] at ha ⊢
  rw [Link.asked, lastExchange_append]
  cases hout : T.link.outcome (.refresh T.link.base spent) w with
  | error reasons =>
    rw [ha, hout] at hreply
    cases hreply
  | ok reply' =>
    rw [ha, hout] at hreply
    obtain rfl := Except.ok.inj hreply
    rfl

/-- The body of a reply that holds no tokens is the same for both. -/
lemma inWorlds_awaited (r : Reply)
    (hasked : asked.any (fun x => x.1.asksTokens T.link.base) = false) :
    T.InWorlds asked (fun _ => Eq) r.awaited r.awaited := by
  obtain ⟨status, body⟩ := r
  cases body with
  | whole content => exact .pure rfl
  | live =>
    intro w w' hw
    refine ⟨hw, fun c c' t t' hc ht => ?_⟩
    rw [lastExchange_self, Hears, hasked, if_neg Bool.false_ne_true] at hc
    subst hc
    exact ⟨rfl, ht, rfl⟩

/-- The body of a reply that holds tokens differs by the renaming. -/
lemma inWorlds_awaited_tokens {r r' : Reply} {x : Request × Outcome} (hx : asked = some x)
    (hasks : x.1.asksTokens T.link.base)
    (h : T.names.Grants (.ok r : Except Failure Reply) (.ok r'))
    (hs : r.status = 200) :
    T.InWorlds asked (fun _ a a' => T.names.Grants (.ok a : Except Failure Reply) (.ok a'))
      r.awaited r'.awaited := by
  cases h with
  | refused r hr => exact absurd hs hr
  | whole c c' hc => exact .pure (.whole c c' hc)
  | live =>
    intro w w' hw
    refine ⟨hw, fun c c' t t' hc ht => ⟨rfl, ht, ?_⟩⟩
    rw [lastExchange_self, Hears, hx, Option.any_some, if_pos hasks] at hc
    exact .whole c c' hc

/-- Both get a fresh token, or neither does. -/
lemma freshToken (used : String) :
    T.InWorlds asked (fun _ a a' => a' = a.map T.names) (T.link.freshToken used)
      (T.link'.freshToken (T.names used)) := by
  refine T.inWorlds_tokens.bind fun asked stored stored' hstored => ?_
  subst hstored
  have hused : T.names stored.access = T.names used ↔ stored.access = used :=
    T.names.injective.eq_iff
  have hrefresh : (T.names stored.refresh).isEmpty = stored.refresh.isEmpty := by
    rw [Bool.eq_iff_iff, String.isEmpty_iff, String.isEmpty_iff, T.names.apply_eq_empty_iff]
  simp only [Renaming.tokens, ne_eq, hused, hrefresh]
  split
  · exact .pure rfl
  split
  · exact .pure rfl
  refine (T.inWorlds_refresh stored.refresh).bind fun asked a a' h => ?_
  obtain ⟨hgrants, hasked⟩ := h
  -- what is done with the replies once they have been read
  have hgo {r r' : Reply} (h : T.names.Grants (.ok r : Except Failure Reply) (.ok r'))
      {asked : Option (Request × Outcome)} :
      T.InWorlds asked (fun _ a a' => a' = a.map T.names) (Link.keepRefreshed (σ := σ) r)
        (Link.keepRefreshed (σ := σ') r') := by
    rw [Link.keepRefreshed, Link.keepRefreshed, h.refreshedTokens_eq]
    cases refreshedTokens (.ok r) with
    | error e => exact .pure rfl
    | ok pair => exact (T.inWorlds_lift (T.store pair)).bind fun _ _ _ _ => .pure rfl
  cases a with
  | error e =>
    cases hgrants
    exact .pure rfl
  | ok r =>
    cases a' with
    | error e => cases hgrants
    | ok r' =>
      have hstatus : r'.status = r.status := by cases hgrants <;> rfl
      have hsuccess : r'.isSuccess = r.isSuccess := by
        rw [Reply.isSuccess, Reply.isSuccess, hstatus]
      simp only [hsuccess]
      split
      next hs =>
        have h200 : r.status = 200 := by simpa [Reply.isSuccess] using hs
        exact (T.inWorlds_awaited_tokens (hasked r rfl) (Request.asksTokens_refresh _ _) hgrants
          h200).bind fun _ _ _ h => hgo h
      next => exact hgo hgrants

/-- A query that does not ask for tokens comes to the same for both. -/
lemma request {q : Query} (hq : q.IsPlain T.link.base) :
    T.InWorlds asked (fun asked a a' => a' = a ∧ ∀ reply, a = .ok reply →
      asked.any (fun x => x.1.asksTokens T.link.base) = false)
      (T.link.request q) (T.link'.request q) := by
  refine T.inWorlds_tokens.bind fun asked stored stored' hstored => ?_
  subst hstored
  refine (T.inWorlds_send hq stored.access).bind fun asked a a' h => ?_
  obtain ⟨rfl, hasked⟩ := h
  cases a' with
  | error e => exact .pure ⟨rfl, fun reply h => by cases h⟩
  | ok reply =>
    simp only
    split
    · refine (T.freshToken stored.access).bind fun asked b b' hb => ?_
      subst hb
      cases b with
      | error e => exact .pure ⟨rfl, fun reply h => by cases h⟩
      | ok fresh =>
        exact (T.inWorlds_send hq fresh).imp fun asked a a' h => ⟨h.1, fun _ _ => h.2⟩
    · exact .pure ⟨rfl, fun _ _ => hasked⟩

/-- A query of the player's that asks for no tokens is answered alike. -/
lemma ask {q : Query} (hq : q.IsPlain T.link.base) :
    T.InWorlds asked (fun _ => Eq) (T.link.ask q) (T.link'.ask q) := by
  refine (T.request hq).bind fun asked a a' h => ?_
  obtain ⟨rfl, hasked⟩ := h
  cases a' with
  | error e => exact .pure rfl
  | ok reply => exact (T.inWorlds_awaited reply (hasked reply rfl)).map _

/-- A question whose answer is a record. -/
lemma recordOf {read : Json → Option α} {q : Query} (hq : q.IsPlain T.link.base) :
    T.InWorlds asked (fun _ => Eq) (do return recordOf read (← T.link.ask q))
      (do return recordOf read (← T.link'.ask q)) :=
  (T.ask hq).map _

/-- The file of a task is the same for both. -/
lemma taskFile (task file : String) :
    T.InWorlds asked (fun _ => Eq) (T.link.taskFile task file) (T.link'.taskFile task file) :=
  (T.ask fun _ => rfl).map _

/-- So are the texts of the samples. -/
lemma sampleTexts (task : String) (samples : List Sample) :
    T.InWorlds asked (fun _ => Eq) (T.link.sampleTexts task samples)
      (T.link'.sampleTexts task samples) := by
  induction samples generalizing asked with
  | nil => exact .pure rfl
  | cons sample samples ih =>
    refine (T.taskFile task sample.input).bind fun _ input _ h => ?_
    subst h
    refine (T.taskFile task sample.output).bind fun _ output _ h => ?_
    subst h
    refine ih.bind fun _ rest _ h => ?_
    subst h
    split
    · exact .pure rfl
    · exact .pure rfl

/-- So is all that is told of a task. -/
lemma sheet (id : String) :
    T.InWorlds asked (fun _ => Eq) (T.link.sheet id) (T.link'.sheet id) := by
  refine (T.recordOf fun _ => rfl).bind fun _ task _ h => ?_
  subst h
  cases task with
  | error e => exact .pure rfl
  | ok task =>
    refine (T.taskFile id task.statement).bind fun _ statement _ h => ?_
    subst h
    exact (T.sampleTexts id task.samples).map _

/-- Both sign in, or neither does. -/
lemma signingIn (nickname password : String) :
    T.InWorlds asked (fun _ => Eq) (T.link.signingIn nickname password)
      (T.link'.signingIn nickname password) := by
  have hasks : Parallel T.Worlds (fun a a' => a' = a.map T.names.tokens)
      (T.link.askTokens nickname password) (T.link'.askTokens nickname password) := by
    intro w w' hw
    obtain ⟨hgrants, hasked⟩ := T.asked (.signIn nickname password) hw
    rw [Renaming.Outcomes, if_pos (Request.asksTokens_signIn _ _ _)] at hgrants
    rw [Link.askTokens_apply, Link.askTokens_apply, T.base_eq]
    exact ⟨hgrants.mapError.grantedTokens_eq, hasked⟩
  have hlift : T.InWorlds asked (fun _ a a' => a' = a.map T.names.tokens)
      (liftM (T.link.askTokens nickname password))
      (liftM (T.link'.askTokens nickname password)) := .lift hasks fun _ _ _ _ h => h
  refine hlift.bind fun _ granted _ h => ?_
  subst h
  cases granted with
  | error e => exact .pure rfl
  | ok pair => exact (T.inWorlds_lift (T.store pair)).bind fun _ _ _ _ => .pure rfl

/-- No question asks for tokens. -/
lemma isPlain_query (base : String) (q : Question) : q.query.IsPlain base := by
  intro token
  cases q with
  | handIn id solution language =>
    have hpath (path : String) (hslash : path.toList[1]? = some 'u') :
        (Query.solution id solution language).path ≠ path := by
      intro h
      have hpath : ("/duels/" ++ toString id ++ "/submissions").toList[1]? = path.toList[1]? :=
        congrArg (·.toList[1]?) h
      rw [hslash] at hpath
      simp at hpath
    simpa [Request.asksTokens, Question.query, Query.carrying] using
      fun _ => ⟨hpath "/users/refresh" rfl, hpath "/users/login" rfl⟩
  | _ => rfl

/-- Any question is answered alike. -/
lemma question (q : Question) :
    T.InWorlds asked (fun _ => Eq) (q.ask T.link) (q.ask T.link') := by
  cases q with
  | events => exact ((T.request fun _ => rfl).imp fun _ _ _ h => h.1.symm).map _
  | handIn id solution language =>
    exact (T.recordOf (isPlain_query _ (.handIn id solution language))).map _
  | taskFile id file => exact (T.taskFile id file).map _
  | _ => exact (T.recordOf fun _ => rfl).map _

/-! ### In the session -/

/-- Two sessions that differ by the renaming. -/
structure Sessions (s : Session σ) (s' : Session σ') : Prop where
  /-- The crews. -/
  crew : T.Crews s.crew s'.crew
  /-- The standing is the same. -/
  standing : s'.standing = s.standing
  /-- So is who is to be told of the end. -/
  audience : s'.audience = s.audience
  /-- So is who was told, and what. -/
  told : s'.told = s.told

/-- Both do the same in sessions that differ by the renaming, and `R` relates the results. -/
def InSessions (R : α → α' → Prop) (e : Errand (Session σ) α) (e' : Errand (Session σ') α') :
    Prop :=
  ∀ asked, Errand.Parallel T.Sessions (fun s => s.world.transcript) T.Hears asked (fun _ => R) e e'

variable {T} in
/-- If what comes first is the same for both sessions, and so is what comes after it, then so are
both together. -/
lemma InSessions.bind {R : β → β' → Prop} {Q : α → α' → Prop} {e : Errand (Session σ) α}
    {e' : Errand (Session σ') α'} {k : α → Errand (Session σ) β} {k' : α' → Errand (Session σ') β'}
    (h : T.InSessions Q e e') (hk : ∀ a a', Q a a' → T.InSessions R (k a) (k' a')) :
    T.InSessions R (e >>= k) (e' >>= k') :=
  fun asked => (h asked).bind fun asked' a a' ha => hk a a' ha asked'

/-- The next thing after something that comes to the same for both. -/
lemma InSessions.next {T : Twins σ σ'} {R : β → β' → Prop} {e : Errand (Session σ) α}
    {e' : Errand (Session σ') α} {k : α → Errand (Session σ) β} {k' : α → Errand (Session σ') β'}
    (h : T.InSessions Eq e e') (hk : ∀ a, T.InSessions R (k a) (k' a)) :
    T.InSessions R (e >>= k) (e' >>= k') :=
  h.bind fun a _ ha => ha ▸ hk a

/-- What is there already is the same for both. -/
lemma inSessions_pure (a : α) :
    T.InSessions Eq (pure a : Errand (Session σ) α) (pure a : Errand (Session σ') α) :=
  fun _ => .pure rfl

/-- What twins do alike in a single step they do alike when it is a part of an errand. -/
lemma inSessions_lift {R : α → α' → Prop} {act : Play σ α} {act' : Play σ' α'}
    (h : Parallel T.Sessions R act act') :
    T.InSessions R (Errand.lift act) (Errand.lift act') :=
  fun _ => .lift h fun _ _ _ _ ha => ha

/-- What is done in the world is done to the session. -/
lemma inSessions_world {e : Errand (World σ) α} {e' : Errand (World σ') α'} {R : α → α' → Prop}
    (h : ∀ asked, T.InWorlds asked (fun _ => R) e e') :
    T.InSessions R (liftM e : Errand (Session σ) α) (liftM e' : Errand (Session σ') α') := by
  suffices hwithin : ∀ (p : Progress (World σ) α) (p' : Progress (World σ') α')
      (asked : Option (Request × Outcome)) (s : Session σ) (s' : Session σ'), T.Sessions s s' →
      p.Parallel T.Worlds World.transcript T.Hears (fun _ => R) asked s.world p' →
      (p.within Session.world Session.placed s).Parallel T.Sessions (fun s => s.world.transcript)
        T.Hears (fun _ => R) asked s (p'.within Session.world Session.placed s') from
    fun asked s s' hs => hwithin _ _ asked s s' hs (h asked s.world s'.world hs.crew.world)
  have hplaced {s : Session σ} {s' : Session σ'} (hs : T.Sessions s s') {w : World σ}
      {w' : World σ'} (hw : T.Worlds w w') : T.Sessions (s.placed w) (s'.placed w') :=
    ⟨⟨hw, hs.crew.raised, hs.crew.followers, hs.crew.joined⟩, hs.standing, hs.audience, hs.told⟩
  intro p
  induction p with
  | done a w =>
    intro p' asked s s' hs h
    cases p' with
    | done a' w' =>
      obtain ⟨rfl, hw, ha⟩ := h
      exact ⟨rfl, hplaced hs hw, ha⟩
    | _ => exact h.elim
  | going w next ih =>
    intro p' asked s s' hs h
    cases p' with
    | going w' next' =>
      exact ⟨hplaced hs h.1, fun t t' ht => ih t.world _ _ t t' ht (h.2 _ _ ht.crew.world)⟩
    | _ => exact h.elim
  | waiting w resume ih =>
    intro p' asked s s' hs h
    cases p' with
    | waiting w' resume' =>
      exact ⟨hplaced hs h.1, fun c c' t t' hc ht =>
        ih c t.world _ _ t t' ht (h.2 c c' _ _ hc ht.crew.world)⟩
    | _ => exact h.elim

/-- What is done with the crew is done to the session. -/
lemma inSessions_onCrew {R : α → α' → Prop} {act : StateM (Crew σ) α} {act' : StateM (Crew σ') α'}
    (h : Parallel T.Crews R act act') :
    T.InSessions R (Errand.lift (Session.onCrew act)) (Errand.lift (Session.onCrew act')) :=
  T.inSessions_lift fun s s' hs =>
    have hact := h s.crew s'.crew hs.crew
    ⟨hact.1, hact.2, hs.standing, hs.audience, hs.told⟩

/-- Both show the same line. -/
lemma inSessions_put (line : Line) :
    T.InSessions Eq (Errand.lift (Session.inWorld (Act.put (σ := σ) line)))
      (Errand.lift (Session.inWorld (Act.put (σ := σ') line))) :=
  T.inSessions_onCrew (T.inWorld (T.put line))

/-- Both find their own session. -/
lemma inSessions_get :
    T.InSessions T.Sessions (Errand.lift (get : Play σ (Session σ)))
      (Errand.lift (get : Play σ' (Session σ'))) :=
  T.inSessions_lift fun _ _ hs => ⟨hs, hs⟩

/-- The standing is changed alike, as it is the same. -/
lemma inSessions_restand (change : Standing → Standing) :
    T.InSessions Eq (Errand.lift (Session.restand (σ := σ) change))
      (Errand.lift (Session.restand (σ := σ') change)) :=
  T.inSessions_lift fun _ _ hs =>
    ⟨rfl, hs.crew, congrArg change hs.standing, hs.audience, hs.told⟩

/-- A change that may be impossible is made by both or by neither. -/
lemma inSessions_attempt (change : Standing → Option Standing) :
    T.InSessions Eq (Errand.lift (Session.attempt (σ := σ) change))
      (Errand.lift (Session.attempt (σ := σ') change)) := by
  refine T.inSessions_lift fun s s' hs => ?_
  rw [Session.attempt, Session.attempt, hs.standing]
  split
  · exact ⟨rfl, hs⟩
  · exact ⟨rfl, hs.crew, rfl, hs.audience, hs.told⟩

/-- Both are told the same end. -/
lemma inSessions_tell (closing : Closing) :
    T.InSessions Eq (Errand.lift (Session.tell (σ := σ) closing))
      (Errand.lift (Session.tell (σ := σ') closing)) := by
  refine T.inSessions_lift fun s s' hs => ⟨rfl, ?_⟩
  obtain ⟨crew, standing, audience, told⟩ := s
  obtain ⟨crew', standing', audience', told'⟩ := s'
  obtain ⟨hcrew, rfl, rfl, rfl⟩ := hs
  cases audience' with
  | none => exact ⟨hcrew, rfl, rfl, rfl⟩
  | some audience => exact ⟨hcrew, rfl, rfl, rfl⟩

/-- Both join the queue alike. -/
lemma joinQueue :
    T.InSessions Eq (Session.joinQueue : Errand (Session σ) (Except Failure Unit))
      (Session.joinQueue : Errand (Session σ') (Except Failure Unit)) := by
  refine (T.inSessions_attempt _).next fun changed => ?_
  cases changed with
  | false => exact T.inSessions_pure _
  | true => exact (T.inSessions_put _).next fun _ => T.inSessions_pure _

/-- The places where both play, which differ by the service alone. -/
def venue (files : Files) (hangs : ℕ → Bool) : Venue σ where
  link := T.link
  files := files
  hangs := hangs

/-- The other one of the two places. -/
def venue' (files : Files) (hangs : ℕ → Bool) : Venue σ' where
  link := T.link'
  files := files
  hangs := hangs

variable (files : Files) (hangs : ℕ → Bool)

/-- Both are presented the same duel. -/
lemma present (duel : Int64) :
    T.InSessions Eq (Session.present (T.venue files hangs) duel)
      (Session.present (T.venue' files hangs) duel) := by
  refine (T.inSessions_world fun _ => T.recordOf fun _ => rfl).next fun summary => ?_
  cases summary with
  | error e => exact T.inSessions_put _
  | ok summary =>
    refine (T.inSessions_restand _).next fun _ => ?_
    refine (T.inSessions_world fun _ => T.recordOf fun _ => rfl).next fun player => ?_
    refine (T.inSessions_put _).next fun _ => ?_
    refine (T.inSessions_world fun _ => T.sheet _).next fun sheet => ?_
    cases sheet with
    | error e => exact T.inSessions_put _
    | ok sheet => exact T.inSessions_put _

/-- The start of a duel is taken alike. -/
lemma started (duel : Int64) (opponent : Option Int64) (task : Option String) :
    T.InSessions Eq (Session.started (T.venue files hangs) duel opponent task)
      (Session.started (T.venue' files hangs) duel opponent task) := by
  refine (T.inSessions_attempt _).next fun changed => ?_
  cases changed with
  | false => exact T.inSessions_pure _
  | true =>
    refine (T.inSessions_put _).next fun _ => ?_
    refine (T.present files hangs duel).next fun _ => ?_
    exact (T.inSessions_put _).next fun _ => T.inSessions_pure _

/-- The result of a duel is announced alike. -/
lemma announce (duel : Int64) :
    T.InSessions Eq (Session.announce (T.venue files hangs) duel)
      (Session.announce (T.venue' files hangs) duel) := by
  refine (T.inSessions_world fun _ => T.recordOf fun _ => rfl).next fun summary => ?_
  cases summary with
  | error e => exact (T.inSessions_put _).next fun _ => T.inSessions_pure _
  | ok summary => exact (T.inSessions_put _).next fun _ => T.inSessions_pure _

/-- A duel is closed alike. -/
lemma closeDuel (result : Option DuelResult) :
    T.InSessions Eq (Errand.lift (Session.closeDuel (σ := σ) result))
      (Errand.lift (Session.closeDuel (σ := σ') result)) :=
  T.inSessions_lift fun _ _ hs =>
    ⟨congrArg (Standing.outcome result) hs.standing.symm, hs.crew,
      congrArg Standing.close hs.standing, hs.audience, hs.told⟩

/-- The end of a duel is taken alike. -/
lemma finished (duel : Int64) :
    T.InSessions Eq (Session.finished (T.venue files hangs) duel)
      (Session.finished (T.venue' files hangs) duel) := by
  refine (T.inSessions_attempt _).next fun changed => ?_
  cases changed with
  | false => exact T.inSessions_pure _
  | true =>
    refine (T.announce files hangs duel).next fun result => ?_
    refine (T.closeDuel result).next fun outcome => ?_
    refine (T.inSessions_onCrew (T.raise hangs)).next fun _ => ?_
    refine (T.inSessions_onCrew T.join).next fun givenUp => ?_
    refine (T.inSessions_restand _).next fun _ => ?_
    exact (T.inSessions_tell _).next fun _ => T.inSessions_pure _

/-- Any event is taken alike. -/
lemma take (e : Event) :
    T.InSessions Eq (Session.take (T.venue files hangs) e)
      (Session.take (T.venue' files hangs) e) := by
  refine T.inSessions_get.bind fun s s' hs => ?_
  rw [hs.standing]
  split
  · exact T.inSessions_pure _
  · cases e with
    | started duel opponent task => exact T.started files hangs duel opponent task
    | finished duel => exact T.finished files hangs duel

/-- A solution is handed in alike. -/
lemma handingIn (path : String) :
    T.InSessions Eq (Session.handingIn (T.venue files hangs) path)
      (Session.handingIn (T.venue' files hangs) path) := by
  refine T.inSessions_get.bind fun s s' hs => ?_
  have hfiles : (T.venue' files hangs).files = (T.venue files hangs).files := rfl
  rw [hs.standing, hfiles]
  cases Session.checkSolution (T.venue files hangs).files s.standing path with
  | error why => exact T.inSessions_pure _
  | ok checked =>
    obtain ⟨duel, text, language⟩ := checked
    refine (T.inSessions_world fun _ => T.recordOf ?_).next fun result => ?_
    · exact isPlain_query _ (.handIn duel text language)
    cases result with
    | error e => exact T.inSessions_pure _
    | ok submission =>
      refine (T.inSessions_put _).next fun _ => ?_
      refine (T.inSessions_onCrew (T.follow duel submission)).next fun followed => ?_
      cases followed with
      | true => exact T.inSessions_pure _
      | false => exact (T.inSessions_put _).next fun _ => T.inSessions_pure _

/-- Both leave alike. -/
lemma leaving :
    T.InSessions Eq (Session.leaving (T.venue files hangs))
      (Session.leaving (T.venue' files hangs)) := by
  refine (T.inSessions_restand _).next fun _ => ?_
  exact (T.inSessions_onCrew (T.raise hangs)).next fun _ => T.inSessions_onCrew T.join

/-- A line from the console is obeyed alike. -/
lemma obeying (message : Message) :
    T.InSessions Eq (Session.obeying (T.venue files hangs) message)
      (Session.obeying (T.venue' files hangs) message) := by
  obtain text | - | closing := message
  · refine InSessions.next ?_ fun _ => (T.inSessions_put _).next fun _ => T.inSessions_pure _
    cases Command.ofLine text with
    | submit path =>
      refine (T.handingIn files hangs path).next fun result => ?_
      cases result with
      | ok submission => exact T.inSessions_pure _
      | error e => exact T.inSessions_put _
    | empty => exact T.inSessions_lift fun _ _ hs => ⟨rfl, hs⟩
    | usage => exact T.inSessions_put _
    | unknown line => exact T.inSessions_put _
  · refine (T.inSessions_put _).next fun _ => ?_
    exact (T.leaving files hangs).next fun _ => T.inSessions_pure _
  · exact T.inSessions_pure _

/-! ### Reading the event stream -/

/-- Both look at the signal alike. -/
lemma unlessRaised (a : α) :
    T.InSessions Eq
      (Errand.lift (Subscription.unlessRaised (Session.handler (T.venue files hangs)) a))
      (Errand.lift (Subscription.unlessRaised (Session.handler (T.venue' files hangs)) a)) := by
  refine T.inSessions_lift fun s s' hs => ?_
  have hraised : (Session.handler (T.venue' files hangs)).raised s' =
    (Session.handler (T.venue files hangs)).raised s := hs.crew.raised
  have hunless {ρ : Type} (handler : Handler (Session ρ)) (t : Session ρ) :
      Subscription.unlessRaised handler a t =
        (if handler.raised t then .error .stopped else .ok a, t) := by
    simp only [Subscription.unlessRaised, bind, StateT.bind, get, getThe, MonadStateOf.get,
      StateT.get, pure]
    split <;> rfl
  rw [hunless, hunless, hraised]
  exact ⟨rfl, hs⟩

/-- A line of the stream is read alike. -/
lemma readLine (line : List UInt8) (f : Framer) :
    T.InSessions Eq (Subscription.readLine (Session.handler (T.venue files hangs)) line f)
      (Subscription.readLine (Session.handler (T.venue' files hangs)) line f) := by
  rw [Subscription.readLine, Subscription.readLine]
  cases Utf8.text? line with
  | none => exact T.inSessions_pure _
  | some text =>
    simp only
    obtain ⟨completion, f'⟩ := f.take text
    cases completion with
    | misfit => exact T.inSessions_pure _
    | event e =>
      refine (T.take files hangs e).next fun flow => ?_
      cases flow with
      | stop => exact T.inSessions_pure _
      | proceed => exact T.unlessRaised files hangs _
    | none => exact T.unlessRaised files hangs _
    | foreign type => exact T.unlessRaised files hangs _

/-- So are several lines. -/
lemma readLines (lines : List (List UInt8)) (f : Framer) :
    T.InSessions Eq (Subscription.readLines (Session.handler (T.venue files hangs)) lines f)
      (Subscription.readLines (Session.handler (T.venue' files hangs)) lines f) := by
  induction lines generalizing f with
  | nil => exact T.inSessions_pure _
  | cons line lines ih =>
    refine (T.readLine files hangs line f).next fun result => ?_
    cases result with
    | error ending => exact T.inSessions_pure _
    | ok f => exact ih f

/-- So are bytes as they come. -/
lemma receive (reader : Subscription) (bytes : List UInt8) :
    T.InSessions Eq (reader.receive (Session.handler (T.venue files hangs)) bytes)
      (reader.receive (Session.handler (T.venue' files hangs)) bytes) := by
  refine (T.readLines files hangs _ _).next fun result => ?_
  cases result <;> exact T.inSessions_pure _

/-- The stream is finished alike, whether it ends or breaks off. -/
lemma finish (reader : Subscription) (reason : Option String) :
    T.InSessions Eq (reader.finish (Session.handler (T.venue files hangs)) reason)
      (reader.finish (Session.handler (T.venue' files hangs)) reason) := by
  cases reason with
  | some reason => exact T.inSessions_pure _
  | none =>
    rw [Subscription.finish, Subscription.finish]
    split
    · exact T.inSessions_pure _
    · refine (T.readLine files hangs _ _).next fun result => ?_
      cases result <;> exact T.inSessions_pure _

/-- Both listen to the same stream. -/
lemma listen :
    T.InSessions Eq (Seat.listen (T.venue files hangs)) (Seat.listen (T.venue' files hangs)) := by
  refine InSessions.next (T.inSessions_world fun _ => ?_) fun reply => ?_
  · exact (T.request fun _ => rfl).imp fun _ _ _ h => h.1.symm
  rw [Subscription.follow, Subscription.follow]
  cases Subscription.body reply with
  | error e => exact T.inSessions_pure _
  | ok body =>
    cases body with
    | live => exact T.unlessRaised files hangs _
    | whole content =>
      refine (T.unlessRaised files hangs _).next fun started => ?_
      cases started with
      | error ending => exact T.inSessions_pure _
      | ok reader =>
        refine (T.receive files hangs reader content.bytes).next fun result => ?_
        cases result with
        | error ending => exact T.inSessions_pure _
        | ok reader =>
          exact (T.finish files hangs reader content.failure).next fun _ => T.inSessions_pure _

/-- Both conclude alike how listening ended. -/
lemma concluding (ending : StreamEnd) :
    T.InSessions Eq (Session.concluding ending : Errand (Session σ) Unit)
      (Session.concluding ending : Errand (Session σ') Unit) := by
  rw [Session.concluding, Session.concluding]
  cases ending.notice? with
  | none => exact T.inSessions_pure _
  | some text => exact T.inSessions_put _

/-- Both heed alike what came of the bytes. -/
lemma heeding (result : Except StreamEnd Subscription) :
    T.InSessions Eq (Session.heeding result : Errand (Session σ) Unit)
      (Session.heeding result : Errand (Session σ') Unit) := by
  cases result with
  | ok reader => exact T.inSessions_pure _
  | error ending => exact T.concluding ending

/-- All that is asked of both is done in parallel. -/
theorem dealing (d : Dealing) (hd : d.IsPlain T.link.base) :
    T.InSessions Eq (d.errand (T.venue files hangs)) (d.errand (T.venue' files hangs)) := by
  cases d with
  | signIn nickname password => exact T.inSessions_world fun _ => T.signingIn nickname password
  | request q =>
    exact T.inSessions_world fun _ => (T.request hd).imp fun _ _ _ h => h.1.symm
  | ask q => exact T.inSessions_world fun _ => T.question q
  | queue => exact T.joinQueue
  | listen =>
    refine (T.listen files hangs).next fun result => ?_
    exact (T.heeding result).next fun _ => T.inSessions_pure _
  | read reader bytes =>
    refine (T.receive files hangs reader bytes).next fun result => ?_
    exact (T.heeding result).next fun _ => T.inSessions_pure _
  | hangUp reader reason =>
    refine (T.finish files hangs reader reason).next fun ending => ?_
    exact (T.concluding ending).next fun _ => T.inSessions_pure _
  | event e => exact T.take files hangs e
  | submit path => exact T.handingIn files hangs path
  | openPrompt number =>
    refine T.inSessions_lift fun s s' hs => ?_
    exact ⟨rfl, (T.inWorld (T.put .prompt) _ _ hs.crew).2, hs.standing, rfl, hs.told⟩
  | obey message => exact T.obeying files hangs message
  | leave => exact T.leaving files hangs
  | raise => exact T.inSessions_onCrew (T.raise hangs)
  | poll n => exact T.inSessions_onCrew (T.move n)

end Twins
end Duelist
