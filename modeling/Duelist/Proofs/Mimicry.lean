import Duelist.Proofs.Alike
import Duelist.Proofs.Expiry
/-!
# Mimicry

One errand mimics another if it makes the same steps, hears the same, and does nothing else but show
lines in between. Others may go on at any time, as always. Which lines it shows, and in which order,
is part of what `Errand.Mimics` says; what the others show is not.

The errand that is mimicked stays where it is while the other one shows its lines. So the two need
not have the same number of steps.

An errand that mimics itself without a line of its own is `Blind`: it does the same in all states
that are alike. Handing in a solution is of that kind (`Session.blind_handingIn`), and so are
leaving (`Session.blind_leaving`) and taking an event (`Session.blind_take`).
-/

namespace Duelist

open Transcribed

variable {σ τ υ α α' β β' : Type} [Transcribed τ]

/-- What is left of an errand, done in the state `v`, and what is left of its mimic, done in `v'`.
The mimic has shown the lines `said` so far. The states are alike as long as others leave them so.
`R` relates all lines that were shown and the results. -/
inductive Progress.Mimics (R : List Line → α → α' → Prop) :
    (said : List Line) → (v v' : τ) → Progress τ α → Progress τ α' → Prop
  /-- Both are done. -/
  | done {said : List Line} {v v' : τ} {a : α} {a' : α'} (hv : Alike v v') (ha : R said a a') :
      Mimics R said v v' (.done a v) (.done a' v')
  /-- Both make a step, and add the same to the transcripts. -/
  | going {said : List Line} {v v' s s' : τ} {next : τ → Progress τ α} {next' : τ → Progress τ α'}
      (hs : AlikeSince v v' s s')
      (h : ∀ t t', Alike t t' → Mimics R said t t' (next t) (next' t')) :
      Mimics R said v v' (.going s next) (.going s' next')
  /-- Both wait for a content, and hear the same. -/
  | waiting {said : List Line} {v v' s s' : τ} {resume : Content → τ → Progress τ α}
      {resume' : Content → τ → Progress τ α'} (hs : AlikeSince v v' s s')
      (h : ∀ c t t', Alike t t' → Mimics R said t t' (resume c t) (resume' c t')) :
      Mimics R said v v' (.waiting s resume) (.waiting s' resume')
  /-- The mimic shows some lines, or none. -/
  | showing {said : List Line} {v v' s' : τ} {e : Errand τ α} {lines : List Line}
      {next' : τ → Progress τ α'} (hs : Alike v s')
      (hlines : transcript s' = transcript v' ++ lines.map .shown)
      (h : ∀ t t', Alike t t' → Mimics R (said ++ lines) t t' (e t) (next' t')) :
      Mimics R said v v' (e v) (.going s' next')

/-- The second errand mimics the first one, after the lines `said`. -/
def Errand.Mimics (said : List Line) (R : List Line → α → α' → Prop) (e : Errand τ α)
    (e' : Errand τ α') : Prop :=
  ∀ s s', Alike s s' → (e s).Mimics R said s s' (e' s')

variable {said : List Line} {R : List Line → α → α' → Prop}

/-- One thing after another. -/
lemma Progress.Mimics.andThen {Q : List Line → β → β' → Prop} {v v' : τ} {p : Progress τ α}
    {p' : Progress τ α'} (h : p.Mimics R said v v' p') {k : α → Errand τ β} {k' : α' → Errand τ β'}
    (hk : ∀ said a a', R said a a' → Errand.Mimics said Q (k a) (k' a')) :
    (p.andThen k).Mimics Q said v v' (p'.andThen k') := by
  induction h with
  | done hv ha => exact hk _ _ _ ha _ _ hv
  | going hs _ ih => exact .going hs ih
  | waiting hs _ ih => exact .waiting hs ih
  | @showing said v v' s' e lines next' hs hlines _ ih =>
    exact .showing (e := e >>= k) hs hlines ih

namespace Errand.Mimics

/-- To do nothing mimics doing nothing, if the results are related. -/
lemma pure {a : α} {a' : α'} (h : R said a a') :
    Errand.Mimics said R (Pure.pure a : Errand τ α) (Pure.pure a') :=
  fun _ _ hs => .done hs h

/-- One errand after another is mimicked by mimics of both. -/
lemma bind {Q : List Line → β → β' → Prop} {e : Errand τ β} {e' : Errand τ β'}
    {k : β → Errand τ α} {k' : β' → Errand τ α'} (h : Errand.Mimics said Q e e')
    (hk : ∀ said b b', Q said b b' → Errand.Mimics said R (k b) (k' b')) :
    Errand.Mimics said R (e >>= k) (e' >>= k') :=
  fun s s' hs => (h s s' hs).andThen hk

/-- The mimic begins with lines of its own. -/
lemma shown {e : Errand τ α} {act : StateM τ β} {k' : β → Errand τ α'} {lines : List Line}
    (halike : ∀ t t', Alike t t' → Alike t (act t').2)
    (hlines : ∀ t, transcript (act t).2 = transcript t ++ lines.map .shown)
    (h : ∀ b, Errand.Mimics (said ++ lines) R e (k' b)) :
    Errand.Mimics said R e ((liftM act : Errand τ β) >>= k') :=
  fun s s' hs => .showing (e := e) (halike s s' hs) (hlines s') (h (act s').1)

/-- Both make a single step. -/
lemma lift {Q : α → α' → Prop} {act : StateM τ α} {act' : StateM τ α'}
    (h : ∀ s s', Alike s s' → Q (act s).1 (act' s').1 ∧ AlikeSince s s' (act s).2 (act' s').2) :
    Errand.Mimics said (fun said' a a' => said' = said ∧ Q a a') (liftM act : Errand τ α)
      (liftM act') :=
  fun s s' hs => .going (h s s' hs).2 fun _ _ ht => .done ht ⟨rfl, (h s s' hs).1⟩

end Errand.Mimics

/-! ### Blind errands -/

/-- Done in two states that are alike, the errand makes the same steps and comes to the same. -/
def Errand.Blind (e : Errand τ α) : Prop :=
  ∀ said, Errand.Mimics said (fun said' a a' => said' = said ∧ a' = a) e e

namespace Errand.Blind

/-- To do nothing is blind to the transcript. -/
lemma pure (a : α) : Blind (Pure.pure a : Errand τ α) :=
  fun _ => .pure ⟨rfl, rfl⟩

/-- A single step is blind if the act is. -/
lemma lift {act : StateM τ α} (h : Duelist.Blind act) : Blind (liftM act : Errand τ α) :=
  fun _ => .lift h

/-- One blind errand after another is blind, too. -/
lemma bind {e : Errand τ β} (h : Blind e) {k : β → Errand τ α} (hk : ∀ b, Blind (k b)) :
    Blind (e >>= k) := by
  refine fun said => (h said).bind fun said' b b' hb => ?_
  obtain ⟨rfl, rfl⟩ := hb
  exact hk b' said'

/-- Whoever waits for a body hears the same in both states. -/
lemma awaited (r : Reply) : Blind (r.awaited : Errand τ Reply) := by
  obtain ⟨status, body⟩ := r
  cases body with
  | whole content => exact .pure _
  | live =>
    have hwait : Blind (wait : Errand τ Content) :=
      fun _ _ _ hs => .waiting (.refl hs) fun _ _ _ ht => .done ht ⟨rfl, rfl⟩
    exact hwait.bind fun _ => .pure _

/-- What is done in the world is done to the session. -/
lemma inWorld {e : Errand (World σ) α} (h : Blind e) :
    Blind (liftM e : Errand (Session σ) α) := by
  -- the induction is on the mimicry of the worlds, for any sessions around them
  suffices hwithin : ∀ (R : List Line → α → α → Prop) (said : List Line) (w w' : World σ)
      (p p' : Progress (World σ) α), p.Mimics R said w w' p' → ∀ s s' : Session σ, s.world = w →
      s'.world = w' → Alike s s' → (p.within Session.world Session.placed s).Mimics R said s s'
        (p'.within Session.world Session.placed s') from
    fun said s s' hs =>
      hwithin _ said _ _ _ _ (h said s.world s'.world hs.crew.world) s s' rfl rfl hs
  have hplaced {s s' : Session σ} {w w' : World σ} (hs : Alike s s')
      (hw : AlikeSince s.world s'.world w w') : AlikeSince s s' (s.placed w) (s'.placed w') :=
    ⟨⟨⟨hw.1, hs.crew.raised, hs.crew.followers, hs.crew.joined⟩, hs.standing, hs.audience,
      hs.told⟩, hw.2⟩
  intro R said w w' p p' hp
  induction hp with
  | done hv ha =>
    rintro s s' rfl rfl hs
    exact .done hs ha
  | going hw _ ih =>
    rintro s s' rfl rfl hs
    exact .going (hplaced hs hw) fun t t' ht => ih _ _ ht.crew.world t t' rfl rfl ht
  | waiting hw _ ih =>
    rintro s s' rfl rfl hs
    exact .waiting (hplaced hs hw) fun c t t' ht => ih c _ _ ht.crew.world t t' rfl rfl ht
  | @showing said w w' v' e lines next' hw hlines _ ih =>
    rintro s s' rfl rfl hs
    refine .showing (e := e.within Session.world Session.placed) ?_ hlines fun t t' ht =>
      ih _ _ ht.crew.world t t' rfl rfl ht
    exact Session.Alike.mk ⟨hw, hs.crew.raised, hs.crew.followers, hs.crew.joined⟩ hs.standing
      hs.audience hs.told

/-- With nobody in between, and whatever the bodies hold. -/
lemma reading {e : Errand τ α} (h : Blind e) (c : Content) : Duelist.Blind (e.reading c) := by
  -- a mimic that has shown nothing at the end has shown nothing in any of its steps
  suffices hdrain : ∀ (all said : List Line) (v v' : τ) (p p' : Progress τ α),
      p.Mimics (fun said' a a' => said' = all ∧ a' = a) said v v' p' →
      ∃ own, said ++ own = all ∧ (own = [] →
        (p'.drain c).1 = (p.drain c).1 ∧ AlikeSince v v' (p.drain c).2 (p'.drain c).2) by
    intro s s' hs
    obtain ⟨own, hown, hsame⟩ := hdrain [] [] s s' _ _ (h [] s s' hs)
    exact hsame hown
  intro all said v v' p p' hp
  induction hp with
  | done hv ha => exact ⟨[], by rw [List.append_nil, ha.1], fun _ => ⟨ha.2, .refl hv⟩⟩
  | going hs _ ih =>
    obtain ⟨own, hown, hsame⟩ := ih _ _ hs.1
    exact ⟨own, hown, fun h => ⟨(hsame h).1, hs.trans (hsame h).2⟩⟩
  | waiting hs _ ih =>
    obtain ⟨own, hown, hsame⟩ := ih c _ _ hs.1
    exact ⟨own, hown, fun h => ⟨(hsame h).1, hs.trans (hsame h).2⟩⟩
  | @showing said v v' s' e lines next' hs hlines _ ih =>
    obtain ⟨own, hown, hsame⟩ := ih _ _ hs
    refine ⟨lines ++ own, by rw [← List.append_assoc, hown], fun h => ?_⟩
    obtain ⟨rfl, hnil⟩ := List.append_eq_nil_iff.mp h
    have hsince : AlikeSince v v' v s' := ⟨hs, [], (List.append_nil _).symm, hlines⟩
    exact ⟨(hsame hnil).1, hsince.trans (hsame hnil).2⟩

end Errand.Blind

/-! ### Questions -/

namespace Link

variable (link : Link σ)

/-- A fresh token depends on the stored tokens and the service, not on the transcript. -/
lemma blind_freshToken (used : String) : Errand.Blind (link.freshToken used) := by
  refine (Errand.Blind.lift Act.blind_tokens).bind fun stored => ?_
  split
  · exact .pure _
  split
  · exact .pure _
  refine (Errand.Blind.lift (link.blind_sendAnonymously _)).bind fun answer => ?_
  cases answer with
  | error e => exact .pure _
  | ok reply =>
    have hkeep (reply : Reply) : Errand.Blind (keepRefreshed (σ := σ) reply) := by
      rw [keepRefreshed]
      cases refreshedTokens (.ok reply) with
      | error e => exact .pure _
      | ok pair => exact (Errand.Blind.lift (Act.blind_store pair)).bind fun _ => .pure _
    simp only
    split
    · exact (Errand.Blind.awaited reply).bind hkeep
    · exact hkeep reply

/-- A query sent on behalf of the player is blind. -/
lemma blind_request (q : Query) : Errand.Blind (link.request q) := by
  refine (Errand.Blind.lift Act.blind_tokens).bind fun stored => ?_
  refine (Errand.Blind.lift (link.blind_send q _)).bind fun answer => ?_
  cases answer with
  | error e => exact .pure _
  | ok reply =>
    simp only
    split
    · refine (link.blind_freshToken _).bind fun fresh => ?_
      cases fresh with
      | error e => exact .pure _
      | ok fresh => exact .lift (link.blind_send q fresh)
    · exact .pure _

/-- So it is if the reply is read to its end. -/
lemma blind_ask (q : Query) : Errand.Blind (link.ask q) := by
  refine (link.blind_request q).bind fun answer => ?_
  cases answer with
  | error e => exact .pure _
  | ok reply => exact (Errand.Blind.awaited reply).bind fun _ => .pure _

/-- So it is if a record is read in the reply. -/
lemma blind_recordOf (read : Json → Option α) (q : Query) :
    Errand.Blind (do return recordOf read (← link.ask q)) :=
  (link.blind_ask q).bind fun _ => .pure _

/-- To ask for a file of a task is blind. -/
lemma blind_taskFile (task file : String) : Errand.Blind (link.taskFile task file) :=
  (link.blind_ask _).bind fun _ => .pure _

/-- So it is to ask for the files of samples. -/
lemma blind_sampleTexts (task : String) (samples : List Sample) :
    Errand.Blind (link.sampleTexts task samples) := by
  induction samples with
  | nil => exact .pure _
  | cons sample samples ih =>
    refine (link.blind_taskFile task sample.input).bind fun input => ?_
    refine (link.blind_taskFile task sample.output).bind fun output => ih.bind fun rest => ?_
    split
    · exact .pure _
    · exact .pure _

/-- So it is to ask for a task with its files. -/
lemma blind_sheet (id : String) : Errand.Blind (link.sheet id) := by
  refine (link.blind_recordOf _ _).bind fun task => ?_
  cases task with
  | error e => exact .pure _
  | ok task =>
    refine (link.blind_taskFile id task.statement).bind fun statement => ?_
    exact (link.blind_sampleTexts id task.samples).bind fun _ => .pure _

end Link

/-! ### What is done in a session -/

namespace Session

variable (venue : Venue σ)

/-- Whatever looks at nothing but the standing. -/
lemma blind_get {k : Session σ → Errand (Session σ) α}
    (hstanding : ∀ s s', s'.standing = s.standing → k s' = k s) (hk : ∀ s, Errand.Blind (k s)) :
    Errand.Blind (liftM (get : Play σ (Session σ)) >>= k) := by
  intro said
  have hget : Errand.Mimics said (fun said' s s' => said' = said ∧ Alike s s')
      (liftM (get : Play σ (Session σ))) (liftM (get : Play σ (Session σ))) :=
    .lift fun _ _ hs => ⟨hs, .refl hs⟩
  refine hget.bind fun said' s s' hs => ?_
  obtain ⟨rfl, hs⟩ := hs
  rw [hstanding s s' hs.standing]
  exact hk s said'

/-- To raise the signal is blind, since the followers conclude without a look at the transcript. -/
lemma blind_raise : Errand.Blind (raise venue : Errand (Session σ) Unit) :=
  .lift (blind_onCrew (Crew.blind_raise venue.link venue.hangs))

/-- To wait for the followers is blind. -/
lemma blind_join : Errand.Blind (liftM (onCrew Crew.join : Play σ ℕ) : Errand (Session σ) ℕ) :=
  .lift (blind_onCrew Crew.blind_join)

/-- Handing in a solution. -/
theorem blind_handingIn (path : String) : Errand.Blind (handingIn venue path) := by
  refine blind_get (fun s s' h => by rw [h]) fun s => ?_
  cases checkSolution venue.files s.standing path with
  | error why => exact .pure _
  | ok checked =>
    obtain ⟨duel, text, language⟩ := checked
    have hask : Errand.Blind (venue.link.handIn duel text language) :=
      (venue.link.blind_ask _).bind fun _ => .pure _
    refine hask.inWorld.bind fun result => ?_
    cases result with
    | error e => exact .pure _
    | ok submission =>
      refine (Errand.Blind.lift (blind_put _)).bind fun _ => ?_
      refine (Errand.Blind.lift (blind_onCrew (Crew.blind_follow venue.link duel submission))).bind
        fun followed => ?_
      cases followed with
      | true => exact .pure _
      | false => exact (Errand.Blind.lift (blind_put _)).bind fun _ => .pure _

/-- Leaving. -/
theorem blind_leaving : Errand.Blind (leaving venue) :=
  (Errand.Blind.lift (blind_restand Standing.leave)).bind fun _ =>
    (blind_raise venue).bind fun _ => blind_join

/-- The presentation of a duel is blind: it shows what it was told, and not what was shown. -/
lemma blind_present (duel : Int64) : Errand.Blind (present venue duel) := by
  refine (venue.link.blind_recordOf _ _).inWorld.bind fun summary => ?_
  cases summary with
  | error e => exact .lift (blind_put _)
  | ok summary =>
    refine (Errand.Blind.lift (blind_restand _)).bind fun _ => ?_
    refine (venue.link.blind_recordOf _ _).inWorld.bind fun player => ?_
    refine (Errand.Blind.lift (blind_put _)).bind fun _ => ?_
    refine (venue.link.blind_sheet _).inWorld.bind fun sheet => ?_
    cases sheet with
    | error e => exact .lift (blind_put _)
    | ok sheet => exact .lift (blind_put _)

/-- So is the start of a duel. -/
lemma blind_started (duel : Int64) (opponent : Option Int64) (task : Option String) :
    Errand.Blind (started venue duel opponent task) := by
  refine (Errand.Blind.lift (blind_attempt _)).bind fun changed => ?_
  cases changed with
  | false => exact .pure _
  | true =>
    refine (Errand.Blind.lift (blind_put _)).bind fun _ => ?_
    refine (blind_present venue duel).bind fun _ => ?_
    exact (Errand.Blind.lift (blind_put _)).bind fun _ => .pure _

/-- So is the announcement of the result. -/
lemma blind_announce (duel : Int64) : Errand.Blind (announce venue duel) := by
  refine (venue.link.blind_recordOf _ _).inWorld.bind fun summary => ?_
  cases summary with
  | error e => exact (Errand.Blind.lift (blind_put _)).bind fun _ => .pure _
  | ok summary => exact (Errand.Blind.lift (blind_put _)).bind fun _ => .pure _

/-- So is the end of a duel. -/
lemma blind_finished (duel : Int64) : Errand.Blind (finished venue duel) := by
  refine (Errand.Blind.lift (blind_attempt _)).bind fun changed => ?_
  cases changed with
  | false => exact .pure _
  | true =>
    refine (blind_announce venue duel).bind fun result => ?_
    refine (Errand.Blind.lift (blind_closeDuel result)).bind fun outcome => ?_
    refine (blind_raise venue).bind fun _ => blind_join.bind fun givenUp => ?_
    refine (Errand.Blind.lift (blind_restand _)).bind fun _ => ?_
    exact (Errand.Blind.lift (blind_tell _)).bind fun _ => .pure _

/-- Taking an event. -/
theorem blind_take (e : Event) : Errand.Blind (take venue e) := by
  refine blind_get (fun s s' h => by rw [h]) fun s => ?_
  split
  · exact .pure _
  · cases e with
    | started duel opponent task => exact blind_started venue duel opponent task
    | finished duel => exact blind_finished venue duel

end Session
end Duelist
