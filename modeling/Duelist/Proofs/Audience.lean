import Duelist.Proofs.Scenes
import Duelist.Prompt.Loop
/-!
# The audience

Who is told of the end of a session. Of all the steps that are made in a session, one kind only has
to do with it: the audience is told, and there is none thereafter (`Heeds`). This is said of every
operation (`Operation.abides`) and of all that a prompt does with a message
(`Session.abides_obeying`), whatever others do between two steps (`Progress.Abides`). So a prompt
that is opened before anybody was told is the one that will be told (`Heard.heeds`).

A prompt takes a message in several steps, too. `Session.obeying` is the errand, which done at once
is `Session.obey` (`Session.atOnce_obeying`).
-/

namespace Duelist

variable {σ τ ν α β : Type}

/-! ### What every step of an errand does -/

/-- Every step to come leads from what is seen of the state that it finds to something to which `R`
relates it, the first one from `v`. -/
def Progress.Abides (view : τ → ν) (R : ν → ν → Prop) : ν → Progress τ α → Prop
  | v, .done _ s => view s = v
  | v, .going s next => R v (view s) ∧ ∀ t, (next t).Abides view R (view t)
  | v, .waiting s resume => R v (view s) ∧ ∀ c t, (resume c t).Abides view R (view t)

/-- Whatever others do, the result has the property `P`. -/
def Progress.Yields (P : α → Prop) : Progress τ α → Prop
  | .done a _ => P a
  | .going _ next => ∀ t, (next t).Yields P
  | .waiting _ resume => ∀ c t, (resume c t).Yields P

namespace Progress

/-- If one thing abides by a relation, and all that may come after it, then so do both together. -/
lemma Abides.andThen {view : τ → ν} {R : ν → ν → Prop} {p : Progress τ α} {v : ν}
    (h : p.Abides view R v) {f : α → Errand τ β} (hf : ∀ a t, (f a t).Abides view R (view t)) :
    (p.andThen f).Abides view R v := by
  induction p generalizing v with
  | done a s =>
    obtain rfl : view s = v := h
    exact hf a s
  | going s next ih => exact ⟨h.1, fun t => ih t (h.2 t)⟩
  | waiting s resume ih => exact ⟨h.1, fun c t => ih c t (h.2 c t)⟩

/-- The result of an errand has a property if the last part of the errand gives it that property. -/
lemma yields_andThen {P : β → Prop} (p : Progress τ α) {f : α → Errand τ β}
    (hf : ∀ a t, (f a t).Yields P) : (p.andThen f).Yields P := by
  induction p with
  | done a s => exact hf a s
  | going s next ih => exact fun t => ih t
  | waiting s resume ih => exact fun c t => ih c t

end Progress

/-- Every step of the errand leads from what is seen of the state that it finds to something to
which `R` relates it. -/
def Errand.Abides (view : τ → ν) (R : ν → ν → Prop) (e : Errand τ α) : Prop :=
  ∀ s, (e s).Abides view R (view s)

namespace Errand

variable {view : τ → ν} {R : ν → ν → Prop}

/-- To do nothing abides by any relation. -/
lemma abides_pure (a : α) : (pure a : Errand τ α).Abides view R :=
  fun _ => rfl

/-- A single step abides by a relation that holds between the views before and behind it. -/
lemma abides_lift {act : StateM τ α} (h : ∀ s, R (view s) (view (act s).2)) :
    (lift act).Abides view R :=
  fun s => ⟨h s, fun _ => rfl⟩

/-- One errand after another abides by what both of them abide by. -/
lemma abides_bind {e : Errand τ α} {f : α → Errand τ β} (he : e.Abides view R)
    (hf : ∀ a, (f a).Abides view R) : (e >>= f).Abides view R :=
  fun s => (he s).andThen fun a => hf a

/-- What is done in the world, if nothing is seen of the world. -/
lemma abides_placed {view : Session σ → ν} {R : ν → ν → Prop} (hrefl : ∀ v, R v v)
    (hview : ∀ w s, view (Session.placed w s) = view s) (e : Errand (World σ) α) :
    (liftM e : Errand (Session σ) α).Abides view R := by
  suffices h : ∀ (p : Progress (World σ) α) (s : Session σ),
      (p.within Session.world Session.placed s).Abides view R (view s) from
    fun s => h (e s.world) s
  intro p
  induction p with
  | done a w => exact fun s => hview w s
  | going w next ih =>
    exact fun s => ⟨by rw [hview]; exact hrefl _, fun t => ih t.world t⟩
  | waiting w resume ih =>
    exact fun s => ⟨by rw [hview]; exact hrefl _, fun c t => ih c t.world t⟩

end Errand

/-! ### Telling the audience -/

/-- Who is to be told of the end, and who was. -/
structure Voice where
  /-- Who is to be told. -/
  audience : Option Audience
  /-- Who was told, and what. -/
  told : Option (Audience × Closing)

/-- Who is to be told of the end of a session, and who was. -/
def Session.voice (s : Session σ) : Voice where
  audience := s.audience
  told := s.told

/-- A step does nothing of the kind, or it tells the audience. -/
inductive Heeds : Voice → Voice → Prop
  | same (v : Voice) : Heeds v v
  | tell (audience : Audience) (told : Option (Audience × Closing)) (closing : Closing) :
      Heeds ⟨some audience, told⟩ ⟨none, some (audience, closing)⟩

/-- The audience is still to be told, or was told. -/
inductive Heard (audience : Audience) : Voice → Prop
  | waiting : Heard audience ⟨some audience, none⟩
  | told (closing : Closing) : Heard audience ⟨none, some (audience, closing)⟩

variable {audience : Audience} {v v' : Voice}

/-- The audience stays the same. -/
lemma Heard.heeds (h : Heard audience v) (hv : Heeds v v') : Heard audience v' := by
  cases hv with
  | same => exact h
  | tell other told closing =>
    cases h
    exact .told closing

/-! ### All that is done with a session -/

namespace Session

variable (venue : Venue σ)

/-- What is done with the crew has nothing to do with the audience. -/
lemma abides_onCrew (act : StateM (Crew σ) α) : (Errand.lift (onCrew act)).Abides voice Heeds :=
  Errand.abides_lift fun s => .same s.voice

/-- To change the standing leaves the audience as it is. -/
lemma abides_restand (change : Standing → Standing) :
    (Errand.lift (restand (σ := σ) change)).Abides voice Heeds :=
  Errand.abides_lift fun s => .same s.voice

/-- So does it to change the standing if that is possible. -/
lemma abides_attempt (change : Standing → Option Standing) :
    (Errand.lift (attempt (σ := σ) change)).Abides voice Heeds := by
  refine Errand.abides_lift fun s => ?_
  rw [attempt]
  split <;> exact .same s.voice

/-- To tell the audience is to heed it. -/
lemma abides_tell (closing : Closing) :
    (Errand.lift (tell (σ := σ) closing)).Abides voice Heeds := by
  refine Errand.abides_lift fun s => ?_
  obtain ⟨crew, standing, audience, told⟩ := s
  cases audience with
  | none => exact .same _
  | some audience => exact .tell audience told closing

/-- What is done in the world has nothing to do with the audience. -/
lemma abides_world (e : Errand (World σ) α) :
    (liftM e : Errand (Session σ) α).Abides voice Heeds :=
  Errand.abides_placed .same (fun _ _ => rfl) e

/-- Joining the queue heeds the audience. -/
lemma abides_joinQueue :
    (joinQueue : Errand (Session σ) (Except Failure Unit)).Abides voice Heeds := by
  refine Errand.abides_bind (abides_attempt _) fun changed => ?_
  cases changed with
  | false => exact Errand.abides_pure _
  | true => exact Errand.abides_bind (abides_onCrew _) fun _ => Errand.abides_pure _

/-- So does the presentation of a duel. -/
lemma abides_present (duel : Int64) : (present venue duel).Abides voice Heeds := by
  refine Errand.abides_bind (abides_world _) fun summary => ?_
  cases summary with
  | error e => exact abides_onCrew _
  | ok summary =>
    refine Errand.abides_bind (abides_restand _) fun _ => ?_
    refine Errand.abides_bind (abides_world _) fun player => ?_
    refine Errand.abides_bind (abides_onCrew _) fun _ => ?_
    refine Errand.abides_bind (abides_world _) fun sheet => ?_
    cases sheet with
    | error e => exact abides_onCrew _
    | ok sheet => exact abides_onCrew _

/-- So does the start of a duel, with all that is presented. -/
lemma abides_started (duel : Int64) (opponent : Option Int64) (task : Option String) :
    (started venue duel opponent task).Abides voice Heeds := by
  refine Errand.abides_bind (abides_attempt _) fun changed => ?_
  cases changed with
  | false => exact Errand.abides_pure _
  | true =>
    refine Errand.abides_bind (abides_onCrew _) fun _ => ?_
    refine Errand.abides_bind (abides_present venue duel) fun _ => ?_
    exact Errand.abides_bind (abides_onCrew _) fun _ => Errand.abides_pure _

/-- So does it to announce the result. -/
lemma abides_announce (duel : Int64) : (announce venue duel).Abides voice Heeds := by
  refine Errand.abides_bind (abides_world _) fun summary => ?_
  cases summary with
  | error e => exact Errand.abides_bind (abides_onCrew _) fun _ => Errand.abides_pure _
  | ok summary => exact Errand.abides_bind (abides_onCrew _) fun _ => Errand.abides_pure _

/-- The end of a duel heeds the audience: it tells it in one of its steps, if there is one. -/
lemma abides_finished (duel : Int64) : (finished venue duel).Abides voice Heeds := by
  refine Errand.abides_bind (abides_attempt _) fun changed => ?_
  cases changed with
  | false => exact Errand.abides_pure _
  | true =>
    refine Errand.abides_bind (abides_announce venue duel) fun result => ?_
    refine Errand.abides_bind (Errand.abides_lift fun s => .same s.voice) fun outcome => ?_
    refine Errand.abides_bind (abides_onCrew _) fun _ => ?_
    refine Errand.abides_bind (abides_onCrew _) fun givenUp => ?_
    refine Errand.abides_bind (abides_restand _) fun _ => ?_
    exact Errand.abides_bind (abides_tell _) fun _ => Errand.abides_pure _

/-- Taking an event heeds the audience, whichever event it is. -/
lemma abides_take (e : Event) : (take venue e).Abides voice Heeds := by
  refine Errand.abides_bind (Errand.abides_lift fun s => .same s.voice) fun s => ?_
  split
  · exact Errand.abides_pure _
  · cases e with
    | started duel opponent task => exact abides_started venue duel opponent task
    | finished duel => exact abides_finished venue duel

/-- Handing in a solution heeds the audience. -/
lemma abides_handingIn (path : String) : (handingIn venue path).Abides voice Heeds := by
  refine Errand.abides_bind (Errand.abides_lift fun s => .same s.voice) fun s => ?_
  split
  · exact Errand.abides_pure _
  refine Errand.abides_bind (abides_world _) fun result => ?_
  cases result with
  | error e => exact Errand.abides_pure _
  | ok submission =>
    refine Errand.abides_bind (abides_onCrew _) fun _ => ?_
    refine Errand.abides_bind (abides_onCrew _) fun followed => ?_
    cases followed with
    | true => exact Errand.abides_pure _
    | false => exact Errand.abides_bind (abides_onCrew _) fun _ => Errand.abides_pure _

/-- So does leaving. -/
lemma abides_leaving : (leaving venue).Abides voice Heeds := by
  refine Errand.abides_bind (abides_restand _) fun _ => ?_
  exact Errand.abides_bind (abides_onCrew _) fun _ => abides_onCrew _

end Session

/-- No operation does anything else to the audience than to tell it. -/
theorem Operation.abides (venue : Venue σ) (op : Operation σ) :
    (op.errand venue).Abides Session.voice Heeds := by
  cases op with
  | queue => exact Errand.abides_bind Session.abides_joinQueue fun _ => Errand.abides_pure _
  | event e => exact Errand.abides_bind (Session.abides_take venue e) fun _ => Errand.abides_pure _
  | submit path =>
    exact Errand.abides_bind (Session.abides_handingIn venue path) fun _ => Errand.abides_pure _
  | leave => exact Errand.abides_bind (Session.abides_leaving venue) fun _ => Errand.abides_pure _
  | raise => exact Session.abides_onCrew _
  | poll n => exact Errand.abides_bind (Session.abides_onCrew _) fun _ => Errand.abides_pure _
  | other act => exact Session.abides_onCrew _

namespace Scene

/-- What is under way does nothing to the audience but to tell it. -/
def Heeding (scene : Scene σ) : Prop :=
  ∀ u ∈ scene.undertakings, ∀ c s, (u.resume c s).Abides Session.voice Heeds s.voice

/-- A step of an operation heeds the audience, and leaves a scene in which all that is under way
does. -/
lemma heeds_place {op : Operation σ} {others : List (Undertaking σ)}
    {p : Progress (Session σ) Unit} (hp : p.Abides Session.voice Heeds v)
    (hothers : ∀ u ∈ others, ∀ c s, (u.resume c s).Abides Session.voice Heeds s.voice) :
    Heeds v (place op others p).session.voice ∧ (place op others p).Heeding := by
  cases p with
  | done a s =>
    obtain rfl : s.voice = v := hp
    exact ⟨.same _, hothers⟩
  | going s next =>
    refine ⟨hp.1, fun u hu => ?_⟩
    rcases List.mem_append.mp hu with hu | hu
    · exact hothers u hu
    · obtain rfl := List.mem_singleton.mp hu
      exact fun _ => hp.2
  | waiting s resume =>
    refine ⟨hp.1, fun u hu => ?_⟩
    rcases List.mem_append.mp hu with hu | hu
    · exact hothers u hu
    · obtain rfl := List.mem_singleton.mp hu
      exact hp.2

/-- Nothing that happens does anything to the audience but to tell it. -/
lemma heeds_step (venue : Venue σ) {scene : Scene σ} (hscene : scene.Heeding) (h : Happening σ) :
    Heeds scene.session.voice (scene.step venue h).session.voice ∧
      (scene.step venue h).Heeding := by
  cases h with
  | begins op => exact heeds_place (op.abides venue scene.session) hscene
  | goes n c =>
    rw [step]
    cases hu : scene.undertakings[n]? with
    | none => exact ⟨.same _, hscene⟩
    | some u =>
      refine heeds_place (hscene u (List.mem_of_getElem? hu) c scene.session) fun u' hu' => ?_
      exact hscene u' (List.mem_of_mem_eraseIdx hu')

end Scene

/-! ### What a prompt does with a message -/

/-- Why the prompt is left after a message, if it is. -/
def Message.exit? : Message → Option Exit
  | .line _ => none
  | .closed => some .inputClosed
  | .over closing => some (.sessionOver closing)

namespace Session

variable (venue : Venue σ)

/-- Carries out a command, step by step. -/
def executing : Command → Errand (Session σ) Unit
  | .submit path => do
    match ← handingIn venue path with
    | .ok _ => return ()
    | .error e => say (σ := σ) e.submitNotice
  | command => .lift (execute venue command)

/-- Takes a message, step by step. -/
def obeying : Message → Errand (Session σ) (Option Exit)
  | .line text => do
    executing venue (.ofLine text)
    showPrompt (σ := σ)
    return none
  | .closed => do
    say (σ := σ) "\nLeaving..."
    let _ ← leaving venue
    return some .inputClosed
  | .over closing => return some (.sessionOver closing)

/-- Step by step or at once, a command comes to the same. -/
lemma atOnce_executing (command : Command) :
    (executing venue command).atOnce = execute venue command := by
  cases command with
  | submit path =>
    rw [executing, Errand.atOnce_bind, execute, handIn]
    congr 1
    funext result
    cases result <;> rfl
  | _ => rfl

/-- With nobody in between a message is taken at once. -/
theorem atOnce_obeying (message : Message) :
    (obeying venue message).atOnce = obey venue message := by
  obtain text | - | closing := message
  · simp [obeying, obey, atOnce_executing]
  · simp [obeying, obey, leave]
  · rfl

/-- The messages are taken one after another, until the prompt is left. -/
lemma obeyAll_cons (message : Message) (messages : List Message) (s : Session σ) :
    obeyAll venue (message :: messages) s =
      match obey venue message s with
      | (some e, s) => (some e, s)
      | (none, s) => obeyAll venue messages s := by
  have hbind (f : Option Exit → Play σ (Option Exit)) : (obey venue message >>= f) s =
      f (obey venue message s).1 (obey venue message s).2 := rfl
  rw [obeyAll, hbind]
  cases obey venue message s with
  | mk exit s => cases exit <;> rfl

/-- Carrying out a command heeds the audience. -/
lemma abides_executing (command : Command) : (executing venue command).Abides voice Heeds := by
  cases command with
  | submit path =>
    refine Errand.abides_bind (abides_handingIn venue path) fun result => ?_
    cases result with
    | ok submission => exact Errand.abides_pure _
    | error e => exact abides_onCrew _
  | usage => exact abides_onCrew _
  | empty => exact Errand.abides_lift fun s => .same s.voice
  | unknown line => exact abides_onCrew _

/-- The prompt does nothing to the audience. -/
theorem abides_obeying (message : Message) : (obeying venue message).Abides voice Heeds := by
  obtain text | - | closing := message
  · refine Errand.abides_bind (abides_executing venue _) fun _ => ?_
    exact Errand.abides_bind (abides_onCrew _) fun _ => Errand.abides_pure _
  · refine Errand.abides_bind (abides_onCrew _) fun _ => ?_
    exact Errand.abides_bind (abides_leaving venue) fun _ => Errand.abides_pure _
  · exact Errand.abides_pure _

/-- The prompt is left after a message that is not a line, whatever others do meanwhile. -/
theorem yields_obeying (message : Message) (s : Session σ) :
    (obeying venue message s).Yields (· = message.exit?) := by
  obtain text | - | closing := message
  · refine Progress.yields_andThen _ fun _ t => ?_
    exact Progress.yields_andThen _ fun _ _ => rfl
  · refine Progress.yields_andThen _ fun _ t => ?_
    exact Progress.yields_andThen _ fun _ _ => rfl
  · rfl

end Session
end Duelist
