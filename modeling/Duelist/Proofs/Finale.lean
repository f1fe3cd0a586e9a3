import Duelist.Proofs.Playthroughs
import Duelist.Proofs.Submissions
import Duelist.Proofs.Wordings
/-!
# The finale

How a session ends that is played through one thing after the other. The end of the duel that is
being played is taken in a fixed order of effects (`finaleEffects`): the result is asked for and
announced, the duel is closed, the signal is raised and the followers conclude, they are waited for,
the session is over, and only then whoever is to be told of the end is told, once
(`Session.does_finale`). After that nothing is done by any follower but those that were given up,
since the session is at rest (`Session.Rested`).

The main statement is `Playthrough.finale`.
-/

namespace Duelist

variable {σ : Type}

/-! ### Effects -/

/-- Something that taking the end of a duel does to a session. -/
inductive Effect where
  /-- Does something in the world. -/
  | deed (deed : Deed)
  /-- Tells the player something. -/
  | notifies (text : String)
  /-- Enters a phase. -/
  | enters (phase : Phase)
  /-- Closes the duel. -/
  | closes
  /-- Raises the stop signal. -/
  | raises
  /-- The follower numbered `n` concludes, and adds `entries` to the transcript. -/
  | concludes (n : ℕ) (entries : List Entry)
  /-- Waits for the followers, and gives up those numbered `gone`. -/
  | gathers (gone : List ℕ)
  /-- Tells the audience of the end. -/
  | tells (audience : Audience) (closing : Closing)

/-- The followers that would be given up if they were waited for. -/
def Crew.unended (crew : Crew σ) : List ℕ :=
  crew.untaken.filter fun n => !crew.hasEnded n

/-- How effects lead from a session to another. -/
inductive Effect.Leads (venue : Venue σ) : Session σ → List Effect → Session σ → Prop
  | nothing (s : Session σ) : Leads venue s [] s
  | deeds (s : Session σ) {ds : List Deed} {w : World σ} (h : Deed.Leads venue.link s.world ds w) :
      Leads venue s (ds.map .deed) (s.placed w)
  | notifies (s : Session σ) (text : String) :
      Leads venue s [.notifies text] (s.placed (s.world.note (.shown (.notify text))))
  | enters (s : Session σ) (phase : Phase) :
      Leads venue s [.enters phase] { s with standing := s.standing.enter phase }
  | closes (s : Session σ) :
      Leads venue s [.closes] { s with standing := { s.standing with
        duel := none, active := false, stopping := true } }
  | raises (s : Session σ) {added : List (ℕ × List Entry)} {fs : List Follower} {w : World σ}
      (h : Crew.Concludes venue.link venue.hangs 0 s.crew.followers s.world added fs w) :
      Leads venue s (.raises :: added.map fun x => .concludes x.1 x.2)
        { s with crew := { s.crew with raised := true, followers := fs, world := w } }
  | gathers (s : Session σ) :
      Leads venue s [.gathers s.crew.unended]
        { s with crew := { s.crew with joined := s.crew.followers.length } }
  | tells (s : Session σ) {audience : Audience} (h : s.audience = some audience)
      (closing : Closing) :
      Leads venue s [.tells audience closing]
        { s with audience := none, told := some (audience, closing) }
  | append {s t u : Session σ} {ds es : List Effect} (h : Leads venue s ds t)
      (h' : Leads venue t es u) : Leads venue s (ds ++ es) u

/-- Nobody else does anything between two steps. -/
def Session.Undisturbed (s t : Session σ) : Prop :=
  t = s

/-! ### The steps of the end -/

/-- What the player is told of the result of a duel. -/
def resultNotice : Except Failure DuelSummary → String
  | .ok summary => summary.result.line
  | .error e => "Could not load the duel result: " ++ e.wording

/-- A result that was fetched is announced in the words for it. -/
lemma headline_eq_resultNotice (summary : DuelSummary) :
    s!"=== DUEL RESULT: {summary.result.headline} ===" = resultNotice (.ok summary) :=
  summary.result.headline_eq_line

/-- So is the failure to fetch it. -/
lemma message_eq_resultNotice (e : Failure) :
    s!"Could not load the duel result: {e.message}" = resultNotice (.error e) :=
  congrArg ("Could not load the duel result: " ++ ·) e.message_eq_wording

/-- The result that was fetched, if it was. -/
def fetched (answer : Except Failure DuelSummary) : Option DuelResult :=
  answer.toOption.map DuelSummary.result

/-- What ending the session `s` comes to, once the duel is closed with the given outcome: some
effects, an answer to the reader, and the session `t`. -/
structure Ending (venue : Venue σ) (s : Session σ) (outcome : Option Duel) (effects : List Effect)
    (flow : Flow) (t : Session σ) : Prop where
  /-- The reader is told to stop. -/
  flow : flow = .stop
  /-- The followers conclude and are waited for, the session is over, and the audience is told. -/
  effects : ∃ added : List (ℕ × List Entry),
    effects = .raises :: added.map (fun x => .concludes x.1 x.2) ++
      [.gathers (s.lost t), .enters .over] ++
      (s.audience.map (.tells · { duel := outcome, givenUp := (s.lost t).length })).toList
  /-- Only the phase is another one. -/
  standing : t.standing = s.standing.enter .over
  /-- The signal is raised. -/
  raised : t.crew.raised
  /-- All followers were waited for. -/
  joined : t.crew.joined = t.crew.followers.length
  /-- They have ended, but for those that never answer. -/
  ended : ∀ (n : ℕ) (f : Follower), t.crew.followers[n]? = some f → f.hasEnded ∨ venue.hangs n

/-- The effects of taking the end of the duel `d` in the session `s`, in order. `deeds` are what is
done to ask for the result, and `result` what comes of it; `added` is what the followers add to the
transcript when they conclude, each with its number, and `gone` are those that are given up. -/
def finaleEffects (s : Session σ) (d : Duel) (deeds : List Deed)
    (result : Except Failure DuelSummary) (added : List (ℕ × List Entry)) (gone : List ℕ) :
    List Effect :=
  .enters .finishing :: deeds.map .deed ++ [.notifies (resultNotice result), .closes, .raises] ++
    added.map (fun x => .concludes x.1 x.2) ++ [.gathers gone, .enters .over] ++
    (s.audience.map fun audience => .tells audience
      { duel := some { d with result := (fetched result).getD .pending }
        givenUp := gone.length }).toList

/-- What taking the end of the duel `d` in the session `s` comes to: some effects, an answer to the
reader, and the session `t`. -/
structure Finale (venue : Venue σ) (s : Session σ) (d : Duel) (effects : List Effect) (flow : Flow)
    (t : Session σ) : Prop where
  /-- The reader is told to stop. -/
  flow : flow = .stop
  /-- The effects are those that they should be. -/
  effects : ∃ deeds answer added,
    Asked venue.link.base { path := s!"/duels/{d.id}" } deeds answer ∧
    effects = finaleEffects s d deeds (recordOf DuelSummary.ofJson? answer) added (s.lost t)
  /-- The session is over, the duel is cleared, and the followers were told to stop. -/
  standing : t.standing = {
    phase := .over
    duel := none
    active := false
    stopping := true
    history := s.standing.history ++ [.finishing, .over] }
  /-- The signal is raised. -/
  raised : t.crew.raised
  /-- All followers were waited for. -/
  joined : t.crew.joined = t.crew.followers.length
  /-- They have ended, but for those that never answer. -/
  ended : ∀ (n : ℕ) (f : Follower), t.crew.followers[n]? = some f → f.hasEnded ∨ venue.hangs n

namespace Session

open Errand

variable (venue : Venue σ)

/-- The result of a duel is asked for once, and then announced. -/
lemma does_announce (duel : Int64) (s : Session σ) :
    (announce venue duel s).Does Undisturbed (Effect.Leads venue)
      (fun effects result t => ∃ ds answer,
        Asked venue.link.base (.duel duel) ds answer ∧
        result = fetched (recordOf DuelSummary.ofJson? answer) ∧
        effects = ds.map .deed ++
          [.notifies (resultNotice (recordOf DuelSummary.ofJson? answer))] ∧
        ∃ w, t = s.placed w) [] s := by
  have hduel : (venue.link.duel duel s.world).Does (fun _ _ => True) (Deed.Leads venue.link)
      (fun ds result _ => ∃ answer, Asked venue.link.base (.duel duel) ds answer ∧
        result = recordOf DuelSummary.ofJson? answer) [] s.world :=
    venue.link.does_ask_map (.duel duel) _ s.world
  -- nobody acts in between, and so no more than the world of the session changes
  have hasks : ((liftM (venue.link.duel duel) : Errand (Session σ) _) s).Does Undisturbed
      (Effect.Leads venue) (fun effects result t =>
        (∃ ds, effects = ds.map .deed ∧ ∃ answer, Asked venue.link.base (.duel duel) ds answer ∧
          result = recordOf DuelSummary.ofJson? answer) ∧ ∃ w, t = s.placed w) [] s := by
    refine does_placed (fun s _ _ hw => .deeds s hw) ?_ ?_ ⟨s.world, rfl⟩ hduel
    · rintro t w ⟨w', rfl⟩
      exact ⟨w, rfl⟩
    · intro t u ht hu
      rw [hu]
      exact ht
  refine does_bind hasks fun effects result t h => ?_
  obtain ⟨⟨ds, rfl, answer, hasked, rfl⟩, w, rfl⟩ := h
  cases hresult : recordOf DuelSummary.ofJson? answer with
  | error e =>
    refine does_lift_bind [.notifies (resultNotice (.error e))] ?_ fun t ht => ?_
    · rw [← message_eq_resultNotice]
      exact .notifies _ _
    refine does_pure ⟨ds, answer, hasked, by rw [hresult]; rfl, by rw [hresult]; rfl, ?_⟩
    exact ⟨_, ht⟩
  | ok summary =>
    refine does_lift_bind [.notifies (resultNotice (.ok summary))] ?_ fun t ht => ?_
    · rw [← headline_eq_resultNotice]
      exact .notifies _ _
    refine does_pure ⟨ds, answer, hasked, by rw [hresult]; rfl, by rw [hresult]; rfl, ?_⟩
    exact ⟨_, ht⟩

/-- Somebody is to be told. -/
lemma tell_of_eq_some {s : Session σ} {audience : Audience} (h : s.audience = some audience)
    (closing : Closing) :
    tell closing s = ((), { s with audience := none, told := some (audience, closing) }) := by
  obtain ⟨crew, standing, audience', told⟩ := s
  dsimp only at h
  subst h
  rfl

/-- Nobody is to be told. -/
lemma tell_of_eq_none {s : Session σ} (h : s.audience = none) (closing : Closing) :
    tell closing s = ((), s) := by
  obtain ⟨crew, standing, audience, told⟩ := s
  dsimp only at h
  subst h
  rfl

/-- The audience is told, if there is one. -/
lemma leads_tell (s : Session σ) (closing : Closing) :
    Effect.Leads venue s (s.audience.map (Effect.tells · closing)).toList (tell closing s).2 := by
  cases h : s.audience with
  | none =>
    rw [tell_of_eq_none h]
    exact .nothing s
  | some audience =>
    rw [tell_of_eq_some h]
    exact .tells s h closing

/-- All but the audience stays the same when it is told. -/
lemma tell_frame (s : Session σ) (closing : Closing) :
    (tell closing s).2.crew = s.crew ∧ (tell closing s).2.standing = s.standing := by
  cases h : s.audience with
  | none =>
    rw [tell_of_eq_none h]
    exact ⟨rfl, rfl⟩
  | some audience =>
    rw [tell_of_eq_some h]
    exact ⟨rfl, rfl⟩

/-- When the signal is raised the followers conclude, but for those that never answer. -/
lemma exists_raise (s : Session σ) : ∃ (added : List (ℕ × List Entry)) (crew : Crew σ),
    raise venue s = ((), { s with crew }) ∧
    Effect.Leads venue s (.raises :: added.map fun x => .concludes x.1 x.2) { s with crew } ∧
    crew.raised ∧ crew.joined = s.crew.joined ∧
    ∀ (n : ℕ) (f : Follower), crew.followers[n]? = some f → f.hasEnded ∨ venue.hangs n := by
  obtain ⟨added, fs, w, hconcludes, hraise⟩ := Crew.raise_spec venue.link venue.hangs s.crew
  refine ⟨added, { s.crew with raised := true, followers := fs, world := w }, ?_,
    .raises s hconcludes, rfl, rfl, fun n f hf => ?_⟩
  · rw [raise, onCrew, hraise]
  · have hended := hconcludes.hasEnded_or n f hf
    rwa [Nat.zero_add] at hended

/-- Those who have not ended when they are waited for are given up. -/
lemma onCrew_join (s : Session σ) : onCrew Crew.join s = (s.crew.unended.length,
    { s with crew := { s.crew with joined := s.crew.followers.length } }) := by
  rw [onCrew, Crew.join_eq]
  rfl

/-- Once the duel is closed, the followers are stopped and waited for, the session is over, and the
audience is told. -/
lemma does_ending (outcome : Option Duel) (s : Session σ) :
    ((do
      raise venue
      let givenUp ← onCrew (σ := σ) Crew.join
      restand (σ := σ) (Standing.enter .over)
      tell (σ := σ) { duel := outcome, givenUp }
      return .stop : Errand (Session σ) Flow) s).Does Undisturbed (Effect.Leads venue)
    (Ending venue s outcome)
    [] s := by
  obtain ⟨added, crew, hraise, hleads, hraised, hjoined, hended⟩ := exists_raise venue s
  refine does_lift_bind (.raises :: added.map fun x => .concludes x.1 x.2) ?_ fun t ht => ?_
  · rw [hraise]
    exact hleads
  rw [hraise] at ht
  obtain rfl : t = { s with crew } := ht
  refine does_lift_bind [.gathers crew.unended] ?_ fun t ht => ?_
  · rw [onCrew_join]
    exact .gathers { s with crew }
  rw [onCrew_join] at ht ⊢
  obtain rfl : t = { s with crew := { crew with joined := crew.followers.length } } := ht
  refine does_lift_bind [.enters .over] (.enters _ .over) fun t ht => ?_
  obtain rfl : t = { s with
    crew := { crew with joined := crew.followers.length }
    standing := s.standing.enter .over } := ht
  refine does_lift_bind _ (leads_tell venue _ _) fun t ht => ?_
  obtain rfl := ht
  obtain ⟨hcrew, hstanding⟩ := tell_frame { s with
    crew := { crew with joined := crew.followers.length }
    standing := s.standing.enter .over } { duel := outcome, givenUp := crew.unended.length }
  -- the list of those who are given up begins where it began before the signal was raised
  have hlost : s.lost (tell { duel := outcome, givenUp := crew.unended.length } { s with
      crew := { crew with joined := crew.followers.length }
      standing := s.standing.enter .over }).2 = crew.unended := by
    rw [lost, hcrew, Crew.unended, Crew.untaken, hjoined]
    rfl
  refine does_pure ⟨rfl, ⟨added, ?_⟩, hstanding, ?_, ?_, ?_⟩
  · rw [hlost]
    simp
  · rw [hcrew]
    exact hraised
  · rw [hcrew]
  · rw [hcrew]
    exact hended

/-- The end of the duel that is being played is taken as it should be. -/
theorem does_finale {s : Session σ} {d : Duel} (hphase : s.standing.phase = .active)
    (hduel : s.standing.duel = some d) (hpending : d.result = .pending) :
    (take venue (.finished d.id) s).Does Undisturbed (Effect.Leads venue) (Finale venue s d) []
      s := by
  have hover : s.standing.phase ≠ .over := by
    rw [hphase]
    exact Phase.noConfusion
  have hfinish : s.standing.finish? d.id = some (s.standing.enter .finishing) :=
    if_pos ⟨by rw [hduel]; rfl, hphase⟩
  rw [take_finished venue d.id hover]
  refine ⟨[], .nothing s, fun t ht => ?_⟩
  obtain rfl : t = s := ht
  refine does_lift_bind [.enters .finishing] ?_ fun t₁ ht₁ => ?_
  · rw [attempt_of_some hfinish]
    exact .enters t .finishing
  rw [attempt_of_some hfinish] at ht₁ ⊢
  obtain rfl : t₁ = { t with standing := t.standing.enter .finishing } := ht₁
  refine does_bind (does_announce venue d.id _) fun effects result t₂ h => ?_
  obtain ⟨deeds, answer, hasked, rfl, rfl, w, rfl⟩ := h
  -- the duel goes down with the result that was fetched
  have houtcome : (t.standing.enter .finishing).outcome
      (fetched (recordOf DuelSummary.ofJson? answer)) = some { d with
        result := (fetched (recordOf DuelSummary.ofJson? answer)).getD .pending } := by
    have hduel' : (t.standing.enter .finishing).duel = some d := hduel
    rw [Standing.outcome, hduel', ← hpending]
    rfl
  refine does_lift_bind [.closes] (.closes _) fun t₃ ht₃ => ?_
  obtain rfl : t₃ = { t with
    crew := { t.crew with world := w }
    standing := (t.standing.enter .finishing).close } := ht₃
  have hending := (does_ending venue ((t.standing.enter .finishing).outcome
      (fetched (recordOf DuelSummary.ofJson? answer))) { t with
    crew := { t.crew with world := w }
    standing := (t.standing.enter .finishing).close }).after ([.enters .finishing] ++
      (deeds.map .deed ++ [.notifies (resultNotice (recordOf DuelSummary.ofJson? answer))]) ++
      [.closes])
  rw [List.append_nil] at hending
  refine hending.imp fun effects flow u h => ?_
  obtain ⟨new, rfl, h⟩ := h
  obtain ⟨added, rfl⟩ := h.effects
  refine ⟨h.flow, ⟨deeds, answer, added, hasked, ?_⟩, ?_, h.raised, h.joined, h.ended⟩
  · rw [houtcome, finaleEffects]
    simp only [List.append_assoc, List.cons_append, List.nil_append]
    rfl
  · rw [h.standing]
    simp [Standing.enter, Standing.close]

end Session

/-- Whoever has ended stays so. -/
lemma Effect.Leads.hasEnded_mono {venue : Venue σ} {s t : Session σ} {effects : List Effect}
    (h : Effect.Leads venue s effects t) {n : ℕ} (hn : s.crew.hasEnded n) : t.crew.hasEnded n := by
  induction h with
  | raises s hconcludes =>
    obtain ⟨f, hf, hended⟩ := Crew.hasEnded_iff.mp hn
    exact Crew.hasEnded_iff.mpr ⟨f, hconcludes.hasEnded_mono n f hf hended, hended⟩
  | append _ _ ih ih' => exact ih' (ih hn)
  | _ => exact hn

/-! ### What is left of a session -/

/-- The session is over, and all followers have ended but some that never answer, which were given
up. -/
structure Session.Rested (venue : Venue σ) (gone : List ℕ) (s : Session σ) : Prop where
  /-- The session is over. -/
  phase : s.standing.phase = .over
  /-- The followers were told to stop. -/
  stopping : s.standing.stopping
  /-- The signal is raised. -/
  raised : s.crew.raised
  /-- All followers were waited for. -/
  joined : s.crew.joined = s.crew.followers.length
  /-- They have ended, or never answer and were given up. -/
  ended : ∀ (n : ℕ) (f : Follower), s.crew.followers[n]? = some f →
    f.hasEnded ∨ venue.hangs n ∧ n ∈ gone

namespace Session.Rested

open Errand

variable {venue : Venue σ} {gone : List ℕ} {s t : Session σ}

/-- To raise the signal once more does nothing. -/
lemma raise_eq (h : s.Rested venue gone) : raise venue s = ((), s) := by
  obtain ⟨added, fs, w, hconcludes, hraise⟩ := Crew.raise_spec venue.link venue.hangs s.crew
  obtain ⟨-, rfl, rfl⟩ := hconcludes.eq_of_hasEnded_or fun n f hf => by
    rw [Nat.zero_add]
    exact (h.ended n f hf).imp_right And.left
  have hcrew : { s.crew with raised := true } = s.crew := by rw [← h.raised]
  rw [raise, onCrew, hraise, hcrew]

/-- Nor does it to wait for the followers once more. -/
lemma join_eq (h : s.Rested venue gone) : (onCrew Crew.join s).2 = s := by
  have hcrew : { s.crew with joined := s.crew.followers.length } = s.crew := by rw [← h.joined]
  rw [onCrew_join, hcrew]

/-- To leave does nothing. -/
lemma leave_eq (h : s.Rested venue gone) : restand Standing.leave s = ((), s) := by
  have hstanding : s.standing.leave = s.standing := by rw [Standing.leave, ← h.stopping]
  have hrestand : restand Standing.leave s = ((), { s with standing := s.standing.leave }) := rfl
  rw [hrestand, hstanding]

/-- Whatever is done, nothing is changed, unless a follower is polled that was given up, or
something else is done in the world. -/
theorem eq_of_comesTo (h : s.Rested venue gone) {op : Operation σ}
    (hother : ∀ act, op ≠ .other act) (hpoll : ∀ n ∈ gone, op ≠ .poll n)
    (hop : (op.errand venue s).ComesTo () t) : t = s := by
  have hends : (op.errand venue s).Ends Undisturbed fun _ t => t = s := by
    cases op with
    | queue =>
      have hnone : s.standing.joinQueue? = none := if_neg (by rw [h.phase]; exact Phase.noConfusion)
      refine ends_bind (ends_lift_bind fun t ht => ?_) fun _ t ht => ht
      rw [attempt_of_none hnone] at ht ⊢
      exact ht
    | event e =>
      refine ends_bind ?_ fun _ t ht => ht
      rw [take_of_over venue e h.phase]
      exact fun t ht => ht
    | submit path =>
      refine ends_bind (ends_lift_bind fun t ht => ?_) fun _ t ht => ht
      have haccepting : s.standing.accepting? = none := by
        rw [Standing.accepting?, if_neg]
        rintro ⟨-, hactive⟩
        cases h.phase.symm.trans hactive
      have hget : (MonadStateOf.get : Play σ (Session σ)) s = (s, s) := rfl
      rw [hget] at ht ⊢
      simp only [checkSolution, haccepting]
      exact ht
    | leave =>
      refine ends_bind (ends_lift_bind fun t ht => ends_lift_bind fun u hu => ?_) fun _ t ht => ht
      rw [h.leave_eq] at ht
      -- the signal is raised already, and nobody is left to be waited for
      obtain rfl : t = s := ht
      rw [h.raise_eq] at hu
      obtain rfl : u = t := hu
      intro v hv
      have hjoin : (onCrew Crew.join u).2.Undisturbed v := hv
      rw [h.join_eq] at hjoin
      exact hjoin
    | raise =>
      intro t ht
      rw [h.raise_eq] at ht
      exact ht
    | poll n =>
      refine ends_bind (fun t ht => ?_) fun _ t ht => ht
      -- a follower moves only as long as it has not ended, and those were given up
      rcases Crew.move_cases venue.link s.crew n with hsame | ⟨f, hf, hended, -⟩
      · rw [onCrew, hsame] at ht
        exact ht
      · rcases h.ended n f hf with hended' | ⟨-, hgone⟩
        · cases hended.symm.trans hended'
        · exact absurd rfl (hpoll n hgone)
    | other act => exact absurd rfl (hother act)
  exact hop.ends hends fun _ => rfl

/-- What is done by others does not matter. -/
lemma of_crew (h : s.Rested venue gone) (hstanding : t.standing = s.standing)
    (hraised : t.crew.raised = s.crew.raised) (hjoined : t.crew.joined = s.crew.joined)
    (hfollowers : t.crew.followers = s.crew.followers) : t.Rested venue gone where
  phase := by rw [hstanding, h.phase]
  stopping := by rw [hstanding, h.stopping]
  raised := by rw [hraised, h.raised]
  joined := by rw [hjoined, hfollowers, h.joined]
  ended := by rw [hfollowers]; exact h.ended

/-- A session at rest stays so when a follower is polled. -/
lemma poll (h : s.Rested venue gone) (n : ℕ) :
    (onCrew (Crew.move venue.link n) s).2.Rested venue gone := by
  rcases Crew.move_cases venue.link s.crew n with hsame | ⟨f, hf, hended, w, f', hnew⟩
  · rw [onCrew, hsame]
    exact h
  · rw [onCrew, hnew]
    refine ⟨h.phase, h.stopping, h.raised, ?_, fun m g hg => ?_⟩
    · rw [List.length_set]
      exact h.joined
    · by_cases hm : n = m
      · subst hm
        rcases h.ended n f hf with hended' | hgone
        · cases hended.symm.trans hended'
        · exact .inr hgone
      · rw [List.getElem?_set_ne hm] at hg
        exact h.ended m g hg

/-- A session at rest stays so, whatever is done. -/
theorem next (h : s.Rested venue gone) {turn : Turn σ} (hturn : turn.Leads venue s t) :
    t.Rested venue gone := by
  cases turn with
  | opens number =>
    obtain rfl : t = (openPrompt number s).2 := hturn
    exact h.of_crew rfl rfl rfl rfl
  | does op =>
    -- followers that were given up may go on; whatever else is done leads nowhere
    by_cases hother : ∃ act, op = .other act
    · obtain ⟨act, rfl⟩ := hother
      cases hturn with
      | going _ _ hdone =>
        cases hdone
        exact h.of_crew rfl rfl rfl rfl
    by_cases hpoll : ∃ n, op = .poll n
    · obtain ⟨n, rfl⟩ := hpoll
      obtain ⟨moved, u, hmove, hdone⟩ := Progress.ComesTo.of_andThen hturn
      cases hdone
      cases hmove with
      | going _ _ hmoved =>
        cases hmoved
        exact h.poll n
    rw [h.eq_of_comesTo (fun act hact => hother ⟨act, hact⟩) (fun n _ hn => hpoll ⟨n, hn⟩) hturn]
    exact h

end Session.Rested

/-! ### The main statement -/

namespace Playthrough

variable {p : Playthrough σ} {m n : ℕ}

/-- The end of the duel that is being played comes to what it should come to. -/
lemma exists_finale {d : Duel} (hphase : (p.session n).standing.phase = .active)
    (hduel : (p.session n).standing.duel = some d) {flow : Flow} {t : Session σ}
    (h : (Session.take p.venue (.finished d.id) (p.session n)).ComesTo flow t) :
    ∃ effects, Effect.Leads p.venue (p.session n) effects t ∧
      Finale p.venue (p.session n) d effects flow t := by
  have hpending : d.result = .pending := (sound n).pending d hduel
  exact h.does (Session.does_finale p.venue hphase hduel hpending) (fun _ => rfl) .nothing
    fun _ _ _ _ _ h h' => h.append h'

/-- So does the turn in which it is taken. -/
lemma Finishes.exists_finale (h : p.Finishes n) : ∃ d effects flow,
    Effect.Leads p.venue (p.session n) effects (p.session (n + 1)) ∧
      Finale p.venue (p.session n) d effects flow (p.session (n + 1)) := by
  obtain ⟨d, hphase, hduel, hturn⟩ := h
  obtain ⟨flow, htake⟩ := comesTo_take hturn
  obtain ⟨effects, hleads, hfinale⟩ := Playthrough.exists_finale hphase hduel htake
  exact ⟨d, effects, flow, hleads, hfinale⟩

/-- Whoever has ended stays so. -/
lemma hasEnded_succ {k : ℕ} (h : (p.session n).crew.hasEnded k) :
    (p.session (n + 1)).crew.hasEnded k := by
  by_cases hn : p.Finishes n
  · obtain ⟨d, effects, flow, hleads, -⟩ := hn.exists_finale
    exact hleads.hasEnded_mono h
  · cases hturn : p.turn n with
    | does op => exact (ages hn hturn).hasEnded k h
    | opens number =>
      rw [session_of_opens hturn]
      exact h

/-- Whoever was waited for has ended, or was given up. -/
theorem ended_or_givenUp (n : ℕ) {k : ℕ} (hk : k < (p.session n).crew.joined) :
    (p.session n).crew.hasEnded k ∨ k ∈ p.givenUp n := by
  induction n with
  | zero =>
    obtain ⟨service, tokens, audience, hbegins⟩ := p.begins
    rw [hbegins] at hk
    exact absurd hk (Nat.not_lt_zero k)
  | succ n ih =>
    rw [givenUp_succ]
    by_cases hbefore : k < (p.session n).crew.joined
    · rcases ih hbefore with hended | hgone
      · exact .inl (hasEnded_succ hended)
      · exact .inr (List.mem_append_left _ hgone)
    · by_cases hended : (p.session (n + 1)).crew.hasEnded k
      · exact .inl hended
      · refine .inr (List.mem_append_right _ ?_)
        rw [Session.lost, List.mem_filter, List.mem_range'_1]
        exact ⟨by omega, by simpa using hended⟩

/-- After the end of the duel the session is at rest. -/
lemma Finishes.rested (h : p.Finishes m) (hmn : m < n) :
    (p.session n).Rested p.venue (p.givenUp (m + 1)) := by
  induction n, hmn using Nat.le_induction with
  | base =>
    obtain ⟨d, effects, flow, -, hfinale⟩ := h.exists_finale
    refine ⟨by rw [hfinale.standing], by rw [hfinale.standing], hfinale.raised, hfinale.joined,
      fun k f hf => ?_⟩
    have hk : k < (p.session (m + 1)).crew.joined := by
      rw [hfinale.joined]
      exact (List.getElem?_eq_some_iff.mp hf).1
    rcases ended_or_givenUp (m + 1) hk with hended | hgone
    · obtain ⟨g, hg, hended⟩ := Crew.hasEnded_iff.mp hended
      obtain rfl := Option.some.inj (hf.symm.trans hg)
      exact .inl hended
    · exact (hfinale.ended k f hf).imp_right fun hhangs => ⟨hhangs, hgone⟩
  | succ n _ ih => exact ih.next (p.goes n)

/-- How a session ends that is played through.

The end of the duel that is being played, whenever it comes, is taken to its end, and in this order:
the result is asked for, and announced or said to be missing; the duel is cleared, and the flags are
set; the signal is raised, and the followers that answer conclude; they are waited for; the session
is over; and whoever is to be told of the end is told, with the duel, its result if it was fetched,
and the number of followers that were given up. The reader is told to stop.

Nobody is told at any other time, and the end is taken only once. After that, whatever is done
leaves the session as it is, unless a follower is polled that was given up, or something else is
done in the world. -/
theorem finale (p : Playthrough σ) :
    (∀ n, (p.session n).standing.phase = .active → ∃ d, (p.session n).standing.duel = some d ∧
      let taken := Session.take p.venue (.finished d.id) (p.session n)
      (∃ flow t, taken.ComesTo flow t) ∧
      ∀ flow t, taken.ComesTo flow t → ∃ effects, Effect.Leads p.venue (p.session n) effects t ∧
        Finale p.venue (p.session n) d effects flow t) ∧
    (∀ n, ¬p.Finishes n → (p.session (n + 1)).told = (p.session n).told ∧
      ∀ op, p.turn n = .does op → (p.session (n + 1)).audience = (p.session n).audience) ∧
    (∀ m n, p.Finishes m → p.Finishes n → m = n) ∧
    ∀ m n op, p.Finishes m → m < n → p.turn n = .does op → (∀ act, op ≠ .other act) →
      (∀ k ∈ p.givenUp (m + 1), op ≠ .poll k) → p.session (n + 1) = p.session n := by
  refine ⟨fun n hphase => ?_, ?_, ?_, ?_⟩
  · obtain ⟨d, hduel⟩ := Option.isSome_iff_exists.mp ((sound n).duel hphase)
    have hcomes := Progress.comesTo_drain {} (Session.take p.venue (.finished d.id) (p.session n))
    exact ⟨d, hduel, ⟨_, _, hcomes⟩, fun flow t h => exists_finale hphase hduel h⟩
  · intro n hn
    cases hturn : p.turn n with
    | does op =>
      have hvoice := (ages hn hturn).voice
      exact ⟨congrArg Voice.told hvoice, fun _ _ => congrArg Voice.audience hvoice⟩
    | opens number =>
      rw [session_of_opens hturn]
      exact ⟨rfl, fun op hop => by cases hop⟩
  · intro m n hm hn
    -- once a duel was finished the session is over, and no duel is active
    have hafter {m n : ℕ} (hm : p.Finishes m) (hn : p.Finishes n) : ¬m < n := fun hmn => by
      obtain ⟨d, hphase, -⟩ := hn
      cases hphase.symm.trans (hm.rested hmn).phase
    have hmn := hafter hm hn
    have hnm := hafter hn hm
    omega
  · intro m n op hm hmn hturn hother hpoll
    have hgoes := p.goes n
    rw [hturn] at hgoes
    exact (hm.rested hmn).eq_of_comesTo hother hpoll hgoes

/-! ### An evening -/

/-- A service that gives the number 5 to every submission, never has a verdict, and says that the
duel was won. -/
def lenient : Link Unit where
  base := ""
  answer r _ :=
    let text := if r.method = .post then "[5]"
      else if r.url = "/duels/7" then "[7,\"t\",9,\"Win\"]" else "[\"Running\"]"
    (.ok { status := 200, body := .whole { bytes := text.toList.map (·.toNat.toUInt8) } }, ())

/-- Where a solution can be handed in, and where the second follower never answers. -/
def table : Venue Unit where
  link := lenient
  files := { entries := [({ names := ["a.py"] }, .file [])] }
  hangs n := n == 1

/-- A duel in which a solution is handed in twice. After its end both followers are polled. -/
def evening : Playthrough Unit :=
  .of table () { access := "a1", refresh := "r1" } fun n =>
    .does (([.queue, .event (.started 7 none none), .submit "a.py", .submit "a.py", .poll 0,
      .event (.finished 7), .poll 0, .poll 1] : List (Operation Unit)).getD n .leave)

/-- The duel ends with the sixth turn, and the first follower has nothing to do in the next one. -/
theorem finale_evening :
    evening.Finishes 5 ∧
    (evening.session 6).world.lines = (evening.session 5).world.lines ++
      [.notify "=== DUEL RESULT: VICTORY! ==="] ∧
    (evening.session 6).world.exchanges.map (·.1.url) =
      (evening.session 5).world.exchanges.map (·.1.url) ++
        ["/duels/7", "/duels/7/submissions/5"] ∧
    (evening.session 6).told = some (.host, {
      duel := some { id := 7, opponent := some 9, task := some "t", result := .win }
      givenUp := 1 }) ∧
    evening.givenUp 6 = [1] ∧ evening.session 7 = evening.session 6 := by
  have hphase : (evening.session 5).standing.phase = .active := by decide +kernel
  have hduel : (evening.session 5).standing.duel =
      some { id := 7, opponent := some 9, task := some "t" } := by decide +kernel
  have hfinishes : evening.Finishes 5 := ⟨_, hphase, hduel, rfl⟩
  have hgivenUp : evening.givenUp 6 = [1] := by decide +kernel
  refine ⟨hfinishes, by decide +kernel, by decide +kernel, by decide +kernel, hgivenUp, ?_⟩
  refine evening.finale.2.2.2 5 6 (.poll 0) hfinishes (by decide) rfl (fun _ => nofun) ?_
  rw [hgivenUp]
  intro k hk
  rw [List.mem_singleton.mp hk]
  exact fun h => by cases h

end Playthrough
end Duelist
