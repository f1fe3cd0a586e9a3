import Duelist.Proofs.Expiry
import Duelist.Proofs.Audience
import Duelist.Proofs.Lifecycle
import Duelist.Proofs.Reliance
/-!
# Stale events

An event concerns a session only if it begins a duel while the player waits in the queue, or ends
the duel that is being played (`Standing.Concerns`). All others are stale: starts that come twice,
ends of other duels, ends before the start, whatever comes after the end.

Of a session only its `Track` matters here: the phase, the phases before it, and the number of the
duel. Nobody but those who join the queue or take events has to do with it
(`Operation.abides_track`), and to take an event is one transition of it (`Track.next`). The main
statement is `Session.stale_events`: a stale event changes nothing, and taking several events one
after the other leads from the queue to where the first start and the first end that belongs to it
lead (`Track.expected`).
-/

namespace Duelist

variable {σ α : Type}

/-! ### Tracks -/

/-- True of an event that means something to a player with the given standing. -/
def Standing.Concerns (s : Standing) : Event → Prop
  | .started _ _ _ => s.phase = .queued
  | .finished duel => s.phase = .active ∧ s.duel.map Duel.id = some duel

/-- What events have to do with. -/
structure Track where
  /-- The phase. -/
  phase : Phase
  /-- Every phase so far, the oldest first. -/
  history : List Phase
  /-- The number of the duel. -/
  duel : Option Int64
  deriving DecidableEq

/-- The track of a session. -/
def Session.track (s : Session σ) : Track where
  phase := s.standing.phase
  history := s.standing.history
  duel := s.standing.duel.map Duel.id

namespace Track

/-- The track after an event. -/
def next (t : Track) : Event → Track
  | .started duel _ _ =>
    if t.phase = .queued then
      { phase := .active, history := t.history ++ [.active], duel := some duel }
    else t
  | .finished duel =>
    if t.phase = .active ∧ t.duel = some duel then
      { phase := .over, history := t.history ++ [.finishing, .over], duel := none }
    else t

/-- The first start among some events: the duel, and the events after it. -/
def firstStart? : List Event → Option (Int64 × List Event)
  | [] => none
  | .started duel _ _ :: later => some (duel, later)
  | .finished _ :: later => firstStart? later

/-- Where a player in the queue is led by some events: the first start begins a duel, which is over
with the first end of it after that. -/
def expected (events : List Event) : Track :=
  match firstStart? events with
  | none => { phase := .queued, history := Phase.queued.upTo, duel := none }
  | some (duel, later) =>
    if .finished duel ∈ later then
      { phase := .over, history := Phase.over.upTo, duel := none }
    else { phase := .active, history := Phase.active.upTo, duel := some duel }

/-- Once the session is over, no event leads anywhere. -/
lemma foldl_next_of_over {t : Track} (h : t.phase = .over) (events : List Event) :
    events.foldl next t = t := by
  induction events with
  | nil => rfl
  | cons e events ih =>
    have hnext : t.next e = t := by cases e <;> simp [next, h]
    rw [List.foldl_cons, hnext, ih]

/-- In the duel `duel` only its end matters. -/
lemma foldl_next_of_active (duel : Int64) (events : List Event) :
    events.foldl next { phase := .active, history := Phase.active.upTo, duel := some duel } =
      if .finished duel ∈ events then
        { phase := .over, history := Phase.over.upTo, duel := none }
      else { phase := .active, history := Phase.active.upTo, duel := some duel } := by
  induction events with
  | nil => rfl
  | cons e events ih =>
    rw [List.foldl_cons]
    -- the first end of this very duel decides, and everything before it is stale
    by_cases he : e = .finished duel
    · have hnext : next { phase := .active, history := Phase.active.upTo, duel := some duel } e =
          { phase := .over, history := Phase.over.upTo, duel := none } := by
        simp [he, next, Phase.upTo]
      rw [hnext, he, if_pos List.mem_cons_self]
      exact foldl_next_of_over rfl events
    · have hnext : next { phase := .active, history := Phase.active.upTo, duel := some duel } e =
          { phase := .active, history := Phase.active.upTo, duel := some duel } := by
        cases e with
        | started => rfl
        | finished other =>
          have hother : duel ≠ other := fun h => he (h ▸ rfl)
          simp [next, hother]
      have hmem : .finished duel ∈ e :: events ↔ .finished duel ∈ events := by
        simp [Ne.symm he]
      rw [hnext, ih]
      simp only [hmem]

/-- One transition after the other leads to where it should. -/
lemma foldl_next_eq_expected (events : List Event) :
    events.foldl next { phase := .queued, history := Phase.queued.upTo, duel := none } =
      expected events := by
  induction events with
  | nil => rfl
  | cons e events ih =>
    cases e with
    | started duel opponent task => exact foldl_next_of_active duel events
    | finished duel => exact ih

end Track

/-! ### Steps that leave the track alone -/

namespace Errand

/-- What is done with the crew has nothing to do with the track. -/
lemma abides_track_onCrew (act : StateM (Crew σ) α) :
    (lift (Session.onCrew act)).Abides Session.track Eq :=
  abides_lift fun _ => rfl

/-- What is done in the world has nothing to do with the track. -/
lemma abides_track_world (e : Errand (World σ) α) :
    (liftM e : Errand (Session σ) α).Abides Session.track Eq :=
  abides_placed (fun _ => rfl) (fun _ _ => rfl) e

end Errand

namespace Session

open Errand

variable (venue : Venue σ)

/-- What is learned about a duel is off the track. -/
lemma track_learn (opponent : Int64) (task : String) (s : Session σ) :
    s.track = (restand (Standing.learn opponent task) s).2.track := by
  have hduel : s.standing.duel.map Duel.id =
      (s.standing.learn opponent task).duel.map Duel.id := by
    rw [Standing.learn, Option.map_map]
    rfl
  exact congrArg (Track.mk s.standing.phase s.standing.history) hduel

/-- To present a duel leaves the track alone. -/
lemma abides_track_present (duel : Int64) : (present venue duel).Abides track Eq := by
  refine abides_bind (abides_track_world _) fun summary => ?_
  cases summary with
  | error e => exact abides_track_onCrew _
  | ok summary =>
    refine abides_bind (abides_lift (track_learn _ _)) fun _ => ?_
    refine abides_bind (abides_track_world _) fun player => ?_
    refine abides_bind (abides_track_onCrew _) fun _ => ?_
    refine abides_bind (abides_track_world _) fun sheet => ?_
    cases sheet with
    | error e => exact abides_track_onCrew _
    | ok sheet => exact abides_track_onCrew _

/-- To announce the result of a duel leaves the track alone. -/
lemma abides_track_announce (duel : Int64) : (announce venue duel).Abides track Eq := by
  refine abides_bind (abides_track_world _) fun summary => ?_
  cases summary with
  | error e => exact abides_bind (abides_track_onCrew _) fun _ => abides_pure _
  | ok summary => exact abides_bind (abides_track_onCrew _) fun _ => abides_pure _

/-- To tell how the session ends leaves the track alone. -/
lemma track_tell (closing : Closing) (s : Session σ) : s.track = (tell closing s).2.track := by
  obtain ⟨crew, standing, audience, told⟩ := s
  cases audience <;> rfl

/-- To hand in a solution leaves the track alone. -/
lemma abides_track_handingIn (path : String) : (handingIn venue path).Abides track Eq := by
  refine abides_bind (abides_lift fun _ => rfl) fun s => ?_
  split
  · exact abides_pure _
  refine abides_bind (abides_track_world _) fun result => ?_
  cases result with
  | error e => exact abides_pure _
  | ok submission =>
    refine abides_bind (abides_track_onCrew _) fun _ => ?_
    refine abides_bind (abides_track_onCrew _) fun followed => ?_
    cases followed with
    | true => exact abides_pure _
    | false => exact abides_bind (abides_track_onCrew _) fun _ => abides_pure _

/-- Leaving leaves the track alone: the followers are not on it. -/
lemma abides_track_leaving : (leaving venue).Abides track Eq := by
  refine abides_bind (abides_lift fun _ => rfl) fun _ => ?_
  exact abides_bind (abides_track_onCrew _) fun _ => abides_track_onCrew _

end Session

/-- Nobody but those who join the queue or take events has to do with the track. -/
theorem Operation.abides_track (venue : Venue σ) {op : Operation σ} (hqueue : op ≠ .queue)
    (hevent : ∀ e, op ≠ .event e) : (op.errand venue).Abides Session.track Eq := by
  cases op with
  | queue => exact absurd rfl hqueue
  | event e => exact absurd rfl (hevent e)
  | submit path =>
    exact Errand.abides_bind (Session.abides_track_handingIn venue path) fun _ =>
      Errand.abides_pure _
  | leave =>
    exact Errand.abides_bind (Session.abides_track_leaving venue) fun _ => Errand.abides_pure _
  | raise => exact Errand.abides_track_onCrew _
  | poll n => exact Errand.abides_bind (Errand.abides_track_onCrew _) fun _ => Errand.abides_pure _
  | other act => exact Errand.abides_track_onCrew _

/-! ### Events that concern the session -/

/-- What others have to do who leave the track alone. -/
def Session.SameTrack (s t : Session σ) : Prop :=
  t.track = s.track

/-- Steps that leave the track alone, made among others who do so too. -/
lemma Progress.Abides.ends {p : Progress (Session σ) α} {v : Track}
    (h : p.Abides Session.track Eq v) : p.Ends Session.SameTrack fun _ t => t.track = v := by
  induction p generalizing v with
  | done a s => exact h
  | going s next ih => exact fun t ht => ih t (by rw [h.1, ← ht]; exact h.2 t)
  | waiting s resume ih => exact fun c t ht => ih c t (by rw [h.1, ← ht]; exact h.2 c t)

namespace Session

open Errand

variable (venue : Venue σ)

/-- A change that is not possible is not made. -/
lemma attempt_of_none {change : Standing → Option Standing} {s : Session σ}
    (h : change s.standing = none) : attempt change s = (false, s) := by
  rw [attempt, h]

/-- A change that is possible is made. -/
lemma attempt_of_some {change : Standing → Option Standing} {s : Session σ} {standing : Standing}
    (h : change s.standing = some standing) : attempt change s = (true, { s with standing }) := by
  rw [attempt, h]

/-- The start of a duel leads to where it leads on the track, as long as others leave the track
alone. -/
lemma ends_started (duel : Int64) (opponent : Option Int64) (task : Option String)
    (s : Session σ) : (started venue duel opponent task s).Ends SameTrack fun _ t =>
      t.track = s.track.next (.started duel opponent task) := by
  refine ends_lift_bind fun t ht => ?_
  cases hbegin : s.standing.begin? duel opponent task with
  | none =>
    have hphase : s.track.phase ≠ .queued := by
      intro hqueued
      cases hbegin.symm.trans (if_pos hqueued)
    rw [attempt_of_none hbegin] at ht ⊢
    rw [Track.next, if_neg hphase]
    exact ht
  | some standing =>
    obtain ⟨hphase, rfl⟩ := Standing.begin?_eq_some hbegin
    rw [attempt_of_some hbegin] at ht ⊢
    have hnext : t.track = s.track.next (.started duel opponent task) := by
      rw [Track.next, if_pos (show s.track.phase = .queued from hphase)]
      exact ht
    rw [← hnext]
    refine (Errand.abides_bind (abides_track_onCrew _) fun _ => ?_ : Errand.Abides _ _ _) t |>.ends
    refine abides_bind (abides_track_present venue duel) fun _ => ?_
    exact abides_bind (abides_track_onCrew _) fun _ => abides_pure _

/-- So does the end of a duel. -/
lemma ends_finished (duel : Int64) (s : Session σ) :
    (finished venue duel s).Ends SameTrack fun _ t =>
      t.track = s.track.next (.finished duel) := by
  refine ends_lift_bind fun t ht => ?_
  cases hfinish : s.standing.finish? duel with
  | none =>
    have hother : ¬(s.track.phase = .active ∧ s.track.duel = some duel) := by
      intro h
      cases hfinish.symm.trans (if_pos h.symm)
    rw [attempt_of_none hfinish] at ht ⊢
    rw [Track.next, if_neg hother]
    exact ht
  | some standing =>
    obtain ⟨hduel, hphase, rfl⟩ := Standing.finish?_eq_some hfinish
    rw [attempt_of_some hfinish] at ht ⊢
    rw [Track.next, if_pos (show s.track.phase = .active ∧ s.track.duel = some duel from
      ⟨hphase, hduel⟩)]
    refine ends_bind (abides_track_announce venue duel t).ends fun result t₁ ht₁ => ?_
    refine ends_lift_bind fun t₂ ht₂ => ?_
    refine ends_lift_bind fun t₃ ht₃ => ?_
    refine ends_lift_bind fun t₄ ht₄ => ?_
    refine ends_lift_bind fun t₅ ht₅ => ?_
    refine ends_lift_bind fun t₆ ht₆ => ?_
    -- of the six steps after the first one, one clears the duel and one changes the phase
    have hfinishing : t.track = { s.track with
      phase := .finishing, history := s.track.history ++ [.finishing] } := ht
    have hclosed : t₂.track = { t₁.track with duel := none } := ht₂
    have hstopped : t₄.track = t₂.track := ht₄.trans ht₃
    have hover : t₅.track = { t₄.track with
      phase := .over, history := t₄.track.history ++ [.over] } := ht₅
    have htold : t₆.track = t₅.track := ht₆.trans (track_tell _ t₅).symm
    change t₆.track = _
    rw [htold, hover, hstopped, hclosed, ht₁, hfinishing, List.append_assoc]
    rfl

/-- To take an event of a session that is over. -/
lemma take_of_over (e : Event) {s : Session σ} (h : s.standing.phase = .over) :
    take venue e s = .going s (.done .stop) :=
  congrArg (Progress.going s) (if_pos h)

/-- To take the start of a duel. -/
lemma take_started (duel : Int64) (opponent : Option Int64) (task : Option String) {s : Session σ}
    (h : s.standing.phase ≠ .over) : take venue (.started duel opponent task) s =
      .going s (started venue duel opponent task) :=
  congrArg (Progress.going s) (if_neg h)

/-- To take the end of a duel. -/
lemma take_finished (duel : Int64) {s : Session σ} (h : s.standing.phase ≠ .over) :
    take venue (.finished duel) s = .going s (finished venue duel) :=
  congrArg (Progress.going s) (if_neg h)

/-- To take an event is one transition of the track. -/
theorem ends_take (e : Event) (s : Session σ) :
    (take venue e s).Ends SameTrack fun _ t => t.track = s.track.next e := by
  by_cases hover : s.standing.phase = .over
  · have hphase : s.track.phase = .over := hover
    have hnext : s.track.next e = s.track := by
      cases e <;> simp [Track.next, hphase]
    rw [take_of_over venue e hover, hnext]
    exact fun t ht => ht
  · cases e with
    | started duel opponent task =>
      rw [take_started venue duel opponent task hover]
      intro t ht
      rw [← show t.track = s.track from ht]
      exact ends_started venue duel opponent task t
    | finished duel =>
      rw [take_finished venue duel hover]
      intro t ht
      rw [← show t.track = s.track from ht]
      exact ends_finished venue duel t

/-- Takes events, one after the other. -/
def takeAll : List Event → Errand (Session σ) Unit
  | [] => return ()
  | e :: events => do
    let _ ← take venue e
    takeAll events

/-- To take several events is one transition after the other. -/
lemma ends_takeAll (events : List Event) (s : Session σ) :
    (takeAll venue events s).Ends SameTrack fun _ t =>
      t.track = events.foldl Track.next s.track := by
  induction events generalizing s with
  | nil => exact rfl
  | cons e events ih =>
    refine ends_bind (ends_take venue e s) fun _ t ht => ?_
    rw [List.foldl_cons, ← ht]
    exact ih t

/-! ### Events that do not -/

/-- What a stale event is answered with. -/
def staleFlow (s : Session σ) : Flow :=
  if s.standing.phase = .over then .stop else .proceed

/-- An event that turns out to be stale is passed over. -/
lemma does_attempt_of_none {rely : Session σ → Session σ → Prop}
    {change : Standing → Option Standing} {rest : Errand (Session σ) Flow} {s : Session σ}
    (h : change s.standing = none) :
    ((do if ← attempt (σ := σ) change then rest else return .proceed : Errand (Session σ) Flow)
      s).Does rely (fun v (_ : List Empty) t => t = v) (fun _ flow _ => flow = .proceed) [] s := by
  refine does_lift_bind [] ?_ fun t _ => ?_
  · rw [attempt_of_none h]
  · rw [attempt_of_none h]
    exact ⟨rfl, rfl⟩

/-- What others have to do who leave a stale event stale. -/
def StaysStale (e : Event) (s t : Session σ) : Prop :=
  ¬s.standing.Concerns e → ¬t.standing.Concerns e

/-- A stale event is taken without doing anything, as long as it stays stale. -/
lemma does_take_of_stale (e : Event) (s : Session σ) (h : ¬s.standing.Concerns e) :
    (take venue e s).Does (StaysStale e) (fun v (_ : List Empty) t => t = v)
      (fun _ flow _ => flow = staleFlow s) [] s := by
  by_cases hover : s.standing.phase = .over
  · rw [take_of_over venue e hover]
    exact ⟨[], rfl, fun t _ => ⟨rfl, (if_pos hover).symm⟩⟩
  · have hflow : staleFlow s = .proceed := if_neg hover
    rw [hflow]
    cases e with
    | started duel opponent task =>
      rw [take_started venue duel opponent task hover]
      exact ⟨[], rfl, fun t ht => does_attempt_of_none (if_neg (ht h))⟩
    | finished duel =>
      rw [take_finished venue duel hover]
      exact ⟨[], rfl, fun t ht => does_attempt_of_none (if_neg fun h' => ht h h'.symm)⟩

/-! ### The main statement -/

/-- The track of a player who waits in the queue. -/
lemma track_of_queued (service : σ) (tokens : Tokens) (xs : List (Happening σ))
    (h : ((Scene.begin service tokens).run venue xs).session.standing.phase = .queued) :
    ((Scene.begin service tokens).run venue xs).session.track =
      { phase := .queued, history := Phase.queued.upTo, duel := none } := by
  have hsound := ((Scene.calm_begin service tokens).run venue xs).1.sound
  generalize ((Scene.begin service tokens).run venue xs).session = s at h hsound
  have hphase : s.snapshot.standing.phase = .queued := h
  have hnone : s.standing.duel = none := by
    cases hduel : s.standing.duel with
    | none => rfl
    | some d =>
      have hsome : s.snapshot.standing.duel.isSome := by rw [Session.snapshot, hduel]; rfl
      obtain h' | h' := hsound.phase hsome
      · cases hphase.symm.trans h'
      · cases hphase.symm.trans h'
  have hhistory := hsound.history
  rw [hphase] at hhistory
  rw [track, h, hnone]
  exact congrArg (Track.mk .queued · none) hhistory

/-- A stale event changes nothing: while it is stale, no step does anything to the session, whatever
others do in the meantime; and with nobody in between the session is the same afterwards, whatever
the bodies are that had to be waited for. In any case the reader is told to stop if the session is
over, and to read on if it is not.

So, when events are taken one after the other by a player who waits in the queue, whatever others do
who leave the track alone, and whatever the service answers, they lead to where the first start and
the first end that belongs to it lead. -/
theorem stale_events (venue : Venue σ) :
    (∀ (s : Session σ) (e : Event), ¬s.standing.Concerns e →
      (take venue e s).Does (StaysStale e) (fun v (_ : List Empty) t => t = v)
        (fun _ flow _ => flow = staleFlow s) [] s ∧
      ∀ c, (take venue e).reading c s = (staleFlow s, s)) ∧
    ∀ (service : σ) (tokens : Tokens) (xs : List (Happening σ)),
      ((Scene.begin service tokens).run venue xs).session.standing.phase = .queued →
      ∀ events, (takeAll venue events ((Scene.begin service tokens).run venue xs).session).Ends
        SameTrack fun _ t => t.track = Track.expected events := by
  refine ⟨fun s e hstale => ⟨does_take_of_stale venue e s hstale, fun c => ?_⟩, ?_⟩
  · obtain ⟨-, hsession, hflow⟩ := (does_take_of_stale venue e s hstale).drain (fun _ h => h)
      (fun _ => rfl) (fun _ _ _ _ _ hst htu => htu.trans hst) c
    exact Prod.ext hflow hsession
  · intro service tokens xs hqueued events
    have hends := ends_takeAll venue events ((Scene.begin service tokens).run venue xs).session
    rwa [track_of_queued venue service tokens xs hqueued, Track.foldl_next_eq_expected] at hends

/-- A service that is never reached. -/
def nowhere : Venue Unit where
  link := { base := "", answer := fun _ s => (.error [], s) }

/-- An end that comes before the player has joined the queue; then, in the queue, an end before the
start, a start, another one, the end of that one, the end, and a third start. -/
theorem stale_events_nowhere :
    (take nowhere (.finished 7)).reading {} (.begin () {}) = (.proceed, .begin () {}) ∧
    ((takeAll nowhere [.finished 7, .started 7 none none, .started 8 none none, .finished 8,
        .finished 7, .started 9 none none]).reading {}
          (((Scene.begin () {}).run nowhere [.begins .queue]).session)).2.track =
      { phase := .over, history := [.idle, .queued, .active, .finishing, .over],
        duel := none } := by
  refine ⟨((stale_events nowhere).1 (.begin () {}) (.finished 7) ?_).2 {}, ?_⟩
  · exact fun h => Phase.noConfusion h.1
  · exact ((stale_events nowhere).2 () {} [.begins .queue] rfl _).drain (fun _ => rfl) {}

end Session
end Duelist
