import Duelist.Proofs.Raising
import Duelist.Proofs.StaleEvents
/-!
# Playthroughs

A session that is played through: one thing is done with it after the other, each to its end before
the next one begins. Followers move only when they are polled, and when the stop signal is raised.
What is done are the operations, and opening a prompt (`Turn`). Whatever bodies have to be waited
for may turn out to be anything (`Progress.ComesTo`).

Two things are said of every turn here. Snapshots stay sound (`Playthrough.sound`). And a turn that
does not take the end of the duel tells nobody of the end, and leaves followers that have ended as
they are (`Playthrough.ages`).
-/

namespace Duelist

variable {σ τ ν α β δ : Type}

/-! ### What an errand comes to -/

/-- With nobody in between, what is left of an errand comes to the result `a` and the state `t`, for
some contents of the bodies that have to be waited for. -/
inductive Progress.ComesTo : Progress τ α → α → τ → Prop
  | done (a : α) (s : τ) : ComesTo (.done a s) a s
  | going (s : τ) (next : τ → Progress τ α) {a : α} {t : τ} (h : ComesTo (next s) a t) :
      ComesTo (.going s next) a t
  | waiting (s : τ) (resume : Content → τ → Progress τ α) (c : Content) {a : α} {t : τ}
      (h : ComesTo (resume c s) a t) : ComesTo (.waiting s resume) a t

namespace Progress

variable {p : Progress τ α} {a : α} {t : τ}

/-- Every errand comes to something. -/
lemma comesTo_drain (c : Content) (p : Progress τ α) :
    p.ComesTo (p.drain c).1 (p.drain c).2 := by
  induction p with
  | done a s => exact .done a s
  | going s next ih => exact .going s next (ih s)
  | waiting s resume ih => exact .waiting s resume c (ih c s)

/-- Where several things are done, the first comes to something, and then the next. -/
lemma ComesTo.of_andThen {f : α → Errand τ β} {b : β} {u : τ}
    (h : (p.andThen f).ComesTo b u) : ∃ a t, p.ComesTo a t ∧ (f a t).ComesTo b u := by
  induction p with
  | done a s => exact ⟨a, s, .done a s, h⟩
  | going s next ih =>
    cases h with
    | going _ _ h =>
      obtain ⟨a, t, hp, hf⟩ := ih s h
      exact ⟨a, t, .going s next hp, hf⟩
  | waiting s resume ih =>
    cases h with
    | waiting _ _ c h =>
      obtain ⟨a, t, hp, hf⟩ := ih c s h
      exact ⟨a, t, .waiting s resume c hp, hf⟩

/-- All deeds lead from the first state to the last. -/
lemma ComesTo.does {rely : τ → τ → Prop} {leads : τ → List δ → τ → Prop}
    {post : List δ → α → τ → Prop} {deeds : List δ} {v : τ} (h : p.ComesTo a t)
    (hp : p.Does rely leads post deeds v) (hrely : ∀ s, rely s s) (hnil : ∀ s, leads s [] s)
    (happend : ∀ s t u ds es, leads s ds t → leads t es u → leads s (ds ++ es) u) :
    ∃ new, leads v new t ∧ post (deeds ++ new) a t := by
  induction h generalizing deeds v with
  | done a s =>
    obtain ⟨rfl, hpost⟩ := hp
    exact ⟨[], hnil s, by rwa [List.append_nil]⟩
  | going s next _ ih =>
    obtain ⟨new, hleads, hnext⟩ := hp
    obtain ⟨new', hleads', hpost⟩ := ih (hnext s (hrely s))
    exact ⟨new ++ new', happend _ _ _ _ _ hleads hleads', by rwa [← List.append_assoc]⟩
  | waiting s resume c _ ih =>
    obtain ⟨new, hleads, hresume⟩ := hp
    obtain ⟨new', hleads', hpost⟩ := ih (hresume c s (hrely s))
    exact ⟨new ++ new', happend _ _ _ _ _ hleads hleads', by rwa [← List.append_assoc]⟩

/-- What holds in the end, whatever an errand comes to. -/
lemma ComesTo.ends {rely : τ → τ → Prop} {post : α → τ → Prop} (h : p.ComesTo a t)
    (hp : p.Ends rely post) (hrely : ∀ s, rely s s) : post a t := by
  induction h with
  | done a s => exact hp
  | going s next _ ih => exact ih (hp s (hrely s))
  | waiting s resume c _ ih => exact ih (hp c s (hrely s))

/-- What every step does is done by all of them together. -/
lemma ComesTo.abides {view : τ → ν} {R : ν → ν → Prop} {v : ν} (h : p.ComesTo a t)
    (hp : p.Abides view R v) (hrefl : ∀ v, R v v)
    (htrans : ∀ {v v' v''}, R v v' → R v' v'' → R v v'') : R v (view t) := by
  induction h generalizing v with
  | done a s =>
    obtain rfl : view s = v := hp
    exact hrefl _
  | going s next _ ih => exact htrans hp.1 (ih (hp.2 s))
  | waiting s resume c _ ih => exact htrans hp.1 (ih (hp.2 c s))

/-- Shifts keep a snapshot sound. -/
lemma ComesTo.sound {p : Progress (Session σ) α} {op : Operation σ} {post : α → Grip}
    {t : Session σ} {g : Grip} {v : Snapshot} (h : p.ComesTo a t) (hp : p.Keeps op post g v)
    (hg : g.Fits v) (hv : v.Sound) : t.snapshot.Sound := by
  induction h generalizing g v with
  | done a s =>
    obtain ⟨rfl, -⟩ := hp
    exact hv
  | going s next _ ih =>
    obtain ⟨g', hshift, hnext⟩ := hp
    have hg' := hshift.fits hg
    exact ih (hnext s hg') hg' (hshift.sound hg hv)
  | waiting s resume c _ ih =>
    obtain ⟨g', hshift, hresume⟩ := hp
    have hg' := hshift.fits hg
    exact ih (hresume c s hg') hg' (hshift.sound hg hv)

end Progress

/-! ### Followers that have ended stay so -/

/-- Who is to be told of the end of a session and who was, and which followers have ended. -/
structure Guise where
  /-- The audience. -/
  voice : Voice
  /-- Which followers have ended. -/
  hasEnded : ℕ → Bool

/-- The guise of a session. -/
def Session.guise (s : Session σ) : Guise where
  voice := s.voice
  hasEnded := s.crew.hasEnded

/-- Nobody is told, and whoever has ended stays so. -/
structure Guise.Ages (v v' : Guise) : Prop where
  /-- Nobody is told. -/
  voice : v'.voice = v.voice
  /-- Whoever has ended stays so. -/
  hasEnded : ∀ n, v.hasEnded n → v'.hasEnded n

namespace Guise

/-- A session that stays as it is has aged, if by nothing. -/
lemma Ages.refl (v : Guise) : v.Ages v :=
  ⟨rfl, fun _ h => h⟩

/-- Ageing twice is ageing. -/
lemma Ages.trans {v v' v'' : Guise} (h : v.Ages v') (h' : v'.Ages v'') : v.Ages v'' :=
  ⟨h'.voice.trans h.voice, fun n hn => h'.hasEnded n (h.hasEnded n hn)⟩

end Guise

/-- Whoever has ended stays so when the signal is raised. -/
lemma Crew.hasEnded_raise (link : Link σ) (hangs : ℕ → Bool) (crew : Crew σ) {n : ℕ}
    (h : crew.hasEnded n) : (raise link hangs crew).2.hasEnded n := by
  obtain ⟨f, hf, hended⟩ := hasEnded_iff.mp h
  obtain ⟨added, fs, w, hconcludes, hraise⟩ := raise_spec link hangs crew
  rw [hraise]
  exact hasEnded_iff.mpr ⟨f, hconcludes.hasEnded_mono n f hf hended, hended⟩

namespace Session

open Errand

variable (venue : Venue σ)

/-- What is done with the crew tells nobody. -/
lemma ages_onCrew {act : StateM (Crew σ) α}
    (h : ∀ crew n, crew.hasEnded n → (act crew).2.hasEnded n) :
    (lift (onCrew act)).Abides guise Guise.Ages :=
  abides_lift fun s => ⟨rfl, h s.crew⟩

/-- Whatever is done in the world alone tells nobody, and lets no follower come back. -/
lemma ages_inWorld (act : Act σ α) : (lift (inWorld act)).Abides guise Guise.Ages :=
  ages_onCrew fun _ _ h => h

/-- So it is with an errand in the world. -/
lemma ages_world (e : Errand (World σ) α) :
    (liftM e : Errand (Session σ) α).Abides guise Guise.Ages :=
  abides_placed .refl (fun _ _ => rfl) e

/-- To change the standing if that is possible tells nobody either. -/
lemma ages_attempt (change : Standing → Option Standing) :
    (lift (attempt (σ := σ) change)).Abides guise Guise.Ages := by
  refine abides_lift fun s => ?_
  rw [attempt]
  split <;> exact .refl s.guise

/-- Joining the queue tells nobody, and lets no follower come back. -/
lemma ages_joinQueue :
    (joinQueue : Errand (Session σ) (Except Failure Unit)).Abides guise Guise.Ages := by
  refine abides_bind (ages_attempt _) fun changed => ?_
  cases changed with
  | false => exact abides_pure _
  | true => exact abides_bind (ages_inWorld _) fun _ => abides_pure _

/-- Nor does the presentation of a duel. -/
lemma ages_present (duel : Int64) : (present venue duel).Abides guise Guise.Ages := by
  refine abides_bind (ages_world _) fun summary => ?_
  cases summary with
  | error e => exact ages_inWorld _
  | ok summary =>
    refine abides_bind (abides_lift fun s => .refl s.guise) fun _ => ?_
    refine abides_bind (ages_world _) fun player => ?_
    refine abides_bind (ages_inWorld _) fun _ => ?_
    refine abides_bind (ages_world _) fun sheet => ?_
    cases sheet with
    | error e => exact ages_inWorld _
    | ok sheet => exact ages_inWorld _

/-- Nor does the start of a duel. -/
lemma ages_started (duel : Int64) (opponent : Option Int64) (task : Option String) :
    (started venue duel opponent task).Abides guise Guise.Ages := by
  refine abides_bind (ages_attempt _) fun changed => ?_
  cases changed with
  | false => exact abides_pure _
  | true =>
    refine abides_bind (ages_inWorld _) fun _ => ?_
    refine abides_bind (ages_present venue duel) fun _ => ?_
    exact abides_bind (ages_inWorld _) fun _ => abides_pure _

/-- Nor does handing in a solution. It may start a follower, and those who have ended stay so. -/
lemma ages_handingIn (path : String) : (handingIn venue path).Abides guise Guise.Ages := by
  refine abides_bind (abides_lift fun s => .refl s.guise) fun s => ?_
  split
  · exact abides_pure _
  refine abides_bind (ages_world _) fun result => ?_
  cases result with
  | error e => exact abides_pure _
  | ok submission =>
    refine abides_bind (ages_inWorld _) fun _ => ?_
    have hfollow (duel submission : Int64) (crew : Crew σ) (n : ℕ) (h : crew.hasEnded n) :
        (Crew.follow venue.link duel submission crew).2.hasEnded n :=
      Crew.hasEnded_follow venue.link crew duel submission h
    refine abides_bind (ages_onCrew (hfollow _ _)) fun followed => ?_
    cases followed with
    | true => exact abides_pure _
    | false => exact abides_bind (ages_inWorld _) fun _ => abides_pure _

/-- The followers that end when the signal is raised stay so, and nobody is told by the signal
itself. -/
lemma ages_raise : (lift (raise venue)).Abides guise Guise.Ages :=
  ages_onCrew fun crew _ h => Crew.hasEnded_raise venue.link venue.hangs crew h

/-- Leaving raises the signal and waits for the followers. Nobody is told. -/
lemma ages_leaving : (leaving venue).Abides guise Guise.Ages := by
  refine abides_bind (abides_lift fun s => .refl s.guise) fun _ => ?_
  exact abides_bind (ages_raise venue) fun _ => ages_onCrew fun _ _ h => h

end Session

/-- Nobody is told of the end, and whoever has ended stays so, whatever is done but to take the end
of a duel. -/
theorem Operation.ages (venue : Venue σ) {op : Operation σ}
    (hop : ∀ duel, op ≠ .event (.finished duel)) :
    (op.errand venue).Abides Session.guise Guise.Ages := by
  cases op with
  | queue => exact Errand.abides_bind Session.ages_joinQueue fun _ => Errand.abides_pure _
  | event e =>
    refine Errand.abides_bind ?_ fun _ => Errand.abides_pure _
    refine Errand.abides_bind (Errand.abides_lift fun s => .refl s.guise) fun s => ?_
    split
    · exact Errand.abides_pure _
    · cases e with
      | started duel opponent task => exact Session.ages_started venue duel opponent task
      | finished duel => exact absurd rfl (hop duel)
  | submit path =>
    exact Errand.abides_bind (Session.ages_handingIn venue path) fun _ => Errand.abides_pure _
  | leave =>
    exact Errand.abides_bind (Session.ages_leaving venue) fun _ => Errand.abides_pure _
  | raise => exact Session.ages_raise venue
  | poll n =>
    refine Errand.abides_bind (Session.ages_onCrew fun crew m h => ?_) fun _ => Errand.abides_pure _
    exact Crew.hasEnded_move venue.link crew n h
  | other act => exact Session.ages_inWorld act

/-! ### Playing through -/

/-- Something that is done with a session, to its end. -/
inductive Turn (σ : Type) where
  /-- An operation. -/
  | does (op : Operation σ)
  /-- The prompt with the given number is opened. -/
  | opens (number : ℕ)

/-- How a turn leads from a session to the next. -/
def Turn.Leads (venue : Venue σ) : Turn σ → Session σ → Session σ → Prop
  | .does op, s, t => (op.errand venue s).ComesTo () t
  | .opens number, s, t => t = (Session.openPrompt number s).2

/-- A session that is played through. -/
structure Playthrough (σ : Type) where
  /-- Where it is played. -/
  venue : Venue σ
  /-- What is done, one thing after the other. -/
  turn : ℕ → Turn σ
  /-- The session before each turn. -/
  session : ℕ → Session σ
  /-- It begins with any service, any tokens, and anybody who is to be told of the end. -/
  begins : ∃ service tokens audience, session 0 = { Session.begin service tokens with audience }
  /-- It goes on turn by turn. -/
  goes : ∀ n, (turn n).Leads venue (session n) (session (n + 1))

/-- The session after a turn in which nothing was heard of any body that had to be waited for. -/
def Turn.after (venue : Venue σ) : Turn σ → Session σ → Session σ
  | .does op, s => ((op.errand venue).atOnce s).2
  | .opens number, s => (Session.openPrompt number s).2

/-- The session after several turns of this kind. -/
def Turn.run (venue : Venue σ) (turn : ℕ → Turn σ) (s : Session σ) : ℕ → Session σ
  | 0 => s
  | n + 1 => (turn n).after venue (run venue turn s n)

/-- Whatever is to be done, a session can be played through. -/
def Playthrough.of (venue : Venue σ) (service : σ) (tokens : Tokens) (turn : ℕ → Turn σ) :
    Playthrough σ where
  venue := venue
  turn := turn
  session := Turn.run venue turn (.begin service tokens)
  begins := ⟨service, tokens, some .host, rfl⟩
  goes n := by
    rw [Turn.run]
    cases turn n with
    | does op => exact Progress.comesTo_drain {} _
    | opens number => rfl

/-- The followers that were given up from one session to a later one: those that were waited for in
the meantime and have not ended. -/
def Session.lost (s t : Session σ) : List ℕ :=
  (List.range' s.crew.joined (t.crew.joined - s.crew.joined)).filter fun n => !t.crew.hasEnded n

namespace Playthrough

variable (p : Playthrough σ)

/-- The followers that were given up in the first `n` turns. -/
def givenUp (n : ℕ) : List ℕ :=
  (List.range n).flatMap fun m => (p.session m).lost (p.session (m + 1))

/-- The turn numbered `n` is the end of the duel that is being played. -/
def Finishes (n : ℕ) : Prop :=
  ∃ d, (p.session n).standing.phase = .active ∧ (p.session n).standing.duel = some d ∧
    p.turn n = .does (.event (.finished d.id))

variable {p}

/-- In one turn more those are given up who are lost in that turn. -/
lemma givenUp_succ (n : ℕ) :
    p.givenUp (n + 1) = p.givenUp n ++ (p.session n).lost (p.session (n + 1)) := by
  rw [givenUp, List.range_succ, List.flatMap_append, List.flatMap_singleton, givenUp]

/-- Nothing but the prompt is shown when it is opened, and somebody else is to be told. -/
lemma session_of_opens {n number : ℕ} (hturn : p.turn n = .opens number) :
    p.session (n + 1) = (Session.openPrompt number (p.session n)).2 := by
  have hgoes := p.goes n
  rw [hturn] at hgoes
  exact hgoes

/-- Snapshots are sound at every point. -/
theorem sound (n : ℕ) : (p.session n).snapshot.Sound := by
  induction n with
  | zero =>
    obtain ⟨service, tokens, audience, hbegins⟩ := p.begins
    rw [hbegins]
    exact (Scene.calm_begin service tokens).sound
  | succ n ih =>
    have hgoes := p.goes n
    cases hturn : p.turn n with
    | does op =>
      rw [hturn] at hgoes
      exact hgoes.sound (op.keeps p.venue (p.session n) trivial) trivial ih
    | opens number =>
      rw [session_of_opens hturn]
      exact ih

/-- What comes of taking an event. -/
lemma comesTo_take {n : ℕ} {e : Event} (hturn : p.turn n = .does (.event e)) :
    ∃ flow, (Session.take p.venue e (p.session n)).ComesTo flow (p.session (n + 1)) := by
  have hgoes := p.goes n
  rw [hturn] at hgoes
  obtain ⟨flow, t, htake, hdone⟩ := Progress.ComesTo.of_andThen hgoes
  cases hdone
  exact ⟨flow, htake⟩

/-- Nobody is told of the end but at the end of the duel that is being played, and whoever has ended
stays so. -/
lemma ages {n : ℕ} (hn : ¬p.Finishes n) {op : Operation σ} (hturn : p.turn n = .does op) :
    (p.session n).guise.Ages (p.session (n + 1)).guise := by
  by_cases hop : ∃ duel, op = .event (.finished duel)
  · obtain ⟨duel, rfl⟩ := hop
    obtain ⟨flow, htake⟩ := comesTo_take hturn
    have hstale : ¬(p.session n).standing.Concerns (.finished duel) := by
      rintro ⟨hphase, hduel⟩
      obtain ⟨d, hd, rfl⟩ := Option.map_eq_some_iff.mp hduel
      exact hn ⟨d, hphase, hd, hturn⟩
    obtain ⟨-, hsame, -⟩ := htake.does
      (Session.does_take_of_stale p.venue (.finished duel) (p.session n) hstale)
      (fun _ h => h) (fun _ => rfl) (fun _ _ _ _ _ hst htu => htu.trans hst)
    rw [hsame]
    exact .refl _
  · have hgoes := p.goes n
    rw [hturn] at hgoes
    exact hgoes.abides (op.ages p.venue (fun duel h => hop ⟨duel, h⟩) (p.session n)) .refl
      fun h h' => h.trans h'

end Playthrough
end Duelist
