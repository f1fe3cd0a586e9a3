import Duelist.Proofs.CrewSteps
import Duelist.Proofs.Shifts
/-!
# Operations as shifts

Every step of all that is done with a session is a shift. `Progress.Keeps` says so of what is left
of an errand, with the grip that the steps before have left; it goes through the composition of
errands (`Errand.keeps_bind`), so that there is one lemma for each part of a session. The main
statement is `Operation.keeps`.
-/

namespace Duelist

variable {σ α β : Type}

/-! ### Errands whose steps are shifts -/

/-- Every step to come is a shift, the first one from the snapshot `v`. They are made with the grip
that the steps before have left, at first with `g`; at the end, if the result is `a`, the grip is
`post a`. A step relies on nothing but what belongs to the grip. -/
def Progress.Keeps (op : Operation σ) (post : α → Grip) :
    Grip → Snapshot → Progress (Session σ) α → Prop
  | g, v, .done a s => s.snapshot = v ∧ post a = g
  | g, v, .going s next => ∃ g', Shift op g v g' s.snapshot ∧
    ∀ s' : Session σ, g'.Fits s'.snapshot → (next s').Keeps op post g' s'.snapshot
  | g, v, .waiting s resume => ∃ g', Shift op g v g' s.snapshot ∧
    ∀ (c : Content) (s' : Session σ), g'.Fits s'.snapshot →
      (resume c s').Keeps op post g' s'.snapshot

namespace Progress

variable {op : Operation σ} {g : Grip} {v : Snapshot}

/-- One thing after another. -/
lemma Keeps.andThen {p : Progress (Session σ) α} {f : α → Errand (Session σ) β}
    {mid : α → Grip} {post : β → Grip} (h : p.Keeps op mid g v)
    (hg : g.Fits v) (hf : ∀ a s, (mid a).Fits s.snapshot →
      (f a s).Keeps op post (mid a) s.snapshot) : (p.andThen f).Keeps op post g v := by
  induction p generalizing g v with
  | done a s =>
    obtain ⟨rfl, rfl⟩ := h
    exact hf a s hg
  | going s next ih =>
    obtain ⟨g', hshift, hnext⟩ := h
    exact ⟨g', hshift, fun s' hs' => ih s' (hnext s' hs') hs'⟩
  | waiting s resume ih =>
    obtain ⟨g', hshift, hresume⟩ := h
    exact ⟨g', hshift, fun c s' hs' => ih c s' (hresume c s' hs') hs'⟩

/-- What is done in the world is not seen in a snapshot. -/
lemma keeps_within (p : Progress (World σ) α) (s : Session σ) :
    (p.within Session.world Session.placed s).Keeps op (fun _ => g) g s.snapshot := by
  induction p generalizing s with
  | done a w => exact ⟨rfl, rfl⟩
  | going w next ih => exact ⟨g, .rest g s.snapshot, fun s' _ => ih s'.world s'⟩
  | waiting w resume ih => exact ⟨g, .rest g s.snapshot, fun c s' _ => ih c s'.world s'⟩

end Progress

/-- Every step of the errand is a shift, when it is begun with the grip `g`. -/
def Errand.Keeps (op : Operation σ) (g : Grip) (post : α → Grip) (e : Errand (Session σ) α) :
    Prop :=
  ∀ s, g.Fits s.snapshot → (e s).Keeps op post g s.snapshot

namespace Errand

variable {op : Operation σ} {g : Grip} {post : α → Grip}

/-- To do nothing keeps the grip. -/
lemma keeps_pure {a : α} (h : post a = g) : (pure a : Errand (Session σ) α).Keeps op g post :=
  fun _ _ => ⟨rfl, h⟩

/-- A single step has to be a shift. -/
lemma keeps_lift {act : Play σ α}
    (h : ∀ s : Session σ, g.Fits s.snapshot →
      Shift op g s.snapshot (post (act s).1) (act s).2.snapshot) :
    (lift act).Keeps op g post :=
  fun s hs => ⟨post (act s).1, h s hs, fun _ _ => ⟨rfl, rfl⟩⟩

/-- A single step of which nothing is seen. -/
lemma keeps_unseen {act : Play σ α} (h : ∀ s, (act s).2.snapshot = s.snapshot) :
    (lift act).Keeps op g fun _ => g := by
  refine keeps_lift fun s _ => ?_
  rw [h s]
  exact .rest g s.snapshot

/-- One errand after another. -/
lemma keeps_bind {e : Errand (Session σ) α} {f : α → Errand (Session σ) β} (mid : α → Grip)
    {post : β → Grip} (he : e.Keeps op g mid) (hf : ∀ a, (f a).Keeps op (mid a) post) :
    (e >>= f).Keeps op g post :=
  fun s hs => (he s hs).andThen hs hf

/-- An errand in the world. -/
lemma keeps_world (e : Errand (World σ) α) :
    (liftM e : Errand (Session σ) α).Keeps op g fun _ => g :=
  fun s _ => Progress.keeps_within (e s.world) s

end Errand

/-! ### All that is done with a session -/

namespace Session

variable {op : Operation σ} {g : Grip} (venue : Venue σ)

/-- The snapshot of a session does not show who is to be told of the end. -/
lemma snapshot_tell (closing : Closing) (s : Session σ) :
    (tell closing s).2.snapshot = s.snapshot := by
  obtain ⟨crew, standing, audience, told⟩ := s
  cases audience <;> rfl

/-- Nor does it show the followers. -/
lemma snapshot_follow (duel submission : Int64) (s : Session σ) :
    (onCrew (Crew.follow venue.link duel submission) s).2.snapshot = s.snapshot := by
  have hraised := Crew.raised_follow venue.link s.crew duel submission
  exact congrArg (Snapshot.mk s.standing) hraised

/-- Nor does it show how far one of them has come. -/
lemma snapshot_move (n : ℕ) (s : Session σ) :
    (onCrew (Crew.move venue.link n) s).2.snapshot = s.snapshot := by
  have hraised := Crew.raised_move venue.link s.crew n
  exact congrArg (Snapshot.mk s.standing) hraised

/-- To tell the player something is a shift that changes nothing. -/
lemma keeps_notify (text : String) :
    (notify text : Errand (Session σ) Unit).Keeps op g fun _ => g :=
  Errand.keeps_unseen fun _ => rfl

/-- A change of the standing that is made if it is possible. -/
lemma keeps_attempt {change : Standing → Option Standing} {g' : Grip}
    (h : ∀ v s, change v.standing = some s → Shift op g v g' { v with standing := s }) :
    (Errand.lift (attempt change) : Errand (Session σ) Bool).Keeps op g
      fun changed => if changed then g' else g := by
  refine Errand.keeps_lift fun s _ => ?_
  rw [attempt]
  split
  next => exact .rest g s.snapshot
  next standing hs => exact h s.snapshot standing hs

/-- To join the queue is a shift, if it is possible, and needs no grip. -/
lemma keeps_joinQueue :
    (joinQueue : Errand (Session σ) (Except Failure Unit)).Keeps op .free fun _ => .free := by
  refine Errand.keeps_bind _ (keeps_attempt .queue) fun changed => ?_
  cases changed with
  | false => exact Errand.keeps_pure rfl
  | true =>
    refine Errand.keeps_bind _ (Errand.keeps_unseen fun _ => rfl) fun _ => ?_
    exact Errand.keeps_pure rfl

/-- The presentation of a duel may note what it has learned about the duel, and needs no grip. -/
lemma keeps_present (duel : Int64) : (present venue duel).Keeps op .free fun _ => .free := by
  refine Errand.keeps_bind _ (Errand.keeps_world _) fun summary => ?_
  cases summary with
  | error e => exact keeps_notify _
  | ok summary =>
    refine Errand.keeps_bind (fun _ => .free)
      (Errand.keeps_lift fun s _ => .learn s.snapshot _ _) fun _ => ?_
    refine Errand.keeps_bind _ (Errand.keeps_world _) fun player => ?_
    refine Errand.keeps_bind _ (keeps_notify _) fun _ => ?_
    refine Errand.keeps_bind _ (Errand.keeps_world _) fun sheet => ?_
    cases sheet with
    | error e => exact keeps_notify _
    | ok sheet => exact keeps_notify _

/-- The start of a duel begins the duel, if it does anything, and then presents it. -/
lemma keeps_started (duel : Int64) (opponent : Option Int64) (task : Option String) :
    (started venue duel opponent task).Keeps (.event (.started duel opponent task)) .free
      fun _ => .free := by
  refine Errand.keeps_bind _ (keeps_attempt fun v s => .begin v s duel opponent task rfl)
    fun changed => ?_
  cases changed with
  | false => exact Errand.keeps_pure rfl
  | true =>
    refine Errand.keeps_bind _ (keeps_notify _) fun _ => ?_
    refine Errand.keeps_bind _ (keeps_present venue duel) fun _ => ?_
    refine Errand.keeps_bind _ (keeps_notify _) fun _ => ?_
    exact Errand.keeps_pure rfl

/-- The announcement of the result leaves the grip as it is. -/
lemma keeps_announce (duel : Int64) : (announce venue duel).Keeps op g fun _ => g := by
  refine Errand.keeps_bind _ (Errand.keeps_world _) fun summary => ?_
  cases summary with
  | error e =>
    refine Errand.keeps_bind _ (keeps_notify _) fun _ => ?_
    exact Errand.keeps_pure rfl
  | ok summary =>
    refine Errand.keeps_bind _ (keeps_notify _) fun _ => ?_
    exact Errand.keeps_pure rfl

/-- The end of a duel is taken with one grip after another. -/
lemma keeps_finished (duel : Int64) : (finished venue duel).Keeps op .free fun _ => .free := by
  refine Errand.keeps_bind _ (keeps_attempt fun v s => .finish v s duel) fun changed => ?_
  cases changed with
  | false => exact Errand.keeps_pure rfl
  | true =>
    refine Errand.keeps_bind _ (keeps_announce venue duel) fun result => ?_
    refine Errand.keeps_bind (fun _ => .closed)
      (Errand.keeps_lift fun s _ => .close s.snapshot) fun outcome => ?_
    refine Errand.keeps_bind (fun _ => .raised)
      (Errand.keeps_lift fun s _ => .stop s.snapshot) fun _ => ?_
    refine Errand.keeps_bind _ (Errand.keeps_unseen fun _ => rfl) fun givenUp => ?_
    refine Errand.keeps_bind (fun _ => .free)
      (Errand.keeps_lift fun s _ => .conclude s.snapshot) fun _ => ?_
    refine Errand.keeps_bind _ (Errand.keeps_unseen (snapshot_tell _)) fun _ => ?_
    exact Errand.keeps_pure rfl

/-- Taking an event is made of shifts, whichever event it is. -/
lemma keeps_take (e : Event) : (take venue e).Keeps (.event e) .free fun _ => .free := by
  refine Errand.keeps_bind _ (Errand.keeps_unseen fun _ => rfl) fun s => ?_
  split
  · exact Errand.keeps_pure rfl
  · cases e with
    | started duel opponent task => exact keeps_started venue duel opponent task
    | finished duel => exact keeps_finished venue duel

/-- Handing in a solution leaves the standing alone. -/
lemma keeps_handingIn (path : String) :
    (handingIn venue path).Keeps op .free fun _ => .free := by
  refine Errand.keeps_bind _ (Errand.keeps_unseen fun _ => rfl) fun s => ?_
  split
  · exact Errand.keeps_pure rfl
  refine Errand.keeps_bind _ (Errand.keeps_world _) fun result => ?_
  cases result with
  | error e => exact Errand.keeps_pure rfl
  | ok submission =>
    refine Errand.keeps_bind _ (Errand.keeps_unseen fun _ => rfl) fun _ => ?_
    refine Errand.keeps_bind _ (Errand.keeps_unseen (snapshot_follow venue _ _)) fun followed => ?_
    cases followed with
    | true => exact Errand.keeps_pure rfl
    | false =>
      refine Errand.keeps_bind _ (Errand.keeps_unseen fun _ => rfl) fun _ => ?_
      exact Errand.keeps_pure rfl

/-- Leaving tells the followers to stop, and leaves the phase alone. -/
lemma keeps_leaving : (leaving venue).Keeps op .free fun _ => .free := by
  refine Errand.keeps_bind (fun _ => .free)
    (Errand.keeps_lift fun s _ => .leave s.snapshot) fun _ => ?_
  refine Errand.keeps_bind (fun _ => .free)
    (Errand.keeps_lift fun s _ => .raise s.snapshot) fun _ => ?_
  exact Errand.keeps_unseen fun _ => rfl

end Session

/-- All that is done with a session is done in steps that are shifts. -/
theorem Operation.keeps (venue : Venue σ) (op : Operation σ) :
    (op.errand venue).Keeps op .free fun _ => .free := by
  cases op with
  | queue => exact Errand.keeps_bind _ Session.keeps_joinQueue fun _ => Errand.keeps_pure rfl
  | event e => exact Errand.keeps_bind _ (Session.keeps_take venue e) fun _ => Errand.keeps_pure rfl
  | submit path =>
    exact Errand.keeps_bind _ (Session.keeps_handingIn venue path) fun _ => Errand.keeps_pure rfl
  | leave => exact Errand.keeps_bind _ (Session.keeps_leaving venue) fun _ => Errand.keeps_pure rfl
  | raise => exact Errand.keeps_lift fun s _ => .raise s.snapshot
  | poll n =>
    refine Errand.keeps_bind _ (Errand.keeps_unseen (Session.snapshot_move venue n)) fun _ => ?_
    exact Errand.keeps_pure rfl
  | other act => exact Errand.keeps_unseen fun _ => rfl

end Duelist
