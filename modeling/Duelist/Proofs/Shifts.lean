import Duelist.Proofs.Scenes
import Mathlib.Data.List.Basic
/-!
# Shifts

What a single step may do to the state of a session that is shown to the outside: the standing and
the stop signal, together a `Snapshot`.

The end of a duel is taken in several steps, and between them the state is not one that all others
may rely on. Who has entered the finishing phase has a `Grip` on the session, which it keeps until
the session is over. `Shift` lists what a step may do, each with the grip that it needs and the one
that it leaves; all but those of the finishing phase are made with free hands.

`Shift.sound` says that a shift keeps a snapshot `Sound`; `Shift.fits_other` that what somebody who
has a grip relies on is not changed by anybody else, and that nobody else gets one; and
`Shift.later` what a snapshot has to do with a later one.
-/

namespace Duelist

/-- The phases up to a given one. -/
def Phase.upTo : Phase → List Phase
  | .idle => [.idle]
  | .queued => [.idle, .queued]
  | .active => [.idle, .queued, .active]
  | .finishing => [.idle, .queued, .active, .finishing]
  | .over => [.idle, .queued, .active, .finishing, .over]

/-- What is shown of a session: the standing, and the stop signal. -/
structure Snapshot where
  /-- The standing. -/
  standing : Standing
  /-- True once the stop signal is raised. -/
  raised : Bool

/-- The snapshot of a session. -/
def Session.snapshot {σ : Type} (s : Session σ) : Snapshot where
  standing := s.standing
  raised := s.crew.raised

namespace Snapshot

/-- What holds of a snapshot whenever nobody is in the midst of a step. -/
structure Sound (v : Snapshot) : Prop where
  /-- All phases were entered in order, up to the present one. -/
  history : v.standing.history = v.standing.phase.upTo
  /-- A duel runs if and only if there is one. -/
  active : v.standing.active = v.standing.duel.isSome
  /-- There is a duel in the active phase. -/
  duel : v.standing.phase = .active → v.standing.duel.isSome
  /-- There is a duel only in the active phase and in the finishing phase. -/
  phase : v.standing.duel.isSome → v.standing.phase = .active ∨ v.standing.phase = .finishing
  /-- The result of the duel is not known yet. -/
  pending : ∀ d, v.standing.duel = some d → d.result = .pending
  /-- In the end both flags are raised. -/
  closing : v.standing.phase = .over → v.standing.stopping ∧ v.raised

end Snapshot

/-- How far somebody has come with finishing the session. -/
inductive Grip where
  /-- Does something else. -/
  | free
  /-- Has entered the finishing phase. -/
  | finishing
  /-- Has closed the duel. -/
  | closed
  /-- Has raised the stop signal. -/
  | raised
  deriving DecidableEq

/-- What somebody with a grip relies on. -/
def Grip.Fits : Grip → Snapshot → Prop
  | .free, _ => True
  | .finishing, v => v.standing.phase = .finishing
  | .closed, v => v.standing.phase = .finishing ∧ v.standing.duel = none ∧ v.standing.stopping
  | .raised, v => v.standing.phase = .finishing ∧ v.standing.duel = none ∧ v.standing.stopping ∧
    v.raised

/-- Whoever has a grip has entered the finishing phase. -/
lemma Grip.Fits.phase {g : Grip} {v : Snapshot} (h : g.Fits v) (hg : g ≠ .free) :
    v.standing.phase = .finishing := by
  cases g with
  | free => exact absurd rfl hg
  | finishing => exact h
  | closed => exact h.1
  | raised => exact h.1

/-- There is no duel in the end. -/
lemma Snapshot.Sound.duel_eq_none {v : Snapshot} (hv : v.Sound) (h : v.standing.phase = .over) :
    v.standing.duel = none := by
  cases hd : v.standing.duel with
  | none => rfl
  | some d =>
    obtain hphase | hphase := hv.phase (by rw [hd]; rfl)
    · cases h.symm.trans hphase
    · cases h.symm.trans hphase

/-- What a step of the operation `op` may do, made by somebody with a given grip, who has another
one afterwards. -/
inductive Shift {σ : Type} (op : Operation σ) : Grip → Snapshot → Grip → Snapshot → Prop
  | rest (g : Grip) (v : Snapshot) : Shift op g v g v
  | queue (v : Snapshot) (s : Standing) (h : v.standing.joinQueue? = some s) :
      Shift op .free v .free { v with standing := s }
  | begin (v : Snapshot) (s : Standing) (duel : Int64) (opponent : Option Int64)
      (task : Option String) (hop : op = .event (.started duel opponent task))
      (h : v.standing.begin? duel opponent task = some s) :
      Shift op .free v .free { v with standing := s }
  | learn (v : Snapshot) (opponent : Int64) (task : String) :
      Shift op .free v .free { v with standing := v.standing.learn opponent task }
  | leave (v : Snapshot) : Shift op .free v .free { v with standing := v.standing.leave }
  | raise (v : Snapshot) : Shift op .free v .free { v with raised := true }
  | finish (v : Snapshot) (s : Standing) (duel : Int64) (h : v.standing.finish? duel = some s) :
      Shift op .free v .finishing { v with standing := s }
  | close (v : Snapshot) : Shift op .finishing v .closed { v with standing := v.standing.close }
  | stop (v : Snapshot) : Shift op .closed v .raised { v with raised := true }
  | conclude (v : Snapshot) : Shift op .raised v .free { v with standing := v.standing.enter .over }

namespace Snapshot

/-- True of a snapshot taken before a duel was begun. -/
def IsEarly (v : Snapshot) : Prop :=
  v.standing.phase = .idle ∨ v.standing.phase = .queued

/-- What a snapshot has to do with a later one. -/
structure Later (v v' : Snapshot) : Prop where
  /-- Phases are only added to the history. -/
  history : v.standing.history <+: v'.standing.history
  /-- The flag stays raised. -/
  stopping : v.standing.stopping → v'.standing.stopping
  /-- The signal stays raised. -/
  raised : v.raised → v'.raised
  /-- A duel is not exchanged for another one. -/
  duel : ∀ d d', v.standing.duel = some d → v'.standing.duel = some d' → d'.id = d.id
  /-- There is no duel after the first one. -/
  cleared : ¬v.IsEarly → v.standing.duel = none → v'.standing.duel = none
  /-- In the end nothing changes. -/
  ended : v.standing.phase = .over → v' = v

end Snapshot

/-! ### The changes of a standing -/

namespace Standing

variable {s s' : Standing}

/-- The queue is joined from idle alone. -/
lemma joinQueue?_eq_some (h : s.joinQueue? = some s') : s.phase = .idle ∧ s' = s.enter .queued := by
  rw [joinQueue?] at h
  split at h
  next hphase => exact ⟨hphase, (Option.some.inj h).symm⟩
  next => cases h

/-- Without a duel there is nothing to note. -/
lemma learn_of_none {opponent : Int64} {task : String} (h : s.duel = none) :
    s.learn opponent task = s := by
  obtain ⟨phase, duel, active, stopping, history⟩ := s
  obtain rfl : duel = none := h
  rfl

/-- A duel is begun from the queue alone. It is noted, and the player is active from then on. -/
lemma begin?_eq_some {duel : Int64} {opponent : Option Int64} {task : Option String}
    (h : s.begin? duel opponent task = some s') :
    s.phase = .queued ∧ s' =
      { s with duel := some { id := duel, opponent, task }, active := true }.enter .active := by
  rw [begin?] at h
  split at h
  next hphase => exact ⟨hphase, (Option.some.inj h).symm⟩
  next => cases h

/-- A duel is finished by whoever plays it, and while it is active. -/
lemma finish?_eq_some {duel : Int64} (h : s.finish? duel = some s') :
    s.duel.map Duel.id = some duel ∧ s.phase = .active ∧ s' = s.enter .finishing := by
  rw [finish?] at h
  split at h
  next hduel => exact ⟨hduel.1, hduel.2, (Option.some.inj h).symm⟩
  next => cases h

end Standing

/-! ### Shifts keep snapshots sound -/

namespace Shift

variable {σ : Type} {op : Operation σ} {g g' : Grip} {v v' : Snapshot}

/-- A shift keeps a snapshot sound. -/
theorem sound (h : Shift op g v g' v') (hg : g.Fits v) (hv : v.Sound) : v'.Sound := by
  cases h with
  | rest => exact hv
  | queue v s h =>
    obtain ⟨hphase, rfl⟩ := Standing.joinQueue?_eq_some h
    have hnone : v.standing.duel.isSome → False := by
      intro hsome
      obtain h | h := hv.phase hsome <;> rw [hphase] at h <;> cases h
    exact {
      history := by simp [Standing.enter, hv.history, hphase, Phase.upTo]
      active := hv.active
      duel := fun h => by cases h
      phase := fun hsome => (hnone hsome).elim
      pending := hv.pending
      closing := fun h => by cases h }
  | begin v s duel opponent task hop h =>
    obtain ⟨hphase, rfl⟩ := Standing.begin?_eq_some h
    exact {
      history := by simp [Standing.enter, hv.history, hphase, Phase.upTo]
      active := rfl
      duel := fun _ => rfl
      phase := fun _ => .inl rfl
      pending := fun d hd => by rw [← Option.some.inj hd]
      closing := fun h => by cases h }
  | learn v opponent task =>
    exact {
      history := hv.history
      active := by simpa [Standing.learn] using hv.active
      duel := fun h => by simpa [Standing.learn] using hv.duel h
      phase := fun h => hv.phase (by simpa [Standing.learn] using h)
      pending := fun d hd => by
        obtain ⟨d', hd', rfl⟩ := Option.map_eq_some_iff.mp hd
        exact hv.pending d' hd'
      closing := hv.closing }
  | leave v =>
    exact {
      history := hv.history
      active := hv.active
      duel := hv.duel
      phase := hv.phase
      pending := hv.pending
      closing := fun h => ⟨rfl, (hv.closing h).2⟩ }
  | raise v => exact { hv with closing := fun h => ⟨(hv.closing h).1, rfl⟩ }
  | finish v s duel h =>
    obtain ⟨hduel, hphase, rfl⟩ := Standing.finish?_eq_some h
    exact {
      history := by simp [Standing.enter, hv.history, hphase, Phase.upTo]
      active := hv.active
      duel := fun h => by cases h
      phase := fun _ => .inr rfl
      pending := hv.pending
      closing := fun h => by cases h }
  | close v =>
    -- whoever closes the duel has been finishing it, and so the session is not over yet
    have hphase : v.standing.phase = .finishing := hg
    exact {
      history := hv.history
      active := rfl
      duel := fun h => by cases hphase.symm.trans h
      phase := fun h => by cases h
      pending := fun d hd => by cases hd
      closing := fun h => by cases hphase.symm.trans h }
  | stop v => exact { hv with closing := fun h => ⟨(hv.closing h).1, rfl⟩ }
  | conclude v =>
    obtain ⟨hphase, hnone, hstopping, hraised⟩ := hg
    exact {
      history := by simp [Standing.enter, hv.history, hphase, Phase.upTo]
      active := hv.active
      duel := fun h => by cases h
      phase := fun h => by
        have hsome : v.standing.duel.isSome := h
        rw [hnone] at hsome
        cases hsome
      pending := hv.pending
      closing := fun _ => ⟨hstopping, hraised⟩ }

/-- Whoever makes a shift may rely afterwards on what belongs to its new grip. -/
lemma fits (h : Shift op g v g' v') (hg : g.Fits v) : g'.Fits v' := by
  cases h with
  | rest => exact hg
  | finish v s duel h =>
    obtain ⟨-, -, rfl⟩ := Standing.finish?_eq_some h
    exact rfl
  | close v => exact ⟨hg, rfl, rfl⟩
  | stop v => exact ⟨hg.1, hg.2.1, hg.2.2, rfl⟩
  | _ => trivial

/-- As long as somebody has a grip, a shift made with free hands leaves them free, and leaves
what the other one relies on. -/
lemma fits_other (h : Shift op .free v g' v') {other : Grip} (hother : other.Fits v)
    (hne : other ≠ .free) : g' = .free ∧ other.Fits v' := by
  have hphase := hother.phase hne
  cases h with
  | rest => exact ⟨rfl, hother⟩
  | queue v s h =>
    -- whoever has a grip is finishing, and then nothing can be joined, begun or finished
    obtain ⟨hidle, -⟩ := Standing.joinQueue?_eq_some h
    cases hphase.symm.trans hidle
  | begin v s duel opponent task hop h =>
    obtain ⟨hqueued, -⟩ := Standing.begin?_eq_some h
    cases hphase.symm.trans hqueued
  | finish v s duel h =>
    obtain ⟨-, hactive, -⟩ := Standing.finish?_eq_some h
    cases hphase.symm.trans hactive
  | learn v opponent task =>
    refine ⟨rfl, ?_⟩
    cases other with
    | free => trivial
    | finishing => exact hphase
    | closed => exact ⟨hphase, by simp [Standing.learn, hother.2.1], hother.2.2⟩
    | raised => exact ⟨hphase, by simp [Standing.learn, hother.2.1], hother.2.2⟩
  | leave v =>
    refine ⟨rfl, ?_⟩
    cases other with
    | free => trivial
    | finishing => exact hphase
    | closed => exact ⟨hphase, hother.2.1, rfl⟩
    | raised => exact ⟨hphase, hother.2.1, rfl, hother.2.2.2⟩
  | raise v =>
    refine ⟨rfl, ?_⟩
    cases other with
    | free => trivial
    | finishing => exact hphase
    | closed => exact hother
    | raised => exact ⟨hphase, hother.2.1, hother.2.2.1, rfl⟩

/-- What a shift leads to comes later. -/
theorem later (h : Shift op g v g' v') (hg : g.Fits v) (hv : v.Sound) : v.Later v' := by
  have hsame (d d' : Duel) (hd : v.standing.duel = some d) (hd' : v.standing.duel = some d') :
      d'.id = d.id := by
    rw [hd] at hd'
    rw [Option.some.inj hd']
  cases h with
  | rest => exact ⟨List.prefix_rfl, id, id, hsame, fun _ h => h, fun _ => rfl⟩
  | queue v s h =>
    obtain ⟨hphase, rfl⟩ := Standing.joinQueue?_eq_some h
    exact ⟨List.prefix_append _ _, id, id, hsame, fun _ h => h,
      fun hover => by cases hphase.symm.trans hover⟩
  | begin v s duel opponent task hop h =>
    obtain ⟨hphase, rfl⟩ := Standing.begin?_eq_some h
    refine ⟨List.prefix_append _ _, id, id, fun d d' hd => ?_, fun h => absurd (.inr hphase) h,
      fun hover => by cases hphase.symm.trans hover⟩
    -- a duel is active or being finished, and a player in the queue has none
    obtain hactive | hfinishing := hv.phase (by rw [hd]; rfl)
    · cases hphase.symm.trans hactive
    · cases hphase.symm.trans hfinishing
  | learn v opponent task =>
    refine ⟨List.prefix_rfl, id, id, fun d d' hd hd' => ?_, fun _ hnone => ?_, fun hover => ?_⟩
    · rw [Standing.learn, hd] at hd'
      rw [← Option.some.inj hd']
    · rw [Standing.learn, hnone]
      rfl
    · rw [Standing.learn_of_none (hv.duel_eq_none hover)]
  | leave v =>
    refine ⟨List.prefix_rfl, fun _ => rfl, id, hsame, fun _ h => h, fun hover => ?_⟩
    obtain ⟨hstopping, -⟩ := hv.closing hover
    rw [Standing.leave, ← hstopping]
  | raise v =>
    refine ⟨List.prefix_rfl, id, fun _ => rfl, hsame, fun _ h => h, fun hover => ?_⟩
    obtain ⟨-, hraised⟩ := hv.closing hover
    rw [← hraised]
  | finish v s duel h =>
    obtain ⟨-, hphase, rfl⟩ := Standing.finish?_eq_some h
    exact ⟨List.prefix_append _ _, id, id, hsame, fun _ h => h,
      fun hover => by cases hphase.symm.trans hover⟩
  | close v =>
    have hphase : v.standing.phase = .finishing := hg
    exact ⟨List.prefix_rfl, fun _ => rfl, id, fun d d' _ hd' => (by cases hd'), fun _ _ => rfl,
      fun hover => by cases hphase.symm.trans hover⟩
  | stop v =>
    have hphase : v.standing.phase = .finishing := hg.1
    exact ⟨List.prefix_rfl, id, fun _ => rfl, hsame, fun _ h => h,
      fun hover => by cases hphase.symm.trans hover⟩
  | conclude v =>
    have hphase : v.standing.phase = .finishing := hg.1
    exact ⟨List.prefix_append _ _, id, id, hsame, fun _ h => h,
      fun hover => by cases hphase.symm.trans hover⟩

/-- A duel is set only by the event of its start. -/
lemma begins (h : Shift op g v g' v') (hnone : v.standing.duel = none) {d : Duel}
    (hd : v'.standing.duel = some d) : op = .event (.started d.id d.opponent d.task) := by
  cases h with
  | rest => cases hnone.symm.trans hd
  | queue v s h =>
    obtain ⟨-, rfl⟩ := Standing.joinQueue?_eq_some h
    cases hnone.symm.trans hd
  | begin v s duel opponent task hop h =>
    obtain ⟨-, rfl⟩ := Standing.begin?_eq_some h
    obtain rfl := Option.some.inj hd
    exact hop
  | learn v opponent task =>
    rw [Standing.learn, hnone] at hd
    cases hd
  | finish v s duel h =>
    obtain ⟨-, -, rfl⟩ := Standing.finish?_eq_some h
    cases hnone.symm.trans hd
  | close v => cases hd
  | _ => cases hnone.symm.trans hd

end Shift

/-! ### Earlier and later -/

namespace Snapshot

variable {v v' v'' : Snapshot}

/-- A snapshot is no earlier than itself. -/
lemma Later.refl (v : Snapshot) : v.Later v :=
  ⟨List.prefix_rfl, id, id, fun d d' hd hd' => by rw [Option.some.inj (hd.symm.trans hd')],
    fun _ h => h, fun _ => rfl⟩

/-- A snapshot is early as long as two phases were entered at most. -/
lemma Sound.isEarly_iff (hv : v.Sound) : v.IsEarly ↔ v.standing.history.length ≤ 2 := by
  rw [hv.history, IsEarly]
  generalize v.standing.phase = phase
  cases phase <;> decide

/-- What comes after a snapshot that is not early is not early. -/
lemma Later.not_isEarly (h : v.Later v') (hv : v.Sound) (hv' : v'.Sound) (hearly : ¬v.IsEarly) :
    ¬v'.IsEarly := by
  rw [hv.isEarly_iff] at hearly
  rw [hv'.isEarly_iff]
  have hlength := h.history.length_le
  omega

/-- Who has a duel has begun one. -/
lemma Sound.not_isEarly {d : Duel} (hv : v.Sound) (hd : v.standing.duel = some d) :
    ¬v.IsEarly := by
  rintro (hphase | hphase) <;>
    obtain h | h := hv.phase (by rw [hd]; rfl) <;> cases hphase.symm.trans h

/-- What is later than a later snapshot is later. -/
lemma Later.trans (h : v.Later v') (h' : v'.Later v'') (hv : v.Sound) (hv' : v'.Sound) :
    v.Later v'' := by
  refine ⟨h.history.trans h'.history, h'.stopping ∘ h.stopping, h'.raised ∘ h.raised, ?_, ?_, ?_⟩
  · intro d d'' hd hd''
    cases hmid : v'.standing.duel with
    | some d' => exact (h'.duel d' d'' hmid hd'').trans (h.duel d d' hd hmid)
    | none =>
      have hnone := h'.cleared (h.not_isEarly hv hv' (hv.not_isEarly hd)) hmid
      cases hnone.symm.trans hd''
  · intro hearly hnone
    exact h'.cleared (h.not_isEarly hv hv' hearly) (h.cleared hearly hnone)
  · intro hover
    obtain rfl := h.ended hover
    exact h'.ended hover

end Snapshot
end Duelist
