import Duelist.Proofs.OperationShifts
import Mathlib.Data.List.Induction
import Mathlib.Data.List.InsertIdx
import Mathlib.Data.List.Perm.Basic
/-!
# The life of a session

What can be said of a session at every point of every run, whatever is done with it and in whatever
order the steps are made. The main statement is `lifecycle`.

The invariant is `Scene.Calm`: the snapshot is sound, all that is under way goes on by shifts, and
no two have a grip. `Scene.Calm.step` is the step lemma; `Scene.Calm.run` adds that whatever
happens leads to a later snapshot.
-/

namespace Duelist

variable {σ : Type}

/-! ### Scenes -/

/-- What is under way goes on by shifts, when it is taken up with the grip `g`. -/
def Undertaking.Keeps (u : Undertaking σ) (g : Grip) : Prop :=
  ∀ c (s : Session σ), g.Fits s.snapshot →
    (u.resume c s).Keeps u.operation (fun _ => .free) g s.snapshot

namespace Scene

/-- What holds of all that is under way when the snapshot is `v`; each comes with its grip. -/
structure Orderly (v : Snapshot) (l : List (Undertaking σ × Grip)) : Prop where
  /-- Each goes on by shifts. -/
  keeps : ∀ x ∈ l, x.1.Keeps x.2
  /-- Each may rely on what belongs to its grip. -/
  fits : ∀ x ∈ l, x.2.Fits v
  /-- No two have a grip. -/
  apart : l.Pairwise fun x y => x.2 = .free ∨ y.2 = .free

/-- A scene in which everybody may rely on what belongs to its grip. -/
structure Calm (scene : Scene σ) : Prop where
  /-- The snapshot is sound. -/
  sound : scene.session.snapshot.Sound
  /-- All that is under way is orderly, with some grips. -/
  orderly : ∃ l, l.map Prod.fst = scene.undertakings ∧ Orderly scene.session.snapshot l

variable {op : Operation σ} {g g' : Grip} {v v' : Snapshot} {l : List (Undertaking σ × Grip)}

/-- What is under way stays orderly when somebody else makes a shift. -/
lemma Orderly.shift (h : Orderly v l) (hg : g.Fits v) (hapart : ∀ x ∈ l, g = .free ∨ x.2 = .free)
    (hshift : Shift op g v g' v') {u : Undertaking σ} (hu : u.Keeps g') :
    Orderly v' (l ++ [(u, g')]) := by
  -- if another one has a grip, then the shift was made with free hands
  have hother {x : Undertaking σ × Grip} (hx : x ∈ l) (hne : x.2 ≠ .free) :
      g' = .free ∧ x.2.Fits v' := by
    obtain rfl := (hapart x hx).resolve_right hne
    exact hshift.fits_other (h.fits x hx) hne
  refine ⟨?_, ?_, ?_⟩
  · intro x hx
    obtain hx | hx := List.mem_append.mp hx
    · exact h.keeps x hx
    · rw [List.mem_singleton.mp hx]
      exact hu
  · intro x hx
    obtain hx | hx := List.mem_append.mp hx
    · by_cases hfree : x.2 = .free
      · rw [hfree]
        trivial
      · exact (hother hx hfree).2
    · rw [List.mem_singleton.mp hx]
      exact hshift.fits hg
  · refine List.pairwise_append.mpr ⟨h.apart, List.pairwise_singleton _ _, fun x hx y hy => ?_⟩
    rw [List.mem_singleton.mp hy]
    by_cases hfree : x.2 = .free
    · exact .inl hfree
    · exact .inr (hother hx hfree).1

/-- Without one, what is under way stays orderly, and only that one or the others may have a
grip. -/
lemma Orderly.eraseIdx (h : Orderly v l) {n : ℕ} {u : Undertaking σ} (hx : l[n]? = some (u, g)) :
    Orderly v (l.eraseIdx n) ∧ ∀ x ∈ l.eraseIdx n, g = .free ∨ x.2 = .free := by
  have hsub : (l.eraseIdx n).Sublist l := List.eraseIdx_sublist l n
  refine ⟨⟨fun x hx => h.keeps x (hsub.subset hx), fun x hx => h.fits x (hsub.subset hx),
    h.apart.sublist hsub⟩, ?_⟩
  obtain ⟨hn, hget⟩ := List.getElem?_eq_some_iff.mp hx
  have hperm : List.Perm ((u, g) :: l.eraseIdx n) l := by
    rw [← hget]
    exact List.getElem_cons_eraseIdx_perm hn
  have hpairwise := h.apart.perm hperm.symm fun h => h.symm
  exact (List.pairwise_cons.mp hpairwise).1

/-- Whoever begins or goes on makes a shift and leaves the scene calm. -/
lemma calm_place {p : Progress (Session σ) Unit} (hv : v.Sound) (h : Orderly v l) (hg : g.Fits v)
    (hapart : ∀ x ∈ l, g = .free ∨ x.2 = .free) (hp : p.Keeps op (fun _ => .free) g v) :
    (place op (l.map Prod.fst) p).Calm ∧
      ∃ g', Shift op g v g' (place op (l.map Prod.fst) p).session.snapshot := by
  cases p with
  | done a s =>
    obtain ⟨rfl, -⟩ := hp
    exact ⟨⟨hv, l, rfl, h⟩, g, .rest g s.snapshot⟩
  | going s next =>
    obtain ⟨g', hshift, hnext⟩ := hp
    refine ⟨⟨hshift.sound hg hv, l ++ [(⟨op, fun _ => next⟩, g')], List.map_append, ?_⟩, g', hshift⟩
    exact h.shift hg hapart hshift fun _ => hnext
  | waiting s resume =>
    obtain ⟨g', hshift, hresume⟩ := hp
    refine ⟨⟨hshift.sound hg hv, l ++ [(⟨op, resume⟩, g')], List.map_append, ?_⟩, g', hshift⟩
    exact h.shift hg hapart hshift hresume

/-- The step lemma: what happens in a calm scene is a shift, or nothing, and the scene is calm
afterwards. -/
theorem Calm.step {scene : Scene σ} (h : scene.Calm) (venue : Venue σ) (x : Happening σ) :
    (scene.step venue x).Calm ∧ (scene.step venue x = scene ∨
      ∃ op g g', scene.operation? x = some op ∧ g.Fits scene.session.snapshot ∧
        Shift op g scene.session.snapshot g' (scene.step venue x).session.snapshot) := by
  obtain ⟨hsound, l, hl, horderly⟩ := h
  cases x with
  | begins op =>
    have hfree : Grip.free.Fits scene.session.snapshot := trivial
    have hkeeps := op.keeps venue scene.session hfree
    obtain ⟨hcalm, g', hshift⟩ := calm_place hsound horderly hfree (fun _ _ => .inl rfl) hkeeps
    rw [hl] at hcalm hshift
    exact ⟨hcalm, .inr ⟨op, .free, g', rfl, trivial, hshift⟩⟩
  | goes n c =>
    cases hn : scene.undertakings[n]? with
    | none =>
      have hstep : scene.step venue (.goes n c) = scene := by rw [Scene.step, hn]
      rw [hstep]
      exact ⟨⟨hsound, l, hl, horderly⟩, .inl rfl⟩
    | some u =>
      -- the undertaking at `n` is taken out of the scene, with the grip that it has
      obtain ⟨⟨u, g⟩, hx, rfl⟩ : ∃ x, l[n]? = some x ∧ x.1 = u := by
        rw [← hl, List.getElem?_map] at hn
        exact Option.map_eq_some_iff.mp hn
      have hg := horderly.fits _ (List.mem_of_getElem? hx)
      have hkeeps := horderly.keeps _ (List.mem_of_getElem? hx) c scene.session hg
      obtain ⟨hothers, hapart⟩ := horderly.eraseIdx hx
      obtain ⟨hcalm, g', hshift⟩ := calm_place hsound hothers hg hapart hkeeps
      have hstep : scene.step venue (.goes n c) =
          place u.operation ((l.eraseIdx n).map Prod.fst) (u.resume c scene.session) := by
        rw [Scene.step, hn, ← hl, List.eraseIdx_map]
      rw [hstep]
      exact ⟨hcalm, .inr ⟨u.operation, g, g', by rw [operation?, hn]; rfl, hg, hshift⟩⟩

/-- The scene of a session that is about to begin. -/
def begin (service : σ) (tokens : Tokens) : Scene σ where
  session := .begin service tokens

/-- The scene of a session that is about to begin is calm: nothing is under way. -/
lemma calm_begin (service : σ) (tokens : Tokens) : (begin service tokens).Calm where
  sound := {
    history := rfl
    active := rfl
    duel := fun h => by cases h
    phase := fun h => by cases h
    pending := fun d h => by cases h
    closing := fun h => by cases h }
  orderly := ⟨[], rfl, by simp, by simp, .nil⟩

/-- A scene stays calm, and all that happens leads to what comes later. -/
theorem Calm.run {scene : Scene σ} (h : scene.Calm) (venue : Venue σ) (xs : List (Happening σ)) :
    (scene.run venue xs).Calm ∧
      scene.session.snapshot.Later (scene.run venue xs).session.snapshot := by
  induction xs using List.reverseRecOn with
  | nil => exact ⟨h, .refl _⟩
  | append_singleton xs x ih =>
    obtain ⟨hcalm, hlater⟩ := ih
    rw [run_concat]
    obtain ⟨hcalm', hsame | ⟨op, g, g', -, hg, hshift⟩⟩ := hcalm.step venue x
    · rw [hsame]
      exact ⟨hcalm, hlater⟩
    · exact ⟨hcalm', hlater.trans (hshift.later hg hcalm.sound) h.sound hcalm.sound⟩

/-! ### The main statement -/

/-- What can be said of a session at some point of a run, and of all that may come later. -/
structure Lives (venue : Venue σ) (scene : Scene σ) : Prop where
  /-- Some phase was entered. -/
  entered : scene.session.standing.history ≠ []
  /-- The phases were entered in order, none of them left out. -/
  ordered : scene.session.standing.history <+: [.idle, .queued, .active, .finishing, .over]
  /-- The present phase was entered last. -/
  current : scene.session.standing.history.getLast? = some scene.session.standing.phase
  /-- A duel is said to run if and only if there is one. -/
  running : scene.session.standing.active ↔ scene.session.standing.duel.isSome
  /-- There is a duel in the active phase. -/
  active : scene.session.standing.phase = .active → scene.session.standing.duel.isSome
  /-- There is none but in the active phase and in the finishing phase. -/
  phase : scene.session.standing.duel.isSome →
    scene.session.standing.phase = .active ∨ scene.session.standing.phase = .finishing
  /-- Its result is not known yet. -/
  pending : ∀ d, scene.session.standing.duel = some d → d.result = .pending
  /-- It was set by the event of its start. -/
  start : ∀ x d, scene.session.standing.duel = none →
    (scene.step venue x).session.standing.duel = some d →
    scene.operation? x = some (.event (.started d.id d.opponent d.task))
  /-- It is never exchanged for another one. -/
  same : ∀ xs d d', scene.session.standing.duel = some d →
    (scene.run venue xs).session.standing.duel = some d' → d'.id = d.id
  /-- Once it is cleared there is never a duel again. -/
  once : ∀ xs ys, scene.session.standing.duel.isSome →
    (scene.run venue xs).session.standing.duel = none →
    ((scene.run venue xs).run venue ys).session.standing.duel = none
  /-- The flag stays raised. -/
  stopping : ∀ xs, scene.session.standing.stopping →
    (scene.run venue xs).session.standing.stopping
  /-- The stop signal stays raised. -/
  raised : ∀ xs, scene.session.crew.raised → (scene.run venue xs).session.crew.raised
  /-- In the end both are raised. -/
  closing : scene.session.standing.phase = .over →
    scene.session.standing.stopping ∧ scene.session.crew.raised
  /-- Whatever happens in the end, nothing is seen of it. -/
  ended : ∀ xs, scene.session.standing.phase = .over →
    (scene.run venue xs).session.standing = scene.session.standing ∧
      (scene.run venue xs).session.crew.raised = scene.session.crew.raised

/-- All that is to be said of a session can be said of a calm scene, and of all scenes that may come
later. -/
lemma Calm.lives {scene : Scene σ} (h : scene.Calm) (venue : Venue σ) : scene.Lives venue := by
  have hhistory : scene.session.standing.history = scene.session.standing.phase.upTo :=
    h.sound.history
  refine {
    entered := ?_
    ordered := ?_
    current := ?_
    running := ?_
    active := h.sound.duel
    phase := h.sound.phase
    pending := h.sound.pending
    start := ?_
    same := fun xs => (h.run venue xs).2.duel
    once := ?_
    stopping := fun xs => (h.run venue xs).2.stopping
    raised := fun xs => (h.run venue xs).2.raised
    closing := h.sound.closing
    ended := ?_ }
  · rw [hhistory]
    cases scene.session.standing.phase <;> decide
  · rw [hhistory]
    cases scene.session.standing.phase <;> decide
  · rw [hhistory]
    cases scene.session.standing.phase <;> rfl
  · have hactive : scene.session.standing.active = scene.session.standing.duel.isSome :=
      h.sound.active
    rw [hactive]
  · intro x d hnone hd
    -- only a shift can bring a duel, and it is the one of its start
    obtain ⟨-, hsame | ⟨op, g, g', hop, -, hshift⟩⟩ := h.step venue x
    · rw [hsame] at hd
      cases hnone.symm.trans hd
    · rw [hop, hshift.begins hnone hd]
  · intro xs ys hsome hnone
    obtain ⟨d, hd⟩ := Option.isSome_iff_exists.mp hsome
    obtain ⟨hcalm, hlater⟩ := h.run venue xs
    -- who has had a duel is past the queue, and stays past it
    have hearly := hlater.not_isEarly h.sound hcalm.sound (h.sound.not_isEarly hd)
    exact (hcalm.run venue ys).2.cleared hearly hnone
  · intro xs hover
    have hsame := (h.run venue xs).2.ended hover
    exact ⟨congrArg Snapshot.standing hsame, congrArg Snapshot.raised hsame⟩

end Scene

/-- The life of a session, at every point of every run. -/
theorem lifecycle (venue : Venue σ) (service : σ) (tokens : Tokens) (xs : List (Happening σ)) :
    ((Scene.begin service tokens).run venue xs).Lives venue :=
  ((Scene.calm_begin service tokens).run venue xs).1.lives venue

end Duelist
