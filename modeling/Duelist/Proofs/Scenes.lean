import Duelist.Session.HandingIn
import Duelist.Session.Queueing
import Mathlib.Data.Nat.Notation
import Mathlib.Tactic.Lemma
/-!
# Scenes

A session with all that is being done with it. Several things may be under way at a time: events
that are being taken, solutions that are being handed in, somebody who leaves. Each is an errand;
one that has begun and is not done is an undertaking, which knows how to go on. Whenever it has come
to a point between two steps, or waits for a body, any other may go on, or something new may begin.
Nothing is said of who does what: several events may be taken at the same time.

What happens to a scene is a list of happenings. `Scene.run_alone` says that an operation with
nobody in between is the errand done at once.
-/

namespace Duelist

variable {σ : Type}

/-- Something that is done with a session. -/
inductive Operation (σ : Type) where
  /-- Joins the queue. -/
  | queue
  /-- Takes an event of the stream. -/
  | event (e : Event)
  /-- Hands in the solution at `path`. -/
  | submit (path : String)
  /-- Leaves. -/
  | leave
  /-- Raises the stop signal, and nothing else. -/
  | raise
  /-- Lets the follower numbered `n` make one move. -/
  | poll (n : ℕ)
  /-- What others do in the world. -/
  | other (act : Act σ Unit)

/-- The errand of an operation. -/
def Operation.errand (venue : Venue σ) : Operation σ → Errand (Session σ) Unit
  | .queue => do let _ ← Session.joinQueue
  | .event e => do let _ ← Session.take venue e
  | .submit path => do let _ ← Session.handingIn venue path
  | .leave => do let _ ← Session.leaving venue
  | .raise => .lift (Session.raise venue)
  | .poll n => do let _ ← Errand.lift (Session.onCrew (Crew.move venue.link n))
  | .other act => .lift (Session.inWorld act)

/-- An operation that is under way. -/
structure Undertaking (σ : Type) where
  /-- The operation. -/
  operation : Operation σ
  /-- Goes on, with a content if the operation waits for one. -/
  resume : Content → Session σ → Progress (Session σ) Unit

/-- A session, and what is being done with it. -/
structure Scene (σ : Type) where
  /-- The session. -/
  session : Session σ
  /-- What is under way. -/
  undertakings : List (Undertaking σ) := []

/-- Something that happens in a scene. -/
inductive Happening (σ : Type) where
  /-- An operation begins. -/
  | begins (op : Operation σ)
  /-- What is at place `n` goes on, with the content `c` if it waits for one. -/
  | goes (n : ℕ) (c : Content)

namespace Scene

variable (venue : Venue σ)

/-- The scene once the operation `op` has come so far; `others` are what else is under way. -/
def place (op : Operation σ) (others : List (Undertaking σ)) : Progress (Session σ) Unit → Scene σ
  | .done _ s => { session := s, undertakings := others }
  | .going s next => { session := s, undertakings := others ++ [⟨op, fun _ => next⟩] }
  | .waiting s resume => { session := s, undertakings := others ++ [⟨op, resume⟩] }

/-- The scene after a happening. -/
def step (scene : Scene σ) : Happening σ → Scene σ
  | .begins op => place op scene.undertakings (op.errand venue scene.session)
  | .goes n c =>
    match scene.undertakings[n]? with
    | some u =>
      place u.operation (scene.undertakings.eraseIdx n) (u.resume c scene.session)
    | none => scene

/-- The scene after several happenings, in order. -/
def run (scene : Scene σ) (happenings : List (Happening σ)) : Scene σ :=
  happenings.foldl (step venue) scene

/-- The operation that is taken on by a happening. -/
def operation? (scene : Scene σ) : Happening σ → Option (Operation σ)
  | .begins op => some op
  | .goes n _ => (scene.undertakings[n]?).map Undertaking.operation

/-- A scene goes on where the happenings before have led it. -/
lemma run_append (scene : Scene σ) (hs hs' : List (Happening σ)) :
    scene.run venue (hs ++ hs') = (scene.run venue hs).run venue hs' :=
  List.foldl_append

/-- The last of some happenings comes after all the others. -/
lemma run_concat (scene : Scene σ) (hs : List (Happening σ)) (h : Happening σ) :
    scene.run venue (hs ++ [h]) = (scene.run venue hs).step venue h := by
  rw [run_append]
  rfl

/-- Whatever goes on with nobody in between comes to what it comes to at once. -/
lemma run_place (op : Operation σ) (p : Progress (Session σ) Unit) :
    ∃ n, (place op [] p).run venue (List.replicate n (.goes 0 {})) =
      { session := (p.drain {}).2, undertakings := [] } := by
  induction p with
  | done a s => exact ⟨0, rfl⟩
  | going s next ih =>
    obtain ⟨n, hn⟩ := ih s
    exact ⟨n + 1, hn⟩
  | waiting s resume ih =>
    obtain ⟨n, hn⟩ := ih {} s
    exact ⟨n + 1, hn⟩

/-- An operation with nobody in between is its errand done at once. -/
theorem run_alone (op : Operation σ) (s : Session σ) :
    ∃ n, ({ session := s } : Scene σ).run venue
        (.begins op :: List.replicate n (.goes 0 {})) =
      { session := ((op.errand venue).atOnce s).2, undertakings := [] } :=
  run_place venue op (op.errand venue s)

end Scene
end Duelist
