import Duelist.Exchange.Reply
/-!
# Errands

An errand is something done step by step, in the course of which a body may have to be read that is
still being written. Whoever does the errand then waits for the end of that body. Others go on
meanwhile, and also between two steps, so that the state in which the errand is taken up again need
not be the one in which it was left.

An errand that is done `atOnce` lets nobody in between and waits for nothing: it takes each body
that is still being written for empty. Main statements: `atOnce` respects the composition of errands
(`atOnce_bind`), and a single step is left as it is (`atOnce_lift`).
-/

namespace Duelist

/-- How far an errand has come that acts on `τ` and yields `α`. -/
inductive Progress (τ α : Type) where
  /-- Done, with the state as it now is. -/
  | done (a : α) (s : τ)
  /-- Between two steps, with the state as it now is; `next` takes the state as it is then. -/
  | going (s : τ) (next : τ → Progress τ α)
  /-- Waiting for a content, with the state as it now is; `resume` takes the content and the state
  as it is then. -/
  | waiting (s : τ) (resume : Content → τ → Progress τ α)

/-- Something done on a state of type `τ` step by step. -/
def Errand (τ α : Type) := τ → Progress τ α

namespace Progress

variable {τ υ α β : Type}

/-- Goes on with `f`. -/
def andThen (f : α → Errand τ β) : Progress τ α → Progress τ β
  | .done a s => f a s
  | .going s next => .going s fun s => (next s).andThen f
  | .waiting s resume => .waiting s fun c s => (resume c s).andThen f

/-- Comes to the end with nobody in between and without waiting, every content being `c`. -/
def drain (c : Content) : Progress τ α → α × τ
  | .done a s => (a, s)
  | .going s next => (next s).drain c
  | .waiting s resume => (resume c s).drain c

/-- The progress seen from a larger state, of which `put` replaces the part that is acted on, as
`take` finds it. -/
def within (take : υ → τ) (put : τ → υ → υ) : Progress τ α → υ → Progress υ α
  | .done a s, whole => .done a (put s whole)
  | .going s next, whole =>
    .going (put s whole) fun whole => (next (take whole)).within take put whole
  | .waiting s resume, whole =>
    .waiting (put s whole) fun c whole => (resume c (take whole)).within take put whole

end Progress

namespace Errand

variable {τ υ α β : Type}

instance : Monad (Errand τ) where
  pure a := fun s => .done a s
  bind e f := fun s => (e s).andThen f

/-- A single step. -/
def lift (act : StateM τ α) : Errand τ α := fun s =>
  .going (act s).2 (.done (act s).1)

instance : MonadLift (StateM τ) (Errand τ) := ⟨lift⟩

/-- Waits for a content. -/
def wait : Errand τ Content := fun s =>
  .waiting s .done

/-- Acts on a part of the state, which `take` finds and `put` replaces. -/
def within (take : υ → τ) (put : τ → υ → υ) (e : Errand τ α) : Errand υ α := fun whole =>
  (e (take whole)).within take put whole

/-- Does the errand with nobody in between and without waiting. -/
def atOnce (e : Errand τ α) : StateM τ α := fun s =>
  (e s).drain {}

end Errand

/-- The reply with its body read to the end. -/
def Reply.awaited {τ : Type} (r : Reply) : Errand τ Reply :=
  match r.body with
  | .whole _ => return r
  | .live => return { r with body := .whole (← Errand.wait) }

/-! ### One errand after another -/

namespace Progress

variable {τ α β γ : Type}

/-- To end with the result that has come is to do nothing more. -/
theorem andThen_done (p : Progress τ α) : p.andThen (fun a s => .done a s) = p := by
  induction p with
  | done a s => rfl
  | going s next ih => exact congrArg (Progress.going s) (funext ih)
  | waiting s resume ih => exact congrArg (Progress.waiting s) (funext fun c => funext (ih c))

/-- It does not matter how three errands in a row are put together. -/
theorem andThen_andThen (p : Progress τ α) (f : α → Errand τ β) (g : β → Errand τ γ) :
    (p.andThen f).andThen g = p.andThen fun a s => (f a s).andThen g := by
  induction p with
  | done a s => rfl
  | going s next ih => exact congrArg (Progress.going s) (funext ih)
  | waiting s resume ih => exact congrArg (Progress.waiting s) (funext fun c => funext (ih c))

end Progress

/-- Errands are a lawful monad. This is no instance, so that it is used on purpose. -/
theorem Errand.lawfulMonad {τ : Type} : LawfulMonad (Errand τ) :=
  .mk' _ (fun e => funext fun s => (e s).andThen_done) (fun _ _ => rfl)
    (fun e f g => funext fun s => (e s).andThen_andThen f g)

/-! ### Errands done at once -/

namespace Errand

variable {τ υ α β : Type}

/-- A result that is there is there at once. -/
@[simp]
theorem atOnce_pure (a : α) : (pure a : Errand τ α).atOnce = pure a := rfl

/-- A single step is done at once. -/
@[simp]
theorem atOnce_lift (act : StateM τ α) : (lift act).atOnce = act := rfl

/-- A single step that is lifted implicitly is done at once, too. -/
@[simp]
theorem atOnce_liftM (act : StateM τ α) : (liftM act : Errand τ α).atOnce = act := rfl

/-- At once, nothing has come of the body yet. -/
@[simp]
theorem atOnce_wait : (wait : Errand τ Content).atOnce = pure {} := rfl

/-- If every body holds the same, two errands in a row come to their ends one after the other. -/
theorem drain_andThen (c : Content) (f : α → Errand τ β) (p : Progress τ α) :
    (p.andThen f).drain c = (f (p.drain c).1 (p.drain c).2).drain c := by
  induction p with
  | done a s => rfl
  | going s next ih => exact ih s
  | waiting s resume ih => exact ih c s

/-- Two errands in a row are done at once if each of them is. -/
@[simp]
theorem atOnce_bind (e : Errand τ α) (f : α → Errand τ β) :
    (e >>= f).atOnce = e.atOnce >>= fun a => (f a).atOnce := by
  funext s
  exact drain_andThen {} f (e s)

end Errand

/-- A body that is still being written is taken for empty. -/
theorem Reply.atOnce_awaited {τ : Type} (r : Reply) :
    (r.awaited : Errand τ Reply).atOnce = pure { r with body := .whole r.body.content } := by
  obtain ⟨status, body⟩ := r
  cases body <;> rfl

end Duelist
