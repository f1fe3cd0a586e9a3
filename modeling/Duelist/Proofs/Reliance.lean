import Duelist.Exchange.Errand
import Mathlib.Tactic.Lemma
/-!
# Reliance

What an errand does among others who may be relied upon. Three things are given: what a step of the
errand may do, and which deeds it thereby adds to those before (`leads`); what others may do between
two steps (`rely`); and what is to hold of the deeds, the result and the state in the end (`post`).
`Progress.Does` says that all this is so of what is left of an errand.

An errand is taken step by step, as it is written (`Errand.does_lift_bind`). With nobody in between
the deeds of all steps lead from the first state to the last (`Progress.Does.drain`).

Where only the end matters, `Progress.Ends` says no more than what then holds of the result and the
state.
-/

namespace Duelist

variable {τ υ δ ε α β : Type}

namespace Progress

/-- What is left of an errand does what it should, the first step being made in the state `v` after
`deeds`. -/
def Does (rely : τ → τ → Prop) (leads : τ → List δ → τ → Prop) (post : List δ → α → τ → Prop) :
    (deeds : List δ) → (v : τ) → Progress τ α → Prop
  | deeds, v, .done a s => s = v ∧ post deeds a s
  | deeds, v, .going s next => ∃ new, leads v new s ∧
    ∀ t, rely s t → (next t).Does rely leads post (deeds ++ new) t
  | deeds, v, .waiting s resume => ∃ new, leads v new s ∧
    ∀ c t, rely s t → (resume c t).Does rely leads post (deeds ++ new) t

variable {rely : τ → τ → Prop} {leads : τ → List δ → τ → Prop} {post : List δ → α → τ → Prop}
  {deeds : List δ} {v : τ} {p : Progress τ α}

/-- One thing after another. -/
lemma Does.andThen (h : p.Does rely leads post deeds v) {f : α → Errand τ β}
    {post' : List δ → β → τ → Prop}
    (hf : ∀ deeds a t, post deeds a t → (f a t).Does rely leads post' deeds t) :
    (p.andThen f).Does rely leads post' deeds v := by
  induction p generalizing deeds v with
  | done a s =>
    obtain ⟨rfl, hpost⟩ := h
    exact hf deeds a s hpost
  | going s next ih =>
    obtain ⟨new, hleads, hnext⟩ := h
    exact ⟨new, hleads, fun t ht => ih t (hnext t ht)⟩
  | waiting s resume ih =>
    obtain ⟨new, hleads, hresume⟩ := h
    exact ⟨new, hleads, fun c t ht => ih c t (hresume c t ht)⟩

/-- What holds in the end may be weakened. -/
lemma Does.imp (h : p.Does rely leads post deeds v) {post' : List δ → α → τ → Prop}
    (hpost : ∀ deeds a t, post deeds a t → post' deeds a t) :
    p.Does rely leads post' deeds v := by
  rw [← p.andThen_done]
  exact h.andThen fun deeds a t ha => ⟨rfl, hpost deeds a t ha⟩

/-- What is so of an errand is so of it after other deeds. -/
lemma Does.after (h : p.Does rely leads post deeds v) (before : List δ) :
    p.Does rely leads (fun ds a t => ∃ new, ds = before ++ new ∧ post new a t)
      (before ++ deeds) v := by
  induction p generalizing deeds v with
  | done a s =>
    obtain ⟨rfl, hpost⟩ := h
    exact ⟨rfl, deeds, rfl, hpost⟩
  | going s next ih =>
    obtain ⟨new, hleads, hnext⟩ := h
    exact ⟨new, hleads, fun t ht => by
      rw [List.append_assoc]
      exact ih t (hnext t ht)⟩
  | waiting s resume ih =>
    obtain ⟨new, hleads, hresume⟩ := h
    exact ⟨new, hleads, fun c t ht => by
      rw [List.append_assoc]
      exact ih c t (hresume c t ht)⟩

/-- With nobody in between, all deeds lead from the first state to the last. -/
theorem Does.drain (h : p.Does rely leads post deeds v) (hrely : ∀ s, rely s s)
    (hnil : ∀ s, leads s [] s)
    (happend : ∀ s t u ds es, leads s ds t → leads t es u → leads s (ds ++ es) u) (c : Content) :
    ∃ new, leads v new (p.drain c).2 ∧ post (deeds ++ new) (p.drain c).1 (p.drain c).2 := by
  induction p generalizing deeds v with
  | done a s =>
    obtain ⟨rfl, hpost⟩ := h
    exact ⟨[], hnil s, by rwa [List.append_nil]⟩
  | going s next ih =>
    obtain ⟨new, hleads, hnext⟩ := h
    obtain ⟨new', hleads', hpost⟩ := ih s (hnext s (hrely s))
    exact ⟨new ++ new', happend _ _ _ _ _ hleads hleads', by rwa [← List.append_assoc]⟩
  | waiting s resume ih =>
    obtain ⟨new, hleads, hresume⟩ := h
    obtain ⟨new', hleads', hpost⟩ := ih c s (hresume c s (hrely s))
    exact ⟨new ++ new', happend _ _ _ _ _ hleads hleads', by rwa [← List.append_assoc]⟩

/-- Whatever is left of an errand comes to, `post` holds of the result and the state. -/
def Ends (rely : τ → τ → Prop) (post : α → τ → Prop) : Progress τ α → Prop
  | .done a s => post a s
  | .going s next => ∀ t, rely s t → (next t).Ends rely post
  | .waiting s resume => ∀ c t, rely s t → (resume c t).Ends rely post

/-- If one thing comes to an end of a kind, and all that may come after such an end comes to one of
another kind, then so do both together. -/
lemma Ends.andThen {post : α → τ → Prop} (h : p.Ends rely post) {f : α → Errand τ β}
    {post' : β → τ → Prop} (hf : ∀ a t, post a t → (f a t).Ends rely post') :
    (p.andThen f).Ends rely post' := by
  induction p with
  | done a s => exact hf a s h
  | going s next ih => exact fun t ht => ih t (h t ht)
  | waiting s resume ih => exact fun c t ht => ih c t (h c t ht)

/-- With nobody in between, the end is one of those that hold among others. -/
lemma Ends.drain {post : α → τ → Prop} (h : p.Ends rely post) (hrely : ∀ s, rely s s)
    (c : Content) : post (p.drain c).1 (p.drain c).2 := by
  induction p with
  | done a s => exact h
  | going s next ih => exact ih s (h s (hrely s))
  | waiting s resume ih => exact ih c s (h c s (hrely s))

end Progress

namespace Errand

variable {rely : τ → τ → Prop} {leads : τ → List δ → τ → Prop} {post : List δ → α → τ → Prop}
  {deeds : List δ} {s : τ}

/-- To do nothing comes to its result, with nothing done since. -/
lemma does_pure {a : α} (h : post deeds a s) :
    ((pure a : Errand τ α) s).Does rely leads post deeds s :=
  ⟨rfl, h⟩

/-- A single step. -/
lemma does_lift {act : StateM τ α} (new : List δ) (hleads : leads s new (act s).2)
    (h : ∀ t, rely (act s).2 t → post (deeds ++ new) (act s).1 t) :
    ((liftM act : Errand τ α) s).Does rely leads post deeds s :=
  ⟨new, hleads, fun t ht => ⟨rfl, h t ht⟩⟩

/-- A single step, and what comes after it. -/
lemma does_lift_bind {act : StateM τ β} {f : β → Errand τ α} (new : List δ)
    (hleads : leads s new (act s).2)
    (h : ∀ t, rely (act s).2 t → (f (act s).1 t).Does rely leads post (deeds ++ new) t) :
    (((liftM act : Errand τ β) >>= f) s).Does rely leads post deeds s :=
  ⟨new, hleads, h⟩

/-- An errand of its own, and what comes after it. -/
lemma does_bind {mid : List δ → β → τ → Prop} {e : Errand τ β} {f : β → Errand τ α}
    (h : (e s).Does rely leads mid [] s)
    (hf : ∀ new b t, mid new b t → (f b t).Does rely leads post (deeds ++ new) t) :
    ((e >>= f) s).Does rely leads post deeds s := by
  have hafter := h.after deeds
  rw [List.append_nil] at hafter
  refine hafter.andThen fun _ b t hmid => ?_
  obtain ⟨new, rfl, hmid⟩ := hmid
  exact hf new b t hmid

/-- One errand after another comes to an end of the second, from any end of the first. -/
lemma ends_bind {post : α → τ → Prop} {mid : β → τ → Prop} {e : Errand τ β}
    {f : β → Errand τ α} (h : (e s).Ends rely mid)
    (hf : ∀ b t, mid b t → (f b t).Ends rely post) : ((e >>= f) s).Ends rely post :=
  h.andThen hf

/-- After a single step others may act, and then the rest comes to its end. -/
lemma ends_lift_bind {post : α → τ → Prop} {act : StateM τ β} {f : β → Errand τ α}
    (h : ∀ t, rely (act s).2 t → (f (act s).1 t).Ends rely post) :
    (((liftM act : Errand τ β) >>= f) s).Ends rely post :=
  h

end Errand
end Duelist
