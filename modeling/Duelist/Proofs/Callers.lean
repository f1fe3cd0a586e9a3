import Duelist.Proofs.RefreshAndRetry
import Mathlib.Logic.Function.Basic
/-!
# Callers

Any number of calls under way in one world, each by a caller of its own. They take their steps in
any order, which is given as a schedule: the list of those who move, one after the other. A caller
who is about to take the refresh lock while another one holds it stays where it is.

`Callers.moves` lists the moves of a schedule, each with the callers before and after it. What the
theory says of a run it says of this list. A caller who moves alone sees its query through
(`Callers.run_alone`).
-/

namespace Duelist

/-- True if the next step of the call takes the refresh lock. -/
def Call.takesLock : Call → Bool
  | .refused _ _ => true
  | _ => false

/-- A call that takes the lock in its next step has just had its token refused. -/
lemma Call.eq_refused_of_takesLock {c : Call} (h : c.takesLock) :
    ∃ q used, c = .refused q used := by
  cases c with
  | refused q used => exact ⟨q, used, rfl⟩
  | _ => cases h

/-- The calls of several callers, the world in which they are made, and who holds the refresh
lock. -/
structure Callers (ι σ : Type) where
  /-- The world. -/
  world : World σ
  /-- The call of each caller. -/
  calls : ι → Call
  /-- The caller who holds the refresh lock. -/
  holder : Option ι := none

namespace Callers

variable {ι σ : Type} [DecidableEq ι]

/-- Callers who have yet to begin, each with a query. -/
def begin (w : World σ) (queries : ι → Query) : Callers ι σ where
  world := w
  calls i := .reading (queries i)

/-- True if the caller `i` has to wait for the refresh lock. -/
def isBlocked (s : Callers ι σ) (i : ι) : Bool :=
  (s.calls i).takesLock && s.holder.isSome

/-- Who holds the refresh lock once the caller `i` has gone on to `c`. -/
def holderAfter (s : Callers ι σ) (i : ι) (c : Call) : Option ι :=
  if c.holdsLock then some i else if s.holder = some i then none else s.holder

/-- The callers once the caller `i` has taken a step, if it can. -/
def move (link : Link σ) (s : Callers ι σ) (i : ι) : Callers ι σ :=
  if s.isBlocked i then s
  else
    { world := ((s.calls i).step link s.world).2
      calls := Function.update s.calls i ((s.calls i).step link s.world).1
      holder := s.holderAfter i ((s.calls i).step link s.world).1 }

/-- The callers once those on the schedule have moved, one after the other. -/
def run (link : Link σ) (s : Callers ι σ) (schedule : List ι) : Callers ι σ :=
  schedule.foldl (move link) s

/-- A move: who moves, and the callers before and after it. -/
structure Move (ι σ : Type) where
  /-- The one who moves. -/
  caller : ι
  /-- The callers before the move. -/
  before : Callers ι σ
  /-- The callers after the move. -/
  after : Callers ι σ

/-- The moves of a schedule. -/
def moves (link : Link σ) : Callers ι σ → List ι → List (Move ι σ)
  | _, [] => []
  | s, i :: schedule => ⟨i, s, s.move link i⟩ :: moves link (s.move link i) schedule

/-- To run one schedule after another is to run both together. -/
lemma run_append (link : Link σ) (s : Callers ι σ) (xs ys : List ι) :
    s.run link (xs ++ ys) = (s.run link xs).run link ys :=
  List.foldl_append

/-- The moves of two schedules, one after the other, are those of both. -/
lemma moves_append (link : Link σ) (s : Callers ι σ) (xs ys : List ι) :
    s.moves link (xs ++ ys) = s.moves link xs ++ (s.run link xs).moves link ys := by
  induction xs generalizing s with
  | nil => rfl
  | cons i xs ih => exact congrArg _ (ih (s.move link i))

/-- Each move is made at some point of the schedule, by the callers as they then are. -/
lemma moves_eq_append (link : Link σ) (s : Callers ι σ) (schedule : List ι)
    {T₁ T₂ : List (Move ι σ)} {m : Move ι σ} (h : s.moves link schedule = T₁ ++ m :: T₂) :
    ∃ xs ys, schedule = xs ++ m.caller :: ys ∧ T₁ = s.moves link xs ∧
      m.before = s.run link xs ∧ m.after = (s.run link xs).move link m.caller := by
  induction schedule generalizing s T₁ with
  | nil => simp [moves] at h
  | cons i schedule ih =>
    cases T₁ with
    | nil =>
      rw [moves, List.nil_append, List.cons.injEq] at h
      obtain ⟨rfl, -⟩ := h
      exact ⟨[], schedule, rfl, rfl, rfl, rfl⟩
    | cons m' T₁ =>
      rw [moves, List.cons_append, List.cons.injEq] at h
      obtain ⟨rfl, h⟩ := h
      obtain ⟨xs, ys, rfl, rfl, hbefore, hafter⟩ := ih _ h
      exact ⟨i :: xs, ys, rfl, rfl, hbefore, hafter⟩

/-! ### What a move does -/

/-- A move is a step of the call of the one who moves, unless it has to wait for the lock. -/
lemma move_cases (link : Link σ) (s : Callers ι σ) (i : ι) :
    ((s.calls i).takesLock ∧ s.holder.isSome ∧ s.move link i = s) ∨
      (((s.calls i).takesLock → s.holder = none) ∧
        (s.move link i).world = ((s.calls i).step link s.world).2 ∧
        (s.move link i).calls = Function.update s.calls i ((s.calls i).step link s.world).1 ∧
        (s.move link i).holder = s.holderAfter i ((s.calls i).step link s.world).1) := by
  by_cases h : s.isBlocked i
  · left
    obtain ⟨h1, h2⟩ := Bool.and_eq_true_iff.mp h
    exact ⟨h1, h2, if_pos h⟩
  · right
    have hm : s.move link i = _ := if_neg h
    refine ⟨fun ht => ?_, by rw [hm], by rw [hm], by rw [hm]⟩
    simpa [isBlocked, ht] using h

/-- The others stay where they are. -/
lemma move_calls_of_ne (link : Link σ) (s : Callers ι σ) {i j : ι} (h : j ≠ i) :
    (s.move link i).calls j = s.calls j := by
  obtain ⟨-, -, hm⟩ | ⟨-, -, hm, -⟩ := move_cases link s i
  · rw [hm]
  · rw [hm, Function.update_of_ne h]

/-! ### One caller alone -/

/-- A caller is never kept waiting if nobody else holds the lock. -/
lemma move_alone (link : Link σ) (s : Callers ι σ) (i : ι)
    (h : s.holder = none ∨ s.holder = some i ∧ (s.calls i).holdsLock) :
    (s.move link i).calls i = ((s.calls i).step link s.world).1 ∧
      (s.move link i).world = ((s.calls i).step link s.world).2 ∧
      ((s.move link i).holder = none ∨
        (s.move link i).holder = some i ∧ ((s.move link i).calls i).holdsLock) := by
  obtain ⟨htakes, hsome, -⟩ | ⟨-, hworld, hcalls, hholder⟩ := move_cases link s i
  · -- who has to wait for the lock does not hold it
    obtain ⟨-, hholds⟩ := h.resolve_left fun hnone => by rw [hnone] at hsome; cases hsome
    obtain ⟨q, used, hc⟩ := Call.eq_refused_of_takesLock htakes
    rw [hc] at hholds
    cases hholds
  · have hi : (s.move link i).calls i = ((s.calls i).step link s.world).1 := by
      rw [hcalls, Function.update_self]
    refine ⟨hi, hworld, ?_⟩
    rw [hholder, hi, holderAfter]
    split
    next hholds => exact .inr ⟨rfl, hholds⟩
    next =>
      left
      obtain hnone | ⟨hsome, -⟩ := h
      · rw [hnone]
        rfl
      · rw [if_pos hsome]

/-- A caller who moves alone finds each world as it left the one before. -/
lemma run_replicate (link : Link σ) (w : World σ) (queries : ι → Query) (i : ι) (n : ℕ) :
    let s := (begin w queries : Callers ι σ).run link (List.replicate n i)
    let c := Call.reading (queries i)
    s.calls i = c.along link (c.undisturbed link w) n ∧ s.world = c.undisturbed link w n ∧
      (s.holder = none ∨ s.holder = some i ∧ (s.calls i).holdsLock) := by
  intro s c
  induction n with
  | zero => exact ⟨rfl, rfl, .inl rfl⟩
  | succ n ih =>
    obtain ⟨hcall, hworld, hholder⟩ := ih
    obtain ⟨hcall', hworld', hholder'⟩ := move_alone link _ i hholder
    have hs : s = ((begin w queries).run link (List.replicate n i)).move link i := by
      simp only [s, List.replicate_succ', run_append]
      rfl
    rw [hs]
    refine ⟨?_, ?_, hholder'⟩
    · rw [hcall', hcall, hworld, Call.along_succ]
    · rw [hworld', hcall, hworld, Call.undisturbed_succ]
      rfl

/-- A caller alone sees its query through. -/
theorem run_alone (link : Link σ) (w : World σ) (queries : ι → Query) (i : ι) :
    let s := (begin w queries : Callers ι σ).run link (List.replicate 7 i)
    s.calls i = .finished ((link.request (queries i)).atOnce w).1 ∧
      s.world = ((link.request (queries i)).atOnce w).2 := by
  intro s
  obtain ⟨hcall, hworld, -⟩ := run_replicate link w queries i 7
  have hrank := Call.rank_along_le link ((Call.reading (queries i)).undisturbed link w)
    (Call.reading (queries i)) 7
  obtain ⟨result, hend⟩ := Call.eq_finished_of_rank_le hrank
  have hrequest : (link.request (queries i)).atOnce w =
      (result, (Call.reading (queries i)).undisturbed link w 7) := by
    rw [link.request_atOnce, Call.complete_undisturbed link (Call.reading (queries i)) w 7, hend]
    rfl
  rw [hrequest]
  exact ⟨hcall.trans hend, hworld⟩

end Callers
end Duelist
