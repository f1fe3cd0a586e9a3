import Duelist.Proofs.CallSteps
import Duelist.Proofs.CrewSteps
import Mathlib.Logic.Function.Iterate
/-!
# What the steps of a follower do

A follower moves from one question to be sent to the next, and much happens in between. Here the
same is said in single steps, which are those of its calls: `Follower.tread` makes one of them, or
hears the answer that came back. Others may act between any two. The stop signal is looked at when
an answer has been heard, and again before the next question is begun.

A move is several steps (`Follower.exists_treads_move`). What the theory needs to know about a step
of a follower in its crew is said once (`Crew.tread_cases`).
-/

namespace Duelist

variable {σ : Type}

namespace Call

/-- True unless the call is about to begin. -/
def hasBegun : Call → Bool
  | .reading _ => false
  | _ => true

/-- After a step a call has begun, whatever the step was. -/
lemma hasBegun_step (link : Link σ) (c : Call) (w : World σ) : (c.step link w).1.hasBegun := by
  have h := goes_step link c w
  generalize (c.step link w).1 = c' at h
  cases h <;> rfl

/-- A call that is not at rest takes a step, and goes on from there. -/
lemma settleWithin_succ (link : Link σ) {c : Call} (h : ¬c.isAtRest) (n : ℕ) (w : World σ) :
    c.settleWithin link (n + 1) w = (c.step link w).1.settleWithin link n (c.step link w).2 := by
  rw [settleWithin, if_neg h]
  rfl

end Call

namespace Follower

variable (link : Link σ)

/-- A new follower. -/
def fresh (duel submission : Int64) : Follower :=
  asksAgain { duel, submission, pursuit := .ended }

/-- Makes one step. -/
def tread (raised : Bool) (f : Follower) : Act σ Follower :=
  match f.pursuit with
  | .ended => return f
  | .asking (.finished result) => hear raised f result
  | .asking (.reading q) => do
    if raised then return f.stopped
    else return { f with pursuit := .asking (← (Call.reading q).step link) }
  | .asking call => return { f with pursuit := .asking (← call.step link) }

/-- Makes `k` steps. -/
def treads (raised : Bool) : ℕ → Follower → Act σ Follower
  | 0, f => return f
  | k + 1, f => do treads raised k (← tread link raised f)

variable (raised : Bool)

/-- A follower that has ended makes no step. -/
lemma tread_of_hasEnded {f : Follower} (h : f.hasEnded) (w : World σ) :
    tread link raised f w = (f, w) := by
  obtain ⟨duel, submission, memory, pursuit⟩ := f
  cases pursuit with
  | asking call => cases h
  | ended => rfl

/-- Many steps are some steps and then the rest of them. -/
lemma treads_add (j k : ℕ) (f : Follower) (w : World σ) :
    treads link raised (j + k) f w =
      treads link raised k (treads link raised j f w).1 (treads link raised j f w).2 := by
  induction j generalizing f w with
  | zero => rw [Nat.zero_add]; rfl
  | succ j ih => rw [Nat.succ_add]; exact ih _ _

/-- A step of a call that has begun is a step of the follower, and so is the first step as long as
the signal is not raised. -/
lemma tread_asking (f : Follower) {c : Call} (hbegun : c.hasBegun ∨ raised = false)
    (hrank : c.rank ≠ 0) (w : World σ) :
    tread link raised { f with pursuit := .asking c } w =
      ({ f with pursuit := .asking (c.step link w).1 }, (c.step link w).2) := by
  cases c with
  | reading q =>
    obtain rfl : raised = false := hbegun.resolve_left Bool.noConfusion
    rfl
  | finished result => exact absurd rfl hrank
  | _ => rfl

/-- To go on with a call up to the next question to be sent is to make several steps. -/
lemma exists_treads_settleWithin (f : Follower) (n : ℕ) {c : Call}
    (hbegun : c.hasBegun ∨ raised = false) (w : World σ) :
    ∃ k, treads link raised k { f with pursuit := .asking c } w =
      ({ f with pursuit := .asking (c.settleWithin link n w).1 }, (c.settleWithin link n w).2) := by
  induction n generalizing c w with
  | zero => exact ⟨0, rfl⟩
  | succ n ih =>
    by_cases hrest : c.isAtRest
    · refine ⟨0, ?_⟩
      rw [Call.settleWithin, if_pos hrest]
      rfl
    · obtain ⟨k, hk⟩ := ih (.inl (Call.hasBegun_step link c w)) (c.step link w).2
      refine ⟨k + 1, ?_⟩
      have hrank : c.rank ≠ 0 := fun h0 => by
        obtain ⟨result, rfl⟩ := Call.eq_finished_of_rank_le (Nat.le_of_eq h0)
        exact hrest rfl
      have htread := tread_asking link raised f hbegun hrank w
      rw [Call.settleWithin_succ link hrest, ← hk]
      exact congrArg (fun p : Follower × World σ => treads link raised k p.1 p.2) htread

/-- So it is for a follower, unless it may not begin. -/
lemma exists_treads_settle (f : Follower)
    (h : ∀ c, f.pursuit = .asking c → c.hasBegun ∨ raised = false) (w : World σ) :
    ∃ k, treads link raised k f w = settle link f w := by
  obtain ⟨duel, submission, memory, pursuit⟩ := f
  cases pursuit with
  | ended => exact ⟨0, rfl⟩
  | asking c =>
    exact exists_treads_settleWithin link raised
      { duel, submission, memory, pursuit := .ended } c.rank (h c rfl) w

/-- Once the signal is raised no other question is begun. -/
lemma hear_cases (f : Follower) (result : Except Failure Reply) (w : World σ) :
    (hear raised f result w).1.pursuit = .ended ∨ raised = false := by
  cases raised with
  | false => exact .inr rfl
  | true =>
    left
    have hhear : hear true f result w =
        ((f.tell (recordOf Grading.ofJson? result) w).1.stopped,
          (f.tell (recordOf Grading.ofJson? result) w).2) := by
      simp only [hear, Bool.or_true, if_true]
      rfl
    rw [hhear]
    rfl

/-- A move of a follower that is asking. -/
lemma move_asking (f : Follower) (c : Call) (w : World σ) :
    let settled := (c.step link w).1.settle link (c.step link w).2
    move link raised { f with pursuit := .asking c } w =
      (match settled.1 with
        | .finished result => do settle link (← hear raised { f with pursuit := .asking c } result)
        | call => return { f with pursuit := .asking call } : Act σ Follower) settled.2 := rfl

/-- A follower that is about to send a question makes its move in several steps. -/
theorem exists_treads_move (f : Follower) (h : ∀ c, f.pursuit = .asking c → c.isAtRest)
    (w : World σ) : ∃ k, treads link raised k f w = move link raised f w := by
  obtain ⟨duel, submission, memory, pursuit⟩ := f
  cases pursuit with
  | ended => exact ⟨0, rfl⟩
  | asking c =>
    let f (c : Call) : Follower := { duel, submission, memory, pursuit := .asking c }
    have hbegun : c.hasBegun := by
      have hrest := h c rfl
      cases c with
      | reading q => cases hrest
      | _ => rfl
    obtain ⟨j, hj⟩ : ∃ j, treads link raised j (f c) w =
        (f (c.step link w).1, (c.step link w).2) := by
      by_cases hrank : c.rank = 0
      · obtain ⟨result, rfl⟩ := Call.eq_finished_of_rank_le (Nat.le_of_eq hrank)
        exact ⟨0, rfl⟩
      · exact ⟨1, tread_asking link raised (f c) (.inl hbegun) hrank w⟩
    obtain ⟨k, hk⟩ := exists_treads_settleWithin link raised (f c)
      (c.step link w).1.rank (.inl (Call.hasBegun_step link c w)) (c.step link w).2
    have hmove := move_asking link raised (f c) c w
    have hsettle := treads_add link raised j k (f c) w
    rw [hj] at hsettle
    replace hsettle := hsettle.trans hk
    change _ = (f ((c.step link w).1.settle link (c.step link w).2).1,
      ((c.step link w).1.settle link (c.step link w).2).2) at hsettle
    generalize (c.step link w).1.settle link (c.step link w).2 = settled at hmove hsettle
    obtain ⟨call, v⟩ := settled
    cases call with
    | finished result =>
      -- the answer is heard, and the follower settles unless it has ended
      obtain ⟨m, hm⟩ := exists_treads_settle link raised
        (hear raised (f c) result v).1
        (fun call hcall => .inr ((hear_cases raised (f c) result v).resolve_left
          (by rw [hcall]; exact Pursuit.noConfusion))) (hear raised (f c) result v).2
      refine ⟨j + k + (m + 1), ?_⟩
      have hadd := treads_add link raised (j + k) (m + 1) (f c) w
      rw [hsettle] at hadd
      exact (hadd.trans hm).trans hmove.symm
    | _ => exact ⟨j + k, hsettle.trans hmove.symm⟩

/-- To see a call through is to make several steps. -/
lemma exists_treads_complete (f : Follower) {c : Call} (hbegun : c.hasBegun ∨ raised = false)
    (w : World σ) : ∃ k, treads link raised k { f with pursuit := .asking c } w =
      ({ f with pursuit := .asking (.finished (c.complete link w).1) }, (c.complete link w).2) := by
  induction hc : c.rank using Nat.strongRecOn generalizing c w with
  | _ rank ih =>
    subst hc
    by_cases hrank : c.rank = 0
    · obtain ⟨result, rfl⟩ := Call.eq_finished_of_rank_le (Nat.le_of_eq hrank)
      exact ⟨0, rfl⟩
    · obtain ⟨k, hk⟩ := ih _ (Call.rank_step_lt link c w hrank)
        (.inl (Call.hasBegun_step link c w)) (c.step link w).2 rfl
      refine ⟨k + 1, ?_⟩
      have htread := tread_asking link raised f hbegun hrank w
      rw [Call.complete_apply, ← hk]
      exact congrArg (fun p : Follower × World σ => treads link raised k p.1 p.2) htread

/-- A follower that is about to send a question concludes in several steps. -/
theorem exists_treads_conclude (f : Follower) (h : ∀ c, f.pursuit = .asking c → c.isAtRest)
    (w : World σ) : ∃ k, treads link true k f w = conclude link f w := by
  obtain ⟨duel, submission, memory, pursuit⟩ := f
  cases pursuit with
  | ended => exact ⟨0, rfl⟩
  | asking c =>
    have hbegun : c.hasBegun := by
      have hrest := h c rfl
      cases c with
      | reading q => cases hrest
      | _ => rfl
    obtain ⟨k, hk⟩ := exists_treads_complete link true
      { duel, submission, memory, pursuit := .asking c } (.inl hbegun) w
    refine ⟨k + 1, (treads_add link true k 1 _ w).trans ?_⟩
    rw [hk]
    rfl

/-- A new follower is started in several steps. -/
theorem exists_treads_start (duel submission : Int64) (w : World σ) :
    ∃ k, treads link false k (fresh duel submission) w = start link duel submission w :=
  exists_treads_settle link false (fresh duel submission) (fun _ _ => .inr rfl) w

end Follower

namespace Crew

variable (link : Link σ) (crew : Crew σ) (n : ℕ)

/-- The crew once the follower numbered `n` has made a step. -/
def tread : Crew σ :=
  match crew.followers[n]? with
  | none => crew
  | some f =>
    { crew with
      world := (f.tread link crew.raised crew.world).2
      followers := crew.followers.set n (f.tread link crew.raised crew.world).1 }

variable {crew n}

/-- A step of the follower numbered `n` is taken in the world of the crew, and puts it back to its
place. -/
lemma tread_of_eq_some {f : Follower} (hf : crew.followers[n]? = some f) :
    tread link crew n =
      { crew with
        world := (f.tread link crew.raised crew.world).2
        followers := crew.followers.set n (f.tread link crew.raised crew.world).1 } := by
  rw [tread, hf]

/-- A number that no follower has does nothing. -/
lemma tread_of_eq_none (hf : crew.followers[n]? = none) : tread link crew n = crew := by
  rw [tread, hf]

/-- To put a follower where it is changes nothing. -/
lemma set_eq_self {f : Follower} (hf : crew.followers[n]? = some f) :
    { crew with followers := crew.followers.set n f } = crew := by
  obtain ⟨hn, rfl⟩ := List.getElem?_eq_some_iff.mp hf
  rw [List.set_getElem_self]

/-- A follower that has ended stays so when another one makes a step. -/
lemma hasEnded_tread {m : ℕ} (h : crew.hasEnded m) : (tread link crew n).hasEnded m := by
  cases hf : crew.followers[n]? with
  | none => rwa [tread_of_eq_none link hf]
  | some f =>
    rw [tread_of_eq_some link hf]
    by_cases hended : f.hasEnded
    · rw [Follower.tread_of_hasEnded link _ hended]
      exact (congrArg (Crew.hasEnded · m) (set_eq_self hf)).trans h
    · exact hasEnded_set hf (by simpa using hended) _ _ h

/-- A step changes neither the signal nor the number of followers. -/
lemma tread_frame (crew : Crew σ) (n : ℕ) : (tread link crew n).raised = crew.raised ∧
    (tread link crew n).followers.length = crew.followers.length ∧
    (tread link crew n).joined = crew.joined := by
  cases hf : crew.followers[n]? with
  | none =>
    rw [tread_of_eq_none link hf]
    exact ⟨rfl, rfl, rfl⟩
  | some f =>
    rw [tread_of_eq_some link hf]
    exact ⟨rfl, List.length_set, rfl⟩

/-- Several steps of one follower. -/
lemma iterate_tread {f : Follower} (k : ℕ) (hf : crew.followers[n]? = some f) :
    (fun crew => tread link crew n)^[k] crew =
      { crew with
        world := (f.treads link crew.raised k crew.world).2
        followers := crew.followers.set n (f.treads link crew.raised k crew.world).1 } := by
  induction k generalizing crew f with
  | zero => exact (set_eq_self hf).symm
  | succ k ih =>
    have hn : n < crew.followers.length := (List.getElem?_eq_some_iff.mp hf).1
    rw [Function.iterate_succ_apply, tread_of_eq_some link hf, ih (List.getElem?_set_self hn),
      List.set_set]
    rfl

/-- A move in a crew is several steps. -/
theorem exists_iterate_tread {f : Follower} (hf : crew.followers[n]? = some f)
    (h : ∀ c, f.pursuit = .asking c → c.isAtRest) :
    ∃ k, (fun crew => tread link crew n)^[k] crew = (move link n crew).2 := by
  by_cases hended : f.hasEnded
  · have hcrew : crew.hasEnded n := hasEnded_iff.mpr ⟨f, hf, hended⟩
    exact ⟨0, (move_of_hasEnded link crew hcrew).symm⟩
  · obtain ⟨k, hk⟩ :=
      Follower.exists_treads_move link crew.raised f h crew.world
    have hmove := move_eq link crew n
    rw [hf] at hmove
    simp only [hended] at hmove
    exact ⟨k, by rw [iterate_tread link k hf, hk, hmove]; rfl⟩

end Crew
end Duelist
