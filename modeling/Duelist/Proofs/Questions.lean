import Duelist.Proofs.Raising
/-!
# What followers are about to ask

Between two moves a follower is at rest: it has ended, or it is about to send the question about its
submission, for the first time or again with a fresh token. Whatever is done with it, it is at rest
again afterwards (`Follower.rests_start`, `Follower.rests_move`, `Follower.rests_conclude`).
-/

namespace Duelist

variable {σ : Type}

namespace Call

variable (link : Link σ)

/-- A call that is taken further keeps to its query. -/
lemma query?_settle (c : Call) (w : World σ) {q : Query}
    (h : (c.settle link w).1.query? = some q) : c.query? = some q := by
  rw [settle] at h
  generalize c.rank = n at h
  induction n generalizing c w with
  | zero => exact h
  | succ n ih =>
    by_cases hrest : c.isAtRest
    · rw [settleWithin, if_pos hrest] at h
      exact h
    · rw [settleWithin_succ link hrest] at h
      exact (goes_step link c w).query_eq (ih _ _ h)

/-- A call that was taken as far as this sends its own query next, or is over. -/
lemma isAtRest_settle (c : Call) (w : World σ) : (c.settle link w).1.isAtRest := by
  have hwithin (n : ℕ) (c : Call) (w : World σ) (h : c.rank ≤ n) :
      (c.settleWithin link n w).1.isAtRest := by
    induction n generalizing c w with
    | zero =>
      obtain ⟨result, rfl⟩ := eq_finished_of_rank_le h
      rfl
    | succ n ih =>
      by_cases hrest : c.isAtRest
      · rw [settleWithin, if_pos hrest]
        exact hrest
      · rw [settleWithin_succ link hrest]
        have hrank : c.rank ≠ 0 := fun h0 => by
          obtain ⟨result, rfl⟩ := eq_finished_of_rank_le h0.le
          exact hrest rfl
        have hlt := rank_step_lt link c w hrank
        exact ih _ _ (by omega)
  exact hwithin c.rank c w le_rfl

end Call

namespace Follower

/-- The follower is about to send its question with `token`. -/
def Asks (f : Follower) (token : String) : Prop :=
  f.pursuit = .asking (.sending (.grading f.duel f.submission) token) ∨
    f.pursuit = .asking (.retrying (.grading f.duel f.submission) token)

/-- The follower has ended, or is about to send its question. -/
def Rests (f : Follower) : Prop :=
  f.hasEnded ∨ ∃ token, f.Asks token

/-- What a follower at rest is about to send is the question itself. -/
lemma Rests.isAtRest {f : Follower} {c : Call} (h : f.Rests) (hc : f.pursuit = .asking c) :
    c.isAtRest := by
  rcases h with hended | ⟨token, h | h⟩
  · rw [hasEnded, hc] at hended
    cases hended
  · cases hc.symm.trans h
    rfl
  · cases hc.symm.trans h
    rfl

variable (link : Link σ)

/-- A new follower is about to send its question. -/
lemma rests_start (duel submission : Int64) (w : World σ) :
    (start link duel submission w).1.Rests :=
  .inr ⟨w.tokens.access, .inl rfl⟩

/-- A move in which the answer is heard. -/
lemma move_heard {f : Follower} {c : Call} {w v : World σ} {result : Except Failure Reply}
    (raised : Bool) (hc : f.pursuit = .asking c)
    (h : (c.step link w).1.settle link (c.step link w).2 = (.finished result, v)) :
    f.move link raised w =
      settle link (hear raised f result v).1 (hear raised f result v).2 := by
  obtain ⟨duel, submission, memory, pursuit⟩ := f
  dsimp only at hc
  subst hc
  have hmove := move_asking link raised ⟨duel, submission, memory, .asking c⟩ c w
  rw [h] at hmove
  exact hmove

/-- A move after which another question is to be sent. -/
lemma move_unheard {f : Follower} {c c' : Call} {w v : World σ} (raised : Bool)
    (hc : f.pursuit = .asking c)
    (h : (c.step link w).1.settle link (c.step link w).2 = (c', v))
    (hne : ∀ result, c' ≠ .finished result) :
    f.move link raised w = ({ f with pursuit := .asking c' }, v) := by
  obtain ⟨duel, submission, memory, pursuit⟩ := f
  dsimp only at hc
  subst hc
  have hmove := move_asking link raised ⟨duel, submission, memory, .asking c⟩ c w
  rw [h] at hmove
  cases c' with
  | finished result => exact absurd rfl (hne result)
  | _ => exact hmove

/-- A follower at rest is so again after a move. -/
theorem rests_move {f : Follower} (h : f.Rests) (raised : Bool) (w : World σ) :
    (f.move link raised w).1.Rests := by
  rcases h with hended | ⟨token, h⟩
  · have hmove : f.move link raised w = (f, w) := by
      obtain ⟨duel, submission, memory, pursuit⟩ := f
      cases pursuit with
      | ended => rfl
      | asking c => cases hended
    rw [hmove]
    exact .inl hended
  obtain ⟨c, hc, hquery⟩ :
      ∃ c, f.pursuit = .asking c ∧ c.query? = some (.grading f.duel f.submission) := by
    rcases h with h | h <;> exact ⟨_, h, rfl⟩
  have hrest := Call.isAtRest_settle link (c.step link w).1 (c.step link w).2
  have hkeeps {q : Query}
      (hq : ((c.step link w).1.settle link (c.step link w).2).1.query? = some q) :
      q = .grading f.duel f.submission :=
    Option.some.inj (((Call.goes_step link c w).query_eq
      (Call.query?_settle link _ _ hq)).symm.trans hquery)
  cases hsettled : (c.step link w).1.settle link (c.step link w).2 with
  | mk c' v =>
    rw [hsettled] at hrest hkeeps
    -- a call at rest is about to send or finished
    cases c' with
    | sending q used =>
      obtain rfl := hkeeps rfl
      rw [move_unheard link raised hc hsettled fun _ => Call.noConfusion]
      exact .inr ⟨used, .inl rfl⟩
    | retrying q fresh =>
      obtain rfl := hkeeps rfl
      rw [move_unheard link raised hc hsettled fun _ => Call.noConfusion]
      exact .inr ⟨fresh, .inr rfl⟩
    | finished result =>
      rw [move_heard link raised hc hsettled, hear_eq]
      dsimp only
      split
      · exact .inl rfl
      · exact .inr ⟨_, .inl rfl⟩
    | _ => cases hrest

/-- A follower that has concluded is at rest, since it has ended. -/
lemma rests_conclude (f : Follower) (w : World σ) : (f.conclude link w).1.Rests :=
  .inl (f.conclude_spec link w).1

end Follower

end Duelist
