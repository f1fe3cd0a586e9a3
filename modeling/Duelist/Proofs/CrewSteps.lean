import Duelist.Submission.Crew
import Mathlib.Data.Nat.Notation
import Mathlib.Tactic.Lemma
/-!
# What the steps of a crew do

All that the theory needs to know about starting a follower (`Crew.follow_cases`), moving one
(`Crew.move_cases`) and joining (`Crew.join_eq`), each said once.
-/

namespace Duelist.Crew

variable {σ : Type}

/-- The numbers of the followers that nobody has waited for. -/
def untaken (crew : Crew σ) : List ℕ :=
  List.range' crew.joined (crew.followers.length - crew.joined)

/-- True if there is a follower numbered `n` and it has ended. -/
def hasEnded (crew : Crew σ) (n : ℕ) : Bool :=
  (crew.followers[n]?).any Follower.hasEnded

/-- A number is that of a follower that has ended if there is such a follower. -/
lemma hasEnded_iff {crew : Crew σ} {n : ℕ} :
    crew.hasEnded n ↔ ∃ f, crew.followers[n]? = some f ∧ f.hasEnded := by
  unfold hasEnded
  cases crew.followers[n]? <;> simp

variable (link : Link σ) (crew : Crew σ)

/-- The start of a follower, written out. -/
lemma follow_eq (duel submission : Int64) :
    follow link duel submission crew = (if crew.raised then pure false else do
      let follower ← Follower.start link duel submission
      modify fun crew => { crew with followers := crew.followers ++ [follower] }
      return true : StateM (Crew σ) Bool) crew := rfl

/-- No follower is started once the signal is raised. -/
lemma follow_of_raised (duel submission : Int64) (h : crew.raised) :
    follow link duel submission crew = (false, crew) := by
  rw [follow_eq, if_pos h]
  rfl

/-- A follower is started as long as the signal is not raised. -/
lemma follow_of_free (duel submission : Int64) (h : crew.raised = false) :
    follow link duel submission crew = (true,
      { crew with
        world := (Follower.start link duel submission crew.world).2
        followers := crew.followers ++ [(Follower.start link duel submission crew.world).1] }) := by
  rw [follow_eq, if_neg (by simp [h])]
  rfl

/-- A follower is started unless the signal is raised. -/
lemma follow_cases (duel submission : Int64) :
    (follow link duel submission crew).2 = crew ∨ (crew.raised = false ∧
      ∃ w f, (follow link duel submission crew).2 =
        { crew with world := w, followers := crew.followers ++ [f] }) := by
  by_cases hraised : crew.raised
  · rw [follow_of_raised link crew duel submission hraised]
    exact .inl rfl
  · have hfree : crew.raised = false := by simpa using hraised
    rw [follow_of_free link crew duel submission hfree]
    exact .inr ⟨hfree, _, _, rfl⟩

/-- A move, written out. -/
lemma move_eq (n : ℕ) : move link n crew = (match crew.followers[n]? with
    | none => pure .absent
    | some f => if f.hasEnded then pure .alreadyEnded else do
      let f ← Follower.move link crew.raised f
      modify fun crew => { crew with followers := crew.followers.set n f }
      return if f.hasEnded then .ended else .asking : StateM (Crew σ) Moved) crew := rfl

/-- A follower that has not ended makes a move. -/
lemma move_cases (n : ℕ) :
    (move link n crew).2 = crew ∨ ∃ f, crew.followers[n]? = some f ∧ f.hasEnded = false ∧
      ∃ w f', (move link n crew).2 =
        { crew with world := w, followers := crew.followers.set n f' } := by
  rw [move_eq]
  cases hf : crew.followers[n]? with
  | none => exact .inl rfl
  | some f =>
    by_cases hended : f.hasEnded
    · exact .inl (by simp only [hended]; rfl)
    · refine .inr ⟨f, rfl, by simpa using hended, ?_⟩
      simp only [hended]
      exact ⟨_, _, rfl⟩

/-- A follower that has ended makes no move. -/
lemma move_of_hasEnded {n : ℕ} (h : crew.hasEnded n) : (move link n crew).2 = crew := by
  rcases move_cases link crew n with hsame | ⟨f, hf, hended, -⟩
  · exact hsame
  · rw [hasEnded, hf, Option.any_some, hended] at h
    cases h

/-- A follower that has ended stays so when another one joins the crew. -/
lemma hasEnded_append {crew : Crew σ} {n : ℕ} (w : World σ) (f : Follower) (h : crew.hasEnded n) :
    Crew.hasEnded { crew with world := w, followers := crew.followers ++ [f] } n := by
  obtain ⟨g, hg, hended⟩ := hasEnded_iff.mp h
  have hn : n < crew.followers.length := (List.getElem?_eq_some_iff.mp hg).1
  exact hasEnded_iff.mpr ⟨g, by rw [List.getElem?_append_left hn, hg], hended⟩

/-- A follower that has ended stays so when another one is started. -/
lemma hasEnded_follow (duel submission : Int64) {n : ℕ} (h : crew.hasEnded n) :
    (follow link duel submission crew).2.hasEnded n := by
  rcases follow_cases link crew duel submission with hsame | ⟨-, w, f, hnew⟩
  · rwa [hsame]
  · rw [hnew]
    exact hasEnded_append w f h

/-- A follower that has ended stays so when another one takes the place of one that has not. -/
lemma hasEnded_set {crew : Crew σ} {n m : ℕ} {f : Follower} (hf : crew.followers[n]? = some f)
    (hended : f.hasEnded = false) (w : World σ) (f' : Follower) (h : crew.hasEnded m) :
    Crew.hasEnded { crew with world := w, followers := crew.followers.set n f' } m := by
  obtain ⟨g, hg, hgended⟩ := hasEnded_iff.mp h
  have hne : n ≠ m := by
    rintro rfl
    rw [hf] at hg
    rw [Option.some.inj hg, hgended] at hended
    cases hended
  exact hasEnded_iff.mpr ⟨g, by rw [List.getElem?_set_ne hne, hg], hgended⟩

/-- A follower that has ended stays so when another one makes a move. -/
lemma hasEnded_move (n : ℕ) {m : ℕ} (h : crew.hasEnded m) :
    (move link n crew).2.hasEnded m := by
  rcases move_cases link crew n with hsame | ⟨f, hf, hended, w, f', hnew⟩
  · rwa [hsame]
  · rw [hnew]
    exact hasEnded_set hf hended w f' h

/-- Starting a follower has nothing to do with the signal. -/
lemma raised_follow (duel submission : Int64) :
    (follow link duel submission crew).2.raised = crew.raised := by
  rcases follow_cases link crew duel submission with hsame | ⟨-, w, f, hnew⟩
  · rw [hsame]
  · rw [hnew]

/-- A move of a follower has nothing to do with the signal. -/
lemma raised_move (n : ℕ) : (move link n crew).2.raised = crew.raised := by
  rcases move_cases link crew n with hsame | ⟨f, -, -, w, f', hnew⟩
  · rw [hsame]
  · rw [hnew]

/-- The followers from the one numbered `k` on that have not ended. -/
lemma length_filter_range' (k : ℕ) (l : List Follower) (h : crew.followers.drop k = l) :
    ((List.range' k l.length).filter fun n => !crew.hasEnded n).length =
      l.countP fun f => !f.hasEnded := by
  induction l generalizing k with
  | nil => rfl
  | cons f l ih =>
    have hf : crew.followers[k]? = some f := by
      have hget : (crew.followers.drop k)[0]? = some f := by rw [h]; rfl
      rwa [List.getElem?_drop, Nat.add_zero] at hget
    have hl : crew.followers.drop (k + 1) = l := by
      rw [← List.tail_drop, h, List.tail_cons]
    have hk : crew.hasEnded k = f.hasEnded := by rw [hasEnded, hf, Option.any_some]
    rw [List.length_cons, List.range'_succ, List.filter_cons, List.countP_cons, hk, ← ih (k + 1) hl]
    split
    · rfl
    · rfl

/-- Whoever joins takes the followers that nobody has taken, and gives up those of them that have
not ended. -/
lemma join_eq : join crew = ((crew.untaken.filter fun n => !crew.hasEnded n).length,
    { crew with joined := crew.followers.length }) := by
  have hlength : (crew.followers.drop crew.joined).length =
      crew.followers.length - crew.joined := List.length_drop
  rw [untaken, ← hlength, length_filter_range' crew crew.joined _ rfl]
  rfl

end Duelist.Crew
