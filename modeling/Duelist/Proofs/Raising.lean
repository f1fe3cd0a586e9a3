import Duelist.Proofs.Bulletins
/-!
# Raising the stop signal

What becomes of the followers of a crew when the stop signal is raised. One after the other, in
order of number, those that are still asking bring the question under way to its end, tell the news,
and stop; those that never answer are left as they are. `Crew.Concludes` says so, with what each of
them adds to the transcript. The main statement is `Crew.raise_spec`.
-/

namespace Duelist

variable {σ : Type}

/-- To see a call through only adds to the transcript. -/
lemma Call.exists_transcript_complete (link : Link σ) (c : Call) (w : World σ) :
    ∃ entries, (c.complete link w).2.transcript = w.transcript ++ entries := by
  induction hc : c.rank using Nat.strongRecOn generalizing c w with
  | _ rank ih =>
    subst hc
    by_cases hrank : c.rank = 0
    · obtain ⟨result, rfl⟩ := eq_finished_of_rank_le (Nat.le_of_eq hrank)
      exact ⟨[], (List.append_nil _).symm⟩
    · have hstep := (leads_step link c w).transcript_eq
      obtain ⟨entries, hrest⟩ :=
        ih _ (rank_step_lt link c w hrank) (c.step link w).1 (c.step link w).2 rfl
      rw [complete_apply, hrest, hstep, List.append_assoc]
      exact ⟨_, rfl⟩

namespace Follower

variable (link : Link σ)

/-- There is nothing to conclude for a follower that has ended. -/
lemma conclude_of_hasEnded {f : Follower} (h : f.hasEnded) (w : World σ) :
    f.conclude link w = (f, w) := by
  cases hpursuit : f.pursuit with
  | ended =>
    rw [conclude, hpursuit]
    rfl
  | asking c =>
    rw [hasEnded, hpursuit] at h
    cases h

/-- A follower that is asking concludes by hearing the answer. -/
lemma conclude_asking {f : Follower} {c : Call} (h : f.pursuit = .asking c) (w : World σ) :
    f.conclude link w = hear true f (c.complete link w).1 (c.complete link w).2 := by
  obtain ⟨duel, submission, memory, pursuit⟩ := f
  dsimp only at h
  subst h
  rfl

/-- A follower that concludes has ended, and has only added to the transcript. -/
lemma conclude_spec (f : Follower) (w : World σ) : (f.conclude link w).1.hasEnded ∧
    ∃ entries, (f.conclude link w).2.transcript = w.transcript ++ entries := by
  cases hpursuit : f.pursuit with
  | ended =>
    have hended : f.hasEnded := by rw [hasEnded, hpursuit]
    rw [conclude_of_hasEnded link hended]
    exact ⟨hended, [], (List.append_nil _).symm⟩
  | asking c =>
    obtain ⟨entries, hentries⟩ := c.exists_transcript_complete link w
    rw [conclude_asking link hpursuit, hear_eq, Bool.or_true, if_pos rfl]
    refine ⟨rfl, entries ++ (f.memory.notices f.submission
      (recordOf Grading.ofJson? (c.complete link w).1)).map Entry.notice, ?_⟩
    dsimp only
    rw [hentries, List.append_assoc]

end Follower

namespace Crew

/-- How followers conclude, who are numbered from `n` on: what they add to the transcript, each with
its number, and the followers and the world afterwards. -/
inductive Concludes (link : Link σ) (hangs : ℕ → Bool) : ℕ → List Follower → World σ →
    List (ℕ × List Entry) → List Follower → World σ → Prop
  | nil (n : ℕ) (w : World σ) : Concludes link hangs n [] w [] [] w
  | rests {n : ℕ} {f : Follower} {fs fs' : List Follower} {w w' : World σ}
      {added : List (ℕ × List Entry)} (hf : f.hasEnded ∨ hangs n)
      (h : Concludes link hangs (n + 1) fs w added fs' w') :
      Concludes link hangs n (f :: fs) w added (f :: fs') w'
  | ends {n : ℕ} {f : Follower} {fs fs' : List Follower} {w w' : World σ}
      {added : List (ℕ × List Entry)} (hf : f.hasEnded = false) (hn : hangs n = false)
      (entries : List Entry)
      (hentries : (f.conclude link w).2.transcript = w.transcript ++ entries)
      (h : Concludes link hangs (n + 1) fs (f.conclude link w).2 added fs' w') :
      Concludes link hangs n (f :: fs) w ((n, entries) :: added)
        ((f.conclude link w).1 :: fs') w'

section

variable {link : Link σ} {hangs : ℕ → Bool} {n : ℕ} {fs fs' : List Follower} {w w' : World σ}
  {added : List (ℕ × List Entry)}

variable (link hangs) in
/-- So followers conclude. -/
lemma exists_concludes (n : ℕ) (fs : List Follower) (w : World σ) :
    ∃ added, Concludes link hangs n fs w added (concludeFrom link hangs n fs w).1
      (concludeFrom link hangs n fs w).2 := by
  induction fs generalizing n w with
  | nil => exact ⟨[], .nil n w⟩
  | cons f fs ih =>
    -- a follower that hangs is left as it is, and so is one that has ended
    by_cases hn : hangs n
    · obtain ⟨added, h⟩ := ih (n + 1) w
      have hfrom : concludeFrom link hangs n (f :: fs) w =
          (f :: (concludeFrom link hangs (n + 1) fs w).1,
            (concludeFrom link hangs (n + 1) fs w).2) := by
        rw [concludeFrom, if_pos hn]
        rfl
      rw [hfrom]
      exact ⟨added, .rests (.inr hn) h⟩
    · have hfrom : concludeFrom link hangs n (f :: fs) w =
          ((f.conclude link w).1 :: (concludeFrom link hangs (n + 1) fs (f.conclude link w).2).1,
            (concludeFrom link hangs (n + 1) fs (f.conclude link w).2).2) := by
        rw [concludeFrom, if_neg hn]
        rfl
      rw [hfrom]
      cases hf : f.hasEnded with
      | false =>
        obtain ⟨added, h⟩ := ih (n + 1) (f.conclude link w).2
        obtain ⟨-, entries, hentries⟩ := f.conclude_spec link w
        exact ⟨(n, entries) :: added, .ends hf (by simpa using hn) entries hentries h⟩
      | true =>
        obtain ⟨added, h⟩ := ih (n + 1) w
        rw [Follower.conclude_of_hasEnded link hf]
        exact ⟨added, .rests (.inl hf) h⟩

namespace Concludes

/-- What is added to the transcript is added in order of number. -/
lemma transcript_eq (h : Concludes link hangs n fs w added fs' w') :
    w'.transcript = w.transcript ++ added.flatMap Prod.snd := by
  induction h with
  | nil => exact (List.append_nil _).symm
  | rests _ _ ih => exact ih
  | ends _ _ entries hentries _ ih =>
    rw [ih, hentries, List.flatMap_cons, List.append_assoc]

/-- In the end everybody has ended, but for those who never answer. -/
lemma hasEnded_or (h : Concludes link hangs n fs w added fs' w') :
    ∀ k f', fs'[k]? = some f' → f'.hasEnded ∨ hangs (n + k) := by
  induction h with
  | nil => simp
  | rests hf _ ih =>
    intro k f' hf'
    cases k with
    | zero =>
      obtain rfl := Option.some.inj hf'
      exact hf
    | succ k =>
      rw [← Nat.succ_add_eq_add_succ]
      exact ih k f' hf'
  | @ends n f fs fs' w w' added hf hn entries hentries h ih =>
    intro k f' hf'
    cases k with
    | zero =>
      obtain rfl := Option.some.inj hf'
      exact .inl (f.conclude_spec link w).1
    | succ k =>
      rw [← Nat.succ_add_eq_add_succ]
      exact ih k f' hf'

/-- Whoever has ended before stays so. -/
lemma hasEnded_mono (h : Concludes link hangs n fs w added fs' w') :
    ∀ (k : ℕ) (f : Follower), fs[k]? = some f → f.hasEnded → fs'[k]? = some f := by
  induction h with
  | nil => simp
  | rests hf _ ih =>
    intro k f hk hended
    cases k with
    | zero => exact hk
    | succ k => exact ih k f hk hended
  | ends hf _ _ _ _ ih =>
    intro k f hk hended
    cases k with
    | zero =>
      obtain rfl := Option.some.inj hk
      cases hf.symm.trans hended
    | succ k => exact ih k f hk hended

/-- If all have ended but those who never answer, then nothing is done. -/
lemma eq_of_hasEnded_or (h : Concludes link hangs n fs w added fs' w')
    (hfs : ∀ k f, fs[k]? = some f → f.hasEnded ∨ hangs (n + k)) :
    added = [] ∧ fs' = fs ∧ w' = w := by
  induction h with
  | nil => exact ⟨rfl, rfl, rfl⟩
  | rests hf _ ih =>
    obtain ⟨hadded, hfs', hw⟩ := ih fun k f hk => by
      rw [Nat.succ_add_eq_add_succ]
      exact hfs (k + 1) f hk
    exact ⟨hadded, by rw [hfs'], hw⟩
  | ends hf hn _ _ _ _ =>
    rcases hfs 0 _ rfl with hended | hhangs
    · cases hf.symm.trans hended
    · cases hn.symm.trans hhangs

end Concludes

end

variable (link : Link σ) (hangs : ℕ → Bool) (crew : Crew σ)

/-- When the signal is raised, the followers conclude. -/
theorem raise_spec : ∃ added fs w,
    Concludes link hangs 0 crew.followers crew.world added fs w ∧
      raise link hangs crew = ((), { crew with raised := true, followers := fs, world := w }) := by
  obtain ⟨added, h⟩ := exists_concludes link hangs 0 crew.followers crew.world
  exact ⟨added, _, _, h, rfl⟩

end Crew
end Duelist
