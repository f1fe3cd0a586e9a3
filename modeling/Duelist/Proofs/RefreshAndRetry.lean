import Duelist.Proofs.CallSteps
import Mathlib.Data.List.Range
/-!
# Refresh and retry

All that one call does, whatever the service answers and whatever others do in the meantime.

`Course` is the account of it: the requests in order, each with what came of it, the pair that is
stored, and the result, in eight cases. It speaks of the access token that the call read and of the
pair that it found under the refresh lock, and of no step of the call. `refresh_and_retry` says that
every call takes such a course: first for a call among others, whose steps are made in any worlds
whatever, and then for a query that is seen through with nobody in between.
-/

namespace Duelist

variable {σ : Type}

/-! ### The course of a call -/

/-- The course of a call of `q` that read the access token `a` and, if that was refused, `found` the
stored pair under the refresh lock: what the call did, and its result. -/
inductive Course (base : String) (q : Query) (a : String) (found : Tokens) :
    List Deed → Except Failure Reply → Prop
  /-- The service was not reached. -/
  | unreached (reasons : List String) :
      Course base q a found [.sent (q.carrying base a) (.error reasons)]
        (.error (.unreachable (String.intercalate ": " reasons)))
  /-- The token was not refused. -/
  | answered (r : Reply) (hr : r.status ≠ 401) :
      Course base q a found [.sent (q.carrying base a) (.ok r)] (.ok r)
  /-- The token was refused, but another one is stored by now. -/
  | overtaken (r : Reply) (hr : r.status = 401) (hfound : found.access ≠ a) (o : Outcome) :
      Course base q a found
        [.sent (q.carrying base a) (.ok r), .sent (q.carrying base found.access) o]
        (o.mapError .ofReasons)
  /-- The token was refused, and there is no refresh token. -/
  | unrefreshable (r : Reply) (hr : r.status = 401) (hfound : found.access = a)
      (hrefresh : found.refresh = "") :
      Course base q a found [.sent (q.carrying base a) (.ok r)] (.error (.notSignedIn none))
  /-- The token was refused, and the service was not reached for new ones. -/
  | refreshUnreached (r : Reply) (hr : r.status = 401) (hfound : found.access = a)
      (hrefresh : found.refresh ≠ "") (reasons : List String) :
      Course base q a found
        [.sent (q.carrying base a) (.ok r), .sent (.refresh base found.refresh) (.error reasons)]
        (.error (.unreachable (String.intercalate ": " reasons)))
  /-- The token was refused, and the service gave no new ones. -/
  | refreshRefused (r : Reply) (hr : r.status = 401) (hfound : found.access = a)
      (hrefresh : found.refresh ≠ "") (s : Reply) (hs : s.status ≠ 200) :
      Course base q a found
        [.sent (q.carrying base a) (.ok r), .sent (.refresh base found.refresh) (.ok s)]
        (.error (.notSignedIn (some s.status)))
  /-- The token was refused, and the new ones cannot be read. -/
  | refreshMisfit (r : Reply) (hr : r.status = 401) (hfound : found.access = a)
      (hrefresh : found.refresh ≠ "") (s : Reply) (hs : s.status = 200) (what : Misfit)
      (hread : s.record Tokens.ofJson? = .error what) :
      Course base q a found
        [.sent (q.carrying base a) (.ok r), .sent (.refresh base found.refresh) (.ok s)]
        (.error (.misfit what))
  /-- The token was refused, and there are new ones. -/
  | refreshed (r : Reply) (hr : r.status = 401) (hfound : found.access = a)
      (hrefresh : found.refresh ≠ "") (s : Reply) (hs : s.status = 200) (pair : Tokens)
      (hread : s.record Tokens.ofJson? = .ok pair) (o : Outcome) :
      Course base q a found
        [.sent (q.carrying base a) (.ok r), .sent (.refresh base found.refresh) (.ok s),
          .stored pair, .sent (q.carrying base pair.access) o]
        (o.mapError .ofReasons)

/-! ### Where a call goes -/

/-- A refresh that does not reach the service. -/
lemma refreshedTokens_error (reasons : List String) :
    refreshedTokens ((Except.error reasons : Outcome).mapError .ofReasons) =
      .error (.unreachable (String.intercalate ": " reasons)) := rfl

/-- A refresh that the service refuses. -/
lemma refreshedTokens_of_ne {s : Reply} (hs : s.status ≠ 200) :
    refreshedTokens ((Except.ok s : Outcome).mapError .ofReasons) =
      .error (.notSignedIn (some s.status)) := by
  have h : s.isSuccess = false := by simpa [Reply.isSuccess] using hs
  simp [refreshedTokens, Except.mapError, bind, Except.bind, h, throw, throwThe,
    MonadExceptOf.throw]

/-- A refresh that the service grants. -/
lemma refreshedTokens_of_eq {s : Reply} (hs : s.status = 200) :
    refreshedTokens ((Except.ok s : Outcome).mapError .ofReasons) =
      (s.record Tokens.ofJson?).mapError .misfit := by
  have h : s.isSuccess = true := by simpa [Reply.isSuccess] using hs
  simp [refreshedTokens, Except.mapError, bind, Except.bind, h]

namespace Call

variable (link : Link σ) (worlds : ℕ → World σ) (c : Call)

/-- The call `c` after `k` steps, the `j`-th of which is made in the world `worlds j`. -/
def along : ℕ → Call
  | 0 => c
  | k + 1 => ((along k).step link (worlds k)).1

/-- The world as the `k`-th step of the call leaves it. -/
def leaving (k : ℕ) : World σ :=
  ((c.along link worlds k).step link (worlds k)).2

/-- What the call does in its `k`-th step. -/
def deedsAt (k : ℕ) : List Deed :=
  (c.along link worlds k).deeds link (worlds k)

/-- One step more is a step of the call as it then is. -/
lemma along_succ (k : ℕ) :
    c.along link worlds (k + 1) = ((c.along link worlds k).step link (worlds k)).1 := rfl

variable {link worlds c} {q : Query} {k n : ℕ} {result : Except Failure Reply}

/-- A call that is over stays over. -/
lemma along_of_finished (h : c.along link worlds k = .finished result) (hk : k ≤ n) :
    c.along link worlds n = .finished result := by
  induction n, hk using Nat.le_induction with
  | base => exact h
  | succ n _ ih => rw [along_succ, ih]; rfl

/-- A call that is over does nothing. -/
lemma deedsAt_of_finished (h : c.along link worlds k = .finished result) (hk : k ≤ n) :
    c.deedsAt link worlds n = [] := by
  rw [deedsAt, along_of_finished h hk]
  rfl

/-- All that a call does, it has done when it is over. -/
lemma flatMap_deedsAt_of_finished (h : c.along link worlds k = .finished result) (hk : k ≤ n) :
    (List.range n).flatMap (c.deedsAt link worlds) =
      (List.range k).flatMap (c.deedsAt link worlds) := by
  induction n, hk using Nat.le_induction with
  | base => rfl
  | succ n hn ih => simp [List.range_succ, ih, deedsAt_of_finished h hn]

/-- The step after the first sending. -/
lemma along_succ_of_sending {a : String} (h : c.along link worlds k = .sending q a) :
    c.along link worlds (k + 1) =
        answered q a ((link.outcome (q.carrying link.base a) (worlds k)).mapError .ofReasons) ∧
      c.deedsAt link worlds k =
        [.sent (q.carrying link.base a) (link.outcome (q.carrying link.base a) (worlds k))] := by
  rw [along_succ, deedsAt, h]
  have hs : (step link (.sending q a) (worlds k)).1 =
      answered q a (link.send q a (worlds k)).1 := rfl
  rw [hs, link.send_apply]
  exact ⟨rfl, rfl⟩

/-- The step after the refresh was sent. -/
lemma along_succ_of_refreshing {spent : String} (h : c.along link worlds k = .refreshing q spent) :
    c.along link worlds (k + 1) =
        refreshed q ((link.outcome (.refresh link.base spent) (worlds k)).mapError .ofReasons) ∧
      c.deedsAt link worlds k =
        [.sent (.refresh link.base spent)
          (link.outcome (.refresh link.base spent) (worlds k))] := by
  rw [along_succ, deedsAt, h]
  have hs : (step link (.refreshing q spent) (worlds k)).1 =
      refreshed q (link.sendAnonymously (.refresh spent) (worlds k)).1 := rfl
  rw [hs, link.sendAnonymously_refresh_apply]
  exact ⟨rfl, rfl⟩

/-- The step after the second sending, which is the last one. -/
lemma along_succ_of_retrying {fresh : String} (h : c.along link worlds k = .retrying q fresh) :
    c.along link worlds (k + 1) =
        .finished ((link.outcome (q.carrying link.base fresh) (worlds k)).mapError .ofReasons) ∧
      c.deedsAt link worlds k =
        [.sent (q.carrying link.base fresh)
          (link.outcome (q.carrying link.base fresh) (worlds k))] := by
  rw [along_succ, deedsAt, h]
  have hs : (step link (.retrying q fresh) (worlds k)).1 =
      .finished (link.send q fresh (worlds k)).1 := rfl
  rw [hs, link.send_apply]
  exact ⟨rfl, rfl⟩

/-! ### Every call takes such a course -/

/-- The first step reads the access token. -/
lemma along_one (link : Link σ) (worlds : ℕ → World σ) (q : Query) :
    (Call.reading q).along link worlds 1 = .sending q (worlds 0).tokens.access := rfl

/-- Once answered, a call is about to take the lock, or it is over. -/
lemma along_two_cases (link : Link σ) (worlds : ℕ → World σ) (q : Query) :
    (Call.reading q).along link worlds 2 = .refused q (worlds 0).tokens.access ∨
      ∃ result, (Call.reading q).along link worlds 2 = .finished result := by
  obtain ⟨h2, -⟩ := along_succ_of_sending (along_one link worlds q)
  rw [h2]
  cases link.outcome (q.carrying link.base (worlds 0).tokens.access) (worlds 1) with
  | error reasons => exact .inr ⟨_, rfl⟩
  | ok r =>
    by_cases h : r.isUnauthorized
    · exact .inl (by simp [Except.mapError, answered, h])
    · exact .inr ⟨.ok r, by simp [Except.mapError, answered, h]⟩

/-- A refused token leads to the look under the lock. -/
lemma along_of_refused {a : String} (h : c.along link worlds k = .refused q a) :
    c.along link worlds (k + 2) = decided q a (worlds (k + 1)).tokens ∧
      c.deedsAt link worlds k = [] ∧ c.deedsAt link worlds (k + 1) = [] := by
  have h1 : c.along link worlds (k + 1) = .deciding q a := by rw [along_succ, h]; rfl
  refine ⟨?_, ?_, ?_⟩
  · rw [along_succ, h1]; rfl
  · rw [deedsAt, h]; rfl
  · rw [deedsAt, h1]; rfl

/-- A pair that came back is stored before the query is sent again. -/
lemma along_of_storing {pair : Tokens} (h : c.along link worlds k = .storing q pair) :
    c.along link worlds (k + 1) = .retrying q pair.access ∧
      c.deedsAt link worlds k = [.stored pair] := by
  rw [along_succ, deedsAt, h]
  exact ⟨rfl, rfl⟩

variable (link worlds q)

/-- `Course` holds of a call that is about to spend the refresh token that it found. -/
lemma course_of_refreshing {r : Reply} (hr : r.status = 401)
    (hfound : (worlds 3).tokens.access = (worlds 0).tokens.access)
    (hrefresh : (worlds 3).tokens.refresh ≠ "")
    (h4 : (Call.reading q).along link worlds 4 = .refreshing q (worlds 3).tokens.refresh)
    (hdeeds : (List.range 4).flatMap ((Call.reading q).deedsAt link worlds) =
      [.sent (q.carrying link.base (worlds 0).tokens.access) (.ok r)]) :
    ∃ m ≤ 7, ∃ result, (Call.reading q).along link worlds m = .finished result ∧
      Course link.base q (worlds 0).tokens.access (worlds 3).tokens
        ((List.range m).flatMap ((Call.reading q).deedsAt link worlds)) result := by
  -- four steps are behind the call; the fifth sends the refresh token
  obtain ⟨h5, d4⟩ := along_succ_of_refreshing h4
  have hdeeds5 : (List.range 5).flatMap ((Call.reading q).deedsAt link worlds) =
      [.sent (q.carrying link.base (worlds 0).tokens.access) (.ok r),
        .sent (.refresh link.base (worlds 3).tokens.refresh)
          (link.outcome (.refresh link.base (worlds 3).tokens.refresh) (worlds 4))] := by
    rw [List.range_succ, List.flatMap_append, hdeeds]
    simp [d4]
  cases hout : link.outcome (.refresh link.base (worlds 3).tokens.refresh) (worlds 4) with
  | error reasons =>
    rw [hout] at h5 hdeeds5
    rw [refreshed, refreshedTokens_error] at h5
    refine ⟨5, by omega, _, h5, ?_⟩
    rw [hdeeds5]
    exact .refreshUnreached r hr hfound hrefresh reasons
  | ok s =>
    rw [hout] at h5 hdeeds5
    by_cases hs : s.status = 200
    · cases hread : s.record Tokens.ofJson? with
      | error what =>
        rw [refreshed, refreshedTokens_of_eq hs, hread] at h5
        refine ⟨5, by omega, _, h5, ?_⟩
        rw [hdeeds5]
        exact .refreshMisfit r hr hfound hrefresh s hs what hread
      | ok pair =>
        rw [refreshed, refreshedTokens_of_eq hs, hread] at h5
        -- the pair is stored in the sixth step, and the query sent again in the seventh
        obtain ⟨h6, d5⟩ := along_of_storing h5
        obtain ⟨h7, d6⟩ := along_succ_of_retrying h6
        refine ⟨7, le_rfl, _, h7, ?_⟩
        rw [List.range_succ, List.range_succ, List.flatMap_append, List.flatMap_append, hdeeds5]
        simp only [List.flatMap_singleton, d5, d6]
        exact .refreshed r hr hfound hrefresh s hs pair hread _
    · rw [refreshed, refreshedTokens_of_ne hs] at h5
      refine ⟨5, by omega, _, h5, ?_⟩
      rw [hdeeds5]
      exact .refreshRefused r hr hfound hrefresh s hs

/-- `Course` holds of a call whose token was refused. -/
lemma course_of_unauthorized {r : Reply} (hr : r.status = 401)
    (hout : link.outcome (q.carrying link.base (worlds 0).tokens.access) (worlds 1) = .ok r) :
    ∃ m ≤ 7, ∃ result, (Call.reading q).along link worlds m = .finished result ∧
      Course link.base q (worlds 0).tokens.access (worlds 3).tokens
        ((List.range m).flatMap ((Call.reading q).deedsAt link worlds)) result := by
  have d0 : (Call.reading q).deedsAt link worlds 0 = [] := rfl
  obtain ⟨h2, d1⟩ := along_succ_of_sending (along_one link worlds q)
  have hu : r.isUnauthorized = true := by simp [Reply.isUnauthorized, hr]
  rw [hout] at h2 d1
  simp only [Except.mapError, answered, hu, if_true] at h2
  obtain ⟨h4, d2, d3⟩ := along_of_refused h2
  have hdeeds : (List.range 4).flatMap ((Call.reading q).deedsAt link worlds) =
      [.sent (q.carrying link.base (worlds 0).tokens.access) (.ok r)] := by
    simp [List.range_succ, d0, d1, d2, d3]
  rw [decided] at h4
  split at h4
  next hfound =>
    obtain ⟨h5, d4⟩ := along_succ_of_retrying h4
    refine ⟨5, by omega, _, h5, ?_⟩
    rw [List.range_succ, List.flatMap_append, hdeeds, List.flatMap_singleton, d4]
    exact .overtaken r hr hfound _
  next hfound =>
    rw [not_not] at hfound
    split at h4
    next hrefresh =>
      refine ⟨4, by omega, _, h4, ?_⟩
      rw [hdeeds]
      exact .unrefreshable r hr hfound (by simpa using hrefresh)
    next hrefresh =>
      exact course_of_refreshing link worlds q hr hfound (by simpa using hrefresh) h4 hdeeds

/-- Every call takes a course, in seven steps at most. -/
lemma exists_course :
    ∃ m ≤ 7, ∃ result, (Call.reading q).along link worlds m = .finished result ∧
      Course link.base q (worlds 0).tokens.access (worlds 3).tokens
        ((List.range m).flatMap ((Call.reading q).deedsAt link worlds)) result := by
  have d0 : (Call.reading q).deedsAt link worlds 0 = [] := rfl
  obtain ⟨h2, d1⟩ := along_succ_of_sending (along_one link worlds q)
  have hdeeds : (List.range 2).flatMap ((Call.reading q).deedsAt link worlds) =
      [.sent (q.carrying link.base (worlds 0).tokens.access)
        (link.outcome (q.carrying link.base (worlds 0).tokens.access) (worlds 1))] := by
    simp [List.range_succ, d0, d1]
  cases hout : link.outcome (q.carrying link.base (worlds 0).tokens.access) (worlds 1) with
  | error reasons =>
    rw [hout] at h2 hdeeds
    refine ⟨2, by omega, _, h2, ?_⟩
    rw [hdeeds]
    exact .unreached reasons
  | ok r =>
    by_cases hr : r.status = 401
    · exact course_of_unauthorized link worlds q hr hout
    · have hu : r.isUnauthorized = false := by simpa [Reply.isUnauthorized] using hr
      rw [hout] at h2 hdeeds
      simp only [Except.mapError, answered, hu] at h2
      refine ⟨2, by omega, _, h2, ?_⟩
      rw [hdeeds]
      exact .answered r hr

/-- Each step brings a call closer to its end. -/
lemma rank_along_le (c : Call) (k : ℕ) : (c.along link worlds k).rank ≤ c.rank - k := by
  induction k with
  | zero => exact le_rfl
  | succ k ih =>
    rw [along_succ]
    by_cases h0 : (c.along link worlds k).rank = 0
    · obtain ⟨result, hk⟩ := eq_finished_of_rank_le h0.le
      rw [hk]
      exact Nat.zero_le _
    · have hlt := rank_step_lt link (c.along link worlds k) (worlds k) h0
      omega

/-- The look under the lock is made in the fourth step or not at all. -/
lemma eq_three_of_deciding {k : ℕ} {a : String}
    (h : (Call.reading q).along link worlds k = .deciding q a) : k = 3 := by
  have hrank := rank_along_le link worlds (.reading q) k
  rw [h] at hrank
  have hk : k ≤ 3 := by simp only [rank] at hrank; omega
  obtain rfl | rfl | rfl | rfl : k = 0 ∨ k = 1 ∨ k = 2 ∨ k = 3 := by omega
  · cases h
  · cases h
  · obtain h2 | ⟨result, h2⟩ := along_two_cases link worlds q
    · cases h2.symm.trans h
    · cases h2.symm.trans h
  · rfl

/-! ### Nobody in between -/

/-- The worlds in which a call makes its steps when nobody acts in between. -/
def undisturbed (c : Call) (w : World σ) (k : ℕ) : World σ :=
  ((fun p : Call × World σ => p.1.step link p.2)^[k] (c, w)).2

variable (c : Call) (w : World σ)

/-- When nobody acts in between, a call and its world go on together. -/
lemma along_undisturbed (k : ℕ) :
    c.along link (c.undisturbed link w) k =
      ((fun p : Call × World σ => p.1.step link p.2)^[k] (c, w)).1 := by
  induction k with
  | zero => rfl
  | succ k ih =>
    rw [along_succ, ih, Function.iterate_succ_apply']
    rfl

/-- Each step finds the world as the step before left it. -/
lemma undisturbed_succ (k : ℕ) :
    c.undisturbed link w (k + 1) = c.leaving link (c.undisturbed link w) k := by
  rw [leaving, along_undisturbed, undisturbed, Function.iterate_succ_apply']
  rfl

/-- Taking a call to its end is taking it `k` steps on, and then to its end. -/
lemma complete_undisturbed (k : ℕ) :
    c.complete link w = (c.along link (c.undisturbed link w) k).complete link
      (c.undisturbed link w k) := by
  induction k with
  | zero => rfl
  | succ k ih =>
    rw [ih, complete_apply, undisturbed_succ]
    rfl

/-- The deeds of the first `k` steps are all that has become of the world. -/
lemma undisturbed_effect (k : ℕ) :
    let deeds := (List.range k).flatMap (c.deedsAt link (c.undisturbed link w))
    (c.undisturbed link w k).exchanges = w.exchanges ++ deeds.filterMap Deed.exchange? ∧
      (c.undisturbed link w k).tokens = (deeds.filterMap Deed.pair?).getLast?.getD w.tokens ∧
      (c.undisturbed link w k).lines = w.lines := by
  induction k with
  | zero => exact ⟨(List.append_nil _).symm, rfl, rfl⟩
  | succ k ih =>
    obtain ⟨hexchanges, htokens, hlines⟩ := ih
    have h := leads_step link (c.along link (c.undisturbed link w) k) (c.undisturbed link w k)
    have hdeeds : (List.range (k + 1)).flatMap (c.deedsAt link (c.undisturbed link w)) =
        (List.range k).flatMap (c.deedsAt link (c.undisturbed link w)) ++
          c.deedsAt link (c.undisturbed link w) k := by
      rw [List.range_succ, List.flatMap_append, List.flatMap_singleton]
    simp only [hdeeds, undisturbed_succ, List.filterMap_append]
    refine ⟨?_, ?_, ?_⟩
    · rw [← List.append_assoc, ← hexchanges]
      exact h.exchanges_eq
    · rw [List.getLast?_append, Option.getD_or, ← htokens]
      exact h.tokens_eq
    · exact h.lines_eq.trans hlines

/-- Nothing is stored before the look under the lock. -/
lemma undisturbed_three_tokens :
    ((Call.reading q).undisturbed link w 3).tokens = w.tokens := by
  have d0 : (Call.reading q).deedsAt link ((Call.reading q).undisturbed link w) 0 = [] := rfl
  obtain ⟨-, d1⟩ := along_succ_of_sending (along_one link ((Call.reading q).undisturbed link w) q)
  have d2 : (Call.reading q).deedsAt link ((Call.reading q).undisturbed link w) 2 = [] := by
    rw [deedsAt]
    obtain h2 | ⟨result, h2⟩ := along_two_cases link ((Call.reading q).undisturbed link w) q
    · rw [h2]
      rfl
    · rw [h2]
      rfl
  have h := (undisturbed_effect link (.reading q) w 3).2.1
  rw [h]
  simp [List.range_succ, d0, d1, d2, Deed.pair?]

end Call

/-- One call from the first sending to its result. The call among others: its `k`-th step is made
in the world `worlds k`, and whatever those are, the steps do what `Course` says, for the access
token that the call read in its first step and the pair that it found in its fourth, which is the
one that looks at the tokens under the refresh lock; there are no more than seven. Nobody in
between: seeing a query through takes such a course for the pair that is stored, and sends, stores
and shows nothing else. -/
theorem refresh_and_retry (link : Link σ) (q : Query) :
    (∀ worlds : ℕ → World σ, ∃ (deeds : ℕ → List Deed) (result : Except Failure Reply),
      (∀ k, Deed.Leads link (worlds k) (deeds k) ((Call.reading q).leaving link worlds k)) ∧
      (∀ k a, (Call.reading q).along link worlds k = .deciding q a → k = 3) ∧
      (∀ k, 7 ≤ k → (Call.reading q).along link worlds k = .finished result ∧ deeds k = []) ∧
      Course link.base q (worlds 0).tokens.access (worlds 3).tokens
        ((List.range 7).flatMap deeds) result) ∧
    ∀ w : World σ, ∃ deeds : List Deed,
      Course link.base q w.tokens.access w.tokens deeds ((link.request q).atOnce w).1 ∧
      ((link.request q).atOnce w).2.exchanges = w.exchanges ++ deeds.filterMap Deed.exchange? ∧
      ((link.request q).atOnce w).2.tokens =
        (deeds.filterMap Deed.pair?).getLast?.getD w.tokens ∧
      ((link.request q).atOnce w).2.lines = w.lines := by
  constructor
  · intro worlds
    -- the call may be finished before its seventh step, and then the rest of the steps do nothing
    obtain ⟨m, hm, result, hend, hcourse⟩ := Call.exists_course link worlds q
    refine ⟨(Call.reading q).deedsAt link worlds, result, ?_, ?_, ?_, ?_⟩
    · exact fun k => Call.leads_step link _ (worlds k)
    · exact fun k a => Call.eq_three_of_deciding link worlds q
    · intro k hk
      exact ⟨Call.along_of_finished hend (hm.trans hk), Call.deedsAt_of_finished hend (hm.trans hk)⟩
    · rwa [Call.flatMap_deedsAt_of_finished hend hm]
  · intro w
    obtain ⟨m, -, result, hend, hcourse⟩ :=
      Call.exists_course link ((Call.reading q).undisturbed link w) q
    have hresult : (link.request q).atOnce w =
        (result, (Call.reading q).undisturbed link w m) := by
      rw [link.request_atOnce, Call.complete_undisturbed link (.reading q) w m, hend]
      rfl
    rw [Call.undisturbed_three_tokens] at hcourse
    rw [hresult]
    exact ⟨_, hcourse, Call.undisturbed_effect link (.reading q) w m⟩

end Duelist
