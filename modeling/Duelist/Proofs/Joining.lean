import Duelist.Proofs.CrewSteps
import Duelist.Rehearsed
import Mathlib.Data.List.Range
import Mathlib.Logic.Function.Basic
/-!
# Joining

Several may wait for the followers of one player at the same time: whoever leaves, and whoever takes
the end of the duel. Each raises the stop signal, takes all followers that nobody has taken before,
and waits for one after the other, until it has ended or is given up. Followers go on meanwhile, and
new ones may be started as long as the signal is not raised.

Whoever has returned has waited for the followers that it took itself, and not for those that
somebody else had taken before. The main statement is `Gathering.ended_when_returned`, which says
what may be known of the followers then. `Gathering.returned_too_early` shows that no more may be
known: it is a run in which one returns while another one is still waiting for a follower, which
goes on. With nobody else about, this is joining (`Gathering.exists_run_of_raised`).
-/

namespace Duelist

/-- How far somebody has come who stops the followers and waits for them. -/
inductive Joiner where
  /-- Has not begun. -/
  | ready
  /-- Has raised the stop signal. -/
  | raised
  /-- Waits for the followers with the given numbers, in this order. -/
  | waiting (rest : List ℕ)
  /-- Has waited for all of them. -/
  | returned
  deriving DecidableEq

/-- A crew and those who wait for its followers. -/
structure Gathering (ι σ : Type) where
  /-- The crew. -/
  crew : Crew σ
  /-- Those who wait. -/
  joiners : ι → Joiner := fun _ => .ready
  /-- The followers that were given up. -/
  givenUp : List ℕ := []

/-- Something that happens to a crew and to those who wait for it. -/
inductive Stir (ι : Type) where
  /-- A follower is to be started. -/
  | follow (duel submission : Int64)
  /-- The follower numbered `n` makes a move. -/
  | move (n : ℕ)
  /-- `i` raises the stop signal. -/
  | raise (i : ι)
  /-- `i` takes the followers that nobody has taken. -/
  | take (i : ι)
  /-- `i` finds that the follower it waits for has ended, or returns if there is none left. -/
  | await (i : ι)
  /-- `i` gives up the follower it waits for. -/
  | giveUp (i : ι)

namespace Gathering

variable {ι σ : Type} [DecidableEq ι] (link : Link σ)

/-- `i` has come to `c`. -/
def become (s : Gathering ι σ) (i : ι) (c : Joiner) : Gathering ι σ :=
  { s with joiners := Function.update s.joiners i c }

/-- Whoever has come somewhere is there. -/
@[simp]
lemma become_self (s : Gathering ι σ) (i : ι) (c : Joiner) : (s.become i c).joiners i = c :=
  Function.update_self ..

/-- The others are where they were. -/
lemma become_of_ne (s : Gathering ι σ) {i j : ι} (c : Joiner) (h : j ≠ i) :
    (s.become i c).joiners j = s.joiners j :=
  Function.update_of_ne h ..

/-- What becomes of all when something happens; nothing if it cannot. -/
def step (s : Gathering ι σ) : Stir ι → Gathering ι σ
  | .follow duel submission => { s with crew := (Crew.follow link duel submission s.crew).2 }
  | .move n => { s with crew := (Crew.move link n s.crew).2 }
  | .raise i =>
    match s.joiners i with
    | .ready => { s with crew := { s.crew with raised := true } }.become i .raised
    | _ => s
  | .take i =>
    match s.joiners i with
    | .raised => { s with crew := (Crew.join s.crew).2 }.become i (.waiting s.crew.untaken)
    | _ => s
  | .await i =>
    match s.joiners i with
    | .waiting [] => s.become i .returned
    | .waiting (n :: rest) => if s.crew.hasEnded n then s.become i (.waiting rest) else s
    | _ => s
  | .giveUp i =>
    match s.joiners i with
    | .waiting (n :: rest) =>
      { s with givenUp := s.givenUp ++ [n] }.become i (.waiting rest)
    | _ => s

/-- What becomes of all when several things happen, in order. -/
def run (s : Gathering ι σ) (stirs : List (Stir ι)) : Gathering ι σ :=
  stirs.foldl (step link) s

/-! ### What is known of the followers -/

/-- True of the followers that somebody waits for. -/
def IsAwaited (s : Gathering ι σ) (n : ℕ) : Prop :=
  ∃ i rest, s.joiners i = .waiting rest ∧ n ∈ rest

/-- What holds at every point of a run. -/
structure Kept (s : Gathering ι σ) : Prop where
  /-- Whoever has begun has raised the signal. -/
  raised : ∀ i, s.joiners i ≠ .ready → s.crew.raised
  /-- Whoever has taken followers has left none. -/
  taken : ∀ i, s.joiners i ≠ .ready → s.joiners i ≠ .raised →
    s.crew.joined = s.crew.followers.length
  /-- No more followers were taken than there are. -/
  bound : s.crew.joined ≤ s.crew.followers.length
  /-- Those that were taken have ended, or were given up, or somebody waits for them. -/
  cared : ∀ n < s.crew.joined, s.crew.hasEnded n ∨ n ∈ s.givenUp ∨ s.IsAwaited n

variable {link} {s : Gathering ι σ}

omit [DecidableEq ι] in
/-- A follower that is started keeps what holds: nobody has waited for it yet. -/
lemma Kept.follow (h : s.Kept) (duel submission : Int64) :
    Kept { s with crew := (Crew.follow link duel submission s.crew).2 } := by
  have hended (n : ℕ) := Crew.hasEnded_follow link s.crew duel submission (n := n)
  rcases Crew.follow_cases link s.crew duel submission with hsame | ⟨hfree, w, f, hnew⟩
  · rw [hsame]
    exact h
  · rw [hnew] at hended ⊢
    -- whoever had begun would have raised the signal
    have hready (i : ι) : s.joiners i = .ready := by
      by_contra hne
      have hr := h.raised i hne
      rw [hfree] at hr
      cases hr
    refine ⟨fun i hi => absurd (hready i) hi, fun i hi => absurd (hready i) hi, ?_, ?_⟩
    · exact h.bound.trans (by simp)
    · intro n hn
      exact (h.cared n hn).imp_left (hended n)

omit [DecidableEq ι] in
/-- A move of a follower keeps what holds, since whoever has ended stays so. -/
lemma Kept.move (h : s.Kept) (n : ℕ) :
    Kept { s with crew := (Crew.move link n s.crew).2 } := by
  have hended (m : ℕ) := Crew.hasEnded_move link s.crew n (m := m)
  rcases Crew.move_cases link s.crew n with hsame | ⟨f, -, -, w, f', hnew⟩
  · rw [hsame]
    exact h
  · rw [hnew] at hended ⊢
    refine ⟨h.raised, ?_, ?_, fun m hm => (h.cared m hm).imp_left (hended m)⟩
    · intro i hready hraised
      simpa using h.taken i hready hraised
    · simpa using h.bound

/-- What somebody waits for is waited for still, unless it was `i` who did and does no more. -/
lemma IsAwaited.become {n : ℕ} {i : ι} {c : Joiner} (h : s.IsAwaited n)
    (hi : ∀ rest, s.joiners i = .waiting rest → n ∈ rest →
      ∃ rest', c = .waiting rest' ∧ n ∈ rest') :
    (s.become i c).IsAwaited n := by
  obtain ⟨j, rest, hj, hn⟩ := h
  by_cases hji : j = i
  · subst hji
    obtain ⟨rest', rfl, hn'⟩ := hi rest hj hn
    exact ⟨j, rest', become_self s j _, hn'⟩
  · exact ⟨j, rest, by rw [become_of_ne s c hji, hj], hn⟩

/-- Somebody goes on to `c` once the signal is raised. -/
lemma Kept.become (h : s.Kept) {i : ι} {c : Joiner} (hraised : s.crew.raised)
    (htaken : c ≠ .ready → c ≠ .raised → s.crew.joined = s.crew.followers.length)
    (hcared : ∀ n rest, s.joiners i = .waiting rest → n ∈ rest →
      s.crew.hasEnded n ∨ n ∈ s.givenUp ∨ ∃ rest', c = .waiting rest' ∧ n ∈ rest') :
    (s.become i c).Kept := by
  refine ⟨fun _ _ => hraised, ?_, h.bound, ?_⟩
  · intro j hready hr
    by_cases hji : j = i
    · subst hji
      rw [become_self] at hready hr
      exact htaken hready hr
    · rw [become_of_ne s c hji] at hready hr
      exact h.taken j hready hr
  · intro n hn
    by_cases hended : s.crew.hasEnded n
    · exact .inl hended
    by_cases hgiven : n ∈ s.givenUp
    · exact .inr (.inl hgiven)
    have hawaited := ((h.cared n hn).resolve_left hended).resolve_left hgiven
    refine .inr (.inr (hawaited.become fun rest hi hmem => ?_))
    exact ((hcared n rest hi hmem).resolve_left hended).resolve_left hgiven

omit [DecidableEq ι] in
/-- Whoever waits has raised the signal and left no follower untaken. -/
lemma Kept.of_waiting (h : s.Kept) {i : ι} {rest : List ℕ} (hi : s.joiners i = .waiting rest) :
    s.crew.raised ∧ s.crew.joined = s.crew.followers.length := by
  have hready : s.joiners i ≠ .ready := by rw [hi]; exact Joiner.noConfusion
  have hraised : s.joiners i ≠ .raised := by rw [hi]; exact Joiner.noConfusion
  exact ⟨h.raised i hready, h.taken i hready hraised⟩

/-- Raising the signal keeps what holds: only then has `i` come as far as to rely on it. -/
lemma Kept.raise (h : s.Kept) {i : ι} (hi : s.joiners i = .ready) :
    ({ s with crew := { s.crew with raised := true } }.become i .raised).Kept := by
  have hs : Kept { s with crew := { s.crew with raised := true } } :=
    ⟨fun _ _ => rfl, h.taken, h.bound, h.cared⟩
  refine hs.become rfl (fun _ hne => absurd rfl hne) fun n rest hw => ?_
  cases hi.symm.trans hw

/-- Taking the followers keeps what holds: `i` waits for all that nobody has waited for. -/
lemma Kept.take (h : s.Kept) {i : ι} (hi : s.joiners i = .raised) :
    ({ s with crew := (Crew.join s.crew).2 }.become i (.waiting s.crew.untaken)).Kept := by
  have hraised : s.crew.raised := h.raised i (by rw [hi]; decide)
  refine ⟨fun _ _ => hraised, fun _ _ _ => rfl, le_rfl, fun n hn => ?_⟩
  -- those below `joined` were cared for before, and all others are taken by `i` now
  by_cases hjoined : n < s.crew.joined
  · refine (h.cared n hjoined).imp id (Or.imp id fun hawaited => ?_)
    refine IsAwaited.become hawaited fun rest hw => ?_
    cases hi.symm.trans hw
  · refine .inr (.inr ⟨i, s.crew.untaken, become_self _ i _, ?_⟩)
    have hlength : n < s.crew.followers.length := hn
    rw [Crew.untaken, List.mem_range'_1]
    omega

/-- Somebody who waits for nobody any more may return. -/
lemma Kept.returns (h : s.Kept) {i : ι} (hi : s.joiners i = .waiting []) :
    (s.become i .returned).Kept := by
  obtain ⟨hraised, htaken⟩ := h.of_waiting hi
  refine h.become hraised (fun _ _ => htaken) fun n rest hw hn => ?_
  rw [hi] at hw
  cases hw
  cases hn

/-- A follower that has ended or was given up need not be waited for any more. -/
lemma Kept.passes (h : s.Kept) {i : ι} {n : ℕ} {rest : List ℕ}
    (hi : s.joiners i = .waiting (n :: rest)) (hn : s.crew.hasEnded n ∨ n ∈ s.givenUp) :
    (s.become i (.waiting rest)).Kept := by
  obtain ⟨hraised, htaken⟩ := h.of_waiting hi
  refine h.become hraised (fun _ _ => htaken) fun m rest' hw hm => ?_
  rw [hi] at hw
  cases hw
  rcases List.mem_cons.mp hm with rfl | hm
  · exact hn.imp_right .inl
  · exact .inr (.inr ⟨rest, rfl, hm⟩)

omit [DecidableEq ι] in
/-- To note that a follower is given up keeps what holds. -/
lemma Kept.gaveUp (h : s.Kept) (n : ℕ) : Kept { s with givenUp := s.givenUp ++ [n] } :=
  ⟨h.raised, h.taken, h.bound, fun m hm =>
    (h.cared m hm).imp id (Or.imp_left fun hgiven => List.mem_append_left _ hgiven)⟩

/-- The step lemma. -/
theorem Kept.step (h : s.Kept) (link : Link σ) (x : Stir ι) : (s.step link x).Kept := by
  cases x with
  | follow duel submission => exact h.follow duel submission
  | move n => exact h.move n
  | raise i =>
    rw [Gathering.step]
    split
    next hi => exact h.raise hi
    next => exact h
  | take i =>
    rw [Gathering.step]
    split
    next hi => exact h.take hi
    next => exact h
  | await i =>
    rw [Gathering.step]
    split
    next hi => exact h.returns hi
    next n rest hi =>
      split
      next hended => exact h.passes hi (.inl hended)
      next => exact h
    next => exact h
  | giveUp i =>
    rw [Gathering.step]
    split
    next n rest hi => exact (h.gaveUp n).passes hi (.inr (by simp))
    next => exact h

variable (link)

/-- A crew without followers, for which nobody waits. -/
def begin (w : World σ) : Gathering ι σ where
  crew := { world := w }

omit [DecidableEq ι] in
/-- In the beginning there are no followers, and all holds. -/
lemma kept_begin (w : World σ) : (begin w : Gathering ι σ).Kept where
  raised _ hi := absurd rfl hi
  taken _ hi := absurd rfl hi
  bound := le_rfl
  cared n hn := absurd hn (Nat.not_lt_zero n)

/-- What holds at first holds at every point of a run. -/
theorem Kept.run (h : s.Kept) (xs : List (Stir ι)) : (s.run link xs).Kept := by
  induction xs generalizing s with
  | nil => exact h
  | cons x xs ih => exact ih (h.step link x)

/-- Once the signal is raised it stays so, no follower is started, and those that have ended stay
so. -/
lemma step_of_raised (h : s.crew.raised) (x : Stir ι) :
    (s.step link x).crew.raised ∧
      (s.step link x).crew.followers.length = s.crew.followers.length ∧
      ∀ n, s.crew.hasEnded n → (s.step link x).crew.hasEnded n := by
  cases x with
  | follow duel submission =>
    -- a follower could be started only if the signal were not raised
    have hsame : (s.step link (.follow duel submission)).crew = s.crew := by
      rcases Crew.follow_cases link s.crew duel submission with hsame | ⟨hfree, -⟩
      · exact hsame
      · rw [hfree] at h
        cases h
    rw [hsame]
    exact ⟨h, rfl, fun _ => id⟩
  | move n =>
    refine ⟨?_, ?_, fun m => Crew.hasEnded_move link s.crew n⟩
    · rw [← h]
      exact Crew.raised_move link s.crew n
    · rcases Crew.move_cases link s.crew n with hsame | ⟨f, -, -, w, f', hnew⟩
      · exact congrArg (fun crew : Crew σ => crew.followers.length) hsame
      · refine (congrArg (fun crew : Crew σ => crew.followers.length) hnew).trans ?_
        exact List.length_set
  | raise i =>
    rw [step]
    split
    · exact ⟨rfl, rfl, fun _ => id⟩
    · exact ⟨h, rfl, fun _ => id⟩
  | take i =>
    rw [step]
    split
    · exact ⟨h, rfl, fun _ => id⟩
    · exact ⟨h, rfl, fun _ => id⟩
  | await i =>
    rw [step]
    split
    · exact ⟨h, rfl, fun _ => id⟩
    · split
      · exact ⟨h, rfl, fun _ => id⟩
      · exact ⟨h, rfl, fun _ => id⟩
    · exact ⟨h, rfl, fun _ => id⟩
  | giveUp i =>
    rw [step]
    split
    · exact ⟨h, rfl, fun _ => id⟩
    · exact ⟨h, rfl, fun _ => id⟩

/-- Once the signal is raised, no follower is started any more, and whoever has ended stays so. -/
lemma run_of_raised (h : s.crew.raised) (xs : List (Stir ι)) :
    (s.run link xs).crew.followers.length = s.crew.followers.length ∧
      ∀ n, s.crew.hasEnded n → (s.run link xs).crew.hasEnded n := by
  induction xs generalizing s with
  | nil => exact ⟨rfl, fun _ => id⟩
  | cons x xs ih =>
    obtain ⟨hraised, hlength, hended⟩ := step_of_raised link h x
    obtain ⟨hlength', hended'⟩ := ih hraised
    exact ⟨hlength'.trans hlength, fun n hn => hended' n (hended n hn)⟩

/-- When somebody has returned, every follower that was started has ended, or was given up, or
somebody else waits for it. If nobody waits then, nothing is heard any more of those that were not
given up, whatever happens. -/
theorem ended_when_returned (w : World σ) (xs : List (Stir ι)) (i : ι)
    (hi : ((begin w).run link xs).joiners i = .returned) :
    let s : Gathering ι σ := (begin w).run link xs
    (∀ n < s.crew.followers.length, s.crew.hasEnded n ∨ n ∈ s.givenUp ∨
      ∃ j, j ≠ i ∧ ∃ rest, s.joiners j = .waiting rest ∧ n ∈ rest) ∧
    ((∀ n, ¬s.IsAwaited n) → ∀ ys n, n ∉ s.givenUp →
      (s.run link ys).step link (.move n) = s.run link ys) := by
  intro s
  have h : s.Kept := (kept_begin w).run link xs
  have hready : s.joiners i ≠ .ready := by rw [hi]; decide
  have hraised : s.crew.raised := h.raised i hready
  have htaken := h.taken i hready (by rw [hi]; decide)
  constructor
  · intro n hn
    rw [← htaken] at hn
    refine (h.cared n hn).imp id (Or.imp id ?_)
    rintro ⟨j, rest, hj, hmem⟩
    refine ⟨j, ?_, rest, hj, hmem⟩
    rintro rfl
    cases hi.symm.trans hj
  · intro hnobody ys n hn
    obtain ⟨hlength, hended⟩ := run_of_raised link hraised ys
    have hsame : (Crew.move link n (s.run link ys).crew).2 = (s.run link ys).crew := by
      -- the follower is one of those that were cared for, or there is none of that number
      by_cases hlt : n < s.crew.followers.length
      · have hcared := h.cared n (by rw [htaken]; exact hlt)
        have hstopped := hcared.resolve_right (not_or.mpr ⟨hn, hnobody n⟩)
        exact Crew.move_of_hasEnded link _ (hended n hstopped)
      · rcases Crew.move_cases link (s.run link ys).crew n with hsame | ⟨f, hf, -⟩
        · exact hsame
        · have hn := (List.getElem?_eq_some_iff.mp hf).1
          omega
    exact congrArg (fun crew => { s.run link ys with crew }) hsame

/-- A run in which one returns while another one waits for a follower, which has not ended and was
not given up. It sends another question thereafter. -/
theorem returned_too_early :
    let s : Gathering Bool Unit := (begin { service := () }).run (.unreachable "")
      [.follow 7 1, .raise false, .take false, .raise true, .take true, .await true]
    s.joiners true = .returned ∧ s.crew.hasEnded 0 = false ∧ 0 ∉ s.givenUp ∧
      s.crew.world.exchanges.length = 0 ∧
      (s.step (.unreachable "") (.move 0)).crew.world.exchanges.length = 1 := by
  decide +kernel

/-! ### Joining with nobody else about -/

/-- Whoever waits with nobody in between gives up those that have not ended. -/
lemma exists_run_of_waiting {i : ι} {rest : List ℕ} (hi : s.joiners i = .waiting rest) :
    ∃ xs, (s.run link xs).joiners i = .returned ∧ (s.run link xs).crew = s.crew ∧
      (s.run link xs).givenUp = s.givenUp ++ rest.filter fun n => !s.crew.hasEnded n := by
  -- those who have ended are awaited, and all others given up
  induction rest generalizing s with
  | nil =>
    have hstep : s.step link (.await i) = s.become i .returned := by rw [step, hi]
    refine ⟨[.await i], ?_⟩
    rw [run, List.foldl_cons, List.foldl_nil, hstep]
    exact ⟨become_self s i _, rfl, (List.append_nil _).symm⟩
  | cons n rest ih =>
    by_cases hended : s.crew.hasEnded n
    · have hstep : s.step link (.await i) = s.become i (.waiting rest) := by
        rw [step, hi]
        exact if_pos hended
      obtain ⟨xs, hreturned, hcrew, hgiven⟩ := ih (become_self s i (.waiting rest))
      refine ⟨.await i :: xs, ?_⟩
      rw [run, List.foldl_cons, hstep]
      refine ⟨hreturned, hcrew, hgiven.trans ?_⟩
      simp [become, hended]
    · have hstep : s.step link (.giveUp i) =
          { s with givenUp := s.givenUp ++ [n] }.become i (.waiting rest) := by rw [step, hi]
      obtain ⟨xs, hreturned, hcrew, hgiven⟩ :=
        ih (become_self { s with givenUp := s.givenUp ++ [n] } i (.waiting rest))
      refine ⟨.giveUp i :: xs, ?_⟩
      rw [run, List.foldl_cons, hstep]
      refine ⟨hreturned, hcrew, hgiven.trans ?_⟩
      simp [become, hended]

/-- To take the followers and to wait for them with nobody in between is to join. -/
theorem exists_run_of_raised {i : ι} (hi : s.joiners i = .raised) :
    ∃ xs, (s.run link (.take i :: xs)).joiners i = .returned ∧
      (s.run link (.take i :: xs)).crew = (Crew.join s.crew).2 ∧
      (s.run link (.take i :: xs)).givenUp.length = s.givenUp.length + (Crew.join s.crew).1 := by
  have hstep : s.step link (.take i) =
      { s with crew := (Crew.join s.crew).2 }.become i (.waiting s.crew.untaken) := by
    rw [step, hi]
  have hwaiting : (s.step link (.take i)).joiners i = .waiting s.crew.untaken := by
    rw [hstep, become_self]
  obtain ⟨xs, hreturned, hcrew, hgiven⟩ := exists_run_of_waiting link hwaiting
  refine ⟨xs, hreturned, hcrew.trans (by rw [hstep]; rfl), ?_⟩
  have hended (n : ℕ) : (s.step link (.take i)).crew.hasEnded n = s.crew.hasEnded n := by
    rw [hstep]
    rfl
  have hbefore : (s.step link (.take i)).givenUp = s.givenUp := by
    rw [hstep]
    rfl
  have hlength := congrArg List.length hgiven
  simp only [List.length_append, hended, hbefore] at hlength
  rw [Crew.join_eq]
  exact hlength

end Gathering
end Duelist
