import Duelist.Proofs.FollowerSteps
import Mathlib.Data.List.Nodup
import Mathlib.Data.List.Range
import Mathlib.Logic.Function.Basic
/-!
# The list of followers

The followers that nobody has waited for stand on a list, which has a lock of its own. Whoever
starts a follower holds this lock from before the look at the stop signal until the new follower is
on the list. Whoever waits takes the list as it is, and waits for one follower after the other, each
of which may be given up if it does not end in time; the number of those is what it returns. Any
number of followers may be started, and any number of people may wait, all at the same time, while
the followers go on step by step and the signal is raised at any moment.

`Roster.Goes` lists all that can happen. Every step keeps one equation (`Roster.Sound.numbers`): the
followers that were taken, those on the list and the one that is about to be put on it are all that
were started, in order. The rest of `Roster.Sound` says who holds the lock and what those who wait
have counted; the main statement is that it holds throughout every run (`Roster.sound_run`).
-/

namespace Duelist

/-- How far somebody has come who starts a follower. -/
inductive Enrolment where
  /-- Has not begun. -/
  | ready (duel submission : Int64)
  /-- Holds the lock, and is about to look at the signal. -/
  | checking (duel submission : Int64)
  /-- Holds the lock, and is about to start the follower. -/
  | starting (duel submission : Int64)
  /-- Holds the lock, and is about to put the follower numbered `n` on the list. -/
  | listing (n : ℕ)
  /-- Is about to release the lock. -/
  | leaving (started : Bool)
  /-- Over. -/
  | finished (started : Bool)

namespace Enrolment

/-- True while the lock is held. -/
def holdsLock : Enrolment → Bool
  | .ready _ _ | .finished _ => false
  | _ => true

/-- The follower that was started and is not on the list yet. -/
def unlisted : Enrolment → List ℕ
  | .listing n => [n]
  | _ => []

/-- True once the signal was found not to be raised, until the follower is on the list. -/
def isAdmitted : Enrolment → Bool
  | .starting _ _ | .listing _ => true
  | _ => false

/-- True if the signal is still to be looked at, or was found to be raised. -/
def isRefusable : Enrolment → Bool
  | .checking _ _ | .leaving false | .finished false => true
  | _ => false

/-- Who has not been admitted has no follower that is not on the list. -/
lemma unlisted_of_isAdmitted {c : Enrolment} (h : c.isAdmitted = false) : c.unlisted = [] := by
  cases c with
  | listing n => cases h
  | _ => rfl

end Enrolment

/-- How far somebody has come who waits for followers. -/
inductive Collector where
  /-- Has not begun. -/
  | ready
  /-- Waits for those in `rest`, in this order, and has given up `lost` others. -/
  | waiting (rest : List ℕ) (lost : ℕ)
  /-- Has returned, with the number of those that were given up. -/
  | returned (lost : ℕ)
  deriving DecidableEq

/-- How many followers were given up. -/
def Collector.lost : Collector → ℕ
  | .ready => 0
  | .waiting _ lost | .returned lost => lost

/-- A crew and the list of its followers that nobody has waited for, those who start followers, and
those who wait for them. -/
structure Roster (ι κ σ : Type) where
  /-- The crew. -/
  crew : Crew σ
  /-- The list. -/
  list : List ℕ := []
  /-- Who holds the lock of the list. -/
  holder : Option κ := none
  /-- Those who start a follower. -/
  enrolments : κ → Enrolment
  /-- Those who wait. -/
  collectors : ι → Collector := fun _ => .ready

/-- Something that happens. -/
inductive Incident (ι κ : Type) where
  /-- `k` goes on with starting a follower. -/
  | enrol (k : κ)
  /-- The follower of `k` cannot be started. -/
  | fail (k : κ)
  /-- The signal is raised. -/
  | raise
  /-- The follower numbered `n` makes a step. -/
  | tread (n : ℕ)
  /-- `i` looks whether the list is empty, and returns if it is. -/
  | glance (i : ι)
  /-- `i` takes the list. -/
  | take (i : ι)
  /-- `i` finds that the follower it waits for has ended, or returns if there is none left. -/
  | await (i : ι)
  /-- `i` gives up the follower it waits for. -/
  | giveUp (i : ι)

namespace Roster

variable {ι κ σ α : Type} [DecidableEq ι] [DecidableEq κ] (link : Link σ)

/-- `k` has come to `c`. -/
def enrolled (s : Roster ι κ σ) (k : κ) (c : Enrolment) : Roster ι κ σ :=
  { s with enrolments := Function.update s.enrolments k c }

/-- `i` has come to `c`. -/
def collected (s : Roster ι κ σ) (i : ι) (c : Collector) : Roster ι κ σ :=
  { s with collectors := Function.update s.collectors i c }

/-- `k` goes on with starting a follower, unless it has to wait for the lock. -/
def enrol (s : Roster ι κ σ) (k : κ) : Roster ι κ σ :=
  match s.enrolments k with
  | .ready duel submission =>
    if s.holder.isSome then s
    else { s with holder := some k }.enrolled k (.checking duel submission)
  | .checking duel submission =>
    s.enrolled k (if s.crew.raised then .leaving false else .starting duel submission)
  | .starting duel submission =>
    { s with crew := { s.crew with
        followers := s.crew.followers ++ [Follower.fresh duel submission] } }.enrolled k
      (.listing s.crew.followers.length)
  | .listing n => { s with list := s.list ++ [n] }.enrolled k (.leaving true)
  | .leaving started => { s with holder := none }.enrolled k (.finished started)
  | .finished _ => s

/-- True if `i` may take the list: it has not begun, and nobody holds the lock. -/
def mayTake (s : Roster ι κ σ) (i : ι) : Bool :=
  match s.collectors i with
  | .ready => s.holder.isNone
  | _ => false

/-- What becomes of all when something happens; nothing if it cannot. -/
def step (s : Roster ι κ σ) : Incident ι κ → Roster ι κ σ
  | .enrol k => s.enrol k
  | .fail k =>
    match s.enrolments k with
    | .starting _ _ => s.enrolled k (.leaving false)
    | _ => s
  | .raise => { s with crew := { s.crew with raised := true } }
  | .tread n => { s with crew := s.crew.tread link n }
  | .glance i => if s.mayTake i && s.list.isEmpty then s.collected i (.returned 0) else s
  | .take i =>
    if s.mayTake i then
      { s with crew := (Crew.join s.crew).2, list := [] }.collected i (.waiting s.list 0)
    else s
  | .await i =>
    match s.collectors i with
    | .waiting [] lost => s.collected i (.returned lost)
    | .waiting (n :: rest) lost =>
      if s.crew.hasEnded n then s.collected i (.waiting rest lost) else s
    | _ => s
  | .giveUp i =>
    match s.collectors i with
    | .waiting (n :: rest) lost =>
      if s.crew.hasEnded n then s else s.collected i (.waiting rest (lost + 1))
    | _ => s

/-- What becomes of all when several things happen, in order. -/
def run (s : Roster ι κ σ) (xs : List (Incident ι κ)) : Roster ι κ σ :=
  xs.foldl (step link) s

/-- The followers that are taken, with whoever takes them. -/
def taking (s : Roster ι κ σ) : Incident ι κ → List (ι × ℕ)
  | .take i => if s.mayTake i then s.list.map (i, ·) else []
  | _ => []

/-- The follower that is given up, with whoever gives it up: it has not ended. -/
def losing (s : Roster ι κ σ) : Incident ι κ → List (ι × ℕ)
  | .giveUp i =>
    match s.collectors i with
    | .waiting (n :: _) _ => if s.crew.hasEnded n then [] else [(i, n)]
    | _ => []
  | _ => []

/-- All that comes of `f` in the course of a run. -/
def during (f : Roster ι κ σ → Incident ι κ → List α) (s : Roster ι κ σ) :
    List (Incident ι κ) → List α
  | [] => []
  | x :: xs => f s x ++ (s.step link x).during f xs

/-- The followers that were taken in the course of a run, in order, with those who took them. -/
def taken (s : Roster ι κ σ) (xs : List (Incident ι κ)) : List (ι × ℕ) :=
  s.during link taking xs

/-- The followers that were given up in the course of a run, with those who gave them up. -/
def lost (s : Roster ι κ σ) (xs : List (Incident ι κ)) : List (ι × ℕ) :=
  s.during link losing xs

/-- A run goes on where the part before it has ended. -/
lemma run_append (s : Roster ι κ σ) (xs ys : List (Incident ι κ)) :
    s.run link (xs ++ ys) = (s.run link xs).run link ys :=
  List.foldl_append

/-- The last incident of a run happens after all the others. -/
lemma run_concat (s : Roster ι κ σ) (xs : List (Incident ι κ)) (x : Incident ι κ) :
    s.run link (xs ++ [x]) = (s.run link xs).step link x := by
  rw [run_append]
  rfl

/-- What comes of the last incident comes last. -/
lemma during_concat (f : Roster ι κ σ → Incident ι κ → List α) (s : Roster ι κ σ)
    (xs : List (Incident ι κ)) (x : Incident ι κ) :
    s.during link f (xs ++ [x]) = s.during link f xs ++ f (s.run link xs) x := by
  induction xs generalizing s with
  | nil => simp [during, run]
  | cons y xs ih => rw [List.cons_append, during, ih, during, List.append_assoc]; rfl

/-! ### What can happen -/

/-- The ways in which things can go, each with the followers that are taken and those that are given
up. -/
inductive Goes (s : Roster ι κ σ) : Roster ι κ σ → List (ι × ℕ) → List (ι × ℕ) → Prop
  | nothing : Goes s s [] []
  | lock (k : κ) (duel submission : Int64) (hk : s.enrolments k = .ready duel submission)
      (hfree : s.holder = none) :
      Goes s ({ s with holder := some k }.enrolled k (.checking duel submission)) [] []
  | refuse (k : κ) (duel submission : Int64) (hk : s.enrolments k = .checking duel submission)
      (hraised : s.crew.raised) : Goes s (s.enrolled k (.leaving false)) [] []
  | pass (k : κ) (duel submission : Int64) (hk : s.enrolments k = .checking duel submission)
      (hraised : s.crew.raised = false) : Goes s (s.enrolled k (.starting duel submission)) [] []
  | start (k : κ) (duel submission : Int64) (hk : s.enrolments k = .starting duel submission) :
      Goes s ({ s with crew := { s.crew with
        followers := s.crew.followers ++ [Follower.fresh duel submission] } }.enrolled k
          (.listing s.crew.followers.length)) [] []
  | fail (k : κ) (duel submission : Int64) (hk : s.enrolments k = .starting duel submission) :
      Goes s (s.enrolled k (.leaving false)) [] []
  | list (k : κ) (n : ℕ) (hk : s.enrolments k = .listing n) :
      Goes s ({ s with list := s.list ++ [n] }.enrolled k (.leaving true)) [] []
  | unlock (k : κ) (started : Bool) (hk : s.enrolments k = .leaving started) :
      Goes s ({ s with holder := none }.enrolled k (.finished started)) [] []
  | raise : Goes s { s with crew := { s.crew with raised := true } } [] []
  | tread (n : ℕ) : Goes s { s with crew := s.crew.tread link n } [] []
  | turnBack (i : ι) (hi : s.collectors i = .ready) : Goes s (s.collected i (.returned 0)) [] []
  | take (i : ι) (hi : s.collectors i = .ready) (hfree : s.holder = none) :
      Goes s ({ s with crew := (Crew.join s.crew).2, list := [] }.collected i
        (.waiting s.list 0)) (s.list.map (i, ·)) []
  | giveBack (i : ι) (lost : ℕ) (hi : s.collectors i = .waiting [] lost) :
      Goes s (s.collected i (.returned lost)) [] []
  | await (i : ι) (n : ℕ) (rest : List ℕ) (lost : ℕ)
      (hi : s.collectors i = .waiting (n :: rest) lost) (hended : s.crew.hasEnded n) :
      Goes s (s.collected i (.waiting rest lost)) [] []
  | giveUp (i : ι) (n : ℕ) (rest : List ℕ) (lost : ℕ)
      (hi : s.collectors i = .waiting (n :: rest) lost) :
      Goes s (s.collected i (.waiting rest (lost + 1))) [] [(i, n)]

omit [DecidableEq ι] [DecidableEq κ] in
/-- The list can be taken by who has not begun, while nobody holds the lock. -/
lemma mayTake_iff {s : Roster ι κ σ} {i : ι} :
    s.mayTake i ↔ s.collectors i = .ready ∧ s.holder = none := by
  rw [mayTake]
  cases s.collectors i <;> simp

/-- Whatever happens, things go in one of these ways. -/
theorem goes_step (s : Roster ι κ σ) (x : Incident ι κ) :
    Goes link s (s.step link x) (s.taking x) (s.losing x) := by
  cases x with
  | enrol k =>
    change Goes link s (s.enrol k) [] []
    rw [enrol]
    split
    next duel submission hk =>
      split
      · exact .nothing
      next hfree => exact .lock k duel submission hk (by simpa using hfree)
    next duel submission hk =>
      by_cases hraised : s.crew.raised
      · rw [if_pos hraised]
        exact .refuse k duel submission hk hraised
      · rw [if_neg hraised]
        exact .pass k duel submission hk (by simpa using hraised)
    next duel submission hk => exact .start k duel submission hk
    next n hk => exact .list k n hk
    next started hk => exact .unlock k started hk
    · exact .nothing
  | fail k =>
    change Goes link s (s.step link (.fail k)) [] []
    rw [step]
    split
    next duel submission hk => exact .fail k duel submission hk
    · exact .nothing
  | raise => exact .raise
  | tread n => exact .tread n
  | glance i =>
    change Goes link s (s.step link (.glance i)) [] []
    rw [step]
    split
    next h =>
      rw [Bool.and_eq_true] at h
      exact .turnBack i (mayTake_iff.mp h.1).1
    · exact .nothing
  | take i =>
    change Goes link s (s.step link (.take i)) (s.taking (.take i)) []
    rw [step, taking]
    by_cases h : s.mayTake i
    · rw [if_pos h, if_pos h]
      obtain ⟨hi, hfree⟩ := mayTake_iff.mp h
      exact .take i hi hfree
    · rw [if_neg h, if_neg h]
      exact .nothing
  | await i =>
    change Goes link s (s.step link (.await i)) [] []
    rw [step]
    split
    next lost hi => exact .giveBack i lost hi
    next n rest lost hi =>
      split
      next hended => exact .await i n rest lost hi hended
      · exact .nothing
    · exact .nothing
  | giveUp i =>
    change Goes link s (s.step link (.giveUp i)) [] (s.losing (.giveUp i))
    rw [step, losing]
    cases hi : s.collectors i with
    | ready => exact .nothing
    | returned lost => exact .nothing
    | waiting rest lost =>
      cases rest with
      | nil => exact .nothing
      | cons n rest =>
        by_cases hended : s.crew.hasEnded n
        · simp only [hended, if_true]
          exact .nothing
        · simp only [hended]
          exact .giveUp i n rest lost hi

/-! ### What every step keeps -/

/-- The follower that was started and is not on the list yet. -/
def unlisted (s : Roster ι κ σ) : List ℕ :=
  match s.holder with
  | none => []
  | some k => (s.enrolments k).unlisted

/-- The followers that go with `i`. -/
def of (l : List (ι × ℕ)) (i : ι) : List ℕ :=
  (l.filter (·.1 = i)).map Prod.snd

/-- What somebody who waits has taken and given up: all that were taken have ended or were given up,
or are still to be waited for. -/
inductive Tally (crew : Crew σ) : Collector → List ℕ → List ℕ → Prop
  | ready : Tally crew .ready [] []
  | waiting (done rest lost : List ℕ) (hlost : lost.Sublist done)
      (hdone : ∀ n ∈ done, n ∈ lost ∨ crew.hasEnded n) :
      Tally crew (.waiting rest lost.length) (done ++ rest) lost
  | returned (done lost : List ℕ) (hlost : lost.Sublist done)
      (hdone : ∀ n ∈ done, n ∈ lost ∨ crew.hasEnded n) :
      Tally crew (.returned lost.length) done lost

/-- What is known once the followers in `taken` were taken and those in `lost` given up. -/
structure Sound (s : Roster ι κ σ) (taken lost : List (ι × ℕ)) : Prop where
  /-- The lock is held by whoever is at a stage at which it is held. -/
  locked : ∀ k, (s.enrolments k).holdsLock ↔ s.holder = some k
  /-- Those taken, those on the list and the one that is not on it yet are all that were started. -/
  numbers : taken.map Prod.snd ++ s.list ++ s.unlisted = List.range s.crew.followers.length
  /-- Those taken are those that the crew takes for joined. -/
  joined : s.crew.joined = taken.length
  /-- Everybody has kept count. -/
  tallied : ∀ i, Tally s.crew (s.collectors i) (of taken i) (of lost i)

omit [DecidableEq ι] in
/-- Who has moved has come there. -/
@[simp]
lemma enrolled_self (s : Roster ι κ σ) (k : κ) (c : Enrolment) :
    (s.enrolled k c).enrolments k = c :=
  Function.update_self ..

omit [DecidableEq κ] in
/-- Who waits and has moved has come there. -/
@[simp]
lemma collected_self (s : Roster ι κ σ) (i : ι) (c : Collector) :
    (s.collected i c).collectors i = c :=
  Function.update_self ..

omit [DecidableEq κ] in
/-- All others who wait are where they were. -/
lemma collected_of_ne (s : Roster ι κ σ) {i j : ι} (c : Collector) (h : j ≠ i) :
    (s.collected i c).collectors j = s.collectors j :=
  Function.update_of_ne h ..

/-- The followers that go with `i` are found part by part. -/
lemma of_append (l l' : List (ι × ℕ)) (i : ι) : of (l ++ l') i = of l i ++ of l' i := by
  simp [of]

/-- All of those that were noted for `i` go with `i`. -/
lemma of_map_self (ns : List ℕ) (i : ι) : of (ns.map (i, ·)) i = ns := by
  simp [of, List.filter_map, Function.comp_def]

/-- None of those that were noted for somebody else go with `i`. -/
lemma of_map_of_ne (ns : List ℕ) {i j : ι} (h : j ≠ i) : of (ns.map (i, ·)) j = [] := by
  simp [of, List.filter_map, Function.comp_def, h.symm]

omit [DecidableEq ι] [DecidableEq κ] in
/-- A tally is good as long as followers that have ended stay so. -/
lemma Tally.mono {crew crew' : Crew σ} {c : Collector} {taken lost : List ℕ}
    (h : Tally crew c taken lost) (hended : ∀ n, crew.hasEnded n → crew'.hasEnded n) :
    Tally crew' c taken lost := by
  cases h with
  | ready => exact .ready
  | waiting done rest lost hlost hdone =>
    exact .waiting done rest lost hlost fun n hn => (hdone n hn).imp_right (hended n)
  | returned done lost hlost hdone =>
    exact .returned taken lost hlost fun n hn => (hdone n hn).imp_right (hended n)

omit [DecidableEq ι] [DecidableEq κ] in
/-- Who has not begun has taken and given up nothing. -/
lemma Tally.of_ready {crew : Crew σ} {taken lost : List ℕ} (h : Tally crew .ready taken lost) :
    taken = [] ∧ lost = [] := by
  cases h
  exact ⟨rfl, rfl⟩

omit [DecidableEq ι] [DecidableEq κ] in
/-- Who waits for `rest` is done with the others that it has taken. -/
lemma Tally.of_waiting {crew : Crew σ} {rest taken lost : List ℕ} {count : ℕ}
    (h : Tally crew (.waiting rest count) taken lost) :
    ∃ done, taken = done ++ rest ∧ count = lost.length ∧ lost.Sublist done ∧
      ∀ n ∈ done, n ∈ lost ∨ crew.hasEnded n := by
  cases h with
  | waiting done rest lost hlost hdone => exact ⟨done, rfl, rfl, hlost, hdone⟩

omit [DecidableEq ι] [DecidableEq κ] in
/-- Who has returned is done with all that it has taken. -/
lemma Tally.of_returned {crew : Crew σ} {taken lost : List ℕ} {count : ℕ}
    (h : Tally crew (.returned count) taken lost) :
    count = lost.length ∧ ∀ n ∈ taken, n ∈ lost ∨ crew.hasEnded n := by
  cases h with
  | returned done lost hlost hdone => exact ⟨rfl, hdone⟩

variable {link} {s : Roster ι κ σ} {taken lost : List (ι × ℕ)}

namespace Sound

/-- Who holds the lock, once `k` has come to `c`. -/
lemma locked_enrolled (h : s.Sound taken lost) {k : κ} {c : Enrolment} {holder : Option κ}
    (hk : c.holdsLock ↔ holder = some k) (hothers : ∀ j ≠ k, s.holder = some j ↔ holder = some j)
    (j : κ) : (Function.update s.enrolments k c j).holdsLock ↔ holder = some j := by
  by_cases hj : j = k
  · subst hj
    rwa [Function.update_self]
  · rw [Function.update_of_ne hj, h.locked, hothers j hj]

/-- Whoever holds the lock goes on to `c`. -/
lemma enrolled (h : s.Sound taken lost) {k : κ} {c : Enrolment}
    (hholds : (s.enrolments k).holdsLock) (hc : c.holdsLock)
    (hsame : c.unlisted = (s.enrolments k).unlisted) : (s.enrolled k c).Sound taken lost where
  locked := by
    have hholder := (h.locked k).mp hholds
    exact h.locked_enrolled (iff_of_true hc hholder) fun j _ => Iff.rfl
  numbers := by
    have hunlisted : (s.enrolled k c).unlisted = s.unlisted := by
      have hholder := (h.locked k).mp hholds
      simp [unlisted, Roster.enrolled, hholder, hsame]
    rw [hunlisted]
    exact h.numbers
  joined := h.joined
  tallied := h.tallied

/-- Somebody takes the lock. -/
lemma lock (h : s.Sound taken lost) {k : κ} {c : Enrolment} (hfree : s.holder = none)
    (hc : c.holdsLock) (hnone : c.unlisted = []) :
    ({ s with holder := some k }.enrolled k c).Sound taken lost where
  locked := by
    refine h.locked_enrolled (iff_of_true hc rfl) fun j hj => iff_of_false ?_ ?_
    · rw [hfree]
      exact (Option.some_ne_none j).symm
    · exact fun hk => hj (Option.some.inj hk).symm
  numbers := by
    have hunlisted : s.unlisted = [] := by rw [unlisted, hfree]
    have hnumbers := h.numbers
    rw [hunlisted] at hnumbers
    have hunlisted' : ({ s with holder := some k }.enrolled k c).unlisted = [] := by
      simp [unlisted, Roster.enrolled, hnone]
    rwa [hunlisted']
  joined := h.joined
  tallied := h.tallied

/-- Whoever holds the lock releases it. -/
lemma unlock (h : s.Sound taken lost) {k : κ} {c : Enrolment}
    (hholds : (s.enrolments k).holdsLock) (hnone : (s.enrolments k).unlisted = [])
    (hc : c.holdsLock = false) : ({ s with holder := none }.enrolled k c).Sound taken lost where
  locked := by
    have hholder := (h.locked k).mp hholds
    have hnobody (j : κ) : (none : Option κ) ≠ some j := (Option.some_ne_none j).symm
    refine h.locked_enrolled (iff_of_false (by simp [hc]) (hnobody k)) fun j hj => ?_
    refine iff_of_false (fun hj' => hj ?_) (hnobody j)
    exact Option.some.inj (hj'.symm.trans hholder)
  numbers := by
    have hunlisted : s.unlisted = [] := by rw [unlisted, (h.locked k).mp hholds]; exact hnone
    have hnumbers := h.numbers
    rwa [hunlisted] at hnumbers
  joined := h.joined
  tallied := h.tallied

/-- Whoever holds the lock starts a follower, which is not on the list yet. -/
lemma start (h : s.Sound taken lost) {k : κ} (f : Follower)
    (hholds : (s.enrolments k).holdsLock) (hnone : (s.enrolments k).unlisted = []) :
    ({ s with crew := { s.crew with followers := s.crew.followers ++ [f] } }.enrolled k
      (.listing s.crew.followers.length)).Sound taken lost where
  locked := by
    have hholder := (h.locked k).mp hholds
    exact h.locked_enrolled (iff_of_true rfl hholder) fun j _ => Iff.rfl
  numbers := by
    have hholder := (h.locked k).mp hholds
    have hunlisted : s.unlisted = [] := by rw [unlisted, hholder]; exact hnone
    have hnumbers := h.numbers
    rw [hunlisted, List.append_nil] at hnumbers
    simp [unlisted, Roster.enrolled, hholder, Enrolment.unlisted, hnumbers, List.range_succ]
  joined := h.joined
  tallied i := (h.tallied i).mono fun n hn => Crew.hasEnded_append _ f hn

/-- Whoever holds the lock puts the follower that it has started on the list. -/
lemma list (h : s.Sound taken lost) {k : κ} {n : ℕ} (hk : s.enrolments k = .listing n) :
    ({ s with list := s.list ++ [n] }.enrolled k (.leaving true)).Sound taken lost where
  locked := by
    have hholder := (h.locked k).mp (by rw [hk]; rfl)
    exact h.locked_enrolled (iff_of_true rfl hholder) fun j _ => Iff.rfl
  numbers := by
    have hholder := (h.locked k).mp (by rw [hk]; rfl)
    have hunlisted : s.unlisted = [n] := by rw [unlisted, hholder]; simp only [hk]; rfl
    have hnumbers := h.numbers
    rw [hunlisted] at hnumbers
    simp [unlisted, Roster.enrolled, hholder, Enrolment.unlisted, ← hnumbers]
  joined := h.joined
  tallied := h.tallied

omit [DecidableEq κ] in
/-- The followers go on, or the signal is raised. -/
lemma crew (h : s.Sound taken lost) {crew : Crew σ}
    (hlength : crew.followers.length = s.crew.followers.length)
    (hjoined : crew.joined = s.crew.joined)
    (hended : ∀ n, s.crew.hasEnded n → crew.hasEnded n) :
    { s with crew }.Sound taken lost where
  locked := h.locked
  numbers := by
    rw [hlength]
    exact h.numbers
  joined := hjoined.trans h.joined
  tallied i := (h.tallied i).mono hended

omit [DecidableEq κ] in
/-- Somebody who waits goes on. -/
lemma collected (h : s.Sound taken lost) {i : ι} {c : Collector} {lost' : List (ι × ℕ)}
    (hi : Tally s.crew c (of taken i) (of lost i ++ of lost' i))
    (hothers : ∀ j ≠ i, of lost' j = []) : (s.collected i c).Sound taken (lost ++ lost') where
  locked := h.locked
  numbers := h.numbers
  joined := h.joined
  tallied j := by
    rw [of_append]
    by_cases hj : j = i
    · subst hj
      rwa [collected_self]
    · rw [collected_of_ne s c hj, hothers j hj, List.append_nil]
      exact h.tallied j

omit [DecidableEq κ] in
/-- Somebody takes the list. -/
lemma take (h : s.Sound taken lost) {i : ι} (hi : s.collectors i = .ready)
    (hfree : s.holder = none) :
    ({ s with crew := (Crew.join s.crew).2, list := [] }.collected i
      (.waiting s.list 0)).Sound (taken ++ s.list.map (i, ·)) lost where
  locked := h.locked
  numbers := by
    have hunlisted : s.unlisted = [] := by rw [unlisted, hfree]
    have hnumbers := h.numbers
    rw [hunlisted, List.append_nil] at hnumbers
    have hnone : ({ s with crew := (Crew.join s.crew).2, list := [] }.collected i
      (.waiting s.list 0)).unlisted = [] := hunlisted
    rw [hnone, List.append_nil, List.map_append, List.map_map]
    exact (congrArg (· ++ []) (congrArg (_ ++ ·) (List.map_id s.list))).trans
      ((List.append_nil _).trans hnumbers)
  joined := by
    have hunlisted : s.unlisted = [] := by rw [unlisted, hfree]
    have hlength := congrArg List.length h.numbers
    simp only [hunlisted, List.length_append, List.length_map, List.length_nil, Nat.add_zero,
      List.length_range] at hlength
    rw [List.length_append, List.length_map, hlength]
    rfl
  tallied j := by
    rw [of_append]
    by_cases hj : j = i
    · subst hj
      rw [collected_self, of_map_self]
      have htally := h.tallied j
      rw [hi] at htally
      obtain ⟨htaken, hlost⟩ := htally.of_ready
      rw [htaken, hlost]
      exact .waiting [] s.list [] (List.Sublist.refl _) (fun n hn => nomatch hn)
    · rw [collected_of_ne _ _ hj, of_map_of_ne s.list hj, List.append_nil]
      exact (h.tallied j).mono fun n hn => hn

omit [DecidableEq κ] in
/-- Somebody who waits goes on and gives up nobody. -/
lemma goesOn (h : s.Sound taken lost) {i : ι} {c : Collector}
    (hc : Tally s.crew c (of taken i) (of lost i)) : (s.collected i c).Sound taken lost := by
  have hgoes : (s.collected i c).Sound (taken ++ []) (lost ++ []) := by
    rw [List.append_nil]
    exact h.collected (by simpa [of] using hc) fun _ _ => rfl
  simpa using hgoes

omit [DecidableEq κ] in
/-- Somebody finds that the follower that it waits for has ended. -/
lemma await (h : s.Sound taken lost) {i : ι} {n : ℕ} {rest : List ℕ} {count : ℕ}
    (hi : s.collectors i = .waiting (n :: rest) count) (hended : s.crew.hasEnded n) :
    (s.collected i (.waiting rest count)).Sound taken lost := by
  have htally := h.tallied i
  rw [hi] at htally
  obtain ⟨done, htaken, rfl, hlost, hdone⟩ := htally.of_waiting
  refine h.goesOn ?_
  rw [htaken, ← List.singleton_append (l := rest), ← List.append_assoc]
  refine .waiting (done ++ [n]) rest (of lost i) (hlost.trans (by simp)) fun m hm => ?_
  rcases List.mem_append.mp hm with hm | hm
  · exact hdone m hm
  · rw [List.mem_singleton.mp hm]
    exact .inr hended

omit [DecidableEq κ] in
/-- Somebody gives up the follower that it waits for. -/
lemma giveUp (h : s.Sound taken lost) {i : ι} {n : ℕ} {rest : List ℕ} {count : ℕ}
    (hi : s.collectors i = .waiting (n :: rest) count) :
    (s.collected i (.waiting rest (count + 1))).Sound taken (lost ++ [(i, n)]) := by
  have htally := h.tallied i
  rw [hi] at htally
  obtain ⟨done, htaken, rfl, hlost, hdone⟩ := htally.of_waiting
  refine h.collected ?_ fun j hj => of_map_of_ne [n] hj
  have hn : of [(i, n)] i = [n] := of_map_self [n] i
  have hcount : (of lost i).length + 1 = (of lost i ++ [n]).length := by simp
  rw [hn, htaken, hcount, ← List.singleton_append (l := rest), ← List.append_assoc]
  refine .waiting (done ++ [n]) rest _ (hlost.append (List.Sublist.refl [n])) fun m hm => ?_
  rcases List.mem_append.mp hm with hm | hm
  · exact (hdone m hm).imp_left fun hmem => List.mem_append_left _ hmem
  · exact .inl (List.mem_append_right _ hm)

/-- The step lemma. -/
theorem goes (h : s.Sound taken lost) {s' : Roster ι κ σ} {a b : List (ι × ℕ)}
    (hs : Goes link s s' a b) : s'.Sound (taken ++ a) (lost ++ b) := by
  cases hs with
  | nothing => simpa using h
  | lock k duel submission hk hfree => simpa using h.lock hfree rfl rfl
  | refuse k duel submission hk hraised =>
    simpa using h.enrolled (k := k) (by rw [hk]; rfl) rfl (by rw [hk]; rfl)
  | pass k duel submission hk hraised =>
    simpa using h.enrolled (k := k) (by rw [hk]; rfl) rfl (by rw [hk]; rfl)
  | start k duel submission hk =>
    simpa using h.start _ (k := k) (by rw [hk]; rfl) (by rw [hk]; rfl)
  | fail k duel submission hk =>
    simpa using h.enrolled (k := k) (by rw [hk]; rfl) rfl (by rw [hk]; rfl)
  | list k n hk => simpa using h.list hk
  | unlock k started hk =>
    simpa using h.unlock (k := k) (by rw [hk]; rfl) (by rw [hk]; rfl) rfl
  | raise =>
    let s' : Roster ι κ σ := { s with crew := { s.crew with raised := true } }
    have hraise : s'.Sound taken lost := h.crew rfl rfl fun n hn => hn
    simpa using hraise
  | tread n =>
    obtain ⟨-, hlength, hjoined⟩ := Crew.tread_frame link s.crew n
    simpa using h.crew hlength hjoined fun m hm => Crew.hasEnded_tread link hm
  | turnBack i hi =>
    have htally := h.tallied i
    rw [hi] at htally
    obtain ⟨htaken, hlost⟩ := htally.of_ready
    have hgoes : (s.collected i (.returned 0)).Sound taken lost := h.goesOn (by
      rw [htaken, hlost]
      exact .returned [] [] (List.Sublist.refl _) fun n hn => nomatch hn)
    simpa using hgoes
  | take i hi hfree => simpa using h.take hi hfree
  | giveBack i count hi =>
    have htally := h.tallied i
    rw [hi] at htally
    obtain ⟨done, htaken, rfl, hlost, hdone⟩ := htally.of_waiting
    have hgoes : (s.collected i (.returned (of lost i).length)).Sound taken lost := h.goesOn (by
      rw [htaken, List.append_nil]
      exact .returned done _ hlost hdone)
    simpa using hgoes
  | await i n rest count hi hended => simpa using h.await hi hended
  | giveUp i n rest count hi => simpa using h.giveUp hi

end Sound

/-- Nobody has begun, and there are no followers. `plans` says which submissions are to be followed,
and in which duels. -/
def begin (w : World σ) (plans : κ → Int64 × Int64) : Roster ι κ σ where
  crew := { world := w }
  enrolments k := .ready (plans k).1 (plans k).2

variable (link) (w : World σ) (plans : κ → Int64 × Int64)

/-- The run lemma. -/
theorem sound_run (xs : List (Incident ι κ)) :
    ((begin w plans).run link xs).Sound ((begin w plans).taken link xs)
      ((begin w plans).lost link xs) := by
  induction xs using List.reverseRecOn with
  | nil =>
    exact ⟨fun k => iff_of_false Bool.noConfusion (Option.some_ne_none k).symm, rfl, rfl,
      fun _ => .ready⟩
  | append_singleton xs x ih =>
    rw [run_concat, taken, lost, during_concat, during_concat]
    exact ih.goes (goes_step link _ x)

end Roster
end Duelist
