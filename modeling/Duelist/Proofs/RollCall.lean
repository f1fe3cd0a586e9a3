import Duelist.Proofs.Roster
import Duelist.Rehearsed
import Mathlib.Algebra.BigOperators.Group.Finset.Piecewise
/-!
# Taking the roll

What can be said of whole runs in which followers are started, go on, and are waited for, in any
order. The main statement is `Roster.none_escapes`: no follower is left out by those who wait, and
none is counted twice. With nobody else about, the steps come to starting a follower
(`Roster.exists_run_follow`) and to joining (`Roster.exists_run_join`).
-/

namespace Duelist.Roster

variable {ι κ σ : Type} [DecidableEq ι] [DecidableEq κ] {link : Link σ} {s : Roster ι κ σ}
  {taken lost : List (ι × ℕ)}

/-! ### Once the signal is raised -/

/-- True of somebody who has not looked at the signal yet, or has found it raised, once it is. -/
structure Refused (s : Roster ι κ σ) (k : κ) : Prop where
  /-- The signal is raised. -/
  raised : s.crew.raised
  /-- The stage of `k`. -/
  stage : (s.enrolments k).isRefusable

/-- The list is empty once the signal is raised, and nobody is about to put a follower on it. -/
structure Closed (s : Roster ι κ σ) : Prop where
  /-- The signal is raised. -/
  raised : s.crew.raised
  /-- The list. -/
  list : s.list = []
  /-- Nobody was admitted who is not done. -/
  admitted : ∀ k, (s.enrolments k).isAdmitted = false

/-- Whoever is refused stays so, whatever happens. -/
lemma Refused.goes {k : κ} (h : s.Refused k) {s' : Roster ι κ σ} {a b : List (ι × ℕ)}
    (hs : Goes link s s' a b) : s'.Refused k := by
  have hstage := h.stage
  -- whatever others do is none of `k`'s concern
  have hbecome {j : κ} {c : Enrolment} (hj : j = k → c.isRefusable) :
      (Function.update s.enrolments j c k).isRefusable := by
    by_cases hjk : k = j
    · rw [hjk, Function.update_self]
      exact hj hjk.symm
    · rwa [Function.update_of_ne hjk]
  have hfree : s.crew.raised ≠ false := by simp [h.raised]
  cases hs with
  | nothing => exact h
  | lock j duel submission hj hfree => exact ⟨h.raised, hbecome fun _ => rfl⟩
  | refuse j duel submission hj hraised => exact ⟨h.raised, hbecome fun _ => rfl⟩
  | pass j duel submission hj hraised => exact absurd hraised hfree
  | start j duel submission hj =>
    exact ⟨h.raised, hbecome fun hjk => by rw [← hjk, hj] at hstage; cases hstage⟩
  | fail j duel submission hj => exact ⟨h.raised, hbecome fun _ => rfl⟩
  | list j n hj =>
    exact ⟨h.raised, hbecome fun hjk => by rw [← hjk, hj] at hstage; cases hstage⟩
  | unlock j started hj =>
    refine ⟨h.raised, hbecome fun hjk => ?_⟩
    rw [← hjk, hj] at hstage
    cases started with
    | true => cases hstage
    | false => rfl
  | raise => exact ⟨rfl, hstage⟩
  | tread n => exact ⟨(Crew.tread_frame link s.crew n).1.trans h.raised, hstage⟩
  | turnBack i hi => exact ⟨h.raised, hstage⟩
  | take i hi hfree => exact ⟨h.raised, hstage⟩
  | giveBack i count hi => exact ⟨h.raised, hstage⟩
  | await i n rest count hi hended => exact ⟨h.raised, hstage⟩
  | giveUp i n rest count hi => exact ⟨h.raised, hstage⟩

/-- A list that is closed stays closed, whatever happens. -/
lemma Closed.goes (h : s.Closed) {s' : Roster ι κ σ} {a b : List (ι × ℕ)}
    (hs : Goes link s s' a b) : s'.Closed := by
  have hadmitted := h.admitted
  have hbecome {j : κ} {c : Enrolment} (hc : c.isAdmitted = false) (k : κ) :
      (Function.update s.enrolments j c k).isAdmitted = false := by
    by_cases hjk : k = j
    · rw [hjk, Function.update_self, hc]
    · rw [Function.update_of_ne hjk, hadmitted]
  -- nobody is admitted, so that no follower can be started or listed
  have hnot {j : κ} {c : Enrolment} (hj : s.enrolments j = c) : c.isAdmitted ≠ true := by
    rw [← hj, hadmitted]
    exact Bool.false_ne_true
  have hfree : s.crew.raised ≠ false := by simp [h.raised]
  cases hs with
  | nothing => exact h
  | lock j duel submission hj hfree => exact ⟨h.raised, h.list, hbecome rfl⟩
  | refuse j duel submission hj hraised => exact ⟨h.raised, h.list, hbecome rfl⟩
  | pass j duel submission hj hraised => exact absurd hraised hfree
  | start j duel submission hj => exact absurd rfl (hnot hj)
  | fail j duel submission hj => exact ⟨h.raised, h.list, hbecome rfl⟩
  | list j n hj => exact absurd rfl (hnot hj)
  | unlock j started hj => exact ⟨h.raised, h.list, hbecome rfl⟩
  | raise => exact ⟨rfl, h.list, hadmitted⟩
  | tread n => exact ⟨(Crew.tread_frame link s.crew n).1.trans h.raised, h.list, hadmitted⟩
  | turnBack i hi => exact ⟨h.raised, h.list, hadmitted⟩
  | take i hi hfree => exact ⟨h.raised, rfl, hadmitted⟩
  | giveBack i count hi => exact ⟨h.raised, h.list, hadmitted⟩
  | await i n rest count hi hended => exact ⟨h.raised, h.list, hadmitted⟩
  | giveUp i n rest count hi => exact ⟨h.raised, h.list, hadmitted⟩

/-- Whoever is refused stays so in a whole run. -/
lemma Refused.run {k : κ} (h : s.Refused k) (xs : List (Incident ι κ)) :
    (s.run link xs).Refused k := by
  induction xs generalizing s with
  | nil => exact h
  | cons x xs ih => exact ih (h.goes (goes_step link s x))

/-- A list that is closed stays closed in a whole run. -/
lemma Closed.run (h : s.Closed) (xs : List (Incident ι κ)) : (s.run link xs).Closed := by
  induction xs generalizing s with
  | nil => exact h
  | cons x xs ih => exact ih (h.goes (goes_step link s x))

/-- Whoever is refused has no effect on the crew and on the list. -/
lemma Refused.step_eq {k : κ} (h : s.Refused k) {x : Incident ι κ}
    (hx : x = .enrol k ∨ x = .fail k) :
    (s.step link x).crew = s.crew ∧ (s.step link x).list = s.list := by
  have hstage := h.stage
  rcases hx with rfl | rfl
  · rw [step, enrol]
    split
    · split <;> exact ⟨rfl, rfl⟩
    · exact ⟨rfl, rfl⟩
    next hk => rw [hk] at hstage; cases hstage
    next hk => rw [hk] at hstage; cases hstage
    · exact ⟨rfl, rfl⟩
    · exact ⟨rfl, rfl⟩
  · rw [step]
    split <;> exact ⟨rfl, rfl⟩

/-- Once somebody has taken the list after the signal was raised, it is empty for good: whoever was
admitted before would still hold the lock. -/
lemma Sound.closed_of_take (h : s.Sound taken lost) {i : ι} (hi : s.mayTake i)
    (hraised : s.crew.raised) : (s.step link (.take i)).Closed := by
  obtain ⟨-, hfree⟩ := mayTake_iff.mp hi
  rw [step, if_pos hi]
  refine ⟨hraised, rfl, fun k => ?_⟩
  have hlocked : (s.enrolments k).holdsLock = false := by
    rw [Bool.eq_false_iff, Ne, h.locked, hfree]
    exact (Option.some_ne_none k).symm
  change (s.enrolments k).isAdmitted = false
  cases hk : s.enrolments k with
  | ready duel submission => rfl
  | finished started => rfl
  | _ => rw [hk] at hlocked; cases hlocked

omit [DecidableEq κ] in
/-- Then all followers that were ever started are taken. -/
lemma Closed.numbers (h : s.Closed) (hs : s.Sound taken lost) :
    taken.map Prod.snd = List.range s.crew.followers.length := by
  have hunlisted : s.unlisted = [] := by
    rw [unlisted]
    cases s.holder with
    | none => rfl
    | some k => exact Enrolment.unlisted_of_isAdmitted (h.admitted k)
  have hnumbers := hs.numbers
  rwa [hunlisted, h.list, List.append_nil, List.append_nil] at hnumbers

/-! ### What can be said of a whole run -/

omit [DecidableEq κ] in
/-- No follower is taken twice. -/
lemma Sound.nodup_taken (h : s.Sound taken lost) : (taken.map Prod.snd).Nodup := by
  have hnodup := List.nodup_range (n := s.crew.followers.length)
  rw [← h.numbers, List.append_assoc] at hnodup
  exact (List.nodup_append.mp hnodup).1

/-- A follower goes with `i` if it stands there with `i`. -/
lemma mem_of {l : List (ι × ℕ)} {i : ι} {n : ℕ} : n ∈ of l i ↔ (i, n) ∈ l := by
  simp [of]

/-- Who gives up followers has taken them, and has counted them. -/
lemma Tally.sublist {crew : Crew σ} {c : Collector} {mine given : List ℕ}
    (h : Tally crew c mine given) : given.Sublist mine ∧ c.lost = given.length := by
  cases h with
  | ready => exact ⟨List.Sublist.refl _, rfl⟩
  | waiting done rest lost hlost hdone =>
    exact ⟨hlost.trans (List.sublist_append_left done rest), rfl⟩
  | returned done lost hlost hdone => exact ⟨hlost, rfl⟩

omit [DecidableEq κ] in
/-- What somebody gave up was taken by the same. -/
lemma Sound.lost_subset (h : s.Sound taken lost) : lost ⊆ taken := by
  rintro ⟨i, n⟩ hn
  exact mem_of.mp ((h.tallied i).sublist.1.subset (mem_of.mpr hn))

omit [DecidableEq κ] in
/-- Nobody takes what another one has taken. -/
lemma Sound.eq_of_mem_taken (h : s.Sound taken lost) {i j : ι} {n : ℕ} (hi : (i, n) ∈ taken)
    (hj : (j, n) ∈ taken) : i = j :=
  congrArg Prod.fst (List.inj_on_of_nodup_map h.nodup_taken hi hj rfl)

omit [DecidableEq κ] in
/-- No follower is given up twice. -/
lemma Sound.nodup_lost (h : s.Sound taken lost) : (lost.map Prod.snd).Nodup := by
  have hof (i : ι) : (of lost i).Nodup := by
    refine (h.tallied i).sublist.1.nodup ?_
    exact h.nodup_taken.sublist (List.filter_sublist.map Prod.snd)
  have hlost : lost.Nodup := by
    rw [List.nodup_iff_count_le_one]
    rintro ⟨i, n⟩
    have hfilter : (lost.filter (·.1 = i)).Nodup := (hof i).of_map
    rw [← List.count_filter (p := fun p : ι × ℕ => decide (p.1 = i)) (by simp)]
    exact List.nodup_iff_count_le_one.mp hfilter (i, n)
  refine (List.nodup_map_iff_inj_on hlost).mpr ?_
  rintro ⟨i, n⟩ hi ⟨j, m⟩ hj (rfl : n = m)
  rw [h.eq_of_mem_taken (h.lost_subset hi) (h.lost_subset hj)]

/-- Each pair goes with one of them. -/
lemma sum_length_of [Fintype ι] (l : List (ι × ℕ)) : ∑ i, (of l i).length = l.length := by
  induction l with
  | nil => simp [of]
  | cons p l ih =>
    have hof (i : ι) : (of (p :: l) i).length = (if p.1 = i then 1 else 0) + (of l i).length := by
      by_cases hp : p.1 = i
      · simp [of, hp, Nat.add_comm]
      · simp [of, hp]
    simp_rw [hof]
    rw [Finset.sum_add_distrib, ih, Finset.sum_ite_eq Finset.univ p.1]
    simp [Nat.add_comm]

/-- What holds of all that happens: the run `xs` began at `s`. -/
structure Accounted [Fintype ι] (link : Link σ) (s : Roster ι κ σ) (xs : List (Incident ι κ)) :
    Prop where
  /-- Whoever looks at the signal once it is raised starts no follower, and changes neither the crew
  nor the list. -/
  refused : ∀ ys zs k duel submission, xs = ys ++ zs →
    (s.run link ys).enrolments k = .checking duel submission → (s.run link ys).crew.raised →
      ∀ x, x = .enrol k ∨ x = .fail k →
        ((s.run link xs).step link x).crew = (s.run link xs).crew ∧
          ((s.run link xs).step link x).list = (s.run link xs).list
  /-- No follower is taken twice, and only those are taken that were started. -/
  taken_once : ((s.taken link xs).map Prod.snd).Nodup ∧
    ∀ i n, (i, n) ∈ s.taken link xs → n < (s.run link xs).crew.followers.length
  /-- Once somebody has taken the list after the signal was raised, it is empty, and every follower
  that was ever started was taken by exactly one. -/
  taken_all : ∀ ys i zs, xs = ys ++ .take i :: zs → (s.run link ys).crew.raised →
    (s.run link ys).mayTake i → (s.run link xs).list = [] ∧
      ∀ n < (s.run link xs).crew.followers.length, ∃! j, (j, n) ∈ s.taken link xs
  /-- No follower is given up twice, and nobody gives up a follower that another one has taken. -/
  lost_once : ((s.lost link xs).map Prod.snd).Nodup ∧ s.lost link xs ⊆ s.taken link xs
  /-- Whoever returns has counted those that it has given up; the others that it has taken have
  ended. -/
  returned : ∀ i count, (s.run link xs).collectors i = .returned count →
    count = (of (s.lost link xs) i).length ∧ ∀ n, (i, n) ∈ s.taken link xs →
      (i, n) ∈ s.lost link xs ∨ (s.run link xs).crew.hasEnded n
  /-- The counts add up to the number of followers that were given up. -/
  total : ∑ i, ((s.run link xs).collectors i).lost = (s.lost link xs).length

/-- No follower escapes those who wait, and none is counted twice, whatever happens and in whatever
order. -/
theorem none_escapes [Fintype ι] (link : Link σ) (w : World σ) (plans : κ → Int64 × Int64)
    (xs : List (Incident ι κ)) : (begin w plans).Accounted link xs := by
  have h := sound_run link w plans xs
  refine ⟨?_, ⟨h.nodup_taken, ?_⟩, ?_, ⟨h.nodup_lost, h.lost_subset⟩, ?_, ?_⟩
  · rintro ys zs k duel submission rfl hk hraised x hx
    have hrefused : ((begin w plans).run link ys).Refused k := ⟨hraised, by rw [hk]; rfl⟩
    rw [run_append]
    exact (hrefused.run zs).step_eq hx
  · intro i n hn
    have hmem : n ∈ List.range ((begin w plans).run link xs).crew.followers.length := by
      rw [← h.numbers, List.append_assoc]
      exact List.mem_append_left _ (List.mem_map_of_mem (f := Prod.snd) hn)
    exact List.mem_range.mp hmem
  · rintro ys i zs rfl hraised hi
    -- the list is empty from then on, and so all followers have been taken by somebody
    have hclosed : ((begin w plans).run link (ys ++ .take i :: zs)).Closed := by
      rw [run_append]
      exact ((sound_run link w plans ys).closed_of_take hi hraised).run zs
    refine ⟨hclosed.list, fun n hn => ?_⟩
    have hmem := List.mem_range.mpr hn
    rw [← hclosed.numbers h, List.mem_map] at hmem
    obtain ⟨⟨j, m⟩, hj, rfl⟩ := hmem
    exact ⟨j, hj, fun j' hj' => h.eq_of_mem_taken hj' hj⟩
  · intro i count hi
    have htally := h.tallied i
    rw [hi] at htally
    obtain ⟨hcount, hdone⟩ := htally.of_returned
    exact ⟨hcount, fun n hn => (hdone n (mem_of.mpr hn)).imp_left mem_of.mp⟩
  · rw [← sum_length_of]
    exact Finset.sum_congr rfl fun i _ => (h.tallied i).sublist.2

example :
    let s : Roster Bool Bool Unit := begin { service := () } fun k => (7, if k then 1 else 2)
    let xs := [.enrol true, .enrol true, .raise, .take true, .enrol true, .enrol true, .enrol true,
      .take true, .take false, .enrol false, .enrol false, .enrol false, .giveUp true, .await true]
    s.taken (.unreachable "") xs = [(true, 0)] ∧ s.lost (.unreachable "") xs = [(true, 0)] ∧
      (s.run (.unreachable "") xs).list = [] ∧
      (s.run (.unreachable "") xs).collectors true = .returned 1 ∧
      (s.run (.unreachable "") xs).collectors false = .waiting [] 0 := by
  decide +kernel

/-! ### With nobody else about -/

/-- Several steps of one follower. -/
lemma run_replicate_tread (link : Link σ) (s : Roster ι κ σ) (m n : ℕ) :
    s.run link (List.replicate m (.tread n)) =
      { s with crew := (fun crew => Crew.tread link crew n)^[m] s.crew } := by
  induction m generalizing s with
  | zero => rfl
  | succ m ih => exact ih (s.step link (.tread n))

/-- A follower that has been started is put on the list, and the lock is released. -/
lemma run_listing (link : Link σ) (s : Roster ι κ σ) {k : κ} {n : ℕ}
    (hk : s.enrolments k = .listing n) :
    let t := s.run link [.enrol k, .enrol k]
    t.crew = s.crew ∧ t.holder = none ∧ t.enrolments k = .finished true ∧
      t.list = s.list ++ [n] := by
  simp [run, step, enrol, hk, enrolled]

/-- Somebody who starts a follower with nobody in between does what `Crew.follow` does, and puts the
follower on the list. -/
theorem exists_run_follow (link : Link σ) (s : Roster ι κ σ) {k : κ} {duel submission : Int64}
    (hk : s.enrolments k = .ready duel submission) (hfree : s.holder = none) :
    ∃ xs, let followed := Crew.follow link duel submission s.crew
      let t := s.run link xs
      t.crew = followed.2 ∧ t.holder = none ∧ t.enrolments k = .finished followed.1 ∧
        t.list = s.list ++ if followed.1 then [s.crew.followers.length] else [] := by
  by_cases hraised : s.crew.raised
  · refine ⟨[.enrol k, .enrol k, .enrol k], ?_⟩
    simp [Crew.follow_of_raised link s.crew duel submission hraised, run, step, enrol, hk, hfree,
      hraised, enrolled]
  · rw [Bool.not_eq_true] at hraised
    let n := s.crew.followers.length
    let crew := { s.crew with followers := s.crew.followers ++ [Follower.fresh duel submission] }
    have hstart : s.run link [.enrol k, .enrol k, .enrol k] =
        { s with holder := some k, crew }.enrolled k (.listing n) := by
      simp [run, step, enrol, hk, hfree, hraised, enrolled, crew, n]
    -- the follower goes on until it is at rest
    obtain ⟨m, hm⟩ := Follower.exists_treads_start link duel submission s.crew.world
    have hcrew : (fun crew => Crew.tread link crew n)^[m] crew =
        (Crew.follow link duel submission s.crew).2 := by
      have hget : crew.followers[n]? = some (Follower.fresh duel submission) :=
        List.getElem?_concat_length
      have hraised' : crew.raised = false := hraised
      rw [Crew.iterate_tread link m hget, Crew.follow_of_free link _ _ _ hraised, hraised']
      simp [crew, n, hm]
    refine ⟨[.enrol k, .enrol k, .enrol k] ++ List.replicate m (.tread n) ++ [.enrol k, .enrol k],
      ?_⟩
    rw [run_append, run_append, hstart, run_replicate_tread]
    obtain ⟨h1, h2, h3, h4⟩ := run_listing link
      { ({ s with holder := some k, crew }.enrolled k (.listing n) : Roster ι κ σ) with
        crew := (fun crew => Crew.tread link crew n)^[m] crew } (enrolled_self _ k (.listing n))
    refine ⟨h1.trans hcrew, h2, ?_, ?_⟩
    · rw [Crew.follow_of_free link _ _ _ hraised]
      exact h3
    · rw [Crew.follow_of_free link _ _ _ hraised]
      exact h4

omit [DecidableEq κ] in
/-- The list is what the crew takes for it, unless somebody holds the lock. -/
lemma Sound.list_eq (h : s.Sound taken lost) (hfree : s.holder = none) :
    s.list = s.crew.untaken := by
  have hunlisted : s.unlisted = [] := by rw [unlisted, hfree]
  have hnumbers := h.numbers
  rw [hunlisted, List.append_nil] at hnumbers
  have hdrop := congrArg (List.drop taken.length) hnumbers
  rw [List.drop_append_of_le_length (by simp), List.drop_of_length_le (by simp), List.nil_append,
    List.range_eq_range', List.drop_range'] at hdrop
  rw [hdrop, Crew.untaken, h.joined]
  simp

/-- Whoever waits with nobody in between gives up those that have not ended. -/
lemma exists_run_waiting (link : Link σ) (s : Roster ι κ σ) {i : ι} {rest : List ℕ} {count : ℕ}
    (hi : s.collectors i = .waiting rest count) :
    ∃ xs, (s.run link xs).crew = s.crew ∧ (s.run link xs).collectors i =
      .returned (count + (rest.filter fun n => !s.crew.hasEnded n).length) := by
  -- those who have ended are awaited, and all others given up
  induction rest generalizing s count with
  | nil =>
    refine ⟨[.await i], ?_⟩
    simp [run, step, hi, Roster.collected]
  | cons n rest ih =>
    by_cases hended : s.crew.hasEnded n
    · obtain ⟨xs, hcrew, hxs⟩ := ih (s.collected i (.waiting rest count)) (collected_self s i _)
      have hstep : s.step link (.await i) = s.collected i (.waiting rest count) := by
        simp [step, hi, hended]
      refine ⟨.await i :: xs, ?_⟩
      rw [run, List.foldl_cons, hstep]
      refine ⟨hcrew, hxs.trans ?_⟩
      simp [Roster.collected, hended]
    · obtain ⟨xs, hcrew, hxs⟩ :=
        ih (s.collected i (.waiting rest (count + 1))) (collected_self s i _)
      have hstep : s.step link (.giveUp i) = s.collected i (.waiting rest (count + 1)) := by
        simp [step, hi, hended]
      refine ⟨.giveUp i :: xs, ?_⟩
      rw [run, List.foldl_cons, hstep]
      refine ⟨hcrew, hxs.trans ?_⟩
      simp [Roster.collected, hended, Nat.add_assoc, Nat.add_comm]

/-- Somebody who takes the list and waits with nobody in between does what `Crew.join` does, and
returns what it returns. -/
theorem exists_run_join (link : Link σ) (h : s.Sound taken lost) {i : ι} (hi : s.mayTake i) :
    ∃ xs, (s.run link (.take i :: xs)).crew = (Crew.join s.crew).2 ∧
      (s.run link (.take i :: xs)).collectors i = .returned (Crew.join s.crew).1 := by
  obtain ⟨-, hfree⟩ := mayTake_iff.mp hi
  have hstep : s.step link (.take i) = { s with crew := (Crew.join s.crew).2, list := [] }.collected
      i (.waiting s.crew.untaken 0) := by
    rw [step, if_pos hi, h.list_eq hfree]
  have hwaiting : (s.step link (.take i)).collectors i = .waiting s.crew.untaken 0 := by
    rw [hstep, collected_self]
  obtain ⟨xs, hcrew, hxs⟩ := exists_run_waiting link (s.step link (.take i)) hwaiting
  refine ⟨xs, hcrew.trans (by rw [hstep]; rfl), hxs.trans ?_⟩
  have hended (n : ℕ) : (s.step link (.take i)).crew.hasEnded n = s.crew.hasEnded n := by
    rw [hstep]
    rfl
  rw [Crew.join_eq, Nat.zero_add]
  simp only [hended]

end Duelist.Roster
