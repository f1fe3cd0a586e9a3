import Duelist.Proofs.FollowerSteps
import Duelist.Proofs.RefreshAndRetry
import Duelist.Proofs.Wordings
/-!
# Bulletins

What the player is told while a submission is graded, from the first question of its follower to the
last news, whatever comes back for the questions, whatever others do between two steps, and whenever
the stop signal is raised.

`bulletin` says what an answer is worth to a player who knows the answers before it. A follower only
remembers the last message it showed and whether it has complained; that this is enough is
`Memory.Recalls`. The steps of a follower are put together to rounds (`Trail.chronicle`), in each of
which one question is asked and its answer heard. The main statement is `Trail.informs`: all that a
follower sends and shows are its rounds one after the other, each with its bulletin, and it ends
after the last news, or soon after the signal was raised.
-/

namespace Duelist

variable {σ : Type}

/-- A notification, as an entry of the transcript. -/
def Entry.notice (text : String) : Entry :=
  .shown (.notify text)

/-! ### What the player is to be told -/

/-- The message in an answer, unless it is empty or the last one of those that were shown. -/
def newMessage? (shown : List String) : Except Failure Grading → Option String
  | .ok g => g.message.filter fun text => text ≠ "" ∧ shown.getLast? ≠ some text
  | .error _ => none

/-- The messages that are shown in the course of the given answers, the newest last. -/
def shownMessages (answers : List (Except Failure Grading)) : List String :=
  answers.foldl (fun shown answer => shown ++ (newMessage? shown answer).toList) []

/-- What is empty or repeated is passed over; a message that comes back later is not. -/
example : shownMessages [.ok { message := some "a" }, .ok { message := some "a" },
    .ok { message := some "" }, .error (.unreachable "b"), .ok { message := some "a" },
    .ok { message := some "b" }, .ok { message := some "a" }] = ["a", "b", "a"] := by decide

/-- True of an answer that blames the tokens. -/
def isComplaint : Except Failure Grading → Bool
  | .ok _ => false
  | .error e => e.BlamesTokens

/-- True of the answer with which the grading is done. -/
def IsVerdict : Except Failure Grading → Prop
  | .ok g => g.status = .done
  | .error _ => False

/-- The last news is the answer with which the grading is done. -/
lemma isLastNews_iff_isVerdict (answer : Except Failure Grading) :
    isLastNews answer ↔ IsVerdict answer := by
  cases answer with
  | ok g => exact beq_iff_eq
  | error e => exact Bool.false_eq_true.to_iff

/-- What the player is told of an answer that comes after others: a message that is new, the report
once the grading is done, and the first trouble with the tokens. -/
def bulletin (id : Int64) (earlier : List (Except Failure Grading)) :
    Except Failure Grading → List String
  | .ok g =>
    ((newMessage? (shownMessages earlier) (.ok g)).map (Grading.messageLine id)).toList ++
      if g.status = .done then [g.reportLines id] else []
  | .error e => if e.BlamesTokens ∧ ¬earlier.any isComplaint then [e.troubleLine id] else []

/-- The memory of a follower after the given answers. -/
structure Memory.Recalls (m : Memory) (answers : List (Except Failure Grading)) : Prop where
  /-- It holds the last message that was shown. -/
  last : m.filter.last = (shownMessages answers).getLast?
  /-- It holds whether there was a complaint. -/
  complained : m.complained = answers.any isComplaint

namespace Memory.Recalls

variable {m : Memory} {answers : List (Except Failure Grading)}

/-- A new follower remembers that nothing was said. -/
lemma nil : Recalls {} [] := ⟨rfl, rfl⟩

/-- The filter lets new messages pass. -/
lemma passes_iff (h : m.Recalls answers) (g : Grading) :
    m.filter.passes g.message = (newMessage? (shownMessages answers) (.ok g)).isSome := by
  obtain ⟨status, verdict, message⟩ := g
  cases message with
  | none => rfl
  | some text =>
    rw [newMessage?, MessageFilter.passes, Option.isSome_filter, Option.any_some, h.last,
      Bool.eq_iff_iff]
    simp

/-- The memory of the last message and of a complaint is all that a bulletin depends on. -/
lemma notices_eq (h : m.Recalls answers) (id : Int64) (answer : Except Failure Grading) :
    m.notices id answer = bulletin id answers answer := by
  cases answer with
  | error e =>
    rw [notices, bulletin, h.complained, e.complaint_eq_troubleLine]
    simp [e.isAboutTokens_iff_blamesTokens]
  | ok g =>
    rw [notices, bulletin, h.passes_iff, g.report_eq_reportLines]
    have hdone : g.isDone ↔ g.status = .done := beq_iff_eq
    congr 1
    · cases hnew : newMessage? (shownMessages answers) (.ok g) with
      | none => rfl
      | some text =>
        have htext : g.message = some text := (Option.filter_eq_some_iff.mp hnew).1
        simp [htext, Grading.messageNotice_eq_messageLine]
    · simp [hdone]

/-- What is remembered is kept up with each answer. -/
lemma next (h : m.Recalls answers) (answer : Except Failure Grading) :
    (m.next answer).Recalls (answers ++ [answer]) := by
  have hshown : shownMessages (answers ++ [answer]) =
      shownMessages answers ++ (newMessage? (shownMessages answers) answer).toList := by
    rw [shownMessages, List.foldl_append]
    rfl
  -- an error changes what was complained of, and a grading changes what was shown
  cases answer with
  | error e =>
    refine ⟨?_, ?_⟩
    · rw [hshown]
      exact h.last.trans (by simp [newMessage?])
    · rw [List.any_append, ← h.complained]
      simp [Memory.next, isComplaint, ← e.isAboutTokens_iff_blamesTokens]
  | ok g =>
    refine ⟨?_, ?_⟩
    · rw [hshown, Memory.next, MessageFilter.next, h.passes_iff]
      cases hnew : newMessage? (shownMessages answers) (.ok g) with
      | none => simpa using h.last
      | some text =>
        have htext : g.message = some text := (Option.filter_eq_some_iff.mp hnew).1
        simp [htext]
    · rw [List.any_append, ← h.complained]
      simp [Memory.next, isComplaint]

end Memory.Recalls

/-! ### Rounds -/

/-- A question about a submission that was answered. -/
structure Round where
  /-- What was sent until the answer was there. -/
  sent : List (Request × Outcome)
  /-- The answer. -/
  answer : Except Failure Grading

/-- True of a round in which one question is asked: what is sent is the question, once more after a
refresh if there is one, and the answer is what came of it. -/
def Round.Asks (base : String) (duel submission : Int64) (r : Round) : Prop :=
  ∃ a found deeds result,
    Course base { path := s!"/duels/{duel}/submissions/{submission}" } a found deeds result ∧
      r.sent = deeds.filterMap Deed.exchange? ∧ r.answer = recordOf Grading.ofJson? result

/-- What a follower did: its rounds, and what it sent since. -/
structure Chronicle where
  /-- The rounds in order. -/
  rounds : List Round := []
  /-- What was sent for the question under way. -/
  pending : List (Request × Outcome) := []

namespace Chronicle

/-- The answers that were heard. -/
def answers (c : Chronicle) : List (Except Failure Grading) :=
  c.rounds.map Round.answer

/-- What rounds add to the transcript when other answers were heard before. -/
def entriesAfter (id : Int64) :
    (earlier : List (Except Failure Grading)) → List Round → List Entry
  | _, [] => []
  | earlier, r :: rounds =>
    r.sent.map (Function.uncurry .sent) ++
      (bulletin id earlier r.answer).map Entry.notice ++
      entriesAfter id (earlier ++ [r.answer]) rounds

/-- What a follower of the submission `id` is to have added to the transcript. -/
def entries (id : Int64) (c : Chronicle) : List Entry :=
  entriesAfter id [] c.rounds ++ c.pending.map (Function.uncurry .sent)

/-- The chronicle after a step that sent something and heard an answer, if there was one. -/
def next (c : Chronicle) (sent : List (Request × Outcome)) :
    Option (Except Failure Grading) → Chronicle
  | none => { c with pending := c.pending ++ sent }
  | some answer => { rounds := c.rounds ++ [⟨c.pending ++ sent, answer⟩] }

/-- One round more adds what was sent in it, and its bulletin, which knows all answers before. -/
lemma entriesAfter_concat (id : Int64) (earlier : List (Except Failure Grading))
    (rounds : List Round) (r : Round) :
    entriesAfter id earlier (rounds ++ [r]) = entriesAfter id earlier rounds ++
      (r.sent.map (Function.uncurry .sent) ++
        (bulletin id (earlier ++ rounds.map Round.answer) r.answer).map Entry.notice) := by
  induction rounds generalizing earlier with
  | nil => simp [entriesAfter]
  | cons r' rounds ih =>
    rw [List.cons_append, entriesAfter, ih, entriesAfter, List.map_cons]
    simp

end Chronicle

/-! ### What a step does -/

/-- What a step of a call adds to the transcript. -/
lemma Deed.Leads.transcript_eq {link : Link σ} {w w' : World σ} {deeds : List Deed}
    (h : Leads link w deeds w') : w'.transcript =
      w.transcript ++ (deeds.filterMap exchange?).map (Function.uncurry .sent) := by
  cases h with
  | nothing => simp
  | sent request => rfl
  | stored pair => simp [exchange?]

namespace Follower

/-- The answer that the next step hears. -/
def answer? (f : Follower) : Option (Except Failure Grading) :=
  match f.pursuit with
  | .asking (.finished result) => some (recordOf Grading.ofJson? result)
  | _ => none

/-- Showing notices adds them to the transcript. -/
lemma forM_notify (texts : List String) (w : World σ) :
    (texts.forM Act.notify : Act σ Unit) w =
      ((), { w with transcript := w.transcript ++ texts.map Entry.notice }) := by
  induction texts generalizing w with
  | nil =>
    rw [List.map_nil, List.append_nil]
    rfl
  | cons text texts ih =>
    have h := ih (w.note (.shown (.notify text)))
    simp only [World.note, List.append_assoc] at h
    exact h

variable (link : Link σ) (raised : Bool) (f : Follower)

/-- To hear an answer, written out. -/
lemma hear_eq (result : Except Failure Reply) (w : World σ) :
    let answer := recordOf Grading.ofJson? result
    hear raised f result w =
      ({ f with
          memory := f.memory.next answer
          pursuit := if isLastNews answer || raised then .ended
            else .asking (.reading (.grading f.duel f.submission)) },
        { w with transcript := w.transcript ++
            (f.memory.notices f.submission answer).map Entry.notice }) := by
  intro answer
  have htell : f.tell answer w = ({ f with memory := f.memory.next answer },
      { w with transcript := w.transcript ++
          (f.memory.notices f.submission answer).map Entry.notice }) := by
    have h := forM_notify (f.memory.notices f.submission answer) w
    rw [tell]
    exact congrArg (fun p : Unit × World σ => ({ f with memory := f.memory.next answer }, p.2)) h
  have hhear : hear raised f result w =
      (if isLastNews answer || raised then (f.tell answer w).1.stopped
        else (f.tell answer w).1.asksAgain, (f.tell answer w).2) := rfl
  rw [hhear, htell]
  split <;> rfl

/-- The ways in which a step of a follower can go. -/
lemma tread_cases (w : World σ) :
    (f.hasEnded ∧ f.answer? = none ∧ tread link raised f w = (f, w)) ∨
    (∃ q, f.pursuit = .asking (.reading q) ∧ raised ∧ tread link raised f w = (f.stopped, w)) ∨
    (∃ c, f.pursuit = .asking c ∧ (c.hasBegun ∨ raised = false) ∧ c.rank ≠ 0 ∧ f.answer? = none ∧
      tread link raised f w =
        ({ f with pursuit := .asking (c.step link w).1 }, (c.step link w).2)) ∨
    ∃ result, f.pursuit = .asking (.finished result) ∧
      tread link raised f w = hear raised f result w := by
  obtain ⟨duel, submission, memory, pursuit⟩ := f
  cases pursuit with
  | ended => exact .inl ⟨rfl, rfl, rfl⟩
  | asking c =>
    -- a call with no step ahead is finished, and its result is heard
    by_cases hrank : c.rank = 0
    · obtain ⟨result, rfl⟩ := Call.eq_finished_of_rank_le hrank.le
      exact .inr (.inr (.inr ⟨result, rfl, rfl⟩))
    · by_cases hbegun : c.hasBegun ∨ raised = false
      · have hnone : answer? ⟨duel, submission, memory, .asking c⟩ = none := by
          cases c with
          | finished result => exact absurd rfl hrank
          | _ => rfl
        exact .inr (.inr (.inl ⟨c, rfl, hbegun, hrank, hnone,
          tread_asking link raised ⟨duel, submission, memory, .ended⟩ hbegun hrank w⟩))
      · rw [not_or, Bool.not_eq_false] at hbegun
        obtain ⟨hnot, rfl⟩ := hbegun
        cases c with
        | reading q => exact .inr (.inl ⟨q, rfl, rfl, rfl⟩)
        | _ => exact absurd rfl hnot

end Follower

/-! ### The life of a follower -/

/-- The circumstances of a follower. -/
structure Trail (σ : Type) where
  /-- The way to the service. -/
  link : Link σ
  /-- The duel. -/
  duel : Int64
  /-- The submission. -/
  submission : Int64
  /-- The world in which the follower makes its `k`-th step. -/
  worlds : ℕ → World σ
  /-- The step before which the stop signal is raised, if it ever is. -/
  moment : Option ℕ

namespace Trail

variable (t : Trail σ)

/-- True if the stop signal is raised when the `k`-th step is made. -/
def raised (k : ℕ) : Bool :=
  t.moment.any (· ≤ k)

/-- The follower after `n` steps. -/
def follower : ℕ → Follower
  | 0 => .fresh t.duel t.submission
  | k + 1 => ((follower k).tread t.link (t.raised k) (t.worlds k)).1

/-- The world as the `k`-th step leaves it. -/
def leaving (k : ℕ) : World σ :=
  ((t.follower k).tread t.link (t.raised k) (t.worlds k)).2

/-- What the `k`-th step adds to the transcript. -/
def entriesAt (k : ℕ) : List Entry :=
  (t.leaving k).transcript.drop (t.worlds k).transcript.length

/-- What the follower did in its first `n` steps. -/
def chronicle : ℕ → Chronicle
  | 0 => {}
  | k + 1 =>
    (chronicle k).next ((t.entriesAt k).filterMap Entry.exchange?) (t.follower k).answer?

/-- What a player may rely on who handed in a submission. -/
structure Informs : Prop where
  /-- A step takes nothing from the transcript. -/
  adds : ∀ k, (t.worlds k).transcript <+: (t.leaving k).transcript
  /-- What the steps add are the rounds one after the other, each with its bulletin, and then the
  beginning of another one. -/
  entries : ∀ n, (List.range n).flatMap t.entriesAt = (t.chronicle n).entries t.submission
  /-- In each round the question is asked. -/
  asks : ∀ n, ∀ r ∈ (t.chronicle n).rounds, r.Asks t.link.base t.duel t.submission
  /-- So it is in the one that has begun. -/
  begins : ∀ n, ∃ r : Round, r.Asks t.link.base t.duel t.submission ∧
    (t.chronicle n).pending <+: r.sent
  /-- The round with the verdict is the last one, and the follower has ended. -/
  concludes : ∀ n earlier r later, (t.chronicle n).rounds = earlier ++ r :: later →
    IsVerdict r.answer → later = [] ∧ (t.follower n).hasEnded
  /-- A follower does not end in the midst of a round, and not without a reason. -/
  reason : ∀ n, (t.follower n).hasEnded → (t.chronicle n).pending = [] ∧
    ((∃ r ∈ (t.chronicle n).rounds.getLast?, IsVerdict r.answer) ∨ ∃ m ∈ t.moment, m < n)
  /-- One that has ended does nothing any more. -/
  rests : ∀ n, (t.follower n).hasEnded → ∀ k ≥ n, (t.follower k).hasEnded ∧
    t.chronicle k = t.chronicle n ∧ t.leaving k = t.worlds k
  /-- One that has not ended hears an answer at least every eight steps. -/
  goesOn : ∀ n, (t.follower (n + 8)).hasEnded ∨
    (t.chronicle n).rounds.length < (t.chronicle (n + 8)).rounds.length
  /-- A follower that finds the signal raised at once does nothing at all. -/
  silent : t.moment = some 0 → ∀ n, t.chronicle n = {}
  /-- Once the signal is raised, one more round is brought to its end at most, and the follower ends
  in seven steps. -/
  soon : ∀ m ∈ t.moment, ∀ n ≥ m,
    (∃ r : Option Round, (t.chronicle n).rounds = (t.chronicle m).rounds ++ r.toList) ∧
      (m + 7 ≤ n → (t.follower n).hasEnded)

/-! ### Single steps -/

/-- The ways in which the `k`-th step can go. -/
inductive Goes (k : ℕ) : Prop
  /-- The follower has ended. -/
  | rests (hended : (t.follower k).hasEnded) (hfollower : t.follower (k + 1) = t.follower k)
      (hworld : t.leaving k = t.worlds k) (hentries : t.entriesAt k = [])
      (hchronicle : t.chronicle (k + 1) = t.chronicle k)
  /-- It is about to ask, and stops. -/
  | stops (q : Query) (hpursuit : (t.follower k).pursuit = .asking (.reading q))
      (hraised : t.raised k) (hfollower : t.follower (k + 1) = (t.follower k).stopped)
      (hentries : t.entriesAt k = []) (hchronicle : t.chronicle (k + 1) = t.chronicle k)
  /-- It goes on with its call. -/
  | asks (c : Call) (hpursuit : (t.follower k).pursuit = .asking c)
      (hbegun : c.hasBegun ∨ t.raised k = false) (hrank : c.rank ≠ 0)
      (hfollower : t.follower (k + 1) =
        { t.follower k with pursuit := .asking (c.step t.link (t.worlds k)).1 })
      (hentries : t.entriesAt k =
        ((c.deeds t.link (t.worlds k)).filterMap Deed.exchange?).map (Function.uncurry .sent))
      (hchronicle : t.chronicle (k + 1) =
        { t.chronicle k with
          pending := (t.chronicle k).pending ++
            (c.deeds t.link (t.worlds k)).filterMap Deed.exchange? })
  /-- It hears an answer. -/
  | hears (result : Except Failure Reply) (answer : Except Failure Grading)
      (hanswer : answer = recordOf Grading.ofJson? result)
      (hpursuit : (t.follower k).pursuit = .asking (.finished result))
      (hfollower : t.follower (k + 1) =
        { t.follower k with
          memory := (t.follower k).memory.next answer
          pursuit := if isLastNews answer || t.raised k then .ended
            else .asking (.reading (.grading (t.follower k).duel (t.follower k).submission)) })
      (hentries : t.entriesAt k =
        ((t.follower k).memory.notices (t.follower k).submission answer).map Entry.notice)
      (hchronicle : t.chronicle (k + 1) =
        { rounds := (t.chronicle k).rounds ++ [⟨(t.chronicle k).pending, answer⟩] })

variable {t} {k n : ℕ}

/-- The signal is raised at a step from the moment on at which it was. -/
lemma raised_iff : t.raised k ↔ ∃ m ∈ t.moment, m ≤ k := by
  unfold raised
  cases t.moment <;> simp

/-- What a step adds is told by the transcripts before and behind it. -/
lemma entriesAt_eq {entries : List Entry}
    (h : (t.leaving k).transcript = (t.worlds k).transcript ++ entries) :
    t.entriesAt k = entries := by
  rw [entriesAt, h, List.drop_left]

/-- What was sent is found again among the entries of the transcript. -/
lemma filterMap_uncurry_sent (sent : List (Request × Outcome)) :
    (sent.map (Function.uncurry Entry.sent)).filterMap Entry.exchange? = sent := by
  rw [List.filterMap_map]
  exact List.filterMap_some

/-- Among notices nothing was sent. -/
lemma filterMap_notice (texts : List String) :
    (texts.map Entry.notice).filterMap Entry.exchange? = [] := by
  rw [List.filterMap_map]
  simp [Function.comp_def, Entry.notice, Entry.exchange?]

/-- The chronicle of one step more is told by what was sent in it, and by the answer that it heard.
-/
lemma chronicle_succ {sent : List (Request × Outcome)}
    (h : (t.entriesAt k).filterMap Entry.exchange? = sent) :
    t.chronicle (k + 1) = (t.chronicle k).next sent (t.follower k).answer? := by
  rw [← h]
  rfl

/-- A step goes in one of the four ways, and only adds to the transcript. -/
theorem goes (t : Trail σ) (k : ℕ) :
    t.Goes k ∧ (t.leaving k).transcript = (t.worlds k).transcript ++ t.entriesAt k := by
  -- in the first two of the four cases nothing is done in the world
  have hidle (h : t.leaving k = t.worlds k) : t.entriesAt k = [] ∧
      (t.leaving k).transcript = (t.worlds k).transcript ++ t.entriesAt k := by
    have hentries : t.entriesAt k = [] := entriesAt_eq (by rw [h, List.append_nil])
    exact ⟨hentries, by rw [h, hentries, List.append_nil]⟩
  obtain ⟨hended, hnone, htread⟩ | ⟨q, hpursuit, hraised, htread⟩ |
      ⟨c, hpursuit, hbegun, hrank, hnone, htread⟩ | ⟨result, hpursuit, htread⟩ :=
    (t.follower k).tread_cases t.link (t.raised k) (t.worlds k)
  · have hworld : t.leaving k = t.worlds k := congrArg Prod.snd htread
    obtain ⟨hentries, htranscript⟩ := hidle hworld
    refine ⟨.rests hended (congrArg Prod.fst htread) hworld hentries ?_, htranscript⟩
    rw [chronicle_succ (congrArg _ hentries), hnone]
    simp [Chronicle.next]
  · obtain ⟨hentries, htranscript⟩ := hidle (congrArg Prod.snd htread)
    refine ⟨.stops q hpursuit hraised (congrArg Prod.fst htread) hentries ?_, htranscript⟩
    rw [chronicle_succ (congrArg _ hentries), Follower.answer?, hpursuit]
    simp [Chronicle.next]
  · have htranscript := (Call.leads_step t.link c (t.worlds k)).transcript_eq
    have hworld : t.leaving k = (c.step t.link (t.worlds k)).2 := congrArg Prod.snd htread
    rw [← hworld] at htranscript
    have hentries := entriesAt_eq htranscript
    refine ⟨.asks c hpursuit hbegun hrank (congrArg Prod.fst htread) hentries ?_, ?_⟩
    · rw [chronicle_succ ((congrArg _ hentries).trans (filterMap_uncurry_sent _)), hnone]
      rfl
    · rw [htranscript, hentries]
  · rw [Follower.hear_eq] at htread
    have htranscript : (t.leaving k).transcript = _ :=
      congrArg (fun p : Follower × World σ => p.2.transcript) htread
    have hentries := entriesAt_eq htranscript
    refine ⟨.hears result _ rfl hpursuit (congrArg Prod.fst htread) hentries ?_, ?_⟩
    · rw [chronicle_succ ((congrArg _ hentries).trans (filterMap_notice _)), Follower.answer?,
        hpursuit]
      simp [Chronicle.next]
    · rw [htranscript, hentries]

/-! ### Rounds one after the other -/

variable (t)

/-- The question of the follower. -/
def query : Query :=
  .grading t.duel t.submission

/-- The call begun in the step `b`, after `j` steps. -/
def callFrom (b j : ℕ) : Call :=
  (Call.reading t.query).along t.link (fun i => t.worlds (b + i)) j

/-- What the call begun in the step `b` does in its first `j` steps. -/
def deedsFrom (b j : ℕ) : List Deed :=
  (List.range j).flatMap ((Call.reading t.query).deedsAt t.link fun i => t.worlds (b + i))

/-- The deeds of one step more are those of the call as it then is. -/
lemma deedsFrom_succ (b j : ℕ) : t.deedsFrom b (j + 1) =
    t.deedsFrom b j ++ (t.callFrom b j).deeds t.link (t.worlds (b + j)) := by
  rw [deedsFrom, List.range_succ, List.flatMap_append, List.flatMap_singleton]
  rfl

/-- A call that goes on asks the question to the end, whatever of it was done so far. -/
lemma exists_asks (b j : ℕ) : ∃ (later : List Deed) (result : Except Failure Reply),
    Round.Asks t.link.base t.duel t.submission
      ⟨(t.deedsFrom b j ++ later).filterMap Deed.exchange?, recordOf Grading.ofJson? result⟩ ∧
    (∀ result', t.callFrom b j = .finished result' → result' = result ∧ later = []) := by
  obtain ⟨m, -, result, hend, hcourse⟩ :=
    Call.exists_course t.link (fun i => t.worlds (b + i)) t.query
  have hdeeds : t.deedsFrom b (j + m) = t.deedsFrom b m :=
    Call.flatMap_deedsAt_of_finished hend (Nat.le_add_left m j)
  obtain ⟨later, hlater⟩ : ∃ later, t.deedsFrom b (j + m) = t.deedsFrom b j ++ later := by
    rw [deedsFrom, List.range_add, List.flatMap_append]
    exact ⟨_, rfl⟩
  refine ⟨later, result, ⟨_, _, _, result, hcourse, ?_, rfl⟩, fun result' hfinished => ⟨?_, ?_⟩⟩
  · rw [← hlater, hdeeds]
    rfl
  · have hboth := (Call.along_of_finished hfinished (Nat.le_add_right j m)).symm.trans
      (Call.along_of_finished hend (Nat.le_add_left m j))
    exact Call.finished.inj hboth
  · have hsame : t.deedsFrom b (j + m) = t.deedsFrom b j :=
      Call.flatMap_deedsAt_of_finished hfinished (Nat.le_add_right j m)
    exact List.append_right_eq_self.mp (hlater.symm.trans hsame)

/-- Where a follower stands after `n` steps: at its end, with the reason for it, or in the midst of
a call that was begun in the step `b`. -/
def IsAt (n : ℕ) : Pursuit → Prop
  | .ended => (t.chronicle n).pending = [] ∧
      (∀ r ∈ (t.chronicle n).rounds.dropLast, ¬isLastNews r.answer) ∧
      ((∃ r ∈ (t.chronicle n).rounds.getLast?, isLastNews r.answer) ∨ ∃ m ∈ t.moment, m < n)
  | .asking c => (∀ r ∈ (t.chronicle n).rounds, ¬isLastNews r.answer) ∧
      ∃ b j, b + j = n ∧ c = t.callFrom b j ∧
        (t.chronicle n).pending = (t.deedsFrom b j).filterMap Deed.exchange?

/-- What holds of a follower after `n` steps. -/
structure Stands (n : ℕ) : Prop where
  /-- It follows the same submission. -/
  follows : (t.follower n).duel = t.duel ∧ (t.follower n).submission = t.submission
  /-- It remembers what it has to. -/
  recalls : (t.follower n).memory.Recalls (t.chronicle n).answers
  /-- It added to the transcript what it should. -/
  entries : (List.range n).flatMap t.entriesAt = (t.chronicle n).entries t.submission
  /-- Its rounds are what they should be. -/
  asks : ∀ r ∈ (t.chronicle n).rounds, r.Asks t.link.base t.duel t.submission
  /-- It is where it should be. -/
  isAt : t.IsAt n (t.follower n).pursuit

variable {t}

/-- A new follower stands where it should. -/
lemma stands_zero : t.Stands 0 where
  follows := ⟨rfl, rfl⟩
  recalls := .nil
  entries := rfl
  asks := by simp [chronicle]
  isAt := ⟨by simp [chronicle], 0, 0, rfl, rfl, rfl⟩

/-- Nothing was sent by a call that is about to begin. -/
lemma deedsFrom_of_reading {b j : ℕ} {q : Query} (h : t.callFrom b j = .reading q) :
    t.deedsFrom b j = [] := by
  have hrank := Call.rank_along_le t.link (fun i => t.worlds (b + i)) (.reading t.query) j
  obtain rfl : j = 0 := by
    change (t.callFrom b j).rank ≤ 7 - j at hrank
    rw [h, Call.rank] at hrank
    omega
  rfl

/-- A follower that has ended pursues nothing. -/
lemma pursuit_of_hasEnded {f : Follower} (h : f.hasEnded) : f.pursuit = .ended := by
  unfold Follower.hasEnded at h
  cases hpursuit : f.pursuit with
  | ended => rfl
  | asking c =>
    rw [hpursuit] at h
    cases h

/-- The steps until now added what the chronicle tells, and this one adds its own. -/
lemma Stands.flatMap_entriesAt_succ (h : t.Stands n) : (List.range (n + 1)).flatMap t.entriesAt =
    (t.chronicle n).entries t.submission ++ t.entriesAt n := by
  rw [List.range_succ, List.flatMap_append, List.flatMap_singleton, h.entries]

/-- A step in the midst of a round only has to leave the follower where it should be: what it sends
is pending, and nothing is there to be remembered. -/
lemma Stands.of_pending (h : t.Stands n) (sent : List (Request × Outcome))
    (hentries : t.entriesAt n = sent.map (Function.uncurry .sent))
    (hchronicle : t.chronicle (n + 1) =
      { t.chronicle n with pending := (t.chronicle n).pending ++ sent })
    (hfollows : (t.follower (n + 1)).duel = (t.follower n).duel ∧
      (t.follower (n + 1)).submission = (t.follower n).submission)
    (hmemory : (t.follower (n + 1)).memory = (t.follower n).memory)
    (hat : t.IsAt (n + 1) (t.follower (n + 1)).pursuit) : t.Stands (n + 1) where
  follows := by
    rw [hfollows.1, hfollows.2]
    exact h.follows
  recalls := by
    rw [hmemory, hchronicle]
    exact h.recalls
  entries := by
    rw [h.flatMap_entriesAt_succ, hentries, hchronicle, Chronicle.entries, Chronicle.entries,
      List.map_append, List.append_assoc]
  asks := by
    rw [hchronicle]
    exact h.asks
  isAt := hat

/-- A step in which an answer is heard leaves the follower where it should be: at its end if there
is a reason, and at the beginning of another round otherwise. -/
lemma isAt_of_heard {sent : List (Request × Outcome)} {answer : Except Failure Grading}
    (hnews : ∀ r ∈ (t.chronicle n).rounds, ¬isLastNews r.answer)
    (hchronicle : t.chronicle (n + 1) = { rounds := (t.chronicle n).rounds ++ [⟨sent, answer⟩] }) :
    t.IsAt (n + 1) (if isLastNews answer || t.raised n then .ended
      else .asking (.reading (.grading t.duel t.submission))) := by
  by_cases hlast : isLastNews answer
  · rw [hlast, Bool.true_or, if_pos rfl, IsAt, hchronicle, List.dropLast_concat,
      List.getLast?_concat]
    exact ⟨rfl, hnews, .inl ⟨_, rfl, hlast⟩⟩
  by_cases hraised : t.raised n
  · obtain ⟨m, hm, hle⟩ := raised_iff.mp hraised
    rw [hraised, Bool.or_true, if_pos rfl, IsAt, hchronicle, List.dropLast_concat]
    exact ⟨rfl, hnews, .inr ⟨m, hm, by omega⟩⟩
  · rw [if_neg (by simp [hlast, hraised]), IsAt, hchronicle]
    refine ⟨fun r hr => ?_, n + 1, 0, rfl, rfl, rfl⟩
    rcases List.mem_append.mp hr with hr | hr
    · exact hnews r hr
    · rwa [List.mem_singleton.mp hr]

/-- A step of a follower keeps all that. -/
lemma Stands.succ (h : t.Stands n) : t.Stands (n + 1) := by
  have hat := h.isAt
  cases (t.goes n).1 with
  | rests hended hfollower hworld hentries hchronicle =>
    have hpursuit := pursuit_of_hasEnded hended
    rw [hpursuit] at hat
    obtain ⟨hpending, hdrop, hreason⟩ := hat
    refine h.of_pending [] hentries (by rw [hchronicle, List.append_nil])
      (by rw [hfollower]; exact ⟨rfl, rfl⟩) (by rw [hfollower]) ?_
    rw [hfollower, hpursuit, IsAt, hchronicle]
    exact ⟨hpending, hdrop, hreason.imp id fun ⟨m, hm, hlt⟩ => ⟨m, hm, by omega⟩⟩
  | stops q hpursuit hraised hfollower hentries hchronicle =>
    rw [hpursuit] at hat
    obtain ⟨hnews, b, j, rfl, hcall, hpending⟩ := hat
    obtain ⟨m, hm, hle⟩ := raised_iff.mp hraised
    refine h.of_pending [] hentries (by rw [hchronicle, List.append_nil])
      (by rw [hfollower]; exact ⟨rfl, rfl⟩) (by rw [hfollower]; rfl) ?_
    rw [hfollower, Follower.stopped, IsAt, hchronicle, hpending, deedsFrom_of_reading hcall.symm]
    exact ⟨rfl, fun r hr => hnews r (List.dropLast_subset _ hr), .inr ⟨m, hm, by omega⟩⟩
  | asks c hpursuit hbegun hrank hfollower hentries hchronicle =>
    rw [hpursuit] at hat
    obtain ⟨hnews, b, j, rfl, rfl, hpending⟩ := hat
    refine h.of_pending _ hentries hchronicle (by rw [hfollower]; exact ⟨rfl, rfl⟩)
      (by rw [hfollower]) ?_
    rw [hfollower, IsAt, hchronicle]
    refine ⟨hnews, b, j + 1, rfl, rfl, ?_⟩
    rw [deedsFrom_succ, List.filterMap_append, hpending]
  | hears result answer hanswer hpursuit hfollower hentries hchronicle =>
    rw [hpursuit] at hat
    obtain ⟨hnews, b, j, rfl, hcall, hpending⟩ := hat
    -- the call is finished, and so what it sent is a whole round
    obtain ⟨later, result', hasks, hlater⟩ := t.exists_asks b j
    obtain ⟨rfl, rfl⟩ := hlater result hcall.symm
    rw [List.append_nil, ← hpending, ← hanswer] at hasks
    refine ⟨by rw [hfollower]; exact h.follows, ?_, ?_, ?_, ?_⟩
    · rw [hfollower, hchronicle, Chronicle.answers, List.map_append]
      exact h.recalls.next answer
    · rw [h.flatMap_entriesAt_succ, hentries, hchronicle, h.follows.2, h.recalls.notices_eq]
      simp [Chronicle.entries, Chronicle.entriesAfter_concat, Chronicle.answers]
    · rw [hchronicle]
      intro r hr
      rcases List.mem_append.mp hr with hr | hr
      · exact h.asks r hr
      · rwa [List.mem_singleton.mp hr]
    · rw [hfollower]
      simp only [h.follows]
      exact isAt_of_heard hnews hchronicle

/-- All that holds of a follower whatever happens. -/
theorem stands (t : Trail σ) (n : ℕ) : t.Stands n := by
  induction n with
  | zero => exact stands_zero
  | succ n ih => exact ih.succ

/-! ### The end -/

/-- A step of a follower that has ended does nothing. -/
lemma frame_of_hasEnded (h : (t.follower k).hasEnded) : t.follower (k + 1) = t.follower k ∧
    t.chronicle (k + 1) = t.chronicle k ∧ t.leaving k = t.worlds k := by
  have hended := pursuit_of_hasEnded h
  cases (t.goes k).1 with
  | rests _ hfollower hworld _ hchronicle => exact ⟨hfollower, hchronicle, hworld⟩
  | stops q hpursuit => cases hended.symm.trans hpursuit
  | asks c hpursuit => cases hended.symm.trans hpursuit
  | hears result answer _ hpursuit => cases hended.symm.trans hpursuit

/-- So it is for ever. -/
lemma rests_of_hasEnded (h : (t.follower n).hasEnded) (hk : n ≤ k) :
    t.follower k = t.follower n ∧ t.chronicle k = t.chronicle n := by
  induction k, hk using Nat.le_induction with
  | base => exact ⟨rfl, rfl⟩
  | succ k _ ih =>
    obtain ⟨hfollower, hchronicle, -⟩ := frame_of_hasEnded (ih.1 ▸ h)
    exact ⟨hfollower.trans ih.1, hchronicle.trans ih.2⟩

/-- Rounds are never taken back. -/
lemma rounds_prefix {m : ℕ} (t : Trail σ) (h : m ≤ n) :
    (t.chronicle m).rounds <+: (t.chronicle n).rounds := by
  induction n, h using Nat.le_induction with
  | base => exact List.prefix_rfl
  | succ n _ ih =>
    refine ih.trans ?_
    cases (t.goes n).1 with
    | rests _ _ _ _ hchronicle => exact hchronicle ▸ List.prefix_rfl
    | stops _ _ _ _ _ hchronicle => exact hchronicle ▸ List.prefix_rfl
    | asks _ _ _ _ _ _ hchronicle => exact hchronicle ▸ List.prefix_rfl
    | hears _ _ _ _ _ _ hchronicle => exact hchronicle ▸ List.prefix_append _ _

/-- A follower that asks has its answer after some steps. -/
lemma exists_finished {c : Call} (hpursuit : (t.follower n).pursuit = .asking c)
    (hbegun : c.hasBegun ∨ t.raised n = false) : ∃ i ≤ c.rank, ∃ result,
      (t.follower (n + i)).pursuit = .asking (.finished result) ∧
      (t.chronicle (n + i)).rounds = (t.chronicle n).rounds := by
  -- every step takes the call closer to its end, and none adds a round
  induction hc : c.rank using Nat.strongRecOn generalizing n c with
  | _ rank ih =>
    subst hc
    by_cases hrank : c.rank = 0
    · obtain ⟨result, rfl⟩ := Call.eq_finished_of_rank_le hrank.le
      exact ⟨0, le_rfl, result, hpursuit, rfl⟩
    · have hstep : (t.follower (n + 1)).pursuit = .asking (c.step t.link (t.worlds n)).1 ∧
          (t.chronicle (n + 1)).rounds = (t.chronicle n).rounds := by
        cases (t.goes n).1 with
        | rests hended => cases (pursuit_of_hasEnded hended).symm.trans hpursuit
        | stops q hreading hraised =>
          obtain rfl := Pursuit.asking.inj (hpursuit.symm.trans hreading)
          rcases hbegun with hbegun | hraised'
          · cases hbegun
          · cases hraised.symm.trans hraised'
        | asks c' hpursuit' _ _ hfollower _ hchronicle =>
          obtain rfl := Pursuit.asking.inj (hpursuit.symm.trans hpursuit')
          rw [hfollower, hchronicle]
          exact ⟨rfl, rfl⟩
        | hears result _ _ hpursuit' =>
          obtain rfl := Pursuit.asking.inj (hpursuit.symm.trans hpursuit')
          exact absurd rfl hrank
      have hlt := Call.rank_step_lt t.link c (t.worlds n) hrank
      obtain ⟨i, hi, result, hfinished, hrounds⟩ := ih _ hlt hstep.1
        (.inl (Call.hasBegun_step t.link c (t.worlds n))) rfl
      refine ⟨i + 1, by omega, result, ?_, ?_⟩
      · rw [← hfinished]
        congr 2
        omega
      · rw [← hstep.2, ← hrounds]
        congr 2
        omega

/-- The answer to a question is heard in another step, and the follower ends if the signal is raised
by then. -/
lemma exists_heard {c : Call} (hpursuit : (t.follower n).pursuit = .asking c)
    (hbegun : c.hasBegun ∨ t.raised n = false) : ∃ i ≤ c.rank,
      (t.chronicle (n + i + 1)).rounds.length = (t.chronicle n).rounds.length + 1 ∧
      (t.raised (n + i) → (t.follower (n + i + 1)).hasEnded) := by
  obtain ⟨i, hi, result, hfinished, hrounds⟩ := exists_finished hpursuit hbegun
  refine ⟨i, hi, ?_⟩
  cases (t.goes (n + i)).1 with
  | rests hended => cases (pursuit_of_hasEnded hended).symm.trans hfinished
  | stops q hreading => cases hreading.symm.trans hfinished
  | asks c' hpursuit' _ hrank =>
    obtain rfl := Pursuit.asking.inj (hfinished.symm.trans hpursuit')
    exact absurd rfl hrank
  | hears result answer _ _ hfollower _ hchronicle =>
    rw [hchronicle, hfollower]
    refine ⟨by simp [hrounds], fun hraised => ?_⟩
    simp [Follower.hasEnded, hraised]

/-- A follower that is about to ask, and finds the signal raised, ends. -/
lemma ended_of_reading {q : Query} (hpursuit : (t.follower n).pursuit = .asking (.reading q))
    (hraised : t.raised n) : (t.follower (n + 1)).hasEnded ∧
      t.chronicle (n + 1) = t.chronicle n := by
  cases (t.goes n).1 with
  | rests hended => cases (pursuit_of_hasEnded hended).symm.trans hpursuit
  | stops q _ _ hfollower _ hchronicle =>
    rw [hfollower]
    exact ⟨rfl, hchronicle⟩
  | asks c hpursuit' hbegun =>
    obtain rfl := Pursuit.asking.inj (hpursuit.symm.trans hpursuit')
    rcases hbegun with hbegun | hraised'
    · cases hbegun
    · cases hraised.symm.trans hraised'
  | hears result _ _ hpursuit' => cases hpursuit.symm.trans hpursuit'

/-- Whoever has ended stays so. -/
lemma hasEnded_mono {m : ℕ} (h : (t.follower m).hasEnded) (hn : m ≤ n) :
    (t.follower n).hasEnded := by
  rwa [(rests_of_hasEnded h hn).1]

/-- A follower is at its end, about to begin, or in the midst of a call with six steps to go at
most. -/
lemma pursuit_cases (t : Trail σ) (n : ℕ) : (t.follower n).hasEnded ∨
    (∃ q, (t.follower n).pursuit = .asking (.reading q)) ∨
    ∃ c, (t.follower n).pursuit = .asking c ∧ c.hasBegun ∧ c.rank ≤ 6 := by
  cases hpursuit : (t.follower n).pursuit with
  | ended => exact .inl (by rw [Follower.hasEnded, hpursuit])
  | asking c =>
    cases c with
    | reading q => exact .inr (.inl ⟨q, rfl⟩)
    | _ => exact .inr (.inr ⟨_, rfl, rfl, by simp [Call.rank]⟩)

/-- Within eight steps a follower hears an answer, or ends. -/
lemma goesOn (t : Trail σ) (n : ℕ) : (t.follower (n + 8)).hasEnded ∨
    (t.chronicle n).rounds.length < (t.chronicle (n + 8)).rounds.length := by
  have hheard {c : Call} (hpursuit : (t.follower n).pursuit = .asking c) (hrank : c.rank ≤ 7)
      (hbegun : c.hasBegun ∨ t.raised n = false) :
      (t.chronicle n).rounds.length < (t.chronicle (n + 8)).rounds.length := by
    obtain ⟨i, hi, hlength, -⟩ := exists_heard hpursuit hbegun
    have hmono := (t.rounds_prefix (show n + i + 1 ≤ n + 8 by omega)).length_le
    omega
  obtain hended | ⟨q, hpursuit⟩ | ⟨c, hpursuit, hbegun, hrank⟩ := t.pursuit_cases n
  · exact .inl (hasEnded_mono hended (Nat.le_add_right n 8))
  · by_cases hraised : t.raised n
    · exact .inl (hasEnded_mono (ended_of_reading hpursuit hraised).1 (by omega))
    · exact .inr (hheard hpursuit le_rfl (.inr (by simpa using hraised)))
  · exact .inr (hheard hpursuit (by omega) (.inl hbegun))

/-- After the signal there is one more answer at most, and then the end. -/
lemma exists_ended {m : ℕ} (hm : m ∈ t.moment) : ∃ e ≤ m + 7, (t.follower e).hasEnded ∧
    (t.chronicle e).rounds.length ≤ (t.chronicle m).rounds.length + 1 := by
  have hraised (i : ℕ) : t.raised (m + i) := raised_iff.mpr ⟨m, hm, Nat.le_add_right m i⟩
  obtain hended | ⟨q, hpursuit⟩ | ⟨c, hpursuit, hbegun, hrank⟩ := t.pursuit_cases m
  · exact ⟨m, by omega, hended, by omega⟩
  · obtain ⟨hended, hsame⟩ := ended_of_reading hpursuit (hraised 0)
    exact ⟨m + 1, by omega, hended, by rw [hsame]; omega⟩
  · obtain ⟨i, hi, hlength, hended⟩ := exists_heard hpursuit (.inl hbegun)
    exact ⟨m + i + 1, by omega, hended (hraised i), hlength.le⟩

/-- After the signal at most one more answer is heard, and seven steps later the follower has ended.
-/
lemma soon {m : ℕ} (hm : m ∈ t.moment) (hn : m ≤ n) :
    (∃ r : Option Round, (t.chronicle n).rounds = (t.chronicle m).rounds ++ r.toList) ∧
      (m + 7 ≤ n → (t.follower n).hasEnded) := by
  obtain ⟨e, he, hended, hlength⟩ := exists_ended hm
  refine ⟨?_, fun hn => hasEnded_mono hended (he.trans hn)⟩
  have hle : (t.chronicle n).rounds.length ≤ (t.chronicle m).rounds.length + 1 := by
    rcases le_total n e with hne | hne
    · exact (t.rounds_prefix hne).length_le.trans hlength
    · rwa [(rests_of_hasEnded hended hne).2]
  obtain ⟨more, hmore⟩ := t.rounds_prefix hn
  rw [← hmore, List.length_append] at hle
  rw [← hmore]
  rcases more with _ | ⟨r, _ | ⟨r', more⟩⟩
  · exact ⟨none, rfl⟩
  · exact ⟨some r, rfl⟩
  · simp at hle

/-- A follower that finds the signal raised when it begins does nothing at all. -/
lemma silent (hm : t.moment = some 0) (n : ℕ) : t.chronicle n = {} := by
  have hraised : t.raised 0 := raised_iff.mpr ⟨0, hm, le_rfl⟩
  obtain ⟨hended, hsame⟩ := ended_of_reading (n := 0) rfl hraised
  cases n with
  | zero => rfl
  | succ n => rw [(rests_of_hasEnded hended (Nat.le_add_left 1 n)).2, hsame]; rfl

/-- The round with the last news is the last one. -/
lemma concludes {earlier later : List Round} {r : Round}
    (h : (t.chronicle n).rounds = earlier ++ r :: later) (hr : isLastNews r.answer) :
    later = [] ∧ (t.follower n).hasEnded := by
  have hat := (t.stands n).isAt
  cases hpursuit : (t.follower n).pursuit with
  | asking c =>
    rw [hpursuit, IsAt, h] at hat
    exact absurd hr (hat.1 r (by simp))
  | ended =>
    rw [hpursuit, IsAt, h] at hat
    refine ⟨?_, by rw [Follower.hasEnded, hpursuit]⟩
    by_contra hne
    refine hat.2.1 r ?_ hr
    rw [List.dropLast_append_of_ne_nil (by simp), List.dropLast_cons_of_ne_nil hne]
    simp

/-- What a player may rely on who handed in a submission, whatever the service answers, whatever
others do meanwhile, and whenever the signal is raised. -/
theorem informs (t : Trail σ) : t.Informs where
  adds k := ⟨_, (t.goes k).2.symm⟩
  entries n := (t.stands n).entries
  asks n := (t.stands n).asks
  begins n := by
    have hat := (t.stands n).isAt
    cases hpursuit : (t.follower n).pursuit with
    | ended =>
      rw [hpursuit] at hat
      obtain ⟨later, result, hasks, -⟩ := t.exists_asks 0 0
      exact ⟨_, hasks, by rw [hat.1]; exact List.nil_prefix⟩
    | asking c =>
      rw [hpursuit] at hat
      obtain ⟨-, b, j, -, -, hpending⟩ := hat
      obtain ⟨later, result, hasks, -⟩ := t.exists_asks b j
      refine ⟨_, hasks, ?_⟩
      rw [hpending, List.filterMap_append]
      exact List.prefix_append _ _
  concludes n earlier r later h hr := concludes h ((isLastNews_iff_isVerdict _).mpr hr)
  reason n h := by
    have hat := (t.stands n).isAt
    rw [pursuit_of_hasEnded h] at hat
    obtain ⟨hpending, -, hreason⟩ := hat
    exact ⟨hpending, hreason.imp_left fun ⟨r, hmem, hr⟩ =>
      ⟨r, hmem, (isLastNews_iff_isVerdict _).mp hr⟩⟩
  rests n h k hk := by
    have hended := hasEnded_mono h hk
    exact ⟨hended, (rests_of_hasEnded h hk).2, (frame_of_hasEnded hended).2.2⟩
  goesOn := t.goesOn
  silent := silent
  soon m hm n hn := soon hm hn

/-! ### A grading -/

/-- A service that has the same message twice, then does not know the player for two questions, and
then is done with the submission. What it answers depends on the step of the follower in which it is
asked. -/
def moody : Link ℕ where
  base := ""
  answer r step :=
    let (status, text) : UInt16 × String :=
      if r.url = "/duels/7/submissions/5" then
        if step < 6 then (200, "\x7b\"status\":\"Running\",\"message\":\"compiling\"\x7d")
        else if step < 14 then (401, "")
        else (200, "\x7b\"status\":\"Done\",\"message\":\"3 of 3\"\x7d")
      else (403, "")
    (.ok { status, body := .whole { bytes := text.toList.map (·.toNat.toUInt8) } }, step)

/-- The follower of a submission that the moody service grades. -/
def graded : Trail ℕ where
  link := moody
  duel := 7
  submission := 5
  worlds k := { service := k, tokens := { access := "a1", refresh := "r1" } }
  moment := none

/-- Five questions are asked, and the player is told four things. -/
theorem informs_graded :
    ((graded.chronicle 21).entries graded.submission).filterMap Entry.line? = [
      .notify "Submission 5: compiling",
      .notify ("Submission 5: cannot check the status, authentication failed (403). " ++
        "Log in again to follow it."),
      .notify "Submission 5: 3 of 3",
      .notify "=== SUBMISSION 5 RESULT ===\nVerdict: Unknown\nMessage: 3 of 3"] ∧
    (graded.chronicle 21).rounds.length = 5 ∧ (graded.follower 21).hasEnded := by
  refine ⟨?_, by decide +kernel, by decide +kernel⟩
  rw [← graded.informs.entries]
  decide +kernel

end Trail
end Duelist
