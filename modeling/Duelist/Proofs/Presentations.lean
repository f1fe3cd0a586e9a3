import Duelist.Proofs.StaleEvents
import Duelist.Proofs.Submissions
/-!
# Presentations

How a duel is presented to a player who waits in the queue. `Showing` lists what may be done for it,
and `Presents` is the account of it: what is asked of the service, in which order, and what the
player is told. It has one case for each way in which it may go. Without the summary of the duel
there is nothing to go on with; without the task only the opponent is told; and with the task its
files are asked for, all of them, and told as far as they came (`Task.page`).

The account is of what is done among others, who leave the standing alone but may do anything else
between two steps. The main statement is `Session.presentation`.
-/

namespace Duelist

open Errand

variable {σ α : Type}

/-! ### What is done for a presentation -/

/-- Something that the start of a duel does to a session. -/
inductive Showing where
  /-- Begins a duel. -/
  | begins (duel : Int64) (opponent : Option Int64) (task : Option String)
  /-- Does something in the world. -/
  | deed (deed : Deed)
  /-- Notes the opponent and the task of the duel. -/
  | learns (opponent : Int64) (task : String)
  /-- Tells the player something. -/
  | notifies (text : String)

namespace Showing

/-- The request that was sent, with its outcome. -/
def exchange? : Showing → Option (Request × Outcome)
  | .deed d => d.exchange?
  | _ => none

/-- The line that was shown. -/
def line? : Showing → Option Line
  | .notifies text => some (.notify text)
  | _ => none

/-- How what is done leads from a session to another. -/
inductive Leads (link : Link σ) : Session σ → List Showing → Session σ → Prop
  | nothing (s : Session σ) : Leads link s [] s
  | begins (s : Session σ) (duel : Int64) (opponent : Option Int64) (task : Option String) :
      Leads link s [.begins duel opponent task] { s with standing := { s.standing with
        phase := .active
        duel := some { id := duel, opponent, task }
        active := true
        history := s.standing.history ++ [.active] } }
  | deeds (s : Session σ) {ds : List Deed} {w : World σ} (h : Deed.Leads link s.world ds w) :
      Leads link s (ds.map .deed) (s.placed w)
  | learns (s : Session σ) (opponent : Int64) (task : String) :
      Leads link s [.learns opponent task] { s with standing := s.standing.learn opponent task }
  | notifies (s : Session σ) (text : String) :
      Leads link s [.notifies text] (s.placed (s.world.note (.shown (.notify text))))
  | append {s t u : Session σ} {ds es : List Showing} (h : Leads link s ds t)
      (h' : Leads link t es u) : Leads link s (ds ++ es) u

variable {link : Link σ} {s t : Session σ} {effects : List Showing}

/-- What was sent is what the transcript has in addition. -/
lemma Leads.exchanges_eq (h : Leads link s effects t) :
    t.world.exchanges = s.world.exchanges ++ effects.filterMap exchange? := by
  induction h with
  | nothing s => simp
  | begins s duel opponent task => exact (List.append_nil _).symm
  | deeds s h =>
    rw [List.filterMap_map]
    exact h.exchanges_eq
  | learns s opponent task => exact (List.append_nil _).symm
  | notifies s text => exact List.filterMap_append
  | append _ _ ih ih' => rw [ih', ih, List.filterMap_append, List.append_assoc]

/-- So is what was shown. -/
lemma Leads.lines_eq (h : Leads link s effects t) :
    t.world.lines = s.world.lines ++ effects.filterMap line? := by
  induction h with
  | nothing s => simp
  | begins s duel opponent task => exact (List.append_nil _).symm
  | @deeds s ds w h =>
    have hnone : (ds.map Showing.deed).filterMap line? = [] := by simp [line?]
    rw [hnone, List.append_nil]
    exact h.lines_eq
  | learns s opponent task => exact (List.append_nil _).symm
  | notifies s text => exact List.filterMap_append
  | append _ _ ih ih' => rw [ih', ih, List.filterMap_append, List.append_assoc]

end Showing

/-! ### What is asked -/

/-- What asking `q` came to, the end of the call being judged by `f`. -/
def AskedFor (base : String) (q : Query) (f : Except Failure Reply → Except Failure α)
    (ds : List Deed) (result : Except Failure α) : Prop :=
  ∃ answer, Asked base q ds answer ∧ result = f answer

/-- A sample, and what came of asking for its two files. -/
structure Fetched where
  /-- The sample. -/
  sample : Sample
  /-- The file with the input. -/
  input : Except Failure String
  /-- The file with the output expected for it. -/
  output : Except Failure String

namespace Fetched

/-- The sample with its files, if both came. -/
def text? (x : Fetched) : Option SampleText :=
  match x.input, x.output with
  | .ok input, .ok output => some { order := x.sample.order, input, output }
  | _, _ => none

/-- What the player is told of a sample: its label and both files, if both came. -/
def section? (x : Fetched) : Option String :=
  match x.input, x.output with
  | .ok input, .ok output => some ("\n\nTest " ++ toString x.sample.order ++ ":\nInput:\n" ++
    input ++ "\nExpected output:\n" ++ output)
  | _, _ => none

/-- A sample is told with both of its files, or not at all. -/
lemma section?_eq (x : Fetched) : x.section? = x.text?.map SampleText.text := by
  obtain ⟨sample, input, output⟩ := x
  cases input with
  | error e => rfl
  | ok input =>
    cases output with
    | error e => rfl
    | ok output => rfl

end Fetched

/-- What the player is told of the statement, if it came. -/
def statementSection : Except Failure String → String
  | .ok text => "\n\n--- STATEMENT ---\n" ++ text
  | .error _ => ""

/-- What the player is told of a task: the title and the limits, the statement if it came, and in
the order of the service the samples both of whose files came. -/
def Task.page (task : Task) (statement : Except Failure String) (fetched : List Fetched) :
    String :=
  "=== TASK: " ++ task.title ++ " ===\n" ++
    ("Limits: TL=" ++ toString task.timeLimit ++ "ms, ML=" ++ toString task.memoryLimit ++ "MB") ++
    statementSection statement ++ "\n\n--- TESTS ---" ++
    String.join (fetched.filterMap Fetched.section?)

/-- A task is told as its page. -/
lemma Task.page_eq (task : Task) (statement : Except Failure String) (fetched : List Fetched) :
    Sheet.text {
      task
      statement := statement.toOption
      samples := fetched.filterMap Fetched.text? } = task.page statement fetched := by
  have hsections : (fetched.filterMap Fetched.text?).map SampleText.text =
      fetched.filterMap Fetched.section? := by
    rw [List.map_filterMap]
    congr 1
    funext x
    exact x.section?_eq.symm
  unfold Task.page Sheet.text
  rw [hsections]
  cases statement <;> rfl

/-- What the player is told of the opponent. -/
def opponentLine : Except Failure Player → String
  | .ok player => "Opponent: " ++ player.nickname
  | .error _ => "Opponent: Unknown"

/-- The queries for the files of the task numbered `id`: the statement, and then in the order of the
service the input and the output of each sample. -/
def Task.fileQueries (id : String) (task : Task) : List Query :=
  .taskFile id task.statement ::
    task.samples.flatMap fun sample => [.taskFile id sample.input, .taskFile id sample.output]

/-- What asking for the files of samples came to, one sample after the other. -/
inductive FetchesAll (base id : String) : List Sample → List Deed → List Fetched → Prop
  | nil : FetchesAll base id [] [] []
  | cons {x : Fetched} {ds es : List Deed} {samples : List Sample} {fs : List Deed}
      {fetched : List Fetched}
      (hinput : AskedFor base (.taskFile id x.sample.input) textOf ds x.input)
      (houtput : AskedFor base (.taskFile id x.sample.output) textOf es x.output)
      (h : FetchesAll base id samples fs fetched) :
      FetchesAll base id (x.sample :: samples) (ds ++ (es ++ fs)) (x :: fetched)

/-- What asking for the task numbered `id` and its files came to. -/
inductive Drafts (base id : String) : List Deed → Except Failure Sheet → Prop
  /-- The task did not come. -/
  | failed {ds : List Deed} {e : Failure}
      (htask : AskedFor base (.task id) (recordOf Task.ofJson?) ds (.error e)) :
      Drafts base id ds (.error e)
  /-- The task came, and its files were asked for. -/
  | drafted {ts es fs : List Deed} {task : Task} {statement : Except Failure String}
      {fetched : List Fetched}
      (htask : AskedFor base (.task id) (recordOf Task.ofJson?) ts (.ok task))
      (hstatement : AskedFor base (.taskFile id task.statement) textOf es statement)
      (hsamples : FetchesAll base id task.samples fs fetched) :
      Drafts base id (ts ++ (es ++ fs)) (.ok
        { task, statement := statement.toOption, samples := fetched.filterMap Fetched.text? })

/-- What presenting a duel comes to: the summary of the duel if it came, the queries that are made
in order, and what is done. -/
inductive Presents (base : String) (duel : Int64) :
    Option DuelSummary → List Query → List Showing → Prop
  /-- The summary did not come. -/
  | unknown {ds : List Deed} {e : Failure}
      (hduel : AskedFor base (.duel duel) (recordOf DuelSummary.ofJson?) ds (.error e)) :
      Presents base duel none [.duel duel]
        (ds.map .deed ++ [.notifies ("Could not load the duel information: " ++ e.message)])
  /-- The task did not come. -/
  | taskless {ds ps ts : List Deed} {summary : DuelSummary} {player : Except Failure Player}
      {e : Failure}
      (hduel : AskedFor base (.duel duel) (recordOf DuelSummary.ofJson?) ds (.ok summary))
      (hplayer : AskedFor base (.player summary.opponent) (recordOf Player.ofJson?) ps player)
      (htask : AskedFor base (.task summary.task) (recordOf Task.ofJson?) ts (.error e)) :
      Presents base duel (some summary)
        [.duel duel, .player summary.opponent, .task summary.task]
        (ds.map .deed ++ [.learns summary.opponent summary.task] ++ ps.map .deed ++
          [.notifies (opponentLine player)] ++ ts.map .deed ++
          [.notifies ("Could not load the task: " ++ e.message)])
  /-- The task came, and its files were asked for. -/
  | shown {ds ps ts es fs : List Deed} {summary : DuelSummary}
      {player : Except Failure Player} {task : Task} {statement : Except Failure String}
      {fetched : List Fetched}
      (hduel : AskedFor base (.duel duel) (recordOf DuelSummary.ofJson?) ds (.ok summary))
      (hplayer : AskedFor base (.player summary.opponent) (recordOf Player.ofJson?) ps player)
      (htask : AskedFor base (.task summary.task) (recordOf Task.ofJson?) ts (.ok task))
      (hstatement : AskedFor base (.taskFile summary.task task.statement) textOf es statement)
      (hsamples : FetchesAll base summary.task task.samples fs fetched) :
      Presents base duel (some summary)
        (.duel duel :: .player summary.opponent :: .task summary.task ::
          task.fileQueries summary.task)
        (ds.map .deed ++ [.learns summary.opponent summary.task] ++ ps.map .deed ++
          [.notifies (opponentLine player)] ++ (ts ++ (es ++ fs)).map .deed ++
          [.notifies (task.page statement fetched)])

/-! ### Asking for a task with its files -/

namespace Link

variable (link : Link σ)

/-- To ask a query and judge what comes of it. -/
lemma does_askedFor (q : Query) (f : Except Failure Reply → Except Failure α) (w : World σ) :
    ((do return f (← link.ask q) : Errand (World σ) (Except Failure α)) w).Does
      (fun _ _ => True) (Deed.Leads link) (fun ds result _ => AskedFor link.base q f ds result)
      [] w :=
  link.does_ask_map q f w

/-- The files of samples are asked for one after the other, both of each sample whatever becomes of
the first, and the samples are kept both of whose files came. -/
lemma does_sampleTexts (id : String) (samples : List Sample) (w : World σ) :
    (link.sampleTexts id samples w).Does (fun _ _ => True) (Deed.Leads link)
      (fun ds texts _ => ∃ fetched, FetchesAll link.base id samples ds fetched ∧
        texts = fetched.filterMap Fetched.text?) [] w := by
  induction samples generalizing w with
  | nil => exact does_pure ⟨[], .nil, rfl⟩
  | cons sample samples ih =>
    refine does_bind (link.does_askedFor _ _ w) fun ds input t hinput => ?_
    refine does_bind (link.does_askedFor _ _ t) fun es output u houtput => ?_
    refine does_bind (ih u) fun fs texts v h => ?_
    obtain ⟨fetched, hfetched, rfl⟩ := h
    have hall := FetchesAll.cons (x := { sample, input, output }) hinput houtput hfetched
    rw [List.nil_append, List.append_assoc]
    cases input with
    | error e => exact does_pure ⟨_, hall, rfl⟩
    | ok input =>
      cases output with
      | error e => exact does_pure ⟨_, hall, rfl⟩
      | ok output => exact does_pure ⟨_, hall, rfl⟩

/-- A task is asked for, then its statement, then the files of its samples. -/
lemma does_sheet (id : String) (w : World σ) :
    (link.sheet id w).Does (fun _ _ => True) (Deed.Leads link)
      (fun ds result _ => Drafts link.base id ds result) [] w := by
  refine does_bind (link.does_askedFor (.task id) _ w) fun ts result t htask => ?_
  cases result with
  | error e => exact does_pure (.failed htask)
  | ok task =>
    refine does_bind (link.does_askedFor _ _ t) fun es statement u hstatement => ?_
    refine does_bind (link.does_sampleTexts id task.samples u) fun fs texts v h => ?_
    obtain ⟨fetched, hfetched, rfl⟩ := h
    rw [List.nil_append, List.append_assoc]
    exact does_pure (.drafted htask hstatement hfetched)

end Link

/-! ### What was sent -/

/-- Each query in turn was sent, and nothing else but refused copies and refreshes. -/
def SentInTurn (base : String) (queries : List Query) (xs : List (Request × Outcome)) : Prop :=
  ∃ blocks : List (List (Request × Outcome)), xs = blocks.flatten ∧
    List.Forall₂ (fun q block => SentOnce base (q.carrying base) block) queries blocks

section

variable {base id : String} {queries queries' : List Query} {xs ys : List (Request × Outcome)}

/-- If nothing is asked, nothing is sent. -/
lemma sentInTurn_nil : SentInTurn base [] [] :=
  ⟨[], rfl, .nil⟩

/-- What is asked first is sent first. -/
lemma SentInTurn.append (h : SentInTurn base queries xs) (h' : SentInTurn base queries' ys) :
    SentInTurn base (queries ++ queries') (xs ++ ys) := by
  obtain ⟨blocks, rfl, hblocks⟩ := h
  obtain ⟨blocks', rfl, hblocks'⟩ := h'
  exact ⟨blocks ++ blocks', List.flatten_append.symm, List.rel_append hblocks hblocks'⟩

/-- What is asked for a question is sent in turn. -/
lemma AskedFor.sentInTurn (q : Question) {f : Except Failure Reply → Except Failure α}
    {ds : List Deed} {result : Except Failure α} (h : AskedFor base q.query f ds result) :
    SentInTurn base [q.query] (ds.filterMap Deed.exchange?) := by
  obtain ⟨answer, hasked, -⟩ := h
  have honce := hasked.sentOnce fun token => q.isRefresh_query base token
  exact ⟨[ds.filterMap Deed.exchange?], (List.append_nil _).symm, .cons honce .nil⟩

/-- The files of samples are sent for in the order of the samples, the input before the output. -/
lemma FetchesAll.sentInTurn {samples : List Sample} {ds : List Deed} {fetched : List Fetched}
    (h : FetchesAll base id samples ds fetched) :
    SentInTurn base (samples.flatMap fun sample =>
      [.taskFile id sample.input, .taskFile id sample.output]) (ds.filterMap Deed.exchange?) := by
  induction h with
  | nil => exact sentInTurn_nil
  | @cons x ds es samples fs fetched hinput houtput h ih =>
    rw [List.filterMap_append, List.filterMap_append, List.flatMap_cons]
    exact (hinput.sentInTurn (.taskFile id _)).append
      ((houtput.sentInTurn (.taskFile id _)).append ih)

/-- What was sent for a presentation are the exchanges of its deeds. -/
lemma Showing.filterMap_exchange?_deed (ds : List Deed) :
    (ds.map Showing.deed).filterMap Showing.exchange? = ds.filterMap Deed.exchange? := by
  rw [List.filterMap_map]
  rfl

/-- The queries of a presentation are sent in turn. -/
lemma Presents.sentInTurn {duel : Int64} {learned : Option DuelSummary} {effects : List Showing}
    (h : Presents base duel learned queries effects) :
    SentInTurn base queries (effects.filterMap Showing.exchange?) := by
  have hnotified (text : String) :
      [Showing.notifies text].filterMap Showing.exchange? = [] := rfl
  have hlearned (opponent : Int64) (task : String) :
      [Showing.learns opponent task].filterMap Showing.exchange? = [] := rfl
  cases h with
  | unknown hduel =>
    simp only [List.filterMap_append, hnotified, Showing.filterMap_exchange?_deed,
      List.append_nil]
    exact hduel.sentInTurn (.duel duel)
  | taskless hduel hplayer htask =>
    simp only [List.filterMap_append, hnotified, hlearned, Showing.filterMap_exchange?_deed,
      List.append_nil]
    exact ((hduel.sentInTurn (.duel duel)).append (hplayer.sentInTurn (.player _))).append
      (htask.sentInTurn (.task _))
  | shown hduel hplayer htask hstatement hsamples =>
    simp only [List.filterMap_append, hnotified, hlearned, Showing.filterMap_exchange?_deed,
      List.append_nil]
    exact ((hduel.sentInTurn (.duel duel)).append (hplayer.sentInTurn (.player _))).append
      ((htask.sentInTurn (.task _)).append
        ((hstatement.sentInTurn (.taskFile _ _)).append hsamples.sentInTurn))

end

/-! ### The steps of a presentation -/

/-- The standing is `v`, except that the followers may have been told to stop. -/
def Session.IsAt (v : Standing) (s : Session σ) : Prop :=
  s.standing = { v with stopping := s.standing.stopping }

/-- Others may do anything but change the standing; only the followers they may tell to stop. -/
def Session.SameGround (s t : Session σ) : Prop :=
  t.IsAt s.standing

/-- The standing once the summary of the duel came, if it did. -/
def Standing.knowing (learned : Option DuelSummary) (v : Standing) : Standing :=
  match learned with
  | some summary => v.learn summary.opponent summary.task
  | none => v

namespace Session

variable {s t : Session σ} {v : Standing}

/-- A session stands where it stands. -/
lemma isAt_self (s : Session σ) : s.IsAt s.standing :=
  rfl

/-- Others do not change where it stands. -/
lemma IsAt.trans (h : s.IsAt v) (h' : s.SameGround t) : t.IsAt v := by
  have hstanding : t.standing = { s.standing with stopping := t.standing.stopping } := h'
  rw [IsAt, hstanding, h]

/-- What is learned about the duel is noted, wherever the session stands. -/
lemma IsAt.learn (h : s.IsAt v) (opponent : Int64) (task : String) :
    IsAt (v.learn opponent task) { s with standing := s.standing.learn opponent task } := by
  rw [IsAt, h]
  rfl

variable (venue : Venue σ)

/-- What is done in the world leaves the player where he stands. -/
lemma does_at {e : Errand (World σ) α} {post : List Deed → α → Prop}
    (h : (e s.world).Does (fun _ _ => True) (Deed.Leads venue.link) (fun ds a _ => post ds a) []
      s.world) (hs : s.IsAt v) :
    ((liftM e : Errand (Session σ) α) s).Does SameGround (Showing.Leads venue.link)
      (fun effects a t => (∃ ds, effects = ds.map .deed ∧ post ds a) ∧ t.IsAt v) [] s :=
  does_placed (fun s _ _ hw => .deeds s hw) (fun _ _ ht => ht) (fun _ _ ht => ht.trans) hs h

/-- The player is told something, and that is the end. -/
lemma does_notify {post : List Showing → Unit → Session σ → Prop} {effects : List Showing}
    (hs : s.IsAt v) (text : String)
    (h : ∀ t : Session σ, t.IsAt v → post (effects ++ [.notifies text]) () t) :
    (notify text s).Does SameGround (Showing.Leads venue.link) post effects s :=
  ⟨[.notifies text], .notifies s text, fun t ht => ⟨rfl, h t (IsAt.trans hs ht)⟩⟩

/-- A duel is presented to the player. -/
lemma does_present (duel : Int64) (hs : s.IsAt v) :
    (present venue duel s).Does SameGround (Showing.Leads venue.link)
      (fun effects _ t => ∃ learned queries,
        Presents venue.link.base duel learned queries effects ∧ t.IsAt (v.knowing learned)) []
      s := by
  refine does_bind (does_at venue (venue.link.does_askedFor _ _ _) hs) fun _ result s₁ h => ?_
  obtain ⟨⟨ds, rfl, hduel⟩, hs₁⟩ := h
  rw [List.nil_append]
  cases result with
  | error e => exact does_notify venue hs₁ _ fun t ht => ⟨none, _, .unknown hduel, ht⟩
  | ok summary =>
    -- the summary is noted before anything else is asked
    refine does_lift_bind [.learns summary.opponent summary.task] (.learns s₁ _ _) fun s₂ hs₂ => ?_
    replace hs₂ : s₂.IsAt _ := (hs₁.learn summary.opponent summary.task).trans hs₂
    refine does_bind (does_at venue (venue.link.does_askedFor _ _ _) hs₂) fun _ player s₃ h => ?_
    obtain ⟨⟨ps, rfl, hplayer⟩, hs₃⟩ := h
    refine does_lift_bind [.notifies (opponentLine player)] ?_ fun s₄ hs₄ => ?_
    · cases player <;> exact .notifies s₃ _
    replace hs₄ : s₄.IsAt _ := hs₃.trans hs₄
    refine does_bind (does_at venue (venue.link.does_sheet _ _) hs₄) fun _ result s₅ h => ?_
    obtain ⟨⟨qs, rfl, hsheet⟩, hs₅⟩ := h
    cases hsheet with
    | failed htask =>
      refine does_notify venue hs₅ _ fun t ht => ?_
      exact ⟨some summary, _, .taskless hduel hplayer htask, ht⟩
    | drafted htask hstatement hsamples =>
      have hpresents := Presents.shown hduel hplayer htask hstatement hsamples
      rw [← Task.page_eq] at hpresents
      exact does_notify venue hs₅ _ fun t ht => ⟨some summary, _, hpresents, ht⟩

end Session

/-! ### The main statement -/

/-- The duel as it is recorded once it was presented: as the event gave it, or with the opponent and
the task of the summary if that came. -/
def Duel.presented (duel : Int64) (opponent : Option Int64) (task : Option String) :
    Option DuelSummary → Duel
  | none => { id := duel, opponent, task }
  | some summary => { id := duel, opponent := some summary.opponent, task := some summary.task }

/-- What taking the start of a duel comes to in the session `s`: some effects, an answer to the
reader, and the session `t`. -/
structure Presented (base : String) (duel : Int64) (opponent : Option Int64) (task : Option String)
    (s : Session σ) (learned : Option DuelSummary) (queries : List Query)
    (effects : List Showing) (flow : Flow) (t : Session σ) : Prop where
  /-- The reader goes on. -/
  flow : flow = .proceed
  /-- The duel begins, its banner is shown first, and last the hint how to hand in a solution. In
  between the duel is presented. -/
  shows : ∃ middle, Presents base duel learned queries middle ∧
    effects = .begins duel opponent task :: .notifies (Session.banner duel) ::
      (middle ++ [.notifies Session.hint])
  /-- The queries of the presentation were sent in turn, and nothing else but refused copies and
  refreshes. -/
  sent : SentInTurn base queries (effects.filterMap Showing.exchange?)
  /-- Whatever has failed, the duel is being played. -/
  standing : t.standing = {
    phase := .active
    duel := some (.presented duel opponent task learned)
    active := true
    stopping := t.standing.stopping
    history := s.standing.history ++ [.active] }

namespace Session

variable (venue : Venue σ) (duel : Int64) (opponent : Option Int64) (task : Option String)

/-- Taking the start of a duel among others, step by step. What is known of the session at each step
is that it stands where it should. -/
lemma does_presentation {s : Session σ} (hqueued : s.standing.phase = .queued) :
    (take venue (.started duel opponent task) s).Does SameGround (Showing.Leads venue.link)
      (fun effects flow t => ∃ learned queries,
        Presented venue.link.base duel opponent task s learned queries effects flow t) [] s := by
  have hover : s.standing.phase ≠ .over := by
    rw [hqueued]
    exact Phase.noConfusion
  rw [take_started venue duel opponent task hover]
  refine ⟨[], .nothing s, fun s₁ hs₁ => ?_⟩
  replace hs₁ : s₁.IsAt s.standing := hs₁
  have hqueued₁ : s₁.standing.phase = .queued := by
    rw [hs₁]
    exact hqueued
  have hbegin : s₁.standing.begin? duel opponent task = some _ := if_pos hqueued₁
  refine does_lift_bind [.begins duel opponent task] ?_ fun s₂ hs₂ => ?_
  · rw [attempt_of_some hbegin]
    exact .begins s₁ duel opponent task
  rw [attempt_of_some hbegin] at hs₂ ⊢
  let begun : Standing := { s.standing with
    phase := .active
    duel := some { id := duel, opponent, task }
    active := true
    history := s.standing.history ++ [.active] }
  replace hs₂ : s₂.IsAt begun := by
    refine IsAt.trans ?_ hs₂
    rw [IsAt, hs₁]
    rfl
  refine does_lift_bind [.notifies (banner duel)] (.notifies s₂ _) fun s₃ hs₃ => ?_
  replace hs₃ : s₃.IsAt begun := hs₂.trans hs₃
  refine does_bind (does_present venue duel hs₃) fun middle _ s₄ h => ?_
  obtain ⟨learned, queries, hpresents, hs₄⟩ := h
  refine does_lift_bind [.notifies hint] (.notifies s₄ _) fun s₅ hs₅ => ?_
  replace hs₅ : s₅.IsAt (begun.knowing learned) := hs₄.trans hs₅
  have hsent := hpresents.sentInTurn
  refine does_pure ⟨learned, queries, rfl, ⟨middle, hpresents, ?_⟩, ?_, ?_⟩
  · rw [List.append_assoc]
    rfl
  · rw [List.filterMap_append, List.filterMap_append]
    exact (List.append_nil _).symm ▸ hsent
  · rw [hs₅]
    cases learned <;> rfl

/-- The start of a duel, taken while the player waits in the queue. Others may do anything in
between but change the standing, and may still tell the followers to stop. The duel is played
afterwards, whatever has failed; its banner comes first and the hint last; and what is asked and
told in between is as `Presents` says. With nobody in between the player is told nothing else, and
nothing else is sent. -/
theorem presentation {s : Session σ} (hqueued : s.standing.phase = .queued) :
    (take venue (.started duel opponent task) s).Does SameGround (Showing.Leads venue.link)
      (fun effects flow t => ∃ learned queries,
        Presented venue.link.base duel opponent task s learned queries effects flow t) [] s ∧
    ∀ c, ∃ learned queries effects,
      let p := (take venue (.started duel opponent task)).reading c s
      Presented venue.link.base duel opponent task s learned queries effects p.1 p.2 ∧
      p.2.world.exchanges = s.world.exchanges ++ effects.filterMap Showing.exchange? ∧
      p.2.world.lines = s.world.lines ++ effects.filterMap Showing.line? := by
  have hdoes := does_presentation venue duel opponent task hqueued
  refine ⟨hdoes, fun c => ?_⟩
  obtain ⟨effects, hleads, learned, queries, hpresented⟩ := hdoes.drain isAt_self
    .nothing (fun _ _ _ _ _ h h' => h.append h') c
  exact ⟨learned, queries, effects, hpresented, hleads.exchanges_eq, hleads.lines_eq⟩

/-- A service that does not know the opponent and lacks one file of the two samples. -/
def library : Venue Unit where
  link := {
    base := ""
    answer := fun r _ =>
      let body (text : String) : Outcome :=
        .ok { status := 200, body := .whole { bytes := text.toList.map (·.toNat.toUInt8) } }
      (if r.url = "/duels/7" then body "[7,\"t\",9]"
        else if r.url = "/task/t" then
          body "[[\"T\",1000,64,\"s\",[[1,\"a\",\"b\"],[2,\"c\",\"d\"]]]]"
        else if r.url = "/users/9" ∨ r.url = "/task/t/a" then
          .ok { status := 404, body := .whole {} }
        else body r.url, ()) }

/-- The session of a player who waits in the queue. -/
def queueing : Session Unit where
  crew := { world := { service := () } }
  standing := { phase := .queued, history := [.idle, .queued] }

/-- The first sample is left out, and its second file is asked for nevertheless. -/
theorem presentation_library :
    queueing.standing.phase = .queued ∧
    (∃ learned queries effects,
      let p := (take library (.started 7 none none)).reading {} queueing
      Presented "" 7 none none queueing learned queries effects p.1 p.2 ∧
      p.2.world.exchanges = queueing.world.exchanges ++ effects.filterMap Showing.exchange? ∧
      p.2.world.lines = queueing.world.lines ++ effects.filterMap Showing.line?) ∧
    let t := ((take library (.started 7 none none)).reading {} queueing).2
    t.world.exchanges.map (·.1.url) = ["/duels/7", "/users/9", "/task/t", "/task/t/s", "/task/t/a",
      "/task/t/b", "/task/t/c", "/task/t/d"] ∧
    t.world.lines = [.notify "=== THE DUEL HAS STARTED! ID: 7 ===", .notify "Opponent: Unknown",
      .notify ("=== TASK: T ===\nLimits: TL=1000ms, ML=64MB\n\n--- STATEMENT ---\n/task/t/s" ++
        "\n\n--- TESTS ---\n\nTest 2:\nInput:\n/task/t/c\nExpected output:\n/task/t/d"),
      .notify "To send a solution, use: submit <path_to_file>"] := by
  refine ⟨rfl, (presentation library 7 none none rfl).2 {}, ?_⟩
  exact ⟨by decide +kernel, by decide +kernel⟩

end Session
end Duelist
