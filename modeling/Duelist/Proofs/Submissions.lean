import Duelist.Proofs.CrewSteps
import Duelist.Proofs.Encoding
import Duelist.Proofs.Extensions
import Duelist.Proofs.Inquiries
import Duelist.Proofs.Wordings
import Duelist.Session.HandingIn
/-!
# Submissions

Handing in a solution. Whether there is anything to hand in is found out without the service, from
the standing of the player and the files: `Refuses` says what may be wrong, and in which order, and
`Ready` what there is if nothing is. `HandsIn` is the account of all that is done then, step by
step, and of the result.

The main statement is `Session.hands_in_once`. Whatever others do between two steps, handing in does
what `HandsIn` says, for the standing in which it was begun. With nobody in between
(`Session.HandedIn`), the session is left as it was if there is nothing to hand in. Otherwise the
text of the file is sent, and again only after it was refused; and a submission that has got a
number is followed, unless the signal is raised.
-/

namespace Duelist

variable {σ α : Type}

/-! ### What may be handed in -/

/-- The player plays the duel `duel`, and solutions are accepted. -/
structure Standing.Accepts (s : Standing) (duel : Int64) : Prop where
  /-- It is the current duel. -/
  duel : s.duel.map Duel.id = some duel
  /-- It runs. -/
  active : s.active
  /-- It has not begun to finish. -/
  phase : s.phase = .active

/-- There is something to hand in for the duel `duel`: the file at `path` holds the bytes of `text`,
and its extension is that of `language`. -/
structure Ready (files : Files) (standing : Standing) (path : String)
    (duel : Int64) (text : String) (language : Language) : Prop where
  /-- The duel. -/
  accepts : standing.Accepts duel
  /-- The text. -/
  file : files.find? path = some (.file (Utf8.bytes text))
  /-- The language. -/
  language : Path.extension (Utf8.bytes path) = language.suffix

/-- There is no text to be read, for the given reason. -/
inductive Node.Unreadable : Node → String → Prop
  /-- It is a directory. -/
  | directory : Unreadable .directory "Is a directory (os error 21)"
  /-- It is a file that holds the bytes of no text. -/
  | file (bytes : List UInt8) (h : ∀ text, Utf8.bytes text ≠ bytes) :
      Unreadable (.file bytes) "stream did not contain valid UTF-8"

/-- Why there is nothing to hand in. What comes first in this list comes first when several things
are wrong. -/
inductive Refuses (files : Files) (standing : Standing) (path : String) : Refusal → Prop
  /-- No duel is played. -/
  | noDuel (h : ∀ duel, ¬standing.Accepts duel) : Refuses files standing path .noDuel
  /-- There is nothing at the path. -/
  | missingFile (duel : Int64) (h : standing.Accepts duel) (hfile : files.find? path = none) :
      Refuses files standing path (.missingFile path)
  /-- There is something that is no text. -/
  | unreadableFile (duel : Int64) (h : standing.Accepts duel) (node : Node)
      (hfile : files.find? path = some node) (reason : String)
      (hreason : node.Unreadable reason) :
      Refuses files standing path (.unreadableFile path reason)
  /-- No language has the extension. -/
  | unknownExtension (duel : Int64) (h : standing.Accepts duel) (text : String)
      (hfile : files.find? path = some (.file (Utf8.bytes text)))
      (hlanguage : ∀ language : Language, Path.extension (Utf8.bytes path) ≠ language.suffix) :
      Refuses files standing path (.unknownExtension (Path.extension (Utf8.bytes path)))

/-- A solution is accepted for a duel just if it is the one that is being played. -/
lemma Standing.accepting?_eq_some_iff {s : Standing} {duel : Int64} :
    s.accepting? = some duel ↔ s.Accepts duel := by
  rw [accepting?, Option.ite_none_right_eq_some]
  exact ⟨fun h => ⟨h.2, h.1.1, h.1.2⟩, fun h => ⟨⟨h.active, h.phase⟩, h.duel⟩⟩

/-- What can be read as text holds the bytes of that text. -/
lemma Node.text_eq_ok_iff {node : Node} {text : String} :
    node.text = .ok text ↔ node = .file (Utf8.bytes text) := by
  cases node with
  | directory => simp [Node.text]
  | file bytes =>
    rw [Node.file.injEq, eq_comm (a := bytes), ← Utf8.text?_eq_some_iff, Node.text]
    cases Utf8.text? bytes with
    | none => simp
    | some text' => simp

/-- What cannot be read as text is no text, and the reason is told. -/
lemma Node.text_eq_error_iff {node : Node} {reason : String} :
    node.text = .error reason ↔ node.Unreadable reason := by
  cases node with
  | directory =>
    constructor
    · rintro ⟨⟩
      exact .directory
    · rintro ⟨⟩
      rfl
  | file bytes =>
    rw [Node.text]
    cases htext : Utf8.text? bytes with
    | some text =>
      refine ⟨nofun, ?_⟩
      rintro (_ | ⟨_, h⟩)
      exact absurd (Utf8.text?_eq_some_iff.mp htext) (h text)
    | none =>
      constructor
      · rintro ⟨⟩
        exact .file bytes (Utf8.text?_eq_none_iff.mp htext)
      · rintro ⟨⟩
        rfl

/-- An extension that is not that of any language. -/
lemma Language.ofExtension?_eq_none_iff {extension : String} :
    ofExtension? extension = none ↔ ∀ language : Language, extension ≠ language.suffix := by
  simp only [Option.eq_none_iff_forall_ne_some, ne_eq, ofExtension?_eq_some_iff]

section

variable {files : Files} {standing : Standing} {path text text' : String} {duel duel' : Int64}
  {language language' : Language} {why why' : Refusal}

/-- If a solution is refused, it is refused for the reason given. -/
lemma Refuses.checkSolution_eq (h : Refuses files standing path why) :
    Session.checkSolution files standing path = .error why := by
  rw [Session.checkSolution]
  cases h with
  | noDuel h =>
    cases haccepting : standing.accepting? with
    | none => rfl
    | some duel => exact absurd (Standing.accepting?_eq_some_iff.mp haccepting) (h duel)
  | missingFile duel h hfile =>
    simp only [Standing.accepting?_eq_some_iff.mpr h, Session.solutionAt, hfile]
    rfl
  | unreadableFile duel h node hfile reason hreason =>
    simp only [Standing.accepting?_eq_some_iff.mpr h, Session.solutionAt, hfile,
      Node.text_eq_error_iff.mpr hreason]
    rfl
  | unknownExtension duel h text hfile hlanguage =>
    simp only [Standing.accepting?_eq_some_iff.mpr h, Session.solutionAt, hfile,
      Node.text_eq_ok_iff.mpr rfl, Language.ofPath,
      Language.ofExtension?_eq_none_iff.mpr hlanguage]
    rfl

/-- If a solution is ready, it is accepted as it is. -/
lemma Ready.checkSolution_eq (h : Ready files standing path duel text language) :
    Session.checkSolution files standing path = .ok (duel, text, language) := by
  simp only [Session.checkSolution, Standing.accepting?_eq_some_iff.mpr h.accepts,
    Session.solutionAt, h.file, Node.text_eq_ok_iff.mpr rfl, Language.ofPath,
    Language.ofExtension?_eq_some_iff.mpr h.language]
  rfl

/-- Either it is said why there is nothing to hand in, or there is something. -/
lemma refuses_or_ready (files : Files) (standing : Standing) (path : String) :
    (∃ why, Refuses files standing path why) ∨
      ∃ duel text language, Ready files standing path duel text language := by
  by_cases haccepts : ∃ duel, standing.Accepts duel
  · obtain ⟨duel, haccepts⟩ := haccepts
    cases hfile : files.find? path with
    | none => exact .inl ⟨_, .missingFile duel haccepts hfile⟩
    | some node =>
      cases htext : node.text with
      | error reason =>
        exact .inl ⟨_, .unreadableFile duel haccepts node hfile reason
          (Node.text_eq_error_iff.mp htext)⟩
      | ok text =>
        rw [Node.text_eq_ok_iff.mp htext] at hfile
        cases hlanguage : Language.ofExtension? (Path.extension (Utf8.bytes path)) with
        | none =>
          exact .inl ⟨_, .unknownExtension duel haccepts text hfile
            (Language.ofExtension?_eq_none_iff.mp hlanguage)⟩
        | some language =>
          exact .inr ⟨duel, text, language, haccepts, hfile,
            Language.ofExtension?_eq_some_iff.mp hlanguage⟩
  · exact .inl ⟨_, .noDuel fun duel h => haccepts ⟨duel, h⟩⟩

/-- A solution is refused for one reason alone. -/
lemma Refuses.unique (h : Refuses files standing path why)
    (h' : Refuses files standing path why') : why = why' :=
  Except.error.inj (h.checkSolution_eq.symm.trans h'.checkSolution_eq)

/-- There are no two things to hand in. -/
lemma Ready.unique (h : Ready files standing path duel text language)
    (h' : Ready files standing path duel' text' language') :
    duel = duel' ∧ text = text' ∧ language = language' := by
  have hsame := Except.ok.inj (h.checkSolution_eq.symm.trans h'.checkSolution_eq)
  simpa using hsame

/-- What is refused is not ready. -/
lemma Refuses.not_ready (h : Refuses files standing path why) :
    ¬Ready files standing path duel text language := by
  intro hready
  cases h.checkSolution_eq.symm.trans hready.checkSolution_eq

end

/-! ### What is done to a session -/

/-- A follower that was just started: it has read its token and is about to ask. -/
def Follower.newcomer (duel submission : Int64) (token : String) : Follower where
  duel := duel
  submission := submission
  pursuit := .asking (.sending (.grading duel submission) token)

/-- A follower begins with the token that is stored. -/
lemma Follower.start_eq (link : Link σ) (duel submission : Int64) (w : World σ) :
    Follower.start link duel submission w = (.newcomer duel submission w.tokens.access, w) := rfl

/-- Something that is done to a session when a solution is handed in. -/
inductive Doing where
  /-- Does something in the world. -/
  | deed (deed : Deed)
  /-- Answers what was typed. -/
  | answers (text : String)
  /-- Starts a follower. -/
  | follows (duel submission : Int64)
  /-- Finds that no follower may be started any more. -/
  | barred

namespace Doing

/-- What was sent, and what came of it. -/
def exchange? : Doing → Option (Request × Outcome)
  | .deed d => d.exchange?
  | _ => none

/-- What was shown. -/
def line? : Doing → Option Line
  | .answers text => some (.say text)
  | _ => none

/-- The duel and the submission of the follower that was started. -/
def followed? : Doing → Option (Int64 × Int64)
  | .follows duel submission => some (duel, submission)
  | _ => none

/-- How doings lead from a session to another. -/
inductive Leads (link : Link σ) : Session σ → List Doing → Session σ → Prop
  | nothing (s : Session σ) : Leads link s [] s
  | deeds (s : Session σ) {ds : List Deed} {w : World σ} (h : Deed.Leads link s.world ds w) :
      Leads link s (ds.map .deed) (s.placed w)
  | answers (s : Session σ) (text : String) :
      Leads link s [.answers text] (s.placed (s.world.note (.shown (.say text))))
  | follows (s : Session σ) (duel submission : Int64) (h : s.crew.raised = false) :
      Leads link s [.follows duel submission]
        { s with crew := { s.crew with
          followers := s.crew.followers ++ [.newcomer duel submission s.world.tokens.access] } }
  | barred (s : Session σ) (h : s.crew.raised) : Leads link s [.barred] s
  | append {s t u : Session σ} {ds es : List Doing} (h : Leads link s ds t)
      (h' : Leads link t es u) : Leads link s (ds ++ es) u

end Doing

/-- What has become of the session `s` by some doings. -/
structure Session.Becomes (s : Session σ) (ds : List Doing) (t : Session σ) : Prop where
  /-- Only the world and the followers are others. -/
  frame : t = { s with crew := { s.crew with
    world := t.world, followers := t.crew.followers } }
  /-- What was sent. -/
  exchanges : t.world.exchanges = s.world.exchanges ++ ds.filterMap Doing.exchange?
  /-- What was shown. -/
  lines : t.world.lines = s.world.lines ++ ds.filterMap Doing.line?
  /-- Who was started, none of whom has ended. -/
  followers : ∃ new, t.crew.followers = s.crew.followers ++ new ∧
    new.map (fun f => (f.duel, f.submission)) = ds.filterMap Doing.followed? ∧
    ∀ f ∈ new, f.hasEnded = false
  /-- A follower is started only as long as the signal is not raised. -/
  free : ∀ duel submission, .follows duel submission ∈ ds → s.crew.raised = false
  /-- None is started once it is. -/
  barred : .barred ∈ ds → s.crew.raised

/-- What was done after what was done is all that was done. -/
lemma Session.Becomes.trans {s t u : Session σ} {ds es : List Doing} (h : s.Becomes ds t)
    (h' : t.Becomes es u) : s.Becomes (ds ++ es) u := by
  have hraised : t.crew.raised = s.crew.raised := congrArg (·.crew.raised) h.frame
  obtain ⟨new, hnew, hwho, hlive⟩ := h.followers
  obtain ⟨new', hnew', hwho', hlive'⟩ := h'.followers
  constructor
  · rw [h'.frame, h.frame]
    rfl
  · rw [h'.exchanges, h.exchanges, List.filterMap_append, List.append_assoc]
  · rw [h'.lines, h.lines, List.filterMap_append, List.append_assoc]
  · refine ⟨new ++ new', ?_, ?_, ?_⟩
    · rw [hnew', hnew, List.append_assoc]
    · rw [List.map_append, List.filterMap_append, hwho, hwho']
    · intro f hf
      obtain hf | hf := List.mem_append.mp hf
      · exact hlive f hf
      · exact hlive' f hf
  · intro duel submission hmem
    obtain hmem | hmem := List.mem_append.mp hmem
    · exact h.free duel submission hmem
    · rw [← hraised]
      exact h'.free duel submission hmem
  · intro hmem
    obtain hmem | hmem := List.mem_append.mp hmem
    · exact h.barred hmem
    · rw [← hraised]
      exact h'.barred hmem

/-- Deeds in the world are none of the doings in the session itself. -/
lemma Doing.filterMap_deed {ρ : Type} {f : Doing → Option ρ} (hf : ∀ d, f (.deed d) = none)
    (ds : List Deed) : (ds.map Doing.deed).filterMap f = [] := by
  simp [hf]

/-- Where doings lead to is what has become of the session by them. -/
lemma Doing.Leads.becomes {link : Link σ} {s t : Session σ} {ds : List Doing}
    (h : Doing.Leads link s ds t) : s.Becomes ds t := by
  induction h with
  | nothing s =>
    constructor
    · rfl
    · rw [List.filterMap_nil, List.append_nil]
    · rw [List.filterMap_nil, List.append_nil]
    · exact ⟨[], by rw [List.append_nil], rfl, by simp⟩
    · simp
    · simp
  | @deeds s ds w h =>
    constructor
    · rfl
    · rw [List.filterMap_map]
      exact h.exchanges_eq
    · rw [Doing.filterMap_deed (fun _ => rfl), List.append_nil]
      exact h.lines_eq
    · refine ⟨[], ?_, ?_, by simp⟩
      · rw [List.append_nil]
        rfl
      · rw [Doing.filterMap_deed (fun _ => rfl), List.map_nil]
    · simp
    · simp
  | answers s text =>
    constructor
    · rfl
    · exact List.filterMap_append
    · exact List.filterMap_append
    · refine ⟨[], ?_, rfl, by simp⟩
      rw [List.append_nil]
      rfl
    · simp
    · simp
  | follows s duel submission h =>
    constructor
    · rfl
    · exact (List.append_nil s.world.exchanges).symm
    · exact (List.append_nil s.world.lines).symm
    · refine ⟨[.newcomer duel submission s.world.tokens.access], rfl, rfl, fun f hf => ?_⟩
      obtain rfl := List.mem_singleton.mp hf
      rfl
    · exact fun _ _ _ => h
    · simp
  | barred s h =>
    constructor
    · rfl
    · exact (List.append_nil s.world.exchanges).symm
    · exact (List.append_nil s.world.lines).symm
    · exact ⟨[], by rw [List.append_nil], rfl, by simp⟩
    · simp
    · exact fun _ => h
  | append _ _ ih ih' => exact ih.trans ih'

/-- Where nothing was done, nothing has changed. -/
lemma Doing.Leads.eq_of_nil {link : Link σ} {s t : Session σ} (h : Doing.Leads link s [] t) :
    t = s := by
  generalize hds : ([] : List Doing) = ds at h
  induction h with
  | nothing s => rfl
  | deeds s h =>
    cases h with
    | nothing => rfl
    | _ => cases hds
  | append _ _ ih ih' =>
    obtain ⟨hds, hes⟩ := List.append_eq_nil_iff.mp hds.symm
    rw [ih' hes.symm, ih hds.symm]
  | _ => cases hds

/-! ### Handing in -/

/-- The record that is sent with a solution: what its language is called, and its text. -/
def submissionRecord (text : String) (language : Language) : Json :=
  .object [(some "language", .string (some language.title)),
    (some "solution", .string (some text))]

/-- The query that hands in a solution. -/
def Query.submission (duel : Int64) (text : String) (language : Language) : Query where
  method := .post
  path := s!"/duels/{duel}/submissions"
  json := some (submissionRecord text language)

/-- The request that hands in a solution. -/
def Request.submission (base : String) (duel : Int64) (text : String) (language : Language)
    (token : String) : Request where
  method := .post
  url := base ++ s!"/duels/{duel}/submissions"
  bearer := if token = "" then none else some token
  accept := none
  json := some (submissionRecord text language)
  streaming := false

/-- A solution is handed in by that query. -/
lemma Query.solution_eq_submission (duel : Int64) (text : String) (language : Language) :
    Query.solution duel text language = .submission duel text language := by
  rw [solution, Language.name_eq_title]
  rfl

/-- With a token, the query becomes that request. -/
lemma Query.carrying_submission (base : String) (duel : Int64) (text : String)
    (language : Language) : (Query.submission duel text language).carrying base =
      Request.submission base duel text language := rfl

/-- Handing in a solution is to ask for the number that it is given. -/
lemma Link.does_handIn (link : Link σ) (duel : Int64) (text : String) (language : Language)
    (w : World σ) :
    (link.handIn duel text language w).Does (fun _ _ => True) (Deed.Leads link)
      (fun ds result _ => ∃ answer, Asked link.base (.submission duel text language) ds answer ∧
        result = recordOf Grading.receipt? answer) [] w := by
  rw [← Query.solution_eq_submission]
  exact link.does_ask_map (.solution duel text language) _ w

/-- What is shown for a submission. -/
def sentLine (submission : Int64) : String :=
  s!"Solution sent! Submission id: {submission}"

/-- What is shown for a submission that is not followed. -/
def unfollowedLine (submission : Int64) : String :=
  "Could not follow submission " ++ toString submission ++ ": " ++ "the session is closing"

/-- What is done once a submission has got a number. -/
inductive Announces (duel submission : Int64) : List Doing → Prop
  /-- It is followed. -/
  | followed :
      Announces duel submission [.answers (sentLine submission), .follows duel submission]
  /-- The signal has been raised. -/
  | unfollowed : Announces duel submission
      [.answers (sentLine submission), .barred, .answers (unfollowedLine submission)]

/-- What handing in the solution at `path` comes to for a player with the given standing: what is
done for it, and the result. -/
inductive HandsIn (venue : Venue σ) (path : String) (standing : Standing) :
    List Doing → Except Failure Int64 → Prop
  /-- There is nothing to hand in. -/
  | refused (why : Refusal) (h : Refuses venue.files standing path why) :
      HandsIn venue path standing [] (.error (.refused why))
  /-- The service gave no number. -/
  | failed (duel : Int64) (text : String) (language : Language)
      (h : Ready venue.files standing path duel text language) (ds : List Deed)
      (result : Except Failure Reply)
      (hasked : Asked venue.link.base (.submission duel text language) ds result) (e : Failure)
      (hresult : recordOf Grading.receipt? result = .error e) :
      HandsIn venue path standing (ds.map .deed) (.error e)
  /-- The submission has got a number. -/
  | numbered (duel : Int64) (text : String) (language : Language)
      (h : Ready venue.files standing path duel text language) (ds : List Deed)
      (result : Except Failure Reply)
      (hasked : Asked venue.link.base (.submission duel text language) ds result)
      (submission : Int64) (hresult : recordOf Grading.receipt? result = .ok submission)
      (rest : List Doing) (hrest : Announces duel submission rest) :
      HandsIn venue path standing (ds.map .deed ++ rest) (.ok submission)

namespace Errand

/-- What is done in the world is done to the session, of which `I` holds throughout. -/
lemma does_placed {δ : Type} {link : Link σ} {rely : Session σ → Session σ → Prop}
    {leads : Session σ → List δ → Session σ → Prop} {f : Deed → δ}
    (hleads : ∀ s ds w, Deed.Leads link (Session.world s) ds w → leads s (ds.map f) (s.placed w))
    {I : Session σ → Prop} (hplaced : ∀ t w, I t → I (t.placed w))
    (hrely : ∀ t u, I t → rely t u → I u) {e : Errand (World σ) α}
    {post : List Deed → α → Prop} {s : Session σ} (hs : I s)
    (h : (e s.world).Does (fun _ _ => True) (Deed.Leads link) (fun ds a _ => post ds a) []
      s.world) :
    ((liftM e : Errand (Session σ) α) s).Does rely leads
      (fun ds a t => (∃ deeds, ds = deeds.map f ∧ post deeds a) ∧ I t) [] s := by
  -- the induction is on what is left of the errand, in any session that `I` holds of
  suffices hwithin : ∀ (p : Progress (World σ) α) (ds : List Deed) (s : Session σ), I s →
      p.Does (fun _ _ => True) (Deed.Leads link) (fun ds a _ => post ds a) ds s.world →
      (p.within Session.world Session.placed s).Does rely leads
        (fun ds a t => (∃ deeds, ds = deeds.map f ∧ post deeds a) ∧ I t) (ds.map f) s from
    hwithin (e s.world) [] s hs h
  clear h hs s
  intro p
  induction p with
  | done a w =>
    intro ds s hs h
    obtain ⟨rfl, hpost⟩ := h
    exact ⟨rfl, ⟨ds, rfl, hpost⟩, hs⟩
  | going w next ih =>
    intro ds s hs h
    obtain ⟨new, hnew, hnext⟩ := h
    refine ⟨new.map f, hleads s new w hnew, fun t ht => ?_⟩
    rw [← List.map_append]
    exact ih t.world (ds ++ new) t (hrely _ t (hplaced s w hs) ht) (hnext t.world trivial)
  | waiting w resume ih =>
    intro ds s hs h
    obtain ⟨new, hnew, hresume⟩ := h
    refine ⟨new.map f, hleads s new w hnew, fun c t ht => ?_⟩
    rw [← List.map_append]
    exact ih c t.world (ds ++ new) t (hrely _ t (hplaced s w hs) ht) (hresume c t.world trivial)

/-- What is done in the world is done to the session, whatever others do. -/
lemma does_world {link : Link σ} {e : Errand (World σ) α} {post : List Deed → α → Prop}
    {s : Session σ}
    (h : (e s.world).Does (fun _ _ => True) (Deed.Leads link) (fun ds a _ => post ds a) []
      s.world) :
    ((liftM e : Errand (Session σ) α) s).Does (fun _ _ => True) (Doing.Leads link)
      (fun ds a _ => ∃ deeds, ds = deeds.map .deed ∧ post deeds a) [] s := by
  have hplaced : ((liftM e : Errand (Session σ) α) s).Does (fun _ _ => True) (Doing.Leads link)
      (fun ds a _ => (∃ deeds, ds = deeds.map .deed ∧ post deeds a) ∧ True) [] s :=
    does_placed (fun s _ _ hw => .deeds s hw) (fun _ _ _ => trivial) (fun _ _ _ _ => trivial)
      trivial h
  exact hplaced.imp fun _ _ _ hpost => hpost.1

end Errand

namespace Session

open Errand

/-- Once the signal is raised, no follower is started. -/
lemma follow_of_raised (link : Link σ) (duel submission : Int64) {s : Session σ}
    (h : s.crew.raised) : onCrew (Crew.follow link duel submission) s = (false, s) := by
  rw [onCrew, Crew.follow_of_raised link s.crew duel submission h]

/-- As long as the signal is not raised, a follower is started and put on the list. -/
lemma follow_of_free (link : Link σ) (duel submission : Int64) {s : Session σ}
    (h : s.crew.raised = false) : onCrew (Crew.follow link duel submission) s =
      (true, { s with crew := { s.crew with
        followers := s.crew.followers ++
          [.newcomer duel submission s.world.tokens.access] } }) := by
  rw [onCrew, Crew.follow_of_free link s.crew duel submission h, Follower.start_eq]
  rfl

variable (venue : Venue σ) (path : String) (s : Session σ)

/-- The steps of handing in, one after the other. Others may do anything between two of them, so
that what is known of the session at the beginning is of use for the first one only. -/
lemma does_handingIn :
    (handingIn venue path s).Does (fun _ _ => True) (Doing.Leads venue.link)
      (fun ds result _ => HandsIn venue path s.standing ds result) [] s := by
  refine does_lift_bind [] (.nothing s) fun t _ => ?_
  have hget : (MonadStateOf.get : Play σ (Session σ)) s = (s, s) := rfl
  rw [hget]
  obtain ⟨why, hrefuses⟩ | ⟨duel, text, language, hready⟩ :=
    refuses_or_ready venue.files s.standing path
  · rw [hrefuses.checkSolution_eq]
    exact does_pure (.refused why hrefuses)
  · rw [hready.checkSolution_eq]
    simp only
    refine does_bind (does_world (venue.link.does_handIn duel text language t.world))
      fun new result u h => ?_
    obtain ⟨ds, rfl, answer, hasked, rfl⟩ := h
    cases hresult : recordOf Grading.receipt? answer with
    | error e => exact does_pure (.failed duel text language hready ds answer hasked e hresult)
    | ok submission =>
      refine does_lift_bind [.answers (sentLine submission)] (.answers u _) fun v _ => ?_
      -- the signal may have been raised since the solution was sent
      by_cases hraised : v.crew.raised
      · have hfollow := follow_of_raised venue.link duel submission hraised
        refine does_lift_bind [.barred] ?_ fun x _ => ?_
        · rw [hfollow]
          exact .barred v hraised
        rw [hfollow]
        refine does_lift_bind [.answers (unfollowedLine submission)] (.answers x _) fun y _ => ?_
        refine does_pure ?_
        simp only [List.append_assoc]
        exact .numbered duel text language hready ds answer hasked submission hresult _ .unfollowed
      · have hfree : v.crew.raised = false := by simpa using hraised
        have hfollow := follow_of_free venue.link duel submission hfree
        refine does_lift_bind [.follows duel submission] ?_ fun x _ => ?_
        · rw [hfollow]
          exact .follows v duel submission hfree
        rw [hfollow]
        refine does_pure ?_
        simp only [List.append_assoc]
        exact .numbered duel text language hready ds answer hasked submission hresult _ .followed

variable {venue path s} {ds : List Doing} {result : Except Failure Int64} {t : Session σ}

/-- Whatever is handed in is sent once. -/
lemma sentOnce_of_handsIn (h : HandsIn venue path s.standing ds result) {duel : Int64}
    {text : String} {language : Language}
    (hready : Ready venue.files s.standing path duel text language) :
    SentOnce venue.link.base (.submission venue.link.base duel text language)
      (ds.filterMap Doing.exchange?) := by
  have hq (token : String) :
      ((Query.submission duel text language).carrying venue.link.base token).isRefresh
        venue.link.base = false := by
    rw [← Query.solution_eq_submission]
    exact Question.isRefresh_query venue.link.base token (.handIn duel text language)
  rw [← Query.carrying_submission]
  cases h with
  | refused why h => exact absurd hready h.not_ready
  | failed _ _ _ h deeds _ hasked =>
    obtain ⟨rfl, rfl, rfl⟩ := h.unique hready
    rw [List.filterMap_map]
    exact hasked.sentOnce hq
  | numbered _ _ _ h deeds _ hasked _ _ rest hrest =>
    obtain ⟨rfl, rfl, rfl⟩ := h.unique hready
    have hnone : rest.filterMap Doing.exchange? = [] := by cases hrest <;> rfl
    rw [List.filterMap_append, List.filterMap_map, hnone, List.append_nil]
    exact hasked.sentOnce hq

variable (venue path s)

/-- What has become of the session `s` when the solution at `path` was handed in with nobody in
between. -/
structure HandedIn (result : Except Failure Int64) (t : Session σ) : Prop where
  /-- There is something to hand in, or it is said why not. -/
  decided : (∃ why, Refuses venue.files s.standing path why) ∨
    ∃ duel text language, Ready venue.files s.standing path duel text language
  /-- If there is nothing to hand in, nothing is done. -/
  refused : ∀ why, Refuses venue.files s.standing path why →
    result = .error (.refused why) ∧ t = s
  /-- If there is, it is sent once. -/
  sent : ∀ duel text language, Ready venue.files s.standing path duel text language →
    ∃ xs, t.world.exchanges = s.world.exchanges ++ xs ∧
      SentOnce venue.link.base (.submission venue.link.base duel text language) xs
  /-- Only the world and the followers are others. -/
  frame : t = { s with crew := { s.crew with
    world := t.world, followers := t.crew.followers } }
  /-- Without a number nothing is shown, and no follower is started. -/
  failed : ∀ e, result = .error e →
    t.crew.followers = s.crew.followers ∧ t.world.lines = s.world.lines
  /-- With a number it is shown, and a follower of the submission is started. -/
  followed : ∀ submission, result = .ok submission → s.crew.raised = false →
    t.world.lines = s.world.lines ++ [.say (sentLine submission)] ∧
    ∃ duel, s.standing.Accepts duel ∧ ∃ f, t.crew.followers = s.crew.followers ++ [f] ∧
      f.duel = duel ∧ f.submission = submission ∧ f.hasEnded = false
  /-- If the signal is raised none is started, and that is shown. -/
  unfollowed : ∀ submission, result = .ok submission → s.crew.raised →
    t.world.lines = s.world.lines ++
      [.say (sentLine submission), .say (unfollowedLine submission)] ∧
    t.crew.followers = s.crew.followers

variable {venue path s}

/-- What is done in handing in says what becomes of the session. -/
lemma HandedIn.of_handsIn (h : HandsIn venue path s.standing ds result)
    (ht : Doing.Leads venue.link s ds t) : HandedIn venue path s result t := by
  have hbecomes := ht.becomes
  have hlines := hbecomes.lines
  obtain ⟨new, hnew, hwho, hlive⟩ := hbecomes.followers
  have hsent (duel : Int64) (text : String) (language : Language)
      (hready : Ready venue.files s.standing path duel text language) :
      ∃ xs, t.world.exchanges = s.world.exchanges ++ xs ∧
        SentOnce venue.link.base (.submission venue.link.base duel text language) xs :=
    ⟨_, hbecomes.exchanges, sentOnce_of_handsIn h hready⟩
  have hdecided := refuses_or_ready venue.files s.standing path
  -- what was done tells in which of the three ways the solution went
  cases h with
  | refused why hrefuses =>
    obtain rfl := ht.eq_of_nil
    refine ⟨hdecided, fun why' h' => ⟨?_, rfl⟩, hsent, rfl, fun _ _ => ⟨rfl, rfl⟩,
      nofun, nofun⟩
    rw [hrefuses.unique h']
  | failed duel text language hready deeds answer hasked e hresult =>
    refine ⟨hdecided, fun why h' => absurd hready h'.not_ready, hsent, hbecomes.frame, ?_,
      nofun, nofun⟩
    intro e' _
    rw [Doing.filterMap_deed fun _ => rfl] at hlines hwho
    rw [List.append_nil] at hlines
    rw [List.map_eq_nil_iff.mp hwho, List.append_nil] at hnew
    exact ⟨hnew, hlines⟩
  | numbered duel text language hready deeds answer hasked submission hresult rest hrest =>
    refine ⟨hdecided, fun why h' => absurd hready h'.not_ready, hsent, hbecomes.frame, nofun,
      ?_, ?_⟩
    all_goals
      intro submission' hsubmission hsignal
      obtain rfl := Except.ok.inj hsubmission
      rw [List.filterMap_append, Doing.filterMap_deed fun _ => rfl, List.nil_append]
        at hlines hwho
    · cases hrest with
      | followed =>
        obtain ⟨f, rfl, hf⟩ := List.map_eq_singleton_iff.mp hwho
        obtain ⟨hduel, hsubmission⟩ := Prod.mk.inj hf
        exact ⟨hlines, duel, hready.accepts, f, hnew, hduel, hsubmission,
          hlive f List.mem_cons_self⟩
      | unfollowed =>
        -- nobody is followed just because the signal is raised, and here it is not
        cases hsignal.symm.trans (hbecomes.barred (by simp))
    · cases hrest with
      | followed =>
        -- the other way round, a follower was started and the signal is raised
        cases hsignal.symm.trans (hbecomes.free duel submission (by simp))
      | unfollowed =>
        rw [List.map_eq_nil_iff.mp hwho, List.append_nil] at hnew
        exact ⟨hlines, hnew⟩

/-- Handing in a solution, whatever the standing of the player, the path and the files. Among
others, whatever they do between two steps: it does what `HandsIn` says for the standing in which it
is begun, and a solution that there is to hand in is sent once. With nobody in between, whatever the
bodies are that had to be waited for: the session becomes what `HandedIn` says. -/
theorem hands_in_once (venue : Venue σ) (path : String) (s : Session σ) :
    (handingIn venue path s).Does (fun _ _ => True) (Doing.Leads venue.link)
      (fun ds result _ => HandsIn venue path s.standing ds result ∧
        ∀ duel text language, Ready venue.files s.standing path duel text language →
          SentOnce venue.link.base (.submission venue.link.base duel text language)
            (ds.filterMap Doing.exchange?)) [] s ∧
    ∀ c, HandedIn venue path s ((handingIn venue path).reading c s).1
      ((handingIn venue path).reading c s).2 := by
  have hdoes := does_handingIn venue path s
  refine ⟨?_, fun c => ?_⟩
  · exact Progress.Does.imp hdoes fun ds result t h =>
      ⟨h, fun duel text language hready => sentOnce_of_handsIn h hready⟩
  · obtain ⟨ds, hleads, hhandsIn⟩ := hdoes.drain (fun _ => trivial) (fun s => .nothing s)
      (fun _ _ _ _ _ h h' => .append h h') c
    exact .of_handsIn hhandsIn hleads

/-- A service that gives the number 5 to all that is handed in, and one file. -/
def lectern : Venue Unit where
  link := {
    base := ""
    answer := fun _ _ =>
      let body := Utf8.bytes "\x7b\"submission_id\":5\x7d"
      (.ok { status := 200, body := .whole { bytes := body } }, ()) }
  files := { entries := [({ names := ["a.PY"] }, .file (Utf8.bytes "print(1)"))] }

/-- The session of a player in a duel. -/
def duelling : Session Unit where
  crew := { world := { service := (), tokens := { access := "a1", refresh := "r1" } } }
  standing := {
    phase := .active
    duel := some { id := 7, opponent := none, task := none }
    active := true }

/-- The file is handed in once, as Python, and a follower is started. -/
theorem hands_in_once_lectern :
    Ready lectern.files duelling.standing "a.PY" 7 "print(1)" .python ∧
    ((handingIn lectern "a.PY").reading {} duelling).1 = .ok 5 ∧
    let t := ((handingIn lectern "a.PY").reading {} duelling).2
    t.world.exchanges.map (·.1.url) = ["/duels/7/submissions"] ∧
    (∀ x ∈ t.world.exchanges, x.1.json = some (.object [(some "language", .string (some "Python")),
      (some "solution", .string (some "print(1)"))])) ∧
    t.world.lines = [.say "Solution sent! Submission id: 5"] ∧
    ∃ f, t.crew.followers = [f] ∧ f.duel = 7 ∧ f.submission = 5 ∧ f.hasEnded = false := by
  have hready : Ready lectern.files duelling.standing "a.PY" 7 "print(1)" .python :=
    ⟨⟨rfl, rfl, rfl⟩, by decide +kernel, by decide +kernel⟩
  have hresult : ((handingIn lectern "a.PY").reading {} duelling).1 = .ok 5 := by decide +kernel
  have hurls : ((handingIn lectern "a.PY").reading {} duelling).2.world.exchanges.map (·.1.url) =
      ["/duels/7/submissions"] := by decide +kernel
  have h := (hands_in_once lectern "a.PY" duelling).2 {}
  obtain ⟨hlines, duel, hduel, f, hfollowers, rfl, hsubmission, hended⟩ :=
    h.followed 5 hresult rfl
  obtain ⟨xs, hxs, honce⟩ := h.sent 7 "print(1)" .python hready
  refine ⟨hready, hresult, hurls, fun x hx => ?_, hlines, f, hfollowers,
    (Option.some.inj hduel.duel).symm, hsubmission, hended⟩
  -- what was sent is no request for new tokens, so that it is a copy of the solution
  have hurl : x.1.url = "/duels/7/submissions" := by
    rw [← List.mem_singleton, ← hurls]
    exact List.mem_map_of_mem hx
  have hcopy : (x.1, isRefusal x.2) ∈ xs.filterMap (attempt? lectern.link.base) := by
    refine List.mem_filterMap.mpr ⟨x, by rwa [hxs] at hx, if_neg ?_⟩
    simp [Request.isRefresh, hurl, lectern]
  obtain ⟨token, htoken⟩ := honce.copies _ hcopy
  rw [htoken]
  rfl

end Session

end Duelist
