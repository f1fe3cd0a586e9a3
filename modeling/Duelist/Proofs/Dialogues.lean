import Duelist.Proofs.Audience
import Duelist.Proofs.Mimicry
import Duelist.Prompt.Desk
/-!
# Dialogues

A prompt does what direct calls do. For each line that says so it hands in a solution, in order, and
leaves when the input ends (`Session.callingAll`, `Session.departing`). Apart from that it shows
lines.

The main statement is `Session.prompting_is_calling`. Its first half is about a prompt among others,
who may do anything between two steps: the prompt mimics the direct calls, and what it shows of its
own are the remarks on the commands, each followed by the prompt, and at last the farewell
(`Replies`). The second half is about a prompt that nobody disturbs. Then all that is on the display
has its place: first what a call shows, then the remark on it, then the prompt (`Session.Dialogue`).
-/

namespace Duelist

variable {σ β γ : Type}

open Transcribed

/-- What is done for two errands with nobody in between is done for the one and then for the other.
-/
lemma Errand.reading_bind_apply {τ : Type} (c : Content) (e : Errand τ β) (f : β → Errand τ γ)
    (s : τ) : (e >>= f).reading c s = (f (e.reading c s).1).reading c (e.reading c s).2 :=
  Errand.drain_andThen c f (e s)

/-! ### What the prompt says -/

/-- How it is told that a solution was not handed in. -/
inductive Failure.Notice : Failure → String → Prop
  /-- The client itself refused it. -/
  | refused (why : Refusal) : Notice (.refused why) ("Cannot submit: " ++ why.message)
  /-- The service did. -/
  | rejected (status : UInt16) (body : String) :
      Notice (.rejected status body) ("Submission rejected: " ++ toString status ++ " - " ++ body)
  /-- Anything else. -/
  | failed (e : Failure) (hrefused : ∀ why, e ≠ .refused why)
      (hrejected : ∀ status body, e ≠ .rejected status body) :
      Notice e ("Submission failed: " ++ e.message)

/-- What the prompt says to a command, after the call that was made for it, if there was one. -/
inductive Command.Remarks : Command → Option (Except Failure Int64) → List Line → Prop
  /-- Nothing to a blank line. -/
  | empty : Remarks .empty none []
  /-- One line if the path is missing. -/
  | usage : Remarks .usage none [.say "Usage: submit <path_to_file>"]
  /-- One line to what it does not know. -/
  | unknown (line : String) :
      Remarks (.unknown line) none [.say "Unknown command. Available commands: submit"]
  /-- Nothing more if the solution was handed in. -/
  | submitted (path : String) (submission : Int64) :
      Remarks (.submit path) (some (.ok submission)) []
  /-- One line if it was not. -/
  | failed (path : String) (e : Failure) (notice : String) (h : e.Notice notice) :
      Remarks (.submit path) (some (.error e)) [.say notice]

/-- What the prompt says to commands one after another, `results` being what the calls came to. -/
inductive Replies : List Command → List (Except Failure Int64) → List Line → Prop
  | nil : Replies [] [] []
  /-- A command for which there is no call. -/
  | quiet {command : Command} {commands : List Command} {results : List (Except Failure Int64)}
      {lines rest : List Line} (h : command.Remarks none lines)
      (hrest : Replies commands results rest) :
      Replies (command :: commands) results (lines ++ .prompt :: rest)
  /-- A command for which there is one. -/
  | called {command : Command} {commands : List Command} {result : Except Failure Int64}
      {results : List (Except Failure Int64)} {lines rest : List Line}
      (h : command.Remarks (some result) lines) (hrest : Replies commands results rest) :
      Replies (command :: commands) (result :: results) (lines ++ .prompt :: rest)

/-- The last that is shown. -/
def Exit.farewell : Exit → List Line
  | .inputClosed => [.say "\nLeaving..."]
  | .sessionOver _ => []

/-- The message upon which the prompt is left so. -/
def Exit.message : Exit → Message
  | .inputClosed => .closed
  | .sessionOver closing => .over closing

/-- The lines of the input up to the first one that is not UTF-8. -/
def Message.readable : List (List UInt8) → List String
  | [] => []
  | typed :: rest =>
    match Utf8.text? typed with
    | some text => text :: readable rest
    | none => []

/-- What the prompt says to a failure is a notice of that failure. -/
lemma Failure.notice_submitNotice (e : Failure) : e.Notice e.submitNotice := by
  cases e with
  | refused why => exact .refused why
  | rejected status body => exact .rejected status body
  | _ => exact .failed _ (fun _ h => by cases h) fun _ _ h => by cases h

namespace Session

variable (venue : Venue σ)

/-! ### The direct calls, and the prompt -/

/-- Hands in the solutions of all commands that say so, in order. -/
def callingAll : List Command → Errand (Session σ) (List (Except Failure Int64))
  | [] => return []
  | .submit path :: commands => do
    let result ← handingIn venue path
    let results ← callingAll commands
    return result :: results
  | _ :: commands => callingAll commands

/-- A command that hands nothing in makes no call. -/
lemma callingAll_quiet {command : Command} (h : ∀ path, command ≠ .submit path)
    (commands : List Command) :
    callingAll venue (command :: commands) = callingAll venue commands := by
  cases command with
  | submit path => exact absurd rfl (h path)
  | _ => rfl

/-- A command that hands in a solution makes a call, whose result comes before those of the later
calls. -/
lemma callingAll_submit_bind (path : String) (commands : List Command)
    (k : List (Except Failure Int64) → Errand (Session σ) β) :
    callingAll venue (.submit path :: commands) >>= k = (do
      let result ← handingIn venue path
      let results ← callingAll venue commands
      k (result :: results)) := by
  rw [callingAll, Errand.lawfulMonad.bind_assoc]
  congr 1
  funext result
  rw [Errand.lawfulMonad.bind_assoc]
  rfl

/-- Leaves if there is no more input. A session that is over has nothing to be left. -/
def departing : Exit → Errand (Session σ) Unit
  | .inputClosed => do let _ ← leaving venue
  | .sessionOver _ => return ()

/-- Takes messages in order, step by step, until one of them makes the prompt end. -/
def obeyingAll : List Message → Errand (Session σ) (Option Exit)
  | [] => return none
  | message :: messages => do
    match ← obeying venue message with
    | some exit => return some exit
    | none => obeyingAll messages

/-- With nobody in between the messages are taken at once. -/
lemma atOnce_obeyingAll (messages : List Message) :
    (obeyingAll venue messages).atOnce = obeyAll venue messages := by
  induction messages with
  | nil => rfl
  | cons message messages ih =>
    rw [obeyingAll, Errand.atOnce_bind, atOnce_obeying, obeyAll]
    congr 1
    funext exit
    cases exit with
    | none => exact ih
    | some exit => rfl

/-- A line that was typed is carried out, the prompt is shown again, and then come the other
messages. -/
lemma obeyingAll_line (text : String) (messages : List Message) :
    obeyingAll venue (.line text :: messages) = (do
      executing venue (.ofLine text)
      showPrompt (σ := σ)
      obeyingAll venue messages) := by
  rw [obeyingAll, obeying, Errand.lawfulMonad.bind_assoc]
  rfl

/-- Where the input ends, the prompt says so and leaves. What comes later is not looked at. -/
lemma obeyingAll_closed (messages : List Message) :
    obeyingAll venue (.closed :: messages) = (do
      say (σ := σ) "\nLeaving..."
      let _ ← leaving venue
      return some .inputClosed) := by
  rw [obeyingAll, obeying, Errand.lawfulMonad.bind_assoc]
  congr 1

/-- A line that is not UTF-8 is the end of the input. -/
lemma obeyingAll_ofLines (typed : List (List UInt8)) (more : List Message) :
    obeyingAll venue (Message.ofLines typed ++ .closed :: more) =
      obeyingAll venue ((Message.readable typed).map .line ++ .closed :: more) := by
  induction typed with
  | nil => rfl
  | cons line rest ih =>
    rw [Message.ofLines, Message.readable]
    cases Utf8.text? line with
    | some text =>
      simp only [List.cons_append, List.map_cons]
      rw [obeyingAll_line, obeyingAll_line, ih]
    | none =>
      simp only [List.cons_append, List.map_nil, List.nil_append]
      rw [obeyingAll_closed, obeyingAll_closed]

/-- To show a line leaves the session as it is but for the display. -/
lemma alike_put (line : Line) {s s' : Session σ} (hs : s.Alike s') :
    s.Alike (inWorld (Act.put line) s').2 :=
  ⟨⟨⟨hs.crew.world.service, hs.crew.world.tokens⟩, hs.crew.raised, hs.crew.followers,
    hs.crew.joined⟩, hs.standing, hs.audience, hs.told⟩

/-! ### Among others -/

section

variable {said : List Line} {R : List Line → β → γ → Prop} {e : Errand (Session σ) β}
  {k' : Unit → Errand (Session σ) γ}

/-- The prompt shows a line. -/
lemma mimics_put (line : Line) (h : Errand.Mimics (said ++ [line]) R e (k' ())) :
    Errand.Mimics said R e
      ((liftM (inWorld (Act.put line) : Play σ Unit) : Errand (Session σ) Unit) >>= k') :=
  .shown (fun _ _ ht => alike_put line ht) (fun _ => rfl) fun _ => h

/-- To a command without a call the prompt makes its remark. -/
lemma mimics_executing (command : Command) (hcommand : ∀ path, command ≠ .submit path)
    (h : ∀ lines, command.Remarks none lines → Errand.Mimics (said ++ lines) R e (k' ())) :
    Errand.Mimics said R e (executing venue command >>= k') := by
  cases command with
  | submit path => exact absurd rfl (hcommand path)
  | usage => exact mimics_put _ (h _ .usage)
  | unknown line => exact mimics_put _ (h _ (.unknown line))
  | empty =>
    have hnone (t : Session σ) :
        transcript t = transcript t ++ ([] : List Line).map Entry.shown := (List.append_nil _).symm
    exact .shown (fun _ _ ht => ht) hnone fun _ => h _ .empty

/-- To a solution the prompt makes its remark once the call has been made. -/
lemma mimics_executing_submit (path : String) {k : Except Failure Int64 → Errand (Session σ) β}
    (h : ∀ result lines, (Command.submit path).Remarks (some result) lines →
      Errand.Mimics (said ++ lines) R (k result) (k' ())) :
    Errand.Mimics said R (handingIn venue path >>= k) (executing venue (.submit path) >>= k') := by
  rw [executing, Errand.lawfulMonad.bind_assoc]
  refine (blind_handingIn venue path said).bind fun said' result result' hresult => ?_
  obtain ⟨rfl, rfl⟩ := hresult
  cases result' with
  | ok submission =>
    have hsilent := h _ _ (.submitted path submission)
    rwa [List.append_nil] at hsilent
  | error e => exact mimics_put _ (h _ _ (.failed path e _ e.notice_submitNotice))

/-- Line by line the prompt mimics the direct calls, and goes on to what comes after the lines. -/
theorem mimics_lines (texts : List String) (messages : List Message) {said : List Line}
    {R : List Line → β → Option Exit → Prop}
    {k : List (Except Failure Int64) → Errand (Session σ) β}
    (h : ∀ results replies, Replies (texts.map .ofLine) results replies →
      Errand.Mimics (said ++ replies) R (k results) (obeyingAll venue messages)) :
    Errand.Mimics said R (callingAll venue (texts.map .ofLine) >>= k)
      (obeyingAll venue (texts.map .line ++ messages)) := by
  induction texts generalizing said k with
  | nil =>
    have hend := h [] [] .nil
    rwa [List.append_nil] at hend
  | cons text texts ih =>
    -- after the remark on the first command: its prompt, and then the other lines
    have hrest {lines : List Line} {k : List (Except Failure Int64) → Errand (Session σ) β}
        (hk : ∀ results rest, Replies (texts.map .ofLine) results rest →
          Errand.Mimics (said ++ (lines ++ .prompt :: rest)) R (k results)
            (obeyingAll venue messages)) :
        Errand.Mimics (said ++ lines) R (callingAll venue (texts.map .ofLine) >>= k)
          (do showPrompt (σ := σ); obeyingAll venue (texts.map .line ++ messages)) := by
      refine mimics_put .prompt (ih fun results rest hreplies => ?_)
      have hmimics := hk results rest hreplies
      rwa [← List.append_assoc, List.append_cons] at hmimics
    rw [List.map_cons, List.map_cons, List.cons_append, obeyingAll_line]
    rw [List.map_cons] at h
    by_cases hcommand : ∃ path, Command.ofLine text = .submit path
    · obtain ⟨path, hpath⟩ := hcommand
      rw [hpath] at h ⊢
      rw [callingAll_submit_bind]
      refine mimics_executing_submit venue path fun result lines hremarks =>
        hrest fun results rest hrest => ?_
      exact h (result :: results) _ (.called hremarks hrest)
    · have hquiet := not_exists.mp hcommand
      rw [callingAll_quiet venue hquiet]
      refine mimics_executing venue _ hquiet fun lines hremarks =>
        hrest fun results rest hrest => ?_
      exact h results _ (.quiet hremarks hrest)

/-- Whoever leaves the prompt shows the farewell, and does no more than the direct calls do. -/
lemma mimics_departing (exit : Exit) (messages : List Message) {said : List Line}
    {R : List Line → β → Option Exit → Prop} {b : β} (h : R (said ++ exit.farewell) b (some exit)) :
    Errand.Mimics said R (do departing venue exit; return b)
      (obeyingAll venue (exit.message :: messages)) := by
  cases exit with
  | sessionOver closing =>
    rw [Exit.farewell, List.append_nil] at h
    exact .pure h
  | inputClosed =>
    rw [Exit.message, obeyingAll_closed, departing, Errand.lawfulMonad.bind_assoc]
    refine mimics_put _ ((blind_leaving venue _).bind fun said' n n' hn => .pure ?_)
    rw [hn.1]
    exact h

end

/-! ### Alone -/

/-- What is added to the display when commands are carried out one after another, and nothing
between: what the call for a command shows and sends, if there is one, then the remark on it, then
the prompt. The calls are made in a session of their own, and lead from its first state to its
last. -/
inductive Dialogue (c : Content) : Session σ → List Command → Session σ → List Entry → Prop
  | nil (s : Session σ) : Dialogue c s [] s []
  /-- A command for which there is no call. -/
  | quiet {s t : Session σ} {command : Command} {commands : List Command} {lines : List Line}
      {rest : List Entry} (h : command.Remarks none lines) (hrest : Dialogue c s commands t rest) :
      Dialogue c s (command :: commands) t (lines.map .shown ++ .shown .prompt :: rest)
  /-- A command for which there is one. -/
  | called {s t u : Session σ} {path : String} {commands : List Command}
      {result : Except Failure Int64} {lines : List Line} {new rest : List Entry}
      (hcall : (handingIn venue path).reading c s = (result, t))
      (hnew : transcript t = transcript s ++ new)
      (h : (Command.submit path).Remarks (some result) lines)
      (hrest : Dialogue c t commands u rest) :
      Dialogue c s (.submit path :: commands) u
        (new ++ lines.map .shown ++ .shown .prompt :: rest)

variable (c : Content) {s s' : Session σ}

/-- A command that makes no call shows its remark and does nothing else. -/
lemma reading_executing {command : Command} (hcommand : ∀ path, command ≠ .submit path)
    (hs : Alike s s') :
    ∃ lines, command.Remarks none lines ∧
      Alike s ((executing venue command).reading c s').2 ∧
      transcript ((executing venue command).reading c s').2 =
        transcript s' ++ lines.map .shown := by
  cases command with
  | submit path => exact absurd rfl (hcommand path)
  | usage => exact ⟨_, .usage, alike_put _ hs, rfl⟩
  | unknown line => exact ⟨_, .unknown line, alike_put _ hs, rfl⟩
  | empty => exact ⟨[], .empty, hs, (List.append_nil _).symm⟩

/-- A command that makes a call does what the call does, and then shows its remark on the result. -/
lemma reading_executing_submit (path : String) (hs : Alike s s') :
    let p := (handingIn venue path).reading c s
    let t' := ((executing venue (.submit path)).reading c s').2
    ∃ new lines, (Command.submit path).Remarks (some p.1) lines ∧
      transcript p.2 = transcript s ++ new ∧ Alike p.2 t' ∧
      transcript t' = transcript s' ++ new ++ lines.map .shown := by
  intro p t'
  obtain ⟨hresult, halike, new, hnew, hnew'⟩ := (blind_handingIn venue path).reading c s s' hs
  have ht' : t' = _ := congrArg Prod.snd (Errand.reading_bind_apply c (handingIn venue path) _ s')
  rw [hresult] at ht'
  cases hp : p.1 with
  | ok submission =>
    rw [hp] at ht'
    refine ⟨new, [], .submitted path submission, hnew, ht' ▸ halike, ?_⟩
    rw [ht', List.map_nil, List.append_nil]
    exact hnew'
  | error e =>
    rw [hp] at ht'
    refine ⟨new, _, .failed path e _ e.notice_submitNotice, hnew, ht' ▸ alike_put _ halike, ?_⟩
    rw [ht', ← hnew']
    rfl

/-- Calls one after another lead to where the later ones lead from where the first one has led. -/
lemma reading_callingAll_submit (path : String) (commands : List Command) (s : Session σ) :
    ((callingAll venue (.submit path :: commands)).reading c s).2 =
      ((callingAll venue commands).reading c ((handingIn venue path).reading c s).2).2 := by
  rw [callingAll, Errand.reading_bind_apply, Errand.reading_bind_apply]
  rfl

/-- Line by line, with nobody in between, the prompt adds a dialogue to the display, and goes on to
what comes after the lines. -/
theorem dialogue_lines (texts : List String) (messages : List Message) (hs : Alike s s') :
    let t := ((callingAll venue (texts.map .ofLine)).reading c s).2
    ∃ t' said, Alike t t' ∧ Dialogue venue c s (texts.map .ofLine) t said ∧
      transcript t' = transcript s' ++ said ∧
      (obeyingAll venue (texts.map .line ++ messages)).reading c s' =
        (obeyingAll venue messages).reading c t' := by
  induction texts generalizing s s' with
  | nil => exact ⟨s', [], hs, .nil s, (List.append_nil _).symm, rfl⟩
  | cons text texts ih =>
    rw [List.map_cons, List.map_cons, List.cons_append, obeyingAll_line, Errand.reading_bind_apply,
      Errand.reading_bind_apply]
    have hprompt (t : Session σ) :
        transcript (inWorld (Act.put .prompt) t).2 = transcript t ++ [.shown .prompt] := rfl
    -- only a solution that is handed in is a direct call; all other lines are but answered
    by_cases hcommand : ∃ path, Command.ofLine text = .submit path
    · obtain ⟨path, hpath⟩ := hcommand
      rw [hpath, reading_callingAll_submit]
      obtain ⟨new, lines, hremarks, hnew, halike, hlines⟩ :=
        reading_executing_submit venue c path hs
      obtain ⟨u', said, hu, hdialogue, hsaid, hgoes⟩ := ih (alike_put .prompt halike)
      refine ⟨u', _, hu, .called rfl hnew hremarks hdialogue, ?_, hgoes⟩
      rw [hsaid, hprompt, hlines]
      simp only [List.append_assoc, List.cons_append, List.nil_append]
    · have hquiet := not_exists.mp hcommand
      rw [callingAll_quiet venue hquiet]
      obtain ⟨lines, hremarks, halike, hlines⟩ := reading_executing venue c hquiet hs
      obtain ⟨u', said, hu, hdialogue, hsaid, hgoes⟩ := ih (alike_put .prompt halike)
      refine ⟨u', _, hu, .quiet hremarks hdialogue, ?_, hgoes⟩
      rw [hsaid, hprompt, hlines]
      simp only [List.append_assoc, List.cons_append, List.nil_append]

/-- The same for whoever leaves the prompt. -/
lemma reading_departing (exit : Exit) (messages : List Message) (hs : Alike s s') :
    let gone := (departing venue exit).reading c s
    let left := (obeyingAll venue (exit.message :: messages)).reading c s'
    left.1 = some exit ∧ Alike gone.2 left.2 ∧
      ∃ parting, transcript gone.2 = transcript s ++ parting ∧
        transcript left.2 = transcript s' ++ exit.farewell.map .shown ++ parting := by
  cases exit with
  | sessionOver closing =>
    refine ⟨rfl, hs, [], (List.append_nil _).symm, ?_⟩
    rw [Exit.farewell, List.map_nil, List.append_nil, List.append_nil]
    rfl
  | inputClosed =>
    rw [Exit.message, obeyingAll_closed]
    obtain ⟨-, halike, parting, hgone, hleft⟩ :=
      (blind_leaving venue).reading c s _ (alike_put (.say "\nLeaving...") hs)
    exact ⟨rfl, halike, parting, hgone, hleft⟩

/-- Lines that were shown are no exchanges. -/
lemma filterMap_shown_append (lines : List Line) (entries : List Entry) :
    (lines.map Entry.shown ++ entries).filterMap Entry.exchange? =
      entries.filterMap Entry.exchange? := by
  induction lines with
  | nil => rfl
  | cons line lines ih => exact ih

/-- What was sent is told by what was added to the transcript. -/
lemma exchanges_of_transcript {new : List Entry}
    (h : transcript s' = transcript s ++ new) :
    s'.world.exchanges = s.world.exchanges ++ new.filterMap Entry.exchange? := by
  rw [World.exchanges, World.exchanges, ← List.filterMap_append]
  exact congrArg (List.filterMap Entry.exchange?) h

variable {venue c} in
/-- What is sent in a dialogue is what the calls send. -/
lemma Dialogue.exchanges_eq {t : Session σ} {commands : List Command} {said : List Entry}
    (h : Dialogue venue c s commands t said) :
    t.world.exchanges = s.world.exchanges ++ said.filterMap Entry.exchange? := by
  induction h with
  | nil s => exact (List.append_nil _).symm
  | quiet h _ ih =>
    rw [ih, filterMap_shown_append]
    rfl
  | called hcall hnew h _ ih =>
    rw [ih, exchanges_of_transcript hnew, List.append_assoc, List.append_assoc,
      List.filterMap_append, filterMap_shown_append]
    rfl

/-! ### The prompt is the direct calls -/

/-- A prompt that takes the lines `texts` and is then left does what direct calls do: the solutions
are handed in, in order, and if the input has come to its end, the session is left. What comes after
that is not looked at. A line that is not UTF-8 is an end of the input.

Among others the prompt mimics the calls, and shows the replies to the commands and the farewell.
The others, be it a follower that makes a move or the event stream, do not see the difference
either. With nobody in between, both lead to sessions that differ in their transcripts at most. To
the transcript the prompt adds itself, the dialogue, the farewell, and what the last call adds. -/
theorem prompting_is_calling (number : ℕ) (texts : List String) (exit : Exit)
    (more : List Message) :
    let commands := texts.map Command.ofLine
    let messages := texts.map Message.line ++ exit.message :: more
    let calling := (do
      let results ← callingAll venue commands
      departing venue exit
      return results : Errand (Session σ) (List (Except Failure Int64)))
    (obeyingAll venue messages).atOnce = obeyAll venue messages ∧
    (∀ typed, obeyingAll venue (Message.ofLines typed ++ .closed :: more) =
      obeyingAll venue ((Message.readable typed).map .line ++ .closed :: more)) ∧
    Errand.Mimics [.prompt] (fun said results left => left = some exit ∧
        ∃ replies, Replies commands results replies ∧ said = .prompt :: replies ++ exit.farewell)
      calling (obeyingAll venue messages) ∧
    (∀ n, Blind (onCrew (Crew.move venue.link n) : Play σ Crew.Moved)) ∧
    (∀ e, Errand.Blind (take venue e)) ∧
    ∀ (c : Content) (s : Session σ),
      let start := { s with audience := some (.prompt number) }
      let opened := (openPrompt number s).2
      let called := (callingAll venue commands).reading c start
      let gone := (departing venue exit).reading c called.2
      let left := (obeyingAll venue messages).reading c opened
      (start.Alike opened ∧ transcript opened = transcript s ++ [.shown .prompt]) ∧
      left.1 = some exit ∧ gone.2.Alike left.2 ∧
      left.2.world.exchanges = gone.2.world.exchanges ∧
      ∃ said parting, Dialogue venue c start commands called.2 said ∧
        transcript gone.2 = transcript called.2 ++ parting ∧
        transcript left.2 =
          transcript s ++ .shown .prompt :: said ++ exit.farewell.map .shown ++ parting := by
  intro commands messages calling
  refine ⟨atOnce_obeyingAll venue _, fun typed => obeyingAll_ofLines venue typed more, ?_,
    fun n => blind_onCrew (Crew.blind_move venue.link n), blind_take venue, ?_⟩
  · exact mimics_lines venue texts _ fun results replies hreplies =>
      mimics_departing venue exit more ⟨rfl, replies, hreplies, rfl⟩
  · intro c s start opened called gone left
    have hopened : start.Alike opened := ⟨⟨⟨rfl, rfl⟩, rfl, rfl, rfl⟩, rfl, rfl, rfl⟩
    obtain ⟨t', said, ht, hdialogue, hsaid, hleft⟩ :=
      dialogue_lines venue c texts (exit.message :: more) hopened
    obtain ⟨hexit, halike, parting, hgone, hparting⟩ := reading_departing venue c exit more ht
    rw [← hleft] at hexit halike hparting
    have htranscript : transcript left.2 =
        transcript s ++ .shown .prompt :: said ++ exit.farewell.map .shown ++ parting := by
      rw [hparting, hsaid, List.append_cons]
      rfl
    have hexchanges : left.2.world.exchanges = gone.2.world.exchanges := by
      have hadded : transcript left.2 = transcript start ++ ([Line.prompt].map .shown ++
          (said ++ (exit.farewell.map .shown ++ parting))) := by
        rw [htranscript, List.append_assoc, List.append_assoc, List.cons_append]
        rfl
      -- the lines that the prompt adds are shown, and nothing is sent by them
      rw [exchanges_of_transcript hadded, exchanges_of_transcript hgone, hdialogue.exchanges_eq,
        filterMap_shown_append, List.filterMap_append, filterMap_shown_append, List.append_assoc]
    exact ⟨⟨hopened, rfl⟩, hexit, halike, hexchanges, said, parting, hdialogue, hgone, htranscript⟩

end Session
end Duelist
