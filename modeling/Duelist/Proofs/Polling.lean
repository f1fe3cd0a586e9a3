import Duelist.Proofs.TokenPairs
import Mathlib.Data.List.Count
import Mathlib.Logic.Function.Basic
/-!
# Polling

Followers do not disturb each other. Several of them, of different submissions, are polled in some
order, at a service whose answer to a question about a submission depends only on its address and on
how often that was asked before, and which refuses no token (`GradingService`). Then what each
follower sends and shows, and where it is afterwards, depends only on how often it was polled
itself.

A follower has an `Outlook`: where it is, and how often its question was asked before. A poll takes
the outlook of the follower that is polled one step on, and leaves those of the others alone
(`GradingService.polled`). The main statement is `GradingService.polls_independent`. It is about any
session in which followers are ready to be polled, and `GradingService.ready_run` says that they are
in every session that can be reached, if they are of different submissions.
-/

namespace Duelist

variable {σ : Type}

/-! ### Addresses -/

/-- A number as it stands in an address: a minus if it is negative, and digits. -/
lemma toList_toString (n : Int64) : (toString n).toList =
    if 0 ≤ n.toInt then Nat.toDigits 10 n.toInt.toNat
    else '-' :: Nat.toDigits 10 (-n.toInt).toNat := by
  have h : toString n = n.toInt.repr := rfl
  rw [h, Int.repr_eq_if]
  split
  · rw [Nat.toList_repr]
  · rw [String.toList_append, Nat.toList_repr]
    rfl

/-- A number does not contain a slash. -/
lemma slash_not_mem_toString (n : Int64) : '/' ∉ (toString n).toList := by
  have hdigits (k : ℕ) : '/' ∉ Nat.toDigits 10 k := fun h =>
    absurd (Nat.isDigit_of_mem_toDigits (by decide) (by decide) h) (by decide)
  rw [toList_toString]
  split
  · exact hdigits _
  · rw [List.mem_cons, not_or]
    exact ⟨by decide, hdigits _⟩

/-- Different numbers are written differently. -/
lemma toString_injective : Function.Injective (toString : Int64 → String) := by
  have hdigits {k l : ℕ} (h : Nat.toDigits 10 k = Nat.toDigits 10 l) : k = l := by
    rw [← Nat.ofDigitChars_toDigits (b := 10) (n := k) (by decide) (by decide), h,
      Nat.ofDigitChars_toDigits (by decide) (by decide)]
  have hminus (k : ℕ) (l : List Char) : '-' :: l ≠ Nat.toDigits 10 k := fun h =>
    absurd (Nat.isDigit_of_mem_toDigits (by decide) (by decide) (h ▸ List.mem_cons_self))
      (by decide)
  intro m n h
  have hlist := congrArg String.toList h
  rw [toList_toString, toList_toString] at hlist
  refine Int64.toInt_inj.mp ?_
  split at hlist <;> split at hlist
  · have := hdigits hlist
    omega
  · exact absurd hlist.symm (hminus _ _)
  · exact absurd hlist (hminus _ _)
  · have := hdigits (List.cons.inj hlist).2
    omega

/-- What stands behind the last slash of a text is determined by it. -/
lemma eq_of_append_slash_append {xs ys as bs : List Char} (has : '/' ∉ as) (hbs : '/' ∉ bs)
    (h : xs ++ '/' :: as = ys ++ '/' :: bs) : as = bs := by
  have htake {zs cs : List Char} (hcs : '/' ∉ cs) :
      (zs ++ '/' :: cs).reverse.takeWhile (· ≠ '/') = cs.reverse := by
    rw [List.reverse_append, List.reverse_cons, List.append_assoc,
      List.takeWhile_append_of_pos fun c hc => by
        simpa using fun heq : c = '/' => hcs (heq ▸ List.mem_reverse.mp hc)]
    simp
  have hreverse := congrArg (fun zs => zs.reverse.takeWhile (· ≠ '/')) h
  simp only [htake has, htake hbs] at hreverse
  exact List.reverse_injective hreverse

/-- Questions about different submissions have different addresses. -/
lemma submission_eq_of_path_eq {duel duel' submission submission' : Int64}
    (h : (Query.grading duel submission).path = (Query.grading duel' submission').path) :
    submission = submission' := by
  have hpath (d n : Int64) : (Query.grading d n).path.toList =
      ("/duels/" ++ toString d ++ "/submissions").toList ++ '/' :: (toString n).toList := by
    have hgrading : (Query.grading d n).path =
        "/duels/" ++ toString d ++ "/submissions/" ++ toString n := rfl
    simp [hgrading]
  have hlist := congrArg String.toList h
  rw [hpath, hpath] at hlist
  refine toString_injective (String.toList_injective ?_)
  exact eq_of_append_slash_append (slash_not_mem_toString _) (slash_not_mem_toString _) hlist

/-! ### A service that grades -/

/-- True of a request that asks how the grading of a submission goes. -/
def Request.IsGrading (base : String) (r : Request) : Prop :=
  ∃ duel submission token, r = (Query.grading duel submission).carrying base token

/-- A service whose answer to a question about a submission depends only on its address and on how
often it was asked before, and which refuses no token. -/
structure GradingService (σ : Type) where
  /-- The way to the service. -/
  link : Link σ
  /-- How often an address was asked before. -/
  seen : σ → String → ℕ
  /-- The answer to a question that was asked so often before. -/
  reply : String → ℕ → Outcome
  /-- No token is refused. -/
  reply_ne {url : String} {n : ℕ} {a : Reply} (h : reply url n = .ok a) : a.status ≠ 401
  /-- So are questions answered. -/
  answer_eq {r : Request} (hr : r.IsGrading link.base) (s : σ) :
    (link.answer r s).1 = reply r.url (seen s r.url)
  /-- And so they are counted. -/
  seen_answer {r : Request} (hr : r.IsGrading link.base) (s : σ) :
    seen (link.answer r s).2 = Function.update (seen s) r.url (seen s r.url + 1)

/-- The token that the follower is about to send. -/
def Follower.token? (f : Follower) : Option String :=
  match f.pursuit with
  | .asking (.sending _ token) | .asking (.retrying _ token) => some token
  | _ => none

/-- What comes of a poll: what is told of the follower, and what it adds to the transcript. -/
structure Report where
  /-- What is told of the follower. -/
  moved : Crew.Moved
  /-- What it sends and shows. -/
  entries : List Entry

/-- All that the future of a follower depends on. -/
structure Outlook where
  /-- The follower. -/
  follower : Follower
  /-- How often its question was asked before; nothing once it has ended. -/
  asked : ℕ

namespace GradingService

variable (svc : GradingService σ)

/-- The address of the follower's question. -/
def url (f : Follower) : String :=
  svc.link.base ++ (Query.grading f.duel f.submission).path

/-- What comes of a poll, `access` being the stored access token, and the outlook afterwards. -/
def advance (raised : Bool) (access : String) (o : Outlook) : Report × Outlook :=
  match o.follower.token? with
  | none => (⟨.alreadyEnded, []⟩, o)
  | some token =>
    let f := o.follower
    let q := Query.grading f.duel f.submission
    let outcome := svc.reply (svc.url f) o.asked
    let answer := recordOf Grading.ofJson? (outcome.mapError .ofReasons)
    let entries := .sent (q.carrying svc.link.base token) outcome ::
      (f.memory.notices f.submission answer).map Entry.notice
    if isLastNews answer || raised then
      (⟨.ended, entries⟩, ⟨{ f with memory := f.memory.next answer, pursuit := .ended }, 0⟩)
    else
      (⟨.asking, entries⟩, ⟨{ f with
        memory := f.memory.next answer
        pursuit := .asking (.sending q access) }, o.asked + 1⟩)

/-- The answer to a question about a submission. -/
lemma outcome_eq (duel submission : Int64) (token : String) (w : World σ) :
    svc.link.outcome ((Query.grading duel submission).carrying svc.link.base token) w =
      svc.reply (svc.link.base ++ (Query.grading duel submission).path)
        (svc.seen w.service (svc.link.base ++ (Query.grading duel submission).path)) :=
  svc.answer_eq ⟨duel, submission, token, rfl⟩ w.service

/-- The question is sent once, and then the call is over. -/
lemma step_eq {f : Follower} {token : String} (hf : f.Asks token) (w : World σ) :
    let r := (Query.grading f.duel f.submission).carrying svc.link.base token
    ∃ c, f.pursuit = .asking c ∧ c.step svc.link w =
      (.finished ((svc.link.outcome r w).mapError .ofReasons), svc.link.asked r w) := by
  intro r
  rcases hf with hsending | hretrying
  · refine ⟨_, hsending, ?_⟩
    have hstep : (Call.sending (.grading f.duel f.submission) token).step svc.link w =
        (.answered (.grading f.duel f.submission) token
          (svc.link.send (.grading f.duel f.submission) token w).1,
          (svc.link.send (.grading f.duel f.submission) token w).2) := rfl
    rw [hstep, svc.link.send_apply]
    cases hout : svc.link.outcome r w with
    | error reasons => rfl
    | ok a =>
      have hne : a.status ≠ 401 := svc.reply_ne (hout ▸ (svc.outcome_eq ..).symm)
      have hauthorized : a.isUnauthorized = false := by simpa [Reply.isUnauthorized] using hne
      simp only [Except.mapError, Call.answered, hauthorized, Bool.false_eq_true, if_false]
      rfl
  · refine ⟨_, hretrying, ?_⟩
    have hstep : (Call.retrying (.grading f.duel f.submission) token).step svc.link w =
        (.finished (svc.link.send (.grading f.duel f.submission) token w).1,
          (svc.link.send (.grading f.duel f.submission) token w).2) := rfl
    rw [hstep, svc.link.send_apply]

/-- A follower that is about to ask has the token that goes with its question. -/
lemma token?_of_asks {f : Follower} {token : String} (hf : f.Asks token) :
    f.token? = some token := by
  rcases hf with h | h <;> rw [Follower.token?, h]

/-- A move of a follower that is about to send its question. -/
lemma move_eq {f : Follower} {token : String} (hf : f.Asks token) (raised : Bool) (w : World σ) :
    ∃ s, svc.seen s = Function.update (svc.seen w.service) (svc.url f)
        (svc.seen w.service (svc.url f) + 1) ∧
      let next := svc.advance raised w.tokens.access ⟨f, svc.seen w.service (svc.url f)⟩
      f.move svc.link raised w = (next.2.follower,
        { w with service := s, transcript := w.transcript ++ next.1.entries }) := by
  obtain ⟨c, hc, hstep⟩ := svc.step_eq hf w
  have hsettled : (c.step svc.link w).1.settle svc.link (c.step svc.link w).2 =
      c.step svc.link w := by
    rw [hstep]
    rfl
  replace hsettled := hsettled.trans hstep
  refine ⟨_, svc.seen_answer ⟨f.duel, f.submission, token, rfl⟩ w.service, ?_⟩
  intro next
  rw [Follower.move_heard svc.link raised hc hsettled, Follower.hear_eq]
  simp only [next, advance, token?_of_asks hf, ← svc.outcome_eq f.duel f.submission token w, url,
    Link.asked, List.append_assoc, List.singleton_append]
  split <;> rfl

/-! ### Sessions in which followers are polled -/

/-- All followers that have not ended are of different submissions. -/
def Distinct (s : Session σ) : Prop :=
  ∀ (m n : ℕ) (f g : Follower), m ≠ n →
    s.crew.followers[m]? = some f → s.crew.followers[n]? = some g →
    f.hasEnded = false → g.hasEnded = false → f.submission ≠ g.submission

/-- All followers that have not ended are about to send their questions, which are about different
submissions. -/
structure Ready (s : Session σ) : Prop where
  /-- They are about to send their questions. -/
  rests : s.Rests
  /-- The submissions are different. -/
  distinct : Distinct s

/-- In a session that has been reached in any way, followers are about to send their questions, so
nothing is asked of them but that the submissions are different. -/
theorem ready_run (venue : Venue σ) (service : σ) (tokens : Tokens) (moments : List Moment)
    (h : Distinct ((Business.begin service tokens).run venue moments).session) :
    Ready ((Business.begin service tokens).run venue moments).session where
  rests := ((Business.sound_begin venue.link.base service tokens).run venue moments).rests
  distinct := h

/-- The session once the follower numbered `n` has made a move. -/
def poll (s : Session σ) (n : ℕ) : Session σ :=
  (Session.onCrew (Crew.move svc.link n) s).2

/-- What comes of it when the follower numbered `n` makes a move. -/
def report (s : Session σ) (n : ℕ) : Report where
  moved := (Session.onCrew (Crew.move svc.link n) s).1
  entries := (svc.poll s n).world.transcript.drop s.world.transcript.length

/-- The session once the followers numbered `ns` have made their moves, one after the other. -/
def polls (s : Session σ) (ns : List ℕ) : Session σ :=
  ns.foldl svc.poll s

/-- What comes of it, for each poll with the number of the follower. -/
def reports : Session σ → List ℕ → List (ℕ × Report)
  | _, [] => []
  | s, n :: ns => (n, svc.report s n) :: reports (svc.poll s n) ns

/-- What came of the polls of the follower numbered `n`. -/
def reportsOf (n : ℕ) (reports : List (ℕ × Report)) : List Report :=
  reports.filterMap fun r => if r.1 = n then some r.2 else none

/-- The outlook of the follower numbered `n`. -/
def outlook (s : Session σ) (n : ℕ) : Option Outlook :=
  (s.crew.followers[n]?).map fun f =>
    ⟨f, if f.hasEnded then 0 else svc.seen s.world.service (svc.url f)⟩

/-- What a follower reports that has such an outlook. -/
def reportFrom (raised : Bool) (access : String) (o : Option Outlook) : Report :=
  o.elim ⟨.absent, []⟩ fun o => (svc.advance raised access o).1

/-- The outlook after a poll. -/
def next (raised : Bool) (access : String) (o : Option Outlook) : Option Outlook :=
  o.map fun o => (svc.advance raised access o).2

/-- All that polls leave alone is the same in both sessions. -/
structure Frame (s t : Session σ) : Prop where
  /-- The tokens. -/
  tokens : t.world.tokens = s.world.tokens
  /-- All but the world and the followers. -/
  rest : ∀ (w : World σ) (fs : List Follower),
    { t with crew := { t.crew with world := w, followers := fs } } =
      ({ s with crew := { s.crew with world := w, followers := fs } } : Session σ)

variable {svc}

/-- Whether the signal is raised is part of the frame. -/
lemma Frame.raised {s t : Session σ} (h : Frame s t) : t.crew.raised = s.crew.raised :=
  congrArg (·.crew.raised) (h.rest s.world [])

/-- What polls leave alone one after the other, they leave alone altogether. -/
lemma Frame.trans {s t u : Session σ} (h : Frame s t) (h' : Frame t u) : Frame s u where
  tokens := h'.tokens.trans h.tokens
  rest w fs := (h'.rest w fs).trans (h.rest w fs)

/-- A follower that has ended has nothing to send. -/
lemma advance_of_hasEnded {f : Follower} (h : f.hasEnded) (raised : Bool) (access : String)
    (k : ℕ) : svc.advance raised access ⟨f, k⟩ = (⟨.alreadyEnded, []⟩, ⟨f, k⟩) := by
  obtain ⟨duel, submission, memory, pursuit⟩ := f
  cases pursuit with
  | ended => rfl
  | asking c => cases h

/-- A poll, and what it does to the outlook of the follower. -/
structure Polled (svc : GradingService σ) (s : Session σ) (n : ℕ) : Prop where
  /-- The report is that of somebody with such an outlook. -/
  report_eq : svc.report s n =
    svc.reportFrom s.crew.raised s.world.tokens.access (svc.outlook s n)
  /-- What is reported is what is added to the transcript. -/
  transcript_eq : (svc.poll s n).world.transcript =
    s.world.transcript ++ (svc.report s n).entries
  /-- The outlook goes one step on, and those of the others stay. -/
  outlook_eq : ∀ m, svc.outlook (svc.poll s n) m =
    if m = n then svc.next s.crew.raised s.world.tokens.access (svc.outlook s n)
    else svc.outlook s m
  /-- All else stays. -/
  frame : Frame s (svc.poll s n)
  /-- The followers are ready again. -/
  ready : Ready (svc.poll s n)

variable (svc) in
/-- The report and the outlook of somebody who is about to send a question. -/
lemma advance_spec {f : Follower} {token : String} (hf : f.Asks token) (raised : Bool)
    (access : String) (k : ℕ) :
    let next := svc.advance raised access ⟨f, k⟩
    next.1.moved = (if next.2.follower.hasEnded then .ended else .asking) ∧
      next.2.asked = (if next.2.follower.hasEnded then 0 else k + 1) ∧
      next.2.follower.duel = f.duel ∧ next.2.follower.submission = f.submission := by
  intro next
  simp only [next, advance, token?_of_asks hf]
  split <;> exact ⟨rfl, rfl, rfl, rfl⟩

section

variable {s : Session σ} {n : ℕ}

/-- There is nobody to be polled. -/
lemma onCrew_move_of_eq_none (link : Link σ) (h : s.crew.followers[n]? = none) :
    Session.onCrew (Crew.move link n) s = (.absent, s) := by
  rw [Session.onCrew, Crew.move_eq, h]
  rfl

/-- Somebody is polled who has ended. -/
lemma onCrew_move_of_hasEnded (link : Link σ) {f : Follower} (hf : s.crew.followers[n]? = some f)
    (h : f.hasEnded) : Session.onCrew (Crew.move link n) s = (.alreadyEnded, s) := by
  rw [Session.onCrew, Crew.move_eq, hf]
  simp only [h]
  rfl

/-- Somebody is polled who has not ended. -/
lemma onCrew_move_of_not_hasEnded (link : Link σ) {f : Follower}
    (hf : s.crew.followers[n]? = some f) (h : f.hasEnded = false) :
    Session.onCrew (Crew.move link n) s =
      (if (f.move link s.crew.raised s.world).1.hasEnded then .ended else .asking,
        { s with crew := { s.crew with
          world := (f.move link s.crew.raised s.world).2
          followers := s.crew.followers.set n (f.move link s.crew.raised s.world).1 } }) := by
  rw [Session.onCrew, Crew.move_eq, hf]
  simp only [h]
  rfl

/-- Nothing happens to anybody. -/
lemma Polled.of_eq (hs : Ready s) {moved : Crew.Moved}
    (h : Session.onCrew (Crew.move svc.link n) s = (moved, s))
    (hreport : svc.reportFrom s.crew.raised s.world.tokens.access (svc.outlook s n) = ⟨moved, []⟩)
    (hnext : svc.next s.crew.raised s.world.tokens.access (svc.outlook s n) = svc.outlook s n) :
    Polled svc s n := by
  have hpoll : svc.poll s n = s := congrArg Prod.snd h
  have hreport' : svc.report s n = ⟨moved, []⟩ := by
    rw [report, hpoll, h, List.drop_length]
  refine ⟨hreport'.trans hreport.symm, ?_, fun m => ?_, ?_, hpoll.symm ▸ hs⟩
  · rw [hpoll, hreport', List.append_nil]
  · rw [hpoll]
    split
    next hm => rw [hm, hnext]
    next => rfl
  · rw [hpoll]
    exact ⟨rfl, fun _ _ => rfl⟩

/-- Running followers have different addresses. -/
lemma Ready.url_ne (hs : Ready s) {m : ℕ} {f g : Follower} (hmn : m ≠ n)
    (hg : s.crew.followers[m]? = some g) (hf : s.crew.followers[n]? = some f)
    (hgr : g.hasEnded = false) (hfr : f.hasEnded = false) : svc.url g ≠ svc.url f := by
  intro h
  have hlist := congrArg String.toList h
  rw [url, url, String.toList_append, String.toList_append] at hlist
  have hpath : (Query.grading g.duel g.submission).path =
      (Query.grading f.duel f.submission).path :=
    String.toList_injective (List.append_cancel_left hlist)
  exact hs.distinct m n g f hmn hg hf hgr hfr (submission_eq_of_path_eq hpath)

/-- The followers are ready when one of them was put back with its submission. -/
lemma Ready.of_set (hs : Ready s) {t : Session σ} {f f' : Follower}
    (hf : s.crew.followers[n]? = some f) (hfr : f.hasEnded = false)
    (ht : t.crew.followers = s.crew.followers.set n f') (hsubmission : f'.submission = f.submission)
    (hrests : f'.Rests) : Ready t := by
  -- whoever runs now ran before, at the same number and with the same submission
  have hbefore {m : ℕ} {g : Follower} (hg : t.crew.followers[m]? = some g)
      (hgr : g.hasEnded = false) : ∃ g', s.crew.followers[m]? = some g' ∧
        g'.hasEnded = false ∧ g'.submission = g.submission := by
    rw [ht] at hg
    by_cases hmn : n = m
    · subst hmn
      rw [List.getElem?_set_self (List.getElem?_eq_some_iff.mp hf).1] at hg
      obtain rfl := Option.some.inj hg
      exact ⟨f, hf, hfr, hsubmission.symm⟩
    · rw [List.getElem?_set_ne hmn] at hg
      exact ⟨g, hg, hgr, rfl⟩
  constructor
  · intro g hg
    rw [ht] at hg
    rcases List.mem_or_eq_of_mem_set hg with hmem | rfl
    · exact hs.rests g hmem
    · exact hrests
  · intro m k g g' hmk hg hg' hgr hgr'
    obtain ⟨h, hh, hhr, hhs⟩ := hbefore hg hgr
    obtain ⟨h', hh', hhr', hhs'⟩ := hbefore hg' hgr'
    rw [← hhs, ← hhs']
    exact hs.distinct m k h h' hmk hh hh' hhr hhr'

/-- Somebody is polled who is about to send a question. -/
lemma Polled.of_asks (hs : Ready s) {f : Follower} {token : String}
    (hf : s.crew.followers[n]? = some f) (hasks : f.Asks token) : Polled svc s n := by
  have hrunning : f.hasEnded = false := by
    rcases hasks with h | h <;> rw [Follower.hasEnded, h]
  have houtlook : svc.outlook s n = some ⟨f, svc.seen s.world.service (svc.url f)⟩ := by
    rw [outlook, hf, Option.map_some, hrunning, if_neg Bool.false_ne_true]
  obtain ⟨service, hseen, hmove⟩ := svc.move_eq hasks s.crew.raised s.world
  have hpolled := onCrew_move_of_not_hasEnded svc.link hf hrunning
  obtain ⟨hmoved, hasked, hduel, hsubmission⟩ := svc.advance_spec hasks s.crew.raised
    s.world.tokens.access (svc.seen s.world.service (svc.url f))
  have hnext := Follower.rests_move svc.link (.inr ⟨token, hasks⟩) s.crew.raised s.world
  rw [hmove] at hpolled hnext
  -- from here on the advance is taken apart into what is reported and what comes next
  generalize hadvance : svc.advance s.crew.raised s.world.tokens.access
    ⟨f, svc.seen s.world.service (svc.url f)⟩ = next at *
  obtain ⟨⟨moved, entries⟩, ⟨f', asked⟩⟩ := next
  dsimp only at hmoved hasked hduel hsubmission hnext hpolled
  rw [← hmoved] at hpolled
  have hpoll : svc.poll s n = _ := congrArg Prod.snd hpolled
  have hfollowers : (svc.poll s n).crew.followers = s.crew.followers.set n f' := by rw [hpoll]
  have hservice : (svc.poll s n).world.service = service := by rw [hpoll]; rfl
  have htranscript : (svc.poll s n).world.transcript = s.world.transcript ++ entries := by
    rw [hpoll]; rfl
  have hreport : svc.report s n = ⟨moved, entries⟩ := by
    rw [report, hpolled, htranscript, List.drop_left]
  refine ⟨?_, ?_, fun m => ?_, ?_, hs.of_set hf hrunning hfollowers hsubmission hnext⟩
  · rw [hreport, houtlook, reportFrom, Option.elim_some, hadvance]
  · rw [hreport, htranscript]
  · rw [outlook, hfollowers, hservice]
    split
    next hm =>
      subst hm
      have hurl : svc.url f' = svc.url f := by rw [url, url, hduel, hsubmission]
      rw [List.getElem?_set_self (List.getElem?_eq_some_iff.mp hf).1, Option.map_some, houtlook,
        GradingService.next, Option.map_some, hadvance, hasked, hurl, hseen, Function.update_self]
    next hm =>
      -- another follower asks at another URL, and its count stays as it is
      rw [List.getElem?_set_ne (Ne.symm hm), outlook]
      cases hg : s.crew.followers[m]? with
      | none => rfl
      | some g =>
        rw [Option.map_some, Option.map_some]
        cases hgr : g.hasEnded with
        | true => rfl
        | false =>
          rw [if_neg Bool.false_ne_true, if_neg Bool.false_ne_true, hseen,
            Function.update_of_ne (hs.url_ne hm hg hf hgr hrunning)]
  · rw [hpoll]
    exact ⟨rfl, fun _ _ => rfl⟩

variable (svc) in
/-- Whoever is polled, it happens to nobody else. -/
theorem polled (hs : Ready s) (n : ℕ) : Polled svc s n := by
  cases hf : s.crew.followers[n]? with
  | none =>
    have houtlook : svc.outlook s n = none := by rw [outlook, hf]; rfl
    refine .of_eq hs (onCrew_move_of_eq_none svc.link hf) ?_ ?_ <;> rw [houtlook] <;> rfl
  | some f =>
    rcases hs.rests f (List.mem_of_getElem? hf) with hended | ⟨token, hasks⟩
    · have houtlook : svc.outlook s n = some ⟨f, 0⟩ := by
        rw [outlook, hf, Option.map_some, if_pos hended]
      refine .of_eq hs (onCrew_move_of_hasEnded svc.link hf hended) ?_ ?_ <;> rw [houtlook]
      · exact congrArg Prod.fst (advance_of_hasEnded hended _ _ 0)
      · exact congrArg (fun next => some next.2) (advance_of_hasEnded hended _ _ 0)
    · exact .of_asks hs hf hasks

end

/-! ### Many polls -/

/-- A session is in its own frame. -/
lemma Frame.refl (s : Session σ) : Frame s s :=
  ⟨rfl, fun _ _ => rfl⟩

variable (svc) in
/-- What comes of so many polls of a follower that has such an outlook. -/
def reportsFrom (raised : Bool) (access : String) : ℕ → Option Outlook → List Report
  | 0, _ => []
  | k + 1, o =>
    svc.reportFrom raised access o :: reportsFrom raised access k (svc.next raised access o)

variable (svc) in
/-- Polls leave alone what a poll leaves alone, and the followers are ready again. -/
lemma frame_ready_polls {s : Session σ} (hs : Ready s) (ns : List ℕ) :
    Frame s (svc.polls s ns) ∧ Ready (svc.polls s ns) := by
  induction ns generalizing s with
  | nil => exact ⟨.refl s, hs⟩
  | cons n ns ih =>
    obtain ⟨hframe, hready⟩ := ih (polled svc hs n).ready
    exact ⟨(polled svc hs n).frame.trans hframe, hready⟩

/-- The outlook of a follower after some polls depends only on how often it was polled itself. -/
lemma outlook_polls {s : Session σ} (hs : Ready s) (ns : List ℕ) (m : ℕ) :
    svc.outlook (svc.polls s ns) m =
      (svc.next s.crew.raised s.world.tokens.access)^[ns.count m] (svc.outlook s m) := by
  induction ns generalizing s with
  | nil => rfl
  | cons n ns ih =>
    have h := polled svc hs n
    have hpolls : svc.polls s (n :: ns) = svc.polls (svc.poll s n) ns := rfl
    rw [hpolls, ih h.ready, h.frame.raised, h.frame.tokens, h.outlook_eq]
    split
    next hm => rw [hm, List.count_cons_self, Function.iterate_succ_apply]
    next hm => rw [List.count_cons_of_ne (Ne.symm hm)]

/-- A report of the follower itself is one of its reports. -/
lemma reportsOf_cons_self (n : ℕ) (r : Report) (rs : List (ℕ × Report)) :
    reportsOf n ((n, r) :: rs) = r :: reportsOf n rs := by
  simp [reportsOf]

/-- A report of another follower is none. -/
lemma reportsOf_cons_of_ne {m n : ℕ} (h : n ≠ m) (r : Report) (rs : List (ℕ × Report)) :
    reportsOf m ((n, r) :: rs) = reportsOf m rs := by
  simp [reportsOf, h]

/-- What a follower sends and shows during some polls depends only on how often it was polled
itself. -/
lemma reportsOf_reports {s : Session σ} (hs : Ready s) (ns : List ℕ) (m : ℕ) :
    reportsOf m (svc.reports s ns) =
      svc.reportsFrom s.crew.raised s.world.tokens.access (ns.count m) (svc.outlook s m) := by
  induction ns generalizing s with
  | nil => rfl
  | cons n ns ih =>
    have h := polled svc hs n
    have hrest := ih h.ready
    rw [h.frame.raised, h.frame.tokens, h.outlook_eq] at hrest
    rw [reports]
    by_cases hm : m = n
    · subst hm
      rw [if_pos rfl] at hrest
      rw [reportsOf_cons_self, hrest, h.report_eq, List.count_cons_self, reportsFrom]
    · rw [if_neg hm] at hrest
      rw [reportsOf_cons_of_ne (Ne.symm hm), hrest, List.count_cons_of_ne (Ne.symm hm)]

/-- What was sent and shown during some polls is what the followers report, one after the other. -/
lemma transcript_polls {s : Session σ} (hs : Ready s) (ns : List ℕ) :
    (svc.polls s ns).world.transcript =
      s.world.transcript ++ (svc.reports s ns).flatMap fun r => r.2.entries := by
  induction ns generalizing s with
  | nil => exact (List.append_nil _).symm
  | cons n ns ih =>
    have h := polled svc hs n
    have hpolls : svc.polls s (n :: ns) = svc.polls (svc.poll s n) ns := rfl
    rw [hpolls, ih h.ready, h.transcript_eq, reports, List.flatMap_cons, List.append_assoc]

/-- The same outlooks, the same followers. -/
lemma followers_eq_of_outlook_eq {s t : Session σ} (h : ∀ n, svc.outlook s n = svc.outlook t n) :
    s.crew.followers = t.crew.followers := by
  have hfollower (u : Session σ) (n : ℕ) :
      (svc.outlook u n).map Outlook.follower = u.crew.followers[n]? := by
    rw [outlook, Option.map_map]
    exact Option.map_id_apply'
  refine List.ext_getElem? fun n => ?_
  rw [← hfollower, ← hfollower, h]

/-- Followers of different submissions do not disturb each other. In whatever order they are polled,
so long as each is polled as often: each of them reports, sends and shows the same, poll by poll,
and is the same afterwards; the tokens are those from before, and all else in the session is the
same but for the service and the order in the transcript, which is made up of the reports. -/
theorem polls_independent (svc : GradingService σ) {s : Session σ} (hs : Ready s) {xs ys : List ℕ}
    (h : ∀ n, xs.count n = ys.count n) :
    (∀ n, reportsOf n (svc.reports s xs) = reportsOf n (svc.reports s ys)) ∧
      (∀ w, (svc.polls s xs).placed w = (svc.polls s ys).placed w) ∧
      ∀ ns ∈ [xs, ys], (svc.polls s ns).world.tokens = s.world.tokens ∧
        (svc.polls s ns).world.transcript =
          s.world.transcript ++ (svc.reports s ns).flatMap fun r => r.2.entries := by
  obtain ⟨hframe, -⟩ := frame_ready_polls svc hs xs
  obtain ⟨hframe', -⟩ := frame_ready_polls svc hs ys
  have houtlook (n : ℕ) : svc.outlook (svc.polls s xs) n = svc.outlook (svc.polls s ys) n := by
    rw [outlook_polls hs, outlook_polls hs, h]
  refine ⟨fun n => ?_, fun w => ?_, fun ns _ => ?_⟩
  · rw [reportsOf_reports hs, reportsOf_reports hs, h]
  · have hplaced (t : Session σ) : t.placed w =
        { t with crew := { t.crew with world := w, followers := t.crew.followers } } := rfl
    rw [hplaced, hplaced, followers_eq_of_outlook_eq houtlook, hframe.rest, hframe'.rest]
  · exact ⟨(frame_ready_polls svc hs ns).1.tokens, transcript_polls hs ns⟩

/-! ### Two followers -/

/-- What is answered to a question that was asked so often before: first a message, then a
verdict. -/
def verdictAfter (n : ℕ) : Outcome :=
  let text := if n = 0 then "[\"Running\",null,\"compiling\"]" else "[\"Done\",\"OK\",null]"
  .ok { status := 200, body := .whole { bytes := text.toUTF8.toList } }

/-- A service that remembers which addresses were asked, and gives a verdict when asked again. -/
def prompt : GradingService (List String) where
  link := { base := "", answer := fun r s => (verdictAfter (s.count r.url), r.url :: s) }
  seen s url := s.count url
  reply _ n := verdictAfter n
  reply_ne h := by
    cases h
    exact (by decide : (200 : UInt16) ≠ 401)
  answer_eq _ _ := rfl
  seen_answer {r} _ s := by
    funext url
    rw [Function.update_apply, List.count_cons]
    by_cases h : url = r.url
    · simp [h]
    · simp [h, Ne.symm h]

/-- A session in which two submissions of one duel are followed. -/
def twoFollowed : Session (List String) :=
  let s : Session (List String) := .begin [] { access := "a1", refresh := "r1" }
  let s := (Session.onCrew (Crew.follow prompt.link 7 1) s).2
  (Session.onCrew (Crew.follow prompt.link 7 2) s).2

/-- Both followers are about to ask, and they ask for different submissions. -/
lemma ready_twoFollowed : Ready twoFollowed := by
  have hfollowers : twoFollowed.crew.followers =
      [(Follower.start prompt.link 7 1 twoFollowed.world).1,
        (Follower.start prompt.link 7 2 twoFollowed.world).1] := rfl
  constructor
  · intro f hf
    rw [hfollowers] at hf
    simp only [List.mem_cons, List.not_mem_nil, or_false] at hf
    rcases hf with rfl | rfl
    · exact Follower.rests_start prompt.link 7 1 twoFollowed.world
    · exact Follower.rests_start prompt.link 7 2 twoFollowed.world
  · intro m n f g hmn hf hg _ _
    rw [hfollowers] at hf hg
    have hm := (List.getElem?_eq_some_iff.mp hf).1
    have hn := (List.getElem?_eq_some_iff.mp hg).1
    simp only [List.length_cons, List.length_nil] at hm hn
    have h : (m = 0 ∧ n = 1) ∨ (m = 1 ∧ n = 0) := by omega
    rcases h with ⟨rfl, rfl⟩ | ⟨rfl, rfl⟩ <;> cases hf <;> cases hg
    · exact (by decide : (1 : Int64) ≠ 2)
    · exact (by decide : (2 : Int64) ≠ 1)

/-- Each follower is polled equally often in both orders. -/
lemma count_swapped (n : ℕ) : [0, 1, 0].count n = [1, 0, 0].count n :=
  (List.Perm.swap 1 0 [0]).count_eq n

/-- Whether the one is polled first or the other. -/
theorem polls_independent_twoFollowed :
    Ready twoFollowed ∧ (∀ n, [0, 1, 0].count n = [1, 0, 0].count n) ∧
      (∀ n, reportsOf n (prompt.reports twoFollowed [0, 1, 0]) =
        reportsOf n (prompt.reports twoFollowed [1, 0, 0])) ∧
      (∀ w, (prompt.polls twoFollowed [0, 1, 0]).placed w =
        (prompt.polls twoFollowed [1, 0, 0]).placed w) ∧
      (prompt.reports twoFollowed [0, 1, 0]).map (fun r => (r.1, r.2.moved)) =
        [(0, .asking), (1, .asking), (0, .ended)] := by
  have h := prompt.polls_independent ready_twoFollowed count_swapped
  exact ⟨ready_twoFollowed, count_swapped, h.1, h.2.1, by decide +kernel⟩

end GradingService
end Duelist
