import Duelist.Proofs.CallSteps
import Duelist.Proofs.CrewSteps
import Duelist.Session.HandingIn
import Mathlib.Logic.Basic
/-!
# What the transcript does not decide

The client writes a transcript and never reads it. Whatever is done in two states that differ in
nothing else comes to the same in both, adds the same to both transcripts, and leads to two such
states again: it is `Blind`. This module says so of all that is done at once, from a line on the
display (`Act.blind_put`) and a step of a call (`Call.blind_step`) to what is done with the crew
(`Crew.blind_follow`, `Crew.blind_move`, `Crew.blind_raise`, `Crew.blind_join`).
-/

namespace Duelist

variable {σ τ α β : Type}

/-! ### States that are alike -/

/-- Two worlds that differ in their transcripts at most. -/
structure World.Alike (w w' : World σ) : Prop where
  /-- The service is the same. -/
  service : w'.service = w.service
  /-- So are the stored tokens. -/
  tokens : w'.tokens = w.tokens

/-- Two crews that differ in their transcripts at most. -/
structure Crew.Alike (crew crew' : Crew σ) : Prop where
  /-- The worlds are alike. -/
  world : crew.world.Alike crew'.world
  /-- The stop signal is the same. -/
  raised : crew'.raised = crew.raised
  /-- So are the followers. -/
  followers : crew'.followers = crew.followers
  /-- So is how many were waited for. -/
  joined : crew'.joined = crew.joined

/-- Two sessions that differ in their transcripts at most. -/
structure Session.Alike (s s' : Session σ) : Prop where
  /-- The crews are alike. -/
  crew : s.crew.Alike s'.crew
  /-- The standing is the same. -/
  standing : s'.standing = s.standing
  /-- So is who is to be told of the end. -/
  audience : s'.audience = s.audience
  /-- So is who was told, and what. -/
  told : s'.told = s.told

/-- States that hold a transcript. -/
class Transcribed (τ : Type) where
  /-- The transcript. -/
  transcript : τ → List Entry
  /-- Nothing but the transcripts differs. -/
  Alike : τ → τ → Prop

instance : Transcribed (World σ) where
  transcript w := w.transcript
  Alike := World.Alike

instance : Transcribed (Crew σ) where
  transcript crew := crew.world.transcript
  Alike := Crew.Alike

instance : Transcribed (Session σ) where
  transcript s := s.world.transcript
  Alike := Session.Alike

open Transcribed

/-- The states `s` and `s'` are alike, and what was added to the transcripts of `v` and `v'` on the
way is the same. -/
def AlikeSince [Transcribed τ] (v v' s s' : τ) : Prop :=
  Alike s s' ∧ ∃ new, transcript s = transcript v ++ new ∧ transcript s' = transcript v' ++ new

/-- Nothing is added to the transcripts. -/
lemma AlikeSince.frame [Transcribed τ] {v v' s s' : τ} (h : Alike s s')
    (hs : transcript s = transcript v) (hs' : transcript s' = transcript v') :
    AlikeSince v v' s s' :=
  ⟨h, [], by rw [hs, List.append_nil], by rw [hs', List.append_nil]⟩

/-- Nothing was added to the transcripts of two states that are alike. -/
lemma AlikeSince.refl [Transcribed τ] {s s' : τ} (h : Alike s s') : AlikeSince s s' s s' :=
  .frame h rfl rfl

/-- What was added in two stretches is the same if it is the same in each of them. -/
lemma AlikeSince.trans [Transcribed τ] {v v' s s' t t' : τ} (hs : AlikeSince v v' s s')
    (ht : AlikeSince s s' t t') : AlikeSince v v' t t' := by
  obtain ⟨-, new, hnew, hnew'⟩ := hs
  obtain ⟨halike, more, hmore, hmore'⟩ := ht
  refine ⟨halike, new ++ more, ?_, ?_⟩
  · rw [hmore, hnew, List.append_assoc]
  · rw [hmore', hnew', List.append_assoc]

/-! ### Blind acts -/

/-- Done in two states that are alike, the act comes to the same, adds the same to the transcripts,
and leads to two such states. -/
def Blind [Transcribed τ] (act : StateM τ α) : Prop :=
  ∀ s s', Alike s s' → (act s').1 = (act s).1 ∧ AlikeSince s s' (act s).2 (act s').2

namespace Blind

variable [Transcribed τ]

/-- To do nothing is blind to the transcript. -/
lemma pure (a : α) : Blind (Pure.pure a : StateM τ α) :=
  fun _ _ hs => ⟨rfl, .refl hs⟩

/-- One blind act after another is blind, too. -/
lemma bind {act : StateM τ β} (h : Blind act) {k : β → StateM τ α} (hk : ∀ b, Blind (k b)) :
    Blind (act >>= k) := by
  intro s s' hs
  obtain ⟨hresult, hsince⟩ := h s s' hs
  have hrest := hk (act s).1 _ _ hsince.1
  rw [show (act >>= k) s' = k (act s').1 (act s').2 from rfl, hresult]
  exact ⟨hrest.1, hsince.trans hrest.2⟩

end Blind

/-! ### In the world -/

namespace Act

/-- To show a line is blind to the lines before it. -/
lemma blind_put (line : Line) : Blind (put line : Act σ Unit) :=
  fun _ _ hw => ⟨rfl, ⟨hw.service, hw.tokens⟩, [.shown line], rfl, rfl⟩

/-- So it is to show several notices. -/
lemma blind_forM_notify (texts : List String) : Blind (texts.forM notify : Act σ Unit) := by
  induction texts with
  | nil => exact .pure _
  | cons text texts ih => exact (blind_put (.notify text)).bind fun _ => ih

/-- To read the tokens is blind, since they are no part of the transcript. -/
lemma blind_tokens : Blind (tokens : Act σ Tokens) :=
  fun _ _ hw => ⟨hw.tokens, .refl hw⟩

/-- To replace the tokens is blind for the same reason. -/
lemma blind_store (pair : Tokens) : Blind (store pair : Act σ Unit) :=
  fun _ _ hw => ⟨rfl, .frame (World.Alike.mk hw.service rfl) rfl rfl⟩

end Act

namespace Link

variable (link : Link σ)

/-- A request and its outcome depend on the service alone, and are noted in both transcripts. -/
lemma blind_exchange (request : Request) : Blind (link.exchange request) := by
  intro w w' hw
  have heq (w : World σ) :
      link.exchange request w = (link.outcome request w, link.asked request w) := rfl
  have houtcome : link.outcome request w' = link.outcome request w := by
    rw [outcome, outcome, hw.service]
  rw [heq, heq]
  refine ⟨houtcome, ⟨?_, hw.tokens⟩, [.sent request (link.outcome request w)], rfl, ?_⟩
  · exact congrArg (fun s => (link.answer request s).2) hw.service
  · rw [← houtcome]
    rfl

/-- To send a query with a token is blind. -/
lemma blind_send (q : Query) (token : String) : Blind (link.send q token) :=
  (link.blind_exchange _).bind fun _ => .pure _

/-- To send it without one is blind, too. -/
lemma blind_sendAnonymously (q : Query) : Blind (link.sendAnonymously q) :=
  (link.blind_exchange _).bind fun _ => .pure _

end Link

namespace Call

variable (link : Link σ) (c : Call)

/-- No step of a call looks at the transcript. -/
lemma blind_step : Blind (c.step link) := by
  cases c with
  | reading q => exact Act.blind_tokens.bind fun _ => .pure _
  | sending q used => exact (link.blind_send q used).bind fun _ => .pure _
  | refused q used => exact .pure _
  | deciding q used => exact Act.blind_tokens.bind fun _ => .pure _
  | refreshing q spent => exact (link.blind_sendAnonymously _).bind fun _ => .pure _
  | storing q pair => exact (Act.blind_store pair).bind fun _ => .pure _
  | retrying q fresh => exact (link.blind_send q fresh).bind fun _ => .pure _
  | finished result => exact .pure _

/-- Nor do several steps, made until the call is at rest. -/
lemma blind_settleWithin (n : ℕ) : Blind (c.settleWithin link n) := by
  induction n generalizing c with
  | zero => exact .pure c
  | succ n ih =>
    rw [settleWithin]
    split
    · exact .pure c
    · exact (blind_step link c).bind ih

/-- A whole call. -/
theorem blind_complete : Blind (c.complete link) := by
  induction hn : c.rank using Nat.strongRecOn generalizing c with
  | ind n ih =>
    by_cases hrank : c.rank = 0
    · obtain ⟨result, rfl⟩ := eq_finished_of_rank_le (Nat.le_of_eq hrank)
      exact .pure result
    · intro w w' hw
      obtain ⟨hd, hsince⟩ := blind_step link c w w' hw
      have hrest := ih _ (hn ▸ rank_step_lt link c w hrank) _ rfl _ _ hsince.1
      rw [complete_apply link c w, complete_apply link c w', hd]
      exact ⟨hrest.1, hsince.trans hrest.2⟩

end Call

namespace Follower

variable (link : Link σ) (f : Follower)

/-- What a follower tells of an answer depends on its memory, and not on what was shown. -/
lemma blind_hear (raised : Bool) (result : Except Failure Reply) :
    Blind (f.hear raised result : Act σ Follower) :=
  ((Act.blind_forM_notify _).bind fun _ => .pure _).bind fun _ => .pure _

/-- To go on to the next question is blind. -/
lemma blind_settle : Blind (f.settle link) := by
  rw [settle]
  cases f.pursuit with
  | ended => exact .pure f
  | asking c => exact (c.blind_settleWithin link _).bind fun _ => .pure _

/-- A move of a follower is blind. -/
lemma blind_move (raised : Bool) : Blind (f.move link raised) := by
  rw [move]
  cases f.pursuit with
  | ended => exact .pure f
  | asking c =>
    refine (c.blind_step link).bind fun d => (d.blind_settleWithin link _).bind fun e => ?_
    cases e with
    | finished result => exact (f.blind_hear raised result).bind fun g => g.blind_settle link
    | _ => exact .pure _

/-- So it is to conclude. -/
lemma blind_conclude : Blind (f.conclude link) := by
  rw [conclude]
  cases f.pursuit with
  | ended => exact .pure f
  | asking c => exact (c.blind_complete link).bind fun result => f.blind_hear true result

end Follower

/-! ### With the crew -/

namespace Crew

variable (link : Link σ)

/-- What is blind in the world is blind for the crew. -/
lemma blind_inWorld {act : Act σ α} (h : Blind act) : Blind (inWorld act) :=
  fun crew crew' hcrew =>
    have hact := h crew.world crew'.world hcrew.world
    ⟨hact.1, ⟨hact.2.1, hcrew.raised, hcrew.followers, hcrew.joined⟩, hact.2.2⟩

/-- Followers that conclude one after the other do not look at the transcript. -/
lemma blind_concludeFrom (hangs : ℕ → Bool) (n : ℕ) (fs : List Follower) :
    Blind (concludeFrom link hangs n fs) := by
  induction fs generalizing n with
  | nil => exact .pure _
  | cons f fs ih =>
    have hrest (g : Follower) : Blind (do return g :: (← concludeFrom link hangs (n + 1) fs)) :=
      (ih (n + 1)).bind fun _ => .pure _
    rw [concludeFrom]
    split
    · exact hrest f
    · exact (f.blind_conclude link).bind hrest

/-- Starting a follower. -/
theorem blind_follow (duel submission : Int64) : Blind (follow link duel submission) := by
  intro crew crew' hcrew
  cases hraised : crew.raised with
  | true =>
    rw [follow_of_raised link crew duel submission hraised,
      follow_of_raised link crew' duel submission (hcrew.raised.trans hraised)]
    exact ⟨rfl, .refl hcrew⟩
  | false =>
    rw [follow_of_free link crew duel submission hraised,
      follow_of_free link crew' duel submission (hcrew.raised.trans hraised)]
    obtain ⟨hf, hw, hnew⟩ := Follower.blind_settle link _ _ _ hcrew.world
    refine ⟨rfl, ⟨hw, hcrew.raised, ?_, hcrew.joined⟩, hnew⟩
    exact congrArg₂ (fun fs f => fs ++ [f]) hcrew.followers hf

/-- A move of a follower. -/
theorem blind_move (n : ℕ) : Blind (move link n) := by
  intro crew crew' hcrew
  rw [move_eq link crew, move_eq link crew', hcrew.followers, hcrew.raised]
  cases crew.followers[n]? with
  | none => exact ⟨rfl, .refl hcrew⟩
  | some f =>
    have hset (g : Follower) : Blind (modify fun crew : Crew σ =>
        { crew with followers := crew.followers.set n g }) := by
      intro crew crew' hcrew
      have hfollowers := congrArg (List.set · n g) hcrew.followers
      exact ⟨rfl, .frame (Crew.Alike.mk hcrew.world hcrew.raised hfollowers hcrew.joined) rfl rfl⟩
    dsimp only
    split
    · exact ⟨rfl, .refl hcrew⟩
    · have hmoves := (blind_inWorld (f.blind_move link crew.raised)).bind fun g =>
        (hset g).bind fun _ => .pure (if g.hasEnded then Moved.ended else Moved.asking)
      exact hmoves crew crew' hcrew

/-- Raising the stop signal. -/
theorem blind_raise (hangs : ℕ → Bool) : Blind (raise link hangs) := by
  intro crew crew' hcrew
  obtain ⟨world, raised, followers, joined⟩ := crew
  obtain ⟨world', raised', followers', joined'⟩ := crew'
  obtain ⟨hworld, -, rfl, hjoined⟩ := hcrew
  obtain ⟨hfs, hw, hnew⟩ := blind_concludeFrom link hangs 0 followers' world world' hworld
  exact ⟨rfl, ⟨hw, rfl, hfs, hjoined⟩, hnew⟩

/-- Waiting for the followers. -/
theorem blind_join : Blind (join : StateM (Crew σ) ℕ) := by
  intro crew crew' hcrew
  have hlength := congrArg List.length hcrew.followers
  refine ⟨?_, .frame (Crew.Alike.mk hcrew.world hcrew.raised hcrew.followers hlength) rfl rfl⟩
  exact congrArg₂ (fun n fs => (List.drop n fs).countP fun f => !f.hasEnded) hcrew.joined
    hcrew.followers

end Crew

/-! ### In the session -/

namespace Session

/-- What is blind for the crew is blind for the session. -/
lemma blind_onCrew {act : StateM (Crew σ) α} (h : Blind act) : Blind (onCrew act) :=
  fun s s' hs =>
    have hact := h s.crew s'.crew hs.crew
    ⟨hact.1, ⟨hact.2.1, hs.standing, hs.audience, hs.told⟩, hact.2.2⟩

/-- To show a line is blind in a session as it is in the world. -/
lemma blind_put (line : Line) : Blind (inWorld (Act.put line) : Play σ Unit) :=
  blind_onCrew (Crew.blind_inWorld (Act.blind_put line))

/-- To change the standing is blind: the standing is the same in both sessions. -/
lemma blind_restand (change : Standing → Standing) : Blind (restand change : Play σ Unit) :=
  fun _ _ hs => ⟨rfl,
    .frame (Session.Alike.mk hs.crew (congrArg change hs.standing) hs.audience hs.told) rfl rfl⟩

/-- So it is to change the standing if that is possible. -/
lemma blind_attempt (change : Standing → Option Standing) :
    Blind (attempt change : Play σ Bool) := by
  intro s s' hs
  rw [attempt, attempt, hs.standing]
  cases change s.standing with
  | none => exact ⟨rfl, .refl hs⟩
  | some standing => exact ⟨rfl, .frame (Session.Alike.mk hs.crew rfl hs.audience hs.told) rfl rfl⟩

/-- To close the duel is blind. -/
lemma blind_closeDuel (result : Option DuelResult) :
    Blind (closeDuel result : Play σ (Option Duel)) :=
  fun _ _ hs => ⟨congrArg (Standing.outcome result) hs.standing,
    .frame (Session.Alike.mk hs.crew (congrArg Standing.close hs.standing) hs.audience hs.told)
      rfl rfl⟩

/-- To tell the audience is blind, since nothing of that is shown. -/
lemma blind_tell (closing : Closing) : Blind (tell closing : Play σ Unit) := by
  intro s s' hs
  refine ⟨rfl, ?_⟩
  obtain ⟨crew, standing, audience, told⟩ := s
  obtain ⟨crew', standing', audience', told'⟩ := s'
  obtain ⟨hcrew, rfl, rfl, rfl⟩ := hs
  cases audience' with
  | none => exact .frame (Session.Alike.mk hcrew rfl rfl rfl) rfl rfl
  | some audience => exact .frame (Session.Alike.mk hcrew rfl rfl rfl) rfl rfl

end Session
end Duelist
