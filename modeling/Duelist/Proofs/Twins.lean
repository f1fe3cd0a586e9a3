import Duelist.Proofs.Bulletins
import Duelist.Proofs.Renaming
import Mathlib.Data.List.Forall2
/-!
# Twins

Two services that differ by the names of the tokens, and two players who use them.

Two services are `Twins` if they answer requests alike that differ by a renaming: a request for
tokens with a renamed pair, any other with the very same reply. What both players do in one step is
then `Parallel`: it leads from worlds that differ by the renaming to such worlds again
(`Twins.Worlds`). So it is with the steps of calls (`Twins.step`), with the moves of followers
(`Twins.moveFollower`) and with all that is done with a crew.
-/

namespace Duelist

variable {σ σ' τ τ' α α' β β' : Type}

/-! ### Lists side by side -/

section

variable {R : α → α' → Prop} {xs : List α} {ys : List α'}

/-- What stands at the same place in related lists is related. -/
lemma forall₂_getElem? (h : List.Forall₂ R xs ys) (n : ℕ) : Option.Rel R xs[n]? ys[n]? := by
  induction h generalizing n with
  | nil => exact .none
  | cons hxy _ ih =>
    cases n with
    | zero => exact .some hxy
    | succ n => exact ih n

/-- Related lists stay so when related elements are put at the same place. -/
lemma forall₂_set (h : List.Forall₂ R xs ys) (n : ℕ) {x : α} {y : α'} (hxy : R x y) :
    List.Forall₂ R (xs.set n x) (ys.set n y) := by
  induction h generalizing n with
  | nil => exact .nil
  | cons hab htail ih =>
    cases n with
    | zero => exact .cons hxy htail
    | succ n => exact .cons hab (ih n)

/-- Related lists stay so when the same place is taken out. -/
lemma forall₂_eraseIdx (h : List.Forall₂ R xs ys) (n : ℕ) :
    List.Forall₂ R (xs.eraseIdx n) (ys.eraseIdx n) := by
  induction h generalizing n with
  | nil => exact .nil
  | cons hab htail ih =>
    cases n with
    | zero => exact htail
    | succ n => exact .cons hab (ih n)

end

/-! ### Doing the same in two places -/

/-- Done in two states that `S` relates, two acts lead to two such states again, with results that
`R` relates. -/
def Parallel (S : τ → τ' → Prop) (R : α → α' → Prop) (act : StateM τ α) (act' : StateM τ' α') :
    Prop :=
  ∀ s s', S s s' → R (act s).1 (act' s').1 ∧ S (act s).2 (act' s').2

namespace Parallel

variable {S : τ → τ' → Prop} {R : α → α' → Prop}

/-- Acts that only give related results are in parallel. -/
lemma pure {a : α} {a' : α'} (h : R a a') :
    Parallel S R (Pure.pure a : StateM τ α) (Pure.pure a') :=
  fun _ _ hs => ⟨h, hs⟩

/-- If two acts are in parallel, and so is what comes after them for any related results, then so
are both together. -/
lemma bind {Q : β → β' → Prop} {act : StateM τ β} {act' : StateM τ' β'} {k : β → StateM τ α}
    {k' : β' → StateM τ' α'} (h : Parallel S Q act act')
    (hk : ∀ b b', Q b b' → Parallel S R (k b) (k' b')) : Parallel S R (act >>= k) (act' >>= k') :=
  fun s s' hs => hk _ _ (h s s' hs).1 _ _ (h s s' hs).2

end Parallel

/-! ### Twins -/

/-- Two services that differ by a renaming of the tokens. -/
structure Twins (σ σ' : Type) where
  /-- The renaming. -/
  names : Renaming
  /-- The way to the one. -/
  link : Link σ
  /-- The way to the other. -/
  link' : Link σ'
  /-- They have the same address. -/
  base_eq : link'.base = link.base
  /-- When they are in states that differ by the renaming. -/
  alike : σ → σ' → Prop
  /-- Requests that differ by the renaming are answered alike, and lead to such states again. -/
  answers {r r' : Request} {s : σ} {s' : σ'} (hr : names.Requests link.base r r')
    (hs : alike s s') : names.Outcomes link.base r (link.answer r s).1 (link'.answer r' s').1 ∧
      alike (link.answer r s).2 (link'.answer r' s').2

namespace Twins

variable (T : Twins σ σ')

/-- Two entries of the transcript that differ by the renaming. -/
inductive Entries : Entry → Entry → Prop
  | shown (line : Line) : Entries (.shown line) (.shown line)
  | sent (r r' : Request) (o o' : Outcome) (hr : T.names.Requests T.link.base r r')
      (ho : T.names.Outcomes T.link.base r o o') : Entries (.sent r o) (.sent r' o')

/-- Two worlds that differ by the renaming. -/
structure Worlds (w : World σ) (w' : World σ') : Prop where
  /-- The services. -/
  service : T.alike w.service w'.service
  /-- The stored tokens. -/
  tokens : w'.tokens = T.names.tokens w.tokens
  /-- The transcripts. -/
  transcript : List.Forall₂ T.Entries w.transcript w'.transcript

variable {T} in
/-- The same is shown, and what is sent differs by the renaming. -/
lemma entries_views {xs ys : List Entry} (h : List.Forall₂ T.Entries xs ys) :
    ys.filterMap Entry.line? = xs.filterMap Entry.line? ∧
      List.Forall₂ (fun x y : Request × Outcome => T.names.Requests T.link.base x.1 y.1)
        (xs.filterMap Entry.exchange?) (ys.filterMap Entry.exchange?) := by
  induction h with
  | nil => exact ⟨rfl, .nil⟩
  | cons hxy _ ih =>
    cases hxy with
    | shown line => exact ⟨congrArg (line :: ·) ih.1, ih.2⟩
    | sent r r' o o' hr ho => exact ⟨ih.1, .cons hr ih.2⟩

/-! ### One step in the world -/

/-- Both show the same line. -/
lemma put (line : Line) : Parallel T.Worlds Eq (Act.put line) (Act.put line) :=
  fun _ _ hw => ⟨rfl, hw.service, hw.tokens,
    List.rel_append hw.transcript (.cons (.shown line) .nil)⟩

/-- Both notify of the same texts. -/
lemma notifyAll (texts : List String) :
    Parallel T.Worlds Eq (texts.forM Act.notify) (texts.forM Act.notify) := by
  induction texts with
  | nil => exact .pure rfl
  | cons text texts ih => exact (T.put (.notify text)).bind fun _ _ _ => ih

/-- Both read their tokens, which differ by the renaming. -/
lemma tokens : Parallel T.Worlds (fun t t' => t' = T.names.tokens t) Act.tokens Act.tokens :=
  fun _ _ hw => ⟨hw.tokens, hw⟩

/-- Each stores its own pair. -/
lemma store (pair : Tokens) :
    Parallel T.Worlds Eq (Act.store pair) (Act.store (T.names.tokens pair)) :=
  fun _ _ hw => ⟨rfl, hw.service, rfl, hw.transcript⟩

/-- An exchange. -/
lemma asked {r r' : Request} (hr : T.names.Requests T.link.base r r') {w : World σ} {w' : World σ'}
    (hw : T.Worlds w w') :
    T.names.Outcomes T.link.base r (T.link.outcome r w) (T.link'.outcome r' w') ∧
      T.Worlds (T.link.asked r w) (T.link'.asked r' w') := by
  obtain ⟨ho, hs⟩ := T.answers hr hw.service
  exact ⟨ho, hs, hw.tokens, List.rel_append hw.transcript (.cons (.sent _ _ _ _ hr ho) .nil)⟩

/-- Whatever does not ask for tokens is answered the same. -/
lemma send {q : Query} (hq : q.IsPlain T.link.base) (token : String) :
    Parallel T.Worlds Eq (T.link.send q token) (T.link'.send q (T.names token)) := by
  intro w w' hw
  obtain ⟨hsame, hasked⟩ := T.asked (T.names.requests_carrying hq token) hw
  rw [Renaming.Outcomes, hq token, if_neg Bool.false_ne_true] at hsame
  rw [T.link.send_apply, T.link'.send_apply, T.base_eq]
  exact ⟨congrArg (Except.mapError Failure.ofReasons) hsame.symm, hasked⟩

/-! ### Calls -/

/-- Two calls that differ by the renaming. Their query does not ask for tokens. -/
inductive Calls : Call → Call → Prop
  | reading (q : Query) (hq : q.IsPlain T.link.base) : Calls (.reading q) (.reading q)
  | sending (q : Query) (hq : q.IsPlain T.link.base) (used : String) :
      Calls (.sending q used) (.sending q (T.names used))
  | refused (q : Query) (hq : q.IsPlain T.link.base) (used : String) :
      Calls (.refused q used) (.refused q (T.names used))
  | deciding (q : Query) (hq : q.IsPlain T.link.base) (used : String) :
      Calls (.deciding q used) (.deciding q (T.names used))
  | refreshing (q : Query) (hq : q.IsPlain T.link.base) (spent : String) :
      Calls (.refreshing q spent) (.refreshing q (T.names spent))
  | storing (q : Query) (hq : q.IsPlain T.link.base) (pair : Tokens) :
      Calls (.storing q pair) (.storing q (T.names.tokens pair))
  | retrying (q : Query) (hq : q.IsPlain T.link.base) (fresh : String) :
      Calls (.retrying q fresh) (.retrying q (T.names fresh))
  | finished (result : Except Failure Reply) : Calls (.finished result) (.finished result)

variable {T} in
/-- The calls of twins have equally far to go. -/
lemma Calls.rank_eq {c c' : Call} (h : T.Calls c c') : c'.rank = c.rank := by
  cases h <;> rfl

variable {T} in
/-- The call of one is at rest just if that of the other is. -/
lemma Calls.isAtRest_eq {c c' : Call} (h : T.Calls c c') : c'.isAtRest = c.isAtRest := by
  cases h <;> rfl

/-- Twins decide alike what to do about a refused token. -/
lemma calls_decided {q : Query} (hq : q.IsPlain T.link.base) (used : String) (stored : Tokens) :
    T.Calls (.decided q used stored) (.decided q (T.names used) (T.names.tokens stored)) := by
  have hused : T.names stored.access = T.names used ↔ stored.access = used :=
    T.names.injective.eq_iff
  have hrefresh : (T.names stored.refresh).isEmpty = stored.refresh.isEmpty := by
    rw [Bool.eq_iff_iff, String.isEmpty_iff, String.isEmpty_iff, T.names.apply_eq_empty_iff]
  simp only [Call.decided, Renaming.tokens, ne_eq, hused, hrefresh]
  split
  · exact .retrying q hq _
  · split
    · exact .finished _
    · exact .refreshing q hq _

/-- Twins make the same of a reply. -/
lemma calls_answered {q : Query} (hq : q.IsPlain T.link.base) (used : String)
    (reply : Except Failure Reply) :
    T.Calls (.answered q used reply) (.answered q (T.names used) reply) := by
  cases reply with
  | error e => exact .finished _
  | ok reply =>
    simp only [Call.answered]
    split
    · exact .refused q hq used
    · exact .finished _

/-- Twins make the same of the reply to a refresh, up to the renaming. -/
lemma calls_refreshed {q : Query} (hq : q.IsPlain T.link.base) {a a' : Except Failure Reply}
    (h : T.names.Grants a a') : T.Calls (.refreshed q a) (.refreshed q a') := by
  rw [Call.refreshed, Call.refreshed, h.refreshedTokens_eq]
  cases refreshedTokens a with
  | error e => exact .finished _
  | ok pair => exact .storing q hq pair

/-- A refresh. -/
lemma refresh (spent : String) :
    Parallel T.Worlds T.names.Grants (T.link.sendAnonymously (.refresh spent))
      (T.link'.sendAnonymously (.refresh (T.names spent))) := by
  intro w w' hw
  obtain ⟨hgrants, hasked⟩ := T.asked (.refresh spent) hw
  rw [Renaming.Outcomes, if_pos (Request.asksTokens_refresh _ _)] at hgrants
  rw [T.link.sendAnonymously_refresh_apply, T.link'.sendAnonymously_refresh_apply, T.base_eq]
  exact ⟨hgrants.mapError, hasked⟩

/-- A step of a call. -/
theorem step {c c' : Call} (h : T.Calls c c') :
    Parallel T.Worlds T.Calls (c.step T.link) (c'.step T.link') := by
  cases h with
  | reading q hq =>
    refine T.tokens.bind fun t t' ht => .pure ?_
    subst ht
    exact .sending q hq t.access
  | sending q hq used =>
    refine (T.send hq used).bind fun reply reply' hreply => .pure ?_
    subst hreply
    exact T.calls_answered hq used reply
  | refused q hq used => exact .pure (.deciding q hq used)
  | deciding q hq used =>
    refine T.tokens.bind fun t t' ht => .pure ?_
    subst ht
    exact T.calls_decided hq used t
  | refreshing q hq spent =>
    exact (T.refresh spent).bind fun a a' h => .pure (T.calls_refreshed hq h)
  | storing q hq pair =>
    exact (T.store pair).bind fun _ _ _ => .pure (.retrying q hq pair.access)
  | retrying q hq fresh =>
    refine (T.send hq fresh).bind fun reply reply' hreply => .pure ?_
    subst hreply
    exact .finished reply
  | finished result => exact .pure (.finished result)

/-- The calls of twins go on alike for any number of steps. -/
lemma settleWithin (n : ℕ) {c c' : Call} (h : T.Calls c c') :
    Parallel T.Worlds T.Calls (c.settleWithin T.link n) (c'.settleWithin T.link' n) := by
  induction n generalizing c c' with
  | zero => exact .pure h
  | succ n ih =>
    rw [Call.settleWithin, Call.settleWithin, h.isAtRest_eq]
    split
    · exact .pure h
    · exact (T.step h).bind fun d d' hd => ih hd

/-- They settle alike, too. -/
lemma settle {c c' : Call} (h : T.Calls c c') :
    Parallel T.Worlds T.Calls (c.settle T.link) (c'.settle T.link') := by
  rw [Call.settle, Call.settle, h.rank_eq]
  exact T.settleWithin c.rank h

/-- A call that goes on to its end comes to the same. -/
lemma complete {c c' : Call} (h : T.Calls c c') :
    Parallel T.Worlds Eq (c.complete T.link) (c'.complete T.link') := by
  induction hn : c.rank using Nat.strong_induction_on generalizing c c' with
  | _ n ih =>
    by_cases hrank : c.rank = 0
    · obtain ⟨result, rfl⟩ := Call.eq_finished_of_rank_le hrank.le
      cases h
      exact .pure rfl
    · rw [Call.complete_eq, Call.complete_eq]
      intro w w' hw
      obtain ⟨hd, hw'⟩ := T.step h w w' hw
      exact ih _ (hn ▸ Call.rank_step_lt T.link c w hrank) hd rfl _ _ hw'

/-! ### Followers -/

/-- Two followers that differ by the renaming. -/
inductive Followers : Follower → Follower → Prop
  | ended (duel submission : Int64) (memory : Memory) :
      Followers ⟨duel, submission, memory, .ended⟩ ⟨duel, submission, memory, .ended⟩
  | asking (duel submission : Int64) (memory : Memory) (c c' : Call) (h : T.Calls c c') :
      Followers ⟨duel, submission, memory, .asking c⟩ ⟨duel, submission, memory, .asking c'⟩

variable {T} in
/-- A follower of one has ended just if that of the other has. -/
lemma Followers.hasEnded_eq {f f' : Follower} (h : T.Followers f f') :
    f'.hasEnded = f.hasEnded := by
  cases h <;> rfl

/-- A question about a submission does not ask for tokens. -/
lemma isPlain_grading (base : String) (duel submission : Int64) :
    (Query.grading duel submission).IsPlain base :=
  fun _ => rfl

/-- Both hear the same. -/
lemma hear (raised : Bool) {f f' : Follower} (h : T.Followers f f')
    (result : Except Failure Reply) :
    Parallel T.Worlds T.Followers (f.hear raised result) (f'.hear raised result) := by
  have hplain := isPlain_grading T.link.base f.duel f.submission
  cases h with
  | _ =>
    refine (T.notifyAll _).bind fun _ _ _ => .pure ?_
    dsimp only
    split
    · exact .ended _ _ _
    · exact .asking _ _ _ _ _ (.reading _ hplain)

/-- The followers of twins settle alike. -/
lemma settleFollower {f f' : Follower} (h : T.Followers f f') :
    Parallel T.Worlds T.Followers (f.settle T.link) (f'.settle T.link') := by
  cases h with
  | ended duel submission memory => exact .pure (.ended duel submission memory)
  | asking duel submission memory c c' h =>
    exact (T.settle h).bind fun d d' hd => .pure (.asking duel submission memory d d' hd)

/-- Both start the same follower. -/
lemma startFollower (duel submission : Int64) :
    Parallel T.Worlds T.Followers (Follower.start T.link duel submission)
      (Follower.start T.link' duel submission) :=
  T.settleFollower (.asking duel submission {} _ _
    (.reading _ (isPlain_grading T.link.base duel submission)))

/-- A move of a follower. -/
theorem moveFollower (raised : Bool) {f f' : Follower} (h : T.Followers f f') :
    Parallel T.Worlds T.Followers (f.move T.link raised) (f'.move T.link' raised) := by
  cases h with
  | ended duel submission memory => exact .pure (.ended duel submission memory)
  | asking duel submission memory c c' h =>
    refine (T.step h).bind fun d d' hd => (T.settle hd).bind fun e e' he => ?_
    have hfollowers : T.Followers ⟨duel, submission, memory, .asking c⟩
        ⟨duel, submission, memory, .asking c'⟩ := .asking _ _ _ _ _ h
    cases he with
    | finished result =>
      exact (T.hear raised hfollowers result).bind fun g g' hg => T.settleFollower hg
    | reading q hq => exact .pure (.asking _ _ _ _ _ (.reading q hq))
    | sending q hq used => exact .pure (.asking _ _ _ _ _ (.sending q hq used))
    | refused q hq used => exact .pure (.asking _ _ _ _ _ (.refused q hq used))
    | deciding q hq used => exact .pure (.asking _ _ _ _ _ (.deciding q hq used))
    | refreshing q hq spent => exact .pure (.asking _ _ _ _ _ (.refreshing q hq spent))
    | storing q hq pair => exact .pure (.asking _ _ _ _ _ (.storing q hq pair))
    | retrying q hq fresh => exact .pure (.asking _ _ _ _ _ (.retrying q hq fresh))

/-- The followers of twins come to their end alike. -/
lemma concludeFollower {f f' : Follower} (h : T.Followers f f') :
    Parallel T.Worlds T.Followers (f.conclude T.link) (f'.conclude T.link') := by
  cases h with
  | ended duel submission memory => exact .pure (.ended duel submission memory)
  | asking duel submission memory c c' h =>
    refine (T.complete h).bind fun result result' hresult => ?_
    subst hresult
    exact T.hear true (.asking _ _ _ _ _ h) result

/-! ### Crews -/

/-- Two crews that differ by the renaming. -/
structure Crews (crew : Crew σ) (crew' : Crew σ') : Prop where
  /-- The worlds. -/
  world : T.Worlds crew.world crew'.world
  /-- The stop signal. -/
  raised : crew'.raised = crew.raised
  /-- The followers. -/
  followers : List.Forall₂ T.Followers crew.followers crew'.followers
  /-- How many were waited for. -/
  joined : crew'.joined = crew.joined

/-- What is done in worlds that differ by the renaming is done in the crews of these worlds. -/
lemma inWorld {R : α → α' → Prop} {act : Act σ α} {act' : Act σ' α'}
    (h : Parallel T.Worlds R act act') :
    Parallel T.Crews R (Crew.inWorld act) (Crew.inWorld act') :=
  fun crew crew' hcrew =>
    have hact := h crew.world crew'.world hcrew.world
    ⟨hact.1, hact.2, hcrew.raised, hcrew.followers, hcrew.joined⟩

/-- Both start a follower and put it on the list, or neither does. -/
lemma follow (duel submission : Int64) :
    Parallel T.Crews Eq (Crew.follow T.link duel submission)
      (Crew.follow T.link' duel submission) := by
  intro crew crew' hcrew
  cases hraised : crew.raised with
  | true =>
    rw [Crew.follow_of_raised T.link crew duel submission hraised,
      Crew.follow_of_raised T.link' crew' duel submission (hcrew.raised.trans hraised)]
    exact ⟨rfl, hcrew⟩
  | false =>
    rw [Crew.follow_of_free T.link crew duel submission hraised,
      Crew.follow_of_free T.link' crew' duel submission (hcrew.raised.trans hraised)]
    obtain ⟨hf, hw⟩ := T.startFollower duel submission _ _ hcrew.world
    exact ⟨rfl, hw, hcrew.raised, List.rel_append hcrew.followers (.cons hf .nil), hcrew.joined⟩

/-- The same follower moves on in both crews. -/
lemma move (n : ℕ) : Parallel T.Crews Eq (Crew.move T.link n) (Crew.move T.link' n) := by
  intro crew crew' hcrew
  have hget := forall₂_getElem? hcrew.followers n
  rw [Crew.move_eq, Crew.move_eq]
  generalize crew.followers[n]? = found at hget
  generalize crew'.followers[n]? = found' at hget
  cases hget with
  | none => exact ⟨rfl, hcrew⟩
  | @some f f' hf =>
    simp only [hf.hasEnded_eq, hcrew.raised]
    split
    · exact ⟨rfl, hcrew⟩
    · refine (T.inWorld (T.moveFollower crew.raised hf)).bind (fun g g' hg => ?_) crew crew' hcrew
      have hset : Parallel T.Crews Eq
          (modify fun crew => { crew with followers := crew.followers.set n g })
          (modify fun crew => { crew with followers := crew.followers.set n g' }) :=
        fun _ _ h => ⟨rfl, h.world, h.raised, forall₂_set h.followers n hg, h.joined⟩
      exact hset.bind fun _ _ _ => .pure (by rw [hg.hasEnded_eq])

/-- Followers that conclude. -/
lemma concludeFrom (hangs : ℕ → Bool) (n : ℕ) {fs fs' : List Follower}
    (h : List.Forall₂ T.Followers fs fs') :
    Parallel T.Worlds (List.Forall₂ T.Followers) (Crew.concludeFrom T.link hangs n fs)
      (Crew.concludeFrom T.link' hangs n fs') := by
  induction h generalizing n with
  | nil => exact .pure .nil
  | cons hf _ ih =>
    have hrest {g g' : Follower} (hg : T.Followers g g') :=
      (ih (n + 1)).bind fun gs gs' hgs =>
        Parallel.pure (S := T.Worlds) (R := List.Forall₂ T.Followers) (List.Forall₂.cons hg hgs)
    rw [Crew.concludeFrom, Crew.concludeFrom]
    split
    · exact hrest hf
    · exact (T.concludeFollower hf).bind fun g g' hg => hrest hg

/-- The signal is raised for both crews, and the same followers end. -/
lemma raise (hangs : ℕ → Bool) :
    Parallel T.Crews Eq (Crew.raise T.link hangs) (Crew.raise T.link' hangs) := by
  intro crew crew' hcrew
  obtain ⟨hfs, hw⟩ := T.concludeFrom hangs 0 hcrew.followers _ _ hcrew.world
  exact ⟨rfl, hw, rfl, hfs, hcrew.joined⟩

/-- Both wait for the same followers, and give up equally many. -/
lemma join : Parallel T.Crews Eq (Crew.join : StateM (Crew σ) ℕ) Crew.join := by
  intro crew crew' hcrew
  have hbusy := List.rel_filter
    (R := T.Followers) (p := fun f => !f.hasEnded) (q := fun f => !f.hasEnded)
    (fun {f f'} hf => by simp [hf.hasEnded_eq]) (List.forall₂_drop crew.joined hcrew.followers)
  have hcount := hbusy.length_eq
  rw [← List.countP_eq_length_filter, ← List.countP_eq_length_filter] at hcount
  refine ⟨?_, hcrew.world, hcrew.raised, hcrew.followers, hcrew.followers.length_eq.symm⟩
  have hdrop : crew'.followers.drop crew'.joined = crew'.followers.drop crew.joined := by
    rw [hcrew.joined]
  exact hcount.trans (congrArg (List.countP fun f => !f.hasEnded) hdrop.symm)

end Twins
end Duelist
