import Duelist.Proofs.Dealings
import Duelist.Proofs.Questions
/-!
# Earnings

Where the stored tokens come from. Whoever stores a pair has it from one exchange that was made
before on the same behalf: a request for tokens whose reply had the status 200 and a body that holds
just that pair (`Grants`).

`Act.Earns` says so of what is done in one step, `Errand.Earns` of what is done in many, with others
in between. The first speaks of all exchanges that were made so far, the second of the last one,
which is enough: nobody sends anything between the request for a pair and the storing of it.
-/

namespace Duelist

variable {σ τ α β : Type}

/-- The exchange gives `pair` to whoever asked for tokens. -/
inductive Grants (base : String) (pair : Tokens) : Request × Outcome → Prop
  | intro (r : Request) (hr : r.asksTokens base) (c : Content) (hc : c.pair? = some pair) :
      Grants base pair (r, .ok { status := 200, body := .whole c })

/-- A successful reply that is read as a pair gives it. A body that is still being written never is
read so. -/
lemma Grants.of_record {base : String} {pair : Tokens} {r : Request} (hr : r.asksTokens base)
    {reply : Reply} (hs : reply.status = 200) (h : reply.record Tokens.ofJson? = .ok pair) :
    Grants base pair (r, .ok reply) := by
  obtain ⟨status, body⟩ := reply
  obtain rfl : status = 200 := hs
  have hpair : body.content.pair? = some pair := Reply.record_eq_ok_iff.mp h
  cases body with
  | whole c => exact .intro r hr c hpair
  | live =>
    rw [Body.content, Content.pair?_empty] at hpair
    cases hpair

/-- A refresh that is answered with a pair gives it. -/
lemma Grants.of_refreshedTokens {base token : String} {pair : Tokens} {reply : Reply}
    (h : refreshedTokens (.ok reply) = .ok pair) :
    Grants base pair (.refresh base token, .ok reply) := by
  by_cases hs : reply.status = 200
  · have heq := refreshedTokens_of_eq hs
    simp only [Except.mapError] at heq
    rw [heq] at h
    cases hrecord : reply.record Tokens.ofJson? with
    | error what =>
      rw [hrecord] at h
      cases h
    | ok pair' =>
      rw [hrecord] at h
      obtain rfl : pair' = pair := Except.ok.inj h
      exact .of_record (Request.asksTokens_refresh base token) hs hrecord
  · have hne := refreshedTokens_of_ne hs
    simp only [Except.mapError] at hne
    rw [hne] at h
    cases h

/-- A sign-in that is answered with a pair gives it. -/
lemma Grants.of_grantedTokens {base nickname password : String} {pair : Tokens} {outcome : Outcome}
    (h : grantedTokens (outcome.mapError .ofReasons) = .ok pair) :
    Grants base pair (.signIn base nickname password, outcome) := by
  cases outcome with
  | error reasons => cases h
  | ok reply =>
    rw [grantedTokens_ok] at h
    split at h
    next hs =>
      cases hrecord : reply.record Tokens.ofJson? with
      | error what =>
        rw [hrecord] at h
        cases h
      | ok pair' =>
        rw [hrecord] at h
        obtain rfl : pair' = pair := Except.ok.inj h
        exact .of_record (Request.asksTokens_signIn base nickname password) hs hrecord
    next => cases h

/-! ### What happens to the tokens -/

/-- How one gets from the world `w` to the world `w'`: `new` is added to the transcript, and the
tokens stay, unless they are replaced by a pair that was given in an exchange of those `before` or
of the new ones. -/
structure Earning (base : String) (before : List (Request × Outcome)) (new : List Entry)
    (w w' : World σ) : Prop where
  /-- The transcript grows. -/
  transcript_eq : w'.transcript = w.transcript ++ new
  /-- The tokens stay, or are replaced. -/
  tokens : w'.tokens = w.tokens ∨
    ∃ x ∈ before ++ new.filterMap Entry.exchange?, Grants base w'.tokens x

namespace Earning

variable {base : String} {before before' : List (Request × Outcome)} {new new' : List Entry}
  {w w' w'' : World σ}

/-- To stay in the same world is an earning. -/
lemma refl (w : World σ) : Earning base before [] w w where
  transcript_eq := (List.append_nil _).symm
  tokens := .inl rfl

/-- An earning does not cease to be one if more was exchanged before. -/
lemma mono (h : Earning base before new w w') (hsub : before ⊆ before') :
    Earning base before' new w w' where
  transcript_eq := h.transcript_eq
  tokens := by
    refine h.tokens.imp_right fun hgranted => ?_
    obtain ⟨x, hx, hgrants⟩ := hgranted
    refine ⟨x, ?_, hgrants⟩
    rw [List.mem_append] at hx ⊢
    exact hx.imp_left fun hbefore => hsub hbefore

/-- One earning after another is an earning, if the second one may draw on what was exchanged in the
first. -/
lemma trans (h : Earning base before new w w')
    (h' : Earning base (before ++ new.filterMap Entry.exchange?) new' w' w'') :
    Earning base before (new ++ new') w w'' where
  transcript_eq := by rw [h'.transcript_eq, h.transcript_eq, List.append_assoc]
  tokens := by
    rw [List.filterMap_append, ← List.append_assoc]
    rcases h'.tokens with hsame | hgranted
    · rw [hsame]
      refine h.tokens.imp_right fun hgranted => ?_
      obtain ⟨x, hx, hgrants⟩ := hgranted
      exact ⟨x, List.mem_append_left _ hx, hgrants⟩
    · exact .inr hgranted

end Earning

/-! ### In one step -/

/-- What happens to the tokens in one step is an earning, and `post` holds of the exchanges that
were made by then and of the result. -/
def Act.Earns (base : String) (before : List (Request × Outcome)) (act : Act σ α)
    (post : List (Request × Outcome) → α → Prop) : Prop :=
  ∀ w, ∃ new, Earning base before new w (act w).2 ∧
    post (before ++ new.filterMap Entry.exchange?) (act w).1

namespace Act

variable {base : String} {before : List (Request × Outcome)}
  {post : List (Request × Outcome) → α → Prop}

/-- To do nothing is an earning. -/
lemma earns_pure {a : α} (h : post before a) : Earns base before (pure a : Act σ α) post :=
  fun w => ⟨[], .refl w, by rwa [List.filterMap_nil, List.append_nil]⟩

/-- Two acts one after the other are an earning if each of them is, the second one with all
exchanges of the first. -/
lemma earns_bind {mid : List (Request × Outcome) → β → Prop} {act : Act σ β} {f : β → Act σ α}
    (h : Earns base before act mid)
    (hf : ∀ b made, before ⊆ made → mid made b → Earns base made (f b) post) :
    Earns base before (act >>= f) post := by
  intro w
  obtain ⟨new, hearning, hmid⟩ := h w
  obtain ⟨new', hearning', hpost⟩ :=
    hf (act w).1 _ (List.subset_append_left ..) hmid (act w).2
  refine ⟨new ++ new', hearning.trans hearning', ?_⟩
  rw [List.filterMap_append, ← List.append_assoc]
  exact hpost

/-- What holds of a result in any world holds of it here. -/
lemma Earns.of_forall {P : α → Prop} {act : Act σ α} (h : Earns base before act post)
    (hP : ∀ w, P (act w).1) : Earns base before act fun _ a => P a :=
  fun w => (h w).imp fun _ hnew => ⟨hnew.1, hP w⟩

/-- To show a line leaves the tokens as they are. -/
lemma earns_put (line : Line) : Earns base before (put line : Act σ Unit) fun _ _ => True :=
  fun _ => ⟨[.shown line], ⟨rfl, .inl rfl⟩, trivial⟩

/-- To read the tokens leaves them as they are. -/
lemma earns_tokens : Earns base before (tokens : Act σ Tokens) fun _ _ => True :=
  fun w => ⟨[], .refl w, trivial⟩

/-- A pair may be stored that was given before. -/
lemma earns_store {pair : Tokens} (h : ∃ x ∈ before, Grants base pair x) :
    Earns base before (store pair : Act σ Unit) fun _ _ => True :=
  fun _ => ⟨[], ⟨(List.append_nil _).symm, .inr (by rwa [List.filterMap_nil, List.append_nil])⟩,
    trivial⟩

/-- An exchange does nothing to the tokens. -/
lemma earns_exchange (link : Link σ) (r : Request) :
    Earns base before (link.exchange r) fun made outcome => (r, outcome) ∈ made :=
  fun _ => ⟨[.sent r _], ⟨rfl, .inl rfl⟩, List.mem_append_right _ (List.mem_singleton.mpr rfl)⟩

/-- To send a query with a token is an exchange more, and stores nothing. -/
lemma earns_send (link : Link σ) (q : Query) (token : String) :
    Earns base before (link.send q token) fun _ _ => True :=
  earns_bind (earns_exchange link _) fun _ _ _ _ => earns_pure trivial

/-- To send a query without a token is an exchange more, namely that of this query with what came of
it. -/
lemma earns_sendAnonymously (link : Link σ) (q : Query) :
    Earns base before (link.sendAnonymously q) fun made result =>
      ∃ outcome, result = outcome.mapError .ofReasons ∧
        (.ofQuery link.base q none, outcome) ∈ made :=
  earns_bind (earns_exchange link _) fun outcome _ _ h => earns_pure ⟨outcome, rfl, h⟩

end Act

/-! ### Calls and followers -/

/-- If the call is about to store a pair, then that was given in one of the exchanges. -/
def Call.Backed (base : String) (made : List (Request × Outcome)) (c : Call) : Prop :=
  ∀ pair, c.pair? = some pair → ∃ x ∈ made, Grants base pair x

namespace Call

variable {link : Link σ} {before : List (Request × Outcome)}

/-- A call at rest does not store a pair next. -/
lemma Backed.of_isAtRest {base : String} {c : Call} (h : c.isAtRest) : c.Backed base before := by
  intro pair hpair
  cases c with
  | storing q pair => cases h
  | _ => cases hpair

/-- Where a refresh is answered with a pair, that is the one to be stored. -/
lemma backed_refreshed {base token : String} (q : Query) {outcome : Outcome}
    (h : (.refresh base token, outcome) ∈ before) :
    (refreshed q (outcome.mapError .ofReasons)).Backed base before := by
  intro pair hpair
  rw [refreshed] at hpair
  cases outcome with
  | error reasons => cases hpair
  | ok reply =>
    simp only [Except.mapError] at hpair
    cases hgranted : refreshedTokens (.ok reply) with
    | error e =>
      rw [hgranted] at hpair
      cases hpair
    | ok pair' =>
      rw [hgranted] at hpair
      obtain rfl : pair' = pair := Option.some.inj hpair
      exact ⟨_, h, .of_refreshedTokens hgranted⟩

/-- A step of a call. -/
lemma earns_step {c : Call} (h : c.Backed link.base before) :
    Act.Earns link.base before (c.step link) fun made c' =>
      c'.Backed link.base made ∧ (c.rank ≠ 0 → c'.rank < c.rank) := by
  suffices hbacked : Act.Earns link.base before (c.step link)
      fun made c' => c'.Backed link.base made from fun w => by
    obtain ⟨new, hearning, hpost⟩ := hbacked w
    exact ⟨new, hearning, hpost, rank_step_lt link c w⟩
  -- only a call that is about to store a pair has to be backed by an exchange
  have hnone {made : List (Request × Outcome)} {c' : Call} (hc : c'.pair? = none) :
      c'.Backed link.base made := fun pair hpair => by rw [hc] at hpair; cases hpair
  cases c with
  | reading q => exact Act.earns_bind Act.earns_tokens fun t made _ _ => Act.earns_pure (hnone rfl)
  | sending q used =>
    refine Act.earns_bind (Act.earns_send link q used) fun reply made _ _ => Act.earns_pure ?_
    refine hnone ?_
    cases reply with
    | error e => rfl
    | ok reply => rw [answered]; split <;> rfl
  | refused q used => exact Act.earns_pure (hnone rfl)
  | deciding q used =>
    refine Act.earns_bind Act.earns_tokens fun t made _ _ => Act.earns_pure (hnone ?_)
    rw [decided]
    split
    · rfl
    · split <;> rfl
  | refreshing q spent =>
    refine Act.earns_bind (Act.earns_sendAnonymously link (.refresh spent)) ?_
    rintro _ made _ ⟨outcome, rfl, hmem⟩
    exact Act.earns_pure (backed_refreshed q hmem)
  | storing q pair =>
    refine Act.earns_bind (Act.earns_store (h pair rfl)) fun _ made _ _ => ?_
    exact Act.earns_pure (hnone rfl)
  | retrying q fresh =>
    exact Act.earns_bind (Act.earns_send link q fresh) fun _ made _ _ => Act.earns_pure (hnone rfl)
  | finished result => exact Act.earns_pure (hnone rfl)

/-- A call goes on to rest by steps that are earnings, if it has earned what it is about to store.
-/
lemma earns_settleWithin (n : ℕ) {c : Call} (h : c.Backed link.base before) :
    Act.Earns link.base before (c.settleWithin link n) fun _ _ => True := by
  induction n generalizing c before with
  | zero => exact Act.earns_pure trivial
  | succ n ih =>
    rw [settleWithin]
    split
    · exact Act.earns_pure trivial
    · exact Act.earns_bind (earns_step h) fun c' made _ hstep => ih hstep.1

/-- A call that goes on to its end. -/
lemma earns_complete {c : Call} (h : c.Backed link.base before) :
    Act.Earns link.base before (c.complete link) fun _ _ => True := by
  induction hn : c.rank using Nat.strong_induction_on generalizing c before with
  | _ n ih =>
    by_cases hrank : c.rank = 0
    · obtain ⟨result, rfl⟩ := eq_finished_of_rank_le hrank.le
      exact Act.earns_pure trivial
    · rw [complete_eq]
      refine Act.earns_bind (earns_step h) fun c' made _ hstep => ?_
      obtain ⟨hbacked, hlt⟩ := hstep
      exact ih c'.rank (hn ▸ hlt hrank) hbacked rfl

end Call

namespace Follower

variable {link : Link σ} {base : String} {before : List (Request × Outcome)} {f : Follower}

/-- To hear an answer does nothing to the tokens. -/
lemma earns_hear (raised : Bool) (f : Follower) (result : Except Failure Reply) :
    Act.Earns base before (hear raised f result : Act σ Follower) fun _ f' =>
      f'.pursuit = .ended ∨ ∃ q, f'.pursuit = .asking (.reading q) := by
  intro w
  refine ⟨(f.memory.notices f.submission (recordOf Grading.ofJson? result)).map Entry.notice, ?_⟩
  rw [hear_eq]
  refine ⟨⟨rfl, .inl rfl⟩, ?_⟩
  simp only
  split
  · exact .inl rfl
  · exact .inr ⟨_, rfl⟩

/-- So does a follower, whose call it is. -/
lemma earns_settle (h : ∀ c, f.pursuit = .asking c → c.Backed link.base before) :
    Act.Earns link.base before (settle link f) fun _ _ => True := by
  obtain ⟨duel, submission, memory, pursuit⟩ := f
  cases pursuit with
  | ended => exact Act.earns_pure trivial
  | asking c =>
    refine Act.earns_bind (Call.earns_settleWithin c.rank (h c rfl)) fun _ _ _ _ => ?_
    exact Act.earns_pure trivial

/-- A new follower reads a token, stores none, and is at rest. -/
lemma earns_start (duel submission : Int64) :
    Act.Earns link.base before (start link duel submission) fun _ f => f.Rests := by
  refine Act.Earns.of_forall (earns_settle fun c hc pair hpair => ?_)
    (rests_start link duel submission)
  cases hc
  cases hpair

/-- A move of a follower. -/
lemma earns_move (raised : Bool) (h : f.Rests) :
    Act.Earns link.base before (move link raised f) fun _ f' => f'.Rests := by
  suffices hearns : Act.Earns link.base before (move link raised f) fun _ _ => True from
    hearns.of_forall (rests_move link h raised)
  obtain ⟨duel, submission, memory, pursuit⟩ := f
  cases pursuit with
  | ended => exact Act.earns_pure trivial
  | asking c =>
    have hbacked : c.Backed link.base before := .of_isAtRest (h.isAtRest rfl)
    refine Act.earns_bind (Call.earns_step hbacked) fun c' made _ hstep => ?_
    refine Act.earns_bind (Call.earns_settleWithin c'.rank hstep.1) fun c'' made' _ _ => ?_
    cases c'' with
    | finished result =>
      refine Act.earns_bind (earns_hear raised _ result) fun f made'' _ hf => ?_
      refine earns_settle fun c hc pair hpair => ?_
      rcases hf with hended | ⟨q, hq⟩
      · rw [hended] at hc
        cases hc
      · rw [hq] at hc
        cases hc
        cases hpair
    | _ => exact Act.earns_pure trivial

/-- The end of a follower. -/
lemma earns_conclude (h : f.Rests) :
    Act.Earns link.base before (conclude link f) fun _ f' => f'.Rests := by
  suffices hearns : Act.Earns link.base before (conclude link f) fun _ _ => True from
    hearns.of_forall (rests_conclude link f)
  obtain ⟨duel, submission, memory, pursuit⟩ := f
  cases pursuit with
  | ended => exact Act.earns_pure trivial
  | asking c =>
    have hbacked : c.Backed link.base before := .of_isAtRest (h.isAtRest rfl)
    refine Act.earns_bind (Call.earns_complete hbacked) fun result made _ _ => ?_
    exact (earns_hear true ⟨duel, submission, memory, .asking c⟩ result).of_forall
      fun _ => trivial

end Follower

/-- Followers that conclude. -/
lemma Crew.earns_concludeFrom {link : Link σ} {before : List (Request × Outcome)}
    (hangs : ℕ → Bool) (n : ℕ) {fs : List Follower} (h : ∀ f ∈ fs, f.Rests) :
    Act.Earns link.base before (concludeFrom link hangs n fs) fun _ fs' =>
      ∀ f ∈ fs', f.Rests := by
  induction fs generalizing n before with
  | nil => exact Act.earns_pure h
  | cons f fs ih =>
    have hrest (f' : Follower) (hf' : f'.Rests) {made : List (Request × Outcome)} :
        Act.Earns link.base made (do return f' :: (← concludeFrom link hangs (n + 1) fs))
          fun _ fs' => ∀ f ∈ fs', f.Rests := by
      refine Act.earns_bind (ih (n + 1) fun g hg => h g (List.mem_cons_of_mem f hg)) ?_
      intro fs' made' _ hfs'
      refine Act.earns_pure fun g hg => ?_
      rcases List.mem_cons.mp hg with rfl | hg
      · exact hf'
      · exact hfs' g hg
    have hf : f.Rests := h f List.mem_cons_self
    rw [concludeFrom]
    split
    · exact hrest f hf
    · exact Act.earns_bind (Follower.earns_conclude hf) fun f' _ _ hf' => hrest f' hf'

end Duelist
