import Duelist.Proofs.Callers
import Mathlib.Data.List.Induction
import Mathlib.Data.List.Nodup
/-!
# Renewals

Many callers read the access token at different times, find it refused at different times, and
refresh it one at a time. What they have done so far is read off the list of their moves: the
tokens with which a caller sent its own query (`own`), those that it saw refused (`refusals`), the
refresh tokens that were sent (`spends`), the refreshes that were granted (`renewals`), the pairs
that were stored (`stores`), and the access tokens that have ever been stored (`accesses`).

The invariant is `Orderly`. It relates what each caller remembers to the tokens that have been
stored, by what `Call.Fits` says of each stage of a call. `Orderly.move` is the step lemma, and
`orderly_run` says that callers are in order at every point of a run, provided that every refresh
brings an access token that was never stored before (`RenewsFresh`).
-/

namespace Duelist

/-! ### What is seen of a step -/

namespace Call

/-- The token with which the next step sends the query of the call itself. -/
def own? : Call → Option String
  | .sending _ used => some used
  | .retrying _ fresh => some fresh
  | _ => none

/-- The refresh token that the next step sends. -/
def spent? : Call → Option String
  | .refreshing _ spent => some spent
  | _ => none

/-- A call that sends a refresh token is at the stage of refreshing. -/
lemma eq_refreshing_of_spent? {c : Call} {token : String} (h : c.spent? = some token) :
    ∃ q, c = .refreshing q token := by
  cases c with
  | refreshing q token' => exact ⟨q, by rw [Option.some.inj h]⟩
  | _ => cases h

/-- The access token that was refused in the step from one call to another. -/
def refusal? : Call → Call → Option String
  | .sending _ used, .refused _ _ => some used
  | _, _ => none

/-- The refresh token that was accepted in the step from one call to another, and the pair that came
back for it. -/
def grant? : Call → Call → Option (String × Tokens)
  | .refreshing _ spent, .storing _ pair => some (spent, pair)
  | _, _ => none

end Call

/-- A refresh that was granted. -/
structure Renewal where
  /-- The pair that was stored at that moment. -/
  old : Tokens
  /-- The refresh token that was sent. -/
  spent : String
  /-- The pair that came back. -/
  new : Tokens

/-- Each renewal replaces the pair of the one before, whose refresh token it spends; the first one
replaces `t`. -/
def Lineage (t : Tokens) : List Renewal → Prop
  | [] => True
  | r :: rest => r.old = t ∧ r.spent = t.refresh ∧ Lineage r.new rest

/-- One renewal more must replace the last pair and spend its refresh token. -/
lemma lineage_snoc {t : Tokens} {l : List Renewal} {r : Renewal} :
    Lineage t (l ++ [r]) ↔ Lineage t l ∧ r.old = ((l.map Renewal.new).getLast?.getD t) ∧
      r.spent = ((l.map Renewal.new).getLast?.getD t).refresh := by
  induction l generalizing t with
  | nil => simp [Lineage]
  | cons x l ih =>
    simp only [List.cons_append, Lineage, ih, List.map_cons, List.getLast?_cons, Option.getD_some,
      and_assoc]

/-- What comes of one element more comes last. -/
lemma filterMap_snoc {α β : Type} (f : α → Option β) (l : List α) (a : α) :
    (l ++ [a]).filterMap f = l.filterMap f ++ (f a).toList := by
  rw [List.filterMap_append]
  cases h : f a <;> simp [h]

namespace Callers

variable {ι σ : Type}

namespace Move

/-- The call of the one who moves, before the move. -/
def call (m : Move ι σ) : Call :=
  m.before.calls m.caller

/-- The call of the one who moves, after the move. -/
def next (m : Move ι σ) : Call :=
  m.after.calls m.caller

/-- A move of the caller `i` is made by the call that `i` had before. -/
lemma call_mk (i : ι) (s s' : Callers ι σ) : (mk i s s').call = s.calls i := rfl

/-- It leads to the call that `i` has afterwards. -/
lemma next_mk (i : ι) (s s' : Callers ι σ) : (mk i s s').next = s'.calls i := rfl

/-- The tokens that the move finds stored. -/
def found (m : Move ι σ) : Tokens :=
  m.before.world.tokens

/-- The refresh that was granted in the move. -/
def renewal? (m : Move ι σ) : Option Renewal :=
  (m.call.grant? m.next).map fun granted => ⟨m.found, granted.1, granted.2⟩

/-- A renewal is a refresh token that was sent. -/
lemma spent_of_renewal {m : Move ι σ} {r : Renewal} (h : m.renewal? = some r) :
    m.call.spent? = some r.spent ∧ r.old = m.found ∧
      ∃ q, m.next = .storing q r.new := by
  obtain ⟨⟨spent, pair⟩, hg, rfl⟩ := Option.map_eq_some_iff.mp h
  unfold Call.grant? at hg
  split at hg
  next q' token q pair' hcall hnext =>
    cases hg
    exact ⟨by rw [hcall]; rfl, rfl, q, hnext⟩
  next => cases hg

end Move

/-- The refresh tokens that were sent. -/
def spends (T : List (Move ι σ)) : List String :=
  T.filterMap fun m => m.call.spent?

/-- The refreshes that were granted. -/
def renewals (T : List (Move ι σ)) : List Renewal :=
  T.filterMap Move.renewal?

/-- The pairs that were stored. -/
def stores (T : List (Move ι σ)) : List Tokens :=
  T.filterMap fun m => m.call.pair?

/-- The access tokens that have been stored so far, the first of them that of `t`. -/
def accesses (t : Tokens) (T : List (Move ι σ)) : List String :=
  t.access :: (stores T).map Tokens.access

/-- The tokens with which the caller `i` sent its own query. -/
def own [DecidableEq ι] (i : ι) (T : List (Move ι σ)) : List String :=
  T.filterMap fun m => if m.caller = i then m.call.own? else none

/-- The access tokens that the caller `i` saw refused. -/
def refusals [DecidableEq ι] (i : ι) (T : List (Move ι σ)) : List String :=
  T.filterMap fun m => if m.caller = i then m.call.refusal? m.next else none

/-- A refresh that was granted was sent. -/
lemma spends_ne_nil {T : List (Move ι σ)} (h : renewals T ≠ []) : spends T ≠ [] := by
  obtain ⟨r, hr⟩ := List.exists_mem_of_ne_nil _ h
  obtain ⟨m, hm, hr⟩ := List.mem_filterMap.mp hr
  have hspent : r.spent ∈ spends T := List.mem_filterMap.mpr ⟨m, hm, (Move.spent_of_renewal hr).1⟩
  exact List.ne_nil_of_mem hspent

/-! ### The lists after one more move -/

variable (t : Tokens) (T : List (Move ι σ)) (m : Move ι σ) (i : ι)

/-- The refresh token that one move more sends comes last. -/
lemma spends_snoc : spends (T ++ [m]) = spends T ++ m.call.spent?.toList := by
  rw [spends, filterMap_snoc]
  rfl

/-- A refresh that is granted in one move more comes last. -/
lemma renewals_snoc : renewals (T ++ [m]) = renewals T ++ m.renewal?.toList := by
  rw [renewals, filterMap_snoc]
  rfl

/-- The pair that one move more stores comes last. -/
lemma stores_snoc : stores (T ++ [m]) = stores T ++ m.call.pair?.toList := by
  rw [stores, filterMap_snoc]
  rfl

/-- The access token that one move more stores comes last. -/
lemma accesses_snoc :
    accesses t (T ++ [m]) = accesses t T ++ (m.call.pair?.map Tokens.access).toList := by
  rw [accesses, stores_snoc, List.map_append, Option.toList_map]
  rfl

/-- The token with which `i` sends its query in one move more comes last. -/
lemma own_snoc [DecidableEq ι] :
    own i (T ++ [m]) = own i T ++ if m.caller = i then m.call.own?.toList else [] := by
  rw [own, filterMap_snoc]
  split <;> rfl

/-- The token that `i` sees refused in one move more comes last. -/
lemma refusals_snoc [DecidableEq ι] : refusals i (T ++ [m]) =
    refusals i T ++ if m.caller = i then (m.call.refusal? m.next).toList else [] := by
  rw [refusals, filterMap_snoc]
  split <;> rfl

end Callers

/-! ### What a caller remembers -/

/-- What can be said of a call when the access tokens `known` have been stored, `t` the pair of the
last of them, when it has sent its query with the tokens `own` and saw the tokens `refused`
refused. `spent` holds once a refresh token was sent, or if there was none to begin with. -/
def Call.Fits (known : List String) (t : Tokens) (spent : Prop) (own refused : List String) :
    Call → Prop
  | .reading _ => own = [] ∧ refused = []
  | .sending _ used => own = [] ∧ refused = [] ∧ used ∈ known
  | .refused _ used => own = [used] ∧ refused = [used] ∧ used ∈ known
  | .deciding _ used => own = [used] ∧ refused = [used] ∧ used ∈ known
  | .refreshing _ token => own = [t.access] ∧ refused = [t.access] ∧ token = t.refresh
  | .storing _ pair => own = [t.access] ∧ refused = [t.access] ∧ pair.access ∉ known ∧ spent
  | .retrying _ fresh =>
    ∃ used, own = [used] ∧ refused = [used] ∧ [used, fresh].Sublist known ∧ spent
  | .finished _ => own.length ≤ 2 ∧ (∀ used ∈ refused, used ∈ known) ∧ (refused = [] ∨ spent)

namespace Call

variable {known known' : List String} {t t' : Tokens} {spent spent' : Prop}
  {own refused : List String} {c c' : Call}

/-- What others do takes nothing away from what a caller remembers, if they store nothing while it
holds the lock. -/
lemma Fits.mono (h : c.Fits known t spent own refused) (hknown : known <+: known')
    (hspent : spent → spent') (hlock : c.holdsLock → known' = known ∧ t' = t) :
    c.Fits known' t' spent' own refused := by
  cases c with
  | reading q => exact h
  | sending q used => exact ⟨h.1, h.2.1, hknown.subset h.2.2⟩
  | refused q used => exact ⟨h.1, h.2.1, hknown.subset h.2.2⟩
  | deciding q used => exact ⟨h.1, h.2.1, hknown.subset h.2.2⟩
  | refreshing q token =>
    obtain ⟨rfl, rfl⟩ := hlock rfl
    exact h
  | storing q pair =>
    obtain ⟨rfl, rfl⟩ := hlock rfl
    exact ⟨h.1, h.2.1, h.2.2.1, hspent h.2.2.2⟩
  | retrying q fresh =>
    obtain ⟨used, hown, href, hsub, hsp⟩ := h
    exact ⟨used, hown, href, hsub.trans hknown.sublist, hspent hsp⟩
  | finished result =>
    exact ⟨h.1, fun used hused => hknown.subset (h.2.1 used hused), h.2.2.imp_right hspent⟩

/-- What was stored before the last token stands before it in the list. -/
lemma pair_sublist_of_getLast? {l : List String} {a b : String} (hlast : l.getLast? = some b)
    (ha : a ∈ l) (hne : a ≠ b) : [a, b].Sublist l := by
  obtain ⟨init, rfl⟩ := List.getLast?_eq_some_iff.mp hlast
  have hinit : a ∈ init := by simpa [hne] using ha
  exact (List.singleton_sublist.mpr hinit).append (List.Sublist.refl [b])

/-- A step takes a call from what fits before it to what fits after it. -/
lemma Fits.goes (h : c.Fits known t spent own refused) (hgoes : Goes t c c' t')
    (hlast : known.getLast? = some t.access)
    (hfresh : ∀ token pair, c.grant? c' = some (token, pair) → pair.access ∉ known)
    (hempty : t.refresh = "" → spent) (hstale : ∀ used ∈ known, used ≠ t.access → spent) :
    c'.Fits (known ++ (c.pair?.map Tokens.access).toList) t' (spent ∨ c.spent?.isSome)
      (own ++ c.own?.toList) (refused ++ (c.refusal? c').toList) := by
  have hmem : t.access ∈ known := List.mem_of_getLast? hlast
  cases hgoes with
  | read q => simpa [Fits, own?, refusal?, pair?, hmem] using h
  | refuse q used =>
    obtain ⟨rfl, rfl, hused⟩ := h
    simpa [Fits, own?, refusal?, pair?] using hused
  | answer q used result =>
    obtain ⟨rfl, rfl, -⟩ := h
    simp [Fits, own?, refusal?]
  | lock q used => simpa [Fits, own?, refusal?, pair?] using h
  | overtake q used hne =>
    obtain ⟨rfl, rfl, hused⟩ := h
    -- somebody else has stored a pair since the token was read, and so a refresh token was spent
    have hsub := pair_sublist_of_getLast? hlast hused hne.symm
    simpa [Fits, own?, refusal?, pair?, spent?] using ⟨hsub, hstale used hused hne.symm⟩
  | giveUp q hr =>
    obtain ⟨rfl, rfl, -⟩ := h
    simp [Fits, own?, refusal?, hempty hr, hmem]
  | spend q hr =>
    obtain ⟨rfl, rfl, -⟩ := h
    simp [Fits, own?, refusal?]
  | grant q token pair =>
    obtain ⟨rfl, rfl, rfl⟩ := h
    simpa [Fits, own?, refusal?, pair?, spent?] using hfresh t.refresh pair rfl
  | deny q token e =>
    obtain ⟨rfl, rfl, rfl⟩ := h
    simp [Fits, own?, refusal?, spent?, hmem]
  | store q pair =>
    obtain ⟨rfl, rfl, -, hsp⟩ := h
    -- the refused token is the one that was stored until now, and the new one comes after it
    have hsub : [t.access, t'.access].Sublist (known ++ [t'.access]) :=
      (List.singleton_sublist.mpr hmem).append (List.Sublist.refl _)
    simpa [Fits, own?, refusal?, pair?, spent?, hsp] using hsub
  | retry q fresh result =>
    obtain ⟨used, rfl, rfl, hsub, hsp⟩ := h
    have hused : used ∈ known := hsub.subset (by simp)
    simp [Fits, own?, refusal?, hsp, hused]
  | rest result => simpa [Fits, own?, refusal?, pair?, spent?] using h

/-- A token that was refused is one that was stored. -/
lemma Fits.mem_of_refused (h : c.Fits known t spent own refused) (hmem : t.access ∈ known)
    {used : String} (hused : used ∈ refused) : used ∈ known := by
  cases c with
  | reading q =>
    obtain ⟨-, rfl⟩ := h
    cases hused
  | sending q used' =>
    obtain ⟨-, rfl, -⟩ := h
    cases hused
  | refused q used' =>
    obtain ⟨-, rfl, hknown⟩ := h
    rwa [List.mem_singleton.mp hused]
  | deciding q used' =>
    obtain ⟨-, rfl, hknown⟩ := h
    rwa [List.mem_singleton.mp hused]
  | refreshing q token =>
    obtain ⟨-, rfl, -⟩ := h
    rwa [List.mem_singleton.mp hused]
  | storing q pair =>
    obtain ⟨-, rfl, -⟩ := h
    rwa [List.mem_singleton.mp hused]
  | retrying q fresh =>
    obtain ⟨used', -, rfl, hsub, -⟩ := h
    rw [List.mem_singleton.mp hused]
    exact hsub.subset (List.mem_cons_self ..)
  | finished result => exact h.2.1 used hused

/-- No call sends its own query more than twice. -/
lemma Fits.length_own_le (h : c.Fits known t spent own refused) : own.length ≤ 2 := by
  cases c with
  | retrying q fresh =>
    obtain ⟨used, rfl, -⟩ := h
    exact Nat.le_succ 1
  | finished result => exact h.1
  | _ =>
    obtain ⟨rfl, -⟩ := h
    simp

/-- Only a step that was refused or holds the lock already leads to a call that holds it. -/
lemma Goes.holdsLock_or (h : Goes t c c' t') (h' : c'.holdsLock) :
    c.takesLock ∨ c.holdsLock := by
  cases h with
  | lock q used => exact .inl rfl
  | spend q hr => exact .inr rfl
  | grant q token pair => exact .inr rfl
  | _ => cases h'

/-- The tokens change by what the step stores. -/
lemma Goes.tokens_eq (h : Goes t c c' t') : t' = c.pair?.getD t := by
  cases h <;> rfl

/-- A pair that is about to be stored was granted by the step before. -/
lemma Goes.grant_eq (h : Goes t c c' t') : (c.grant? c').map Prod.snd = c'.pair? := by
  cases h <;> rfl

/-- A call that stores a pair is at the stage of storing. -/
lemma eq_storing_of_pair? {pair : Tokens} (h : c.pair? = some pair) : ∃ q, c = .storing q pair := by
  cases c with
  | storing q pair' => exact ⟨q, by rw [Option.some.inj h]⟩
  | _ => cases h

/-- Only the one who holds the lock is about to store a pair. -/
lemma holdsLock_of_pair? {pair : Tokens} (h : c.pair? = some pair) : c.holdsLock := by
  obtain ⟨q, rfl⟩ := eq_storing_of_pair? h
  rfl

end Call

namespace Callers

variable {ι σ : Type} [DecidableEq ι]

/-- The pair that is about to be stored. -/
def pending (s : Callers ι σ) : List Tokens :=
  s.holder.elim [] fun i => (s.calls i).pair?.toList

/-- What holds after the moves `T` of callers who began with the tokens `t` and have come to `s`. -/
structure Orderly (t : Tokens) (T : List (Move ι σ)) (s : Callers ι σ) : Prop where
  /-- Only the holder of the lock is at a stage where the lock is held. -/
  holder : ∀ i, s.holder = some i ↔ (s.calls i).holdsLock
  /-- The tokens are those that were stored last. -/
  last : (t :: stores T).getLast? = some s.world.tokens
  /-- No access token was stored twice. -/
  nodup : (accesses t T).Nodup
  /-- Each renewal replaces the pair of the one before. -/
  lineage : Lineage t (renewals T)
  /-- The pairs that came back are stored in this order, but for one that is about to be stored. -/
  granted : (renewals T).map Renewal.new = stores T ++ s.pending
  /-- All callers remember what they need. -/
  fits : ∀ i, (s.calls i).Fits (accesses t T) s.world.tokens (spends T ≠ [] ∨ t.refresh = "")
    (own i T) (refusals i T)

namespace Orderly

variable {link : Link σ} {t : Tokens} {T : List (Move ι σ)} {s : Callers ι σ} {i : ι}

/-- The last access token that was stored is the one that is stored now. -/
lemma last_access (h : Orderly t T s) :
    (accesses t T).getLast? = some s.world.tokens.access := by
  have hmap : accesses t T = (t :: stores T).map Tokens.access := rfl
  rw [hmap, List.getLast?_map, h.last]
  rfl

/-- What was stored had to be asked for. -/
lemma spends_ne_nil_of_stores (h : Orderly t T s) (hstores : stores T ≠ []) : spends T ≠ [] := by
  apply Callers.spends_ne_nil
  intro hnil
  have hgranted := h.granted
  rw [hnil, List.map_nil, eq_comm, List.append_eq_nil_iff] at hgranted
  exact hstores hgranted.1

/-- Nothing was stored yet, or a refresh token was sent. -/
lemma tokens_eq_or (h : Orderly t T s) :
    (stores T = [] ∧ s.world.tokens = t) ∨ spends T ≠ [] := by
  by_cases hstores : stores T = []
  · left
    have hlast := h.last
    rw [hstores] at hlast
    exact ⟨hstores, (Option.some.inj hlast).symm⟩
  · exact .inr (h.spends_ne_nil_of_stores hstores)

/-- There is no refresh token only if there was none, or the first one was spent. -/
lemma spent_of_empty (h : Orderly t T s) (hempty : s.world.tokens.refresh = "") :
    spends T ≠ [] ∨ t.refresh = "" := by
  obtain ⟨-, htokens⟩ | hspends := h.tokens_eq_or
  · exact .inr (htokens ▸ hempty)
  · exact .inl hspends

/-- A token that is stored no longer was replaced. -/
lemma spent_of_stale (h : Orderly t T s) {used : String} (hused : used ∈ accesses t T)
    (hne : used ≠ s.world.tokens.access) : spends T ≠ [] ∨ t.refresh = "" := by
  obtain ⟨hstores, htokens⟩ | hspends := h.tokens_eq_or
  · rw [accesses, hstores, List.map_nil, List.mem_singleton] at hused
    exact absurd (htokens ▸ hused) hne
  · exact .inl hspends

end Orderly

/-! ### One move -/

/-- How the callers go from `s` to `s'` when the caller `i` moves and need not wait. -/
structure Advances (s : Callers ι σ) (i : ι) (s' : Callers ι σ) : Prop where
  /-- The one who moves takes a step. -/
  goes : (s.calls i).Goes s.world.tokens (s'.calls i) s'.world.tokens
  /-- Whoever takes the lock finds it free. -/
  free : (s.calls i).takesLock → s.holder = none
  /-- The others stay where they are. -/
  others : ∀ j, j ≠ i → s'.calls j = s.calls j
  /-- The lock is taken, or released, or neither. -/
  holder : s'.holder = s.holderAfter i (s'.calls i)

/-- Only the holder of the lock is at a stage where the lock is held. -/
def Locked (s : Callers ι σ) : Prop :=
  ∀ i, s.holder = some i ↔ (s.calls i).holdsLock

namespace Advances

variable {s s' : Callers ι σ} {i : ι}

/-- Whoever comes to hold the lock held it already, or nobody did. -/
lemma holder_of_holdsLock (hs : Advances s i s') (h : s.Locked) (h' : (s'.calls i).holdsLock) :
    s.holder = none ∨ s.holder = some i :=
  (hs.goes.holdsLock_or h').imp hs.free (h i).mpr

/-- Only the holder of the lock is at a stage where it is held, also after a move. -/
lemma locked (hs : Advances s i s') (h : s.Locked) : s'.Locked := by
  intro j
  rw [hs.holder, holderAfter]
  by_cases hij : j = i
  · subst hij
    by_cases hc : (s'.calls j).holdsLock
    · simp [hc]
    · by_cases hj : s.holder = some j <;> simp [hc, hj]
  · have hji : ¬i = j := fun hi => hij hi.symm
    rw [hs.others j hij, ← h j]
    by_cases hc : (s'.calls i).holdsLock
    · obtain hnone | hi := hs.holder_of_holdsLock h hc
      · simp [hc, hnone, hji]
      · simp [hc, hi, hji]
    · by_cases hi : s.holder = some i
      · simp [hc, hi, hji]
      · simp [hc, hi]

end Advances

/-- Whoever moves takes a step or waits for the lock. -/
lemma advances_or_waits (link : Link σ) (s : Callers ι σ) (i : ι) :
    Advances s i (s.move link i) ∨ ((s.calls i).takesLock ∧ s.move link i = s) := by
  obtain ⟨htakes, -, hm⟩ | ⟨hfree, hworld, hcalls, hholder⟩ := move_cases link s i
  · exact .inr ⟨htakes, hm⟩
  · left
    have hi : (s.move link i).calls i = ((s.calls i).step link s.world).1 := by
      rw [hcalls, Function.update_self]
    refine ⟨?_, hfree, fun j hj => move_calls_of_ne link s hj, ?_⟩
    · rw [hi, hworld]
      exact Call.goes_step link (s.calls i) s.world
    · rw [hi, hholder]

namespace Orderly

variable {t : Tokens} {T : List (Move ι σ)} {s s' : Callers ι σ} {i : ι}

/-- The pair that is about to be stored is that of the one who moves, if it takes or holds the
lock. -/
lemma pending_eq (h : Orderly t T s) (hfree : (s.calls i).takesLock → s.holder = none)
    (hlock : (s.calls i).takesLock ∨ (s.calls i).holdsLock) :
    s.pending = (s.calls i).pair?.toList := by
  obtain htakes | hholds := hlock
  · obtain ⟨q, used, hc⟩ := Call.eq_refused_of_takesLock htakes
    rw [pending, hfree htakes, hc]
    rfl
  · rw [pending, (h.holder i).mpr hholds]
    rfl

/-- Likewise after the move. -/
lemma pending_advances (h : Orderly t T s) (hs : Advances s i s')
    (hlock : (s.calls i).takesLock ∨ (s.calls i).holdsLock) :
    s'.pending = (s'.calls i).pair?.toList := by
  by_cases hc : (s'.calls i).holdsLock
  · rw [pending, hs.holder, holderAfter, if_pos hc]
    rfl
  · have hnone : s'.holder = none := by
      rw [hs.holder, holderAfter, if_neg hc]
      obtain htakes | hholds := hlock
      · rw [hs.free htakes]
        rfl
      · rw [if_pos ((h.holder i).mpr hholds)]
    have hpair : (s'.calls i).pair? = none := by
      rw [Option.eq_none_iff_forall_ne_some]
      exact fun pair hp => hc (Call.holdsLock_of_pair? hp)
    rw [pending, hnone, hpair]
    rfl

/-- A move that has nothing to do with the lock leaves it alone. -/
lemma pending_unlocked (h : Orderly t T s) (hs : Advances s i s')
    (hlock : ¬((s.calls i).takesLock ∨ (s.calls i).holdsLock)) :
    s'.pending = s.pending ∧ (s.calls i).pair? = none ∧ (s'.calls i).pair? = none := by
  have hc : ¬(s'.calls i).holdsLock := fun hc => hlock (hs.goes.holdsLock_or hc)
  have hi : s.holder ≠ some i := fun hi => hlock (.inr ((h.holder i).mp hi))
  have hholder : s'.holder = s.holder := by
    rw [hs.holder, holderAfter, if_neg hc, if_neg hi]
  refine ⟨?_, ?_, ?_⟩
  · rw [pending, pending, hholder]
    cases hj : s.holder with
    | none => rfl
    | some j =>
      have hji : j ≠ i := fun hji => hi (hji ▸ hj)
      rw [Option.elim_some, Option.elim_some, hs.others j hji]
  · rw [Option.eq_none_iff_forall_ne_some]
    exact fun pair hp => hlock (.inr (Call.holdsLock_of_pair? hp))
  · rw [Option.eq_none_iff_forall_ne_some]
    exact fun pair hp => hc (Call.holdsLock_of_pair? hp)

/-- The pair of a renewal is the one that is about to be stored. -/
lemma renewal_new (hs : Advances s i s') :
    (Move.mk i s s').renewal?.map Renewal.new = (s'.calls i).pair? := by
  rw [← hs.goes.grant_eq, Move.renewal?, Option.map_map]
  rfl

/-- The pairs that came back are those that were stored, and the one that is about to be. -/
lemma granted_advances (h : Orderly t T s) (hs : Advances s i s') :
    (renewals (T ++ [⟨i, s, s'⟩])).map Renewal.new =
      stores (T ++ [⟨i, s, s'⟩]) ++ s'.pending := by
  rw [renewals_snoc, stores_snoc, List.map_append, ← Option.toList_map, renewal_new hs, h.granted,
    Move.call_mk]
  by_cases hlock : (s.calls i).takesLock ∨ (s.calls i).holdsLock
  · rw [h.pending_eq hs.free hlock, h.pending_advances hs hlock]
  · obtain ⟨hpending, hpair, hpair'⟩ := h.pending_unlocked hs hlock
    rw [hpending, hpair, hpair']
    simp

/-- A renewal replaces the pair that is stored, and that is the one of the renewal before. -/
lemma lineage_advances (h : Orderly t T s) (hs : Advances s i s') :
    Lineage t (renewals (T ++ [⟨i, s, s'⟩])) := by
  rw [renewals_snoc]
  cases hr : (Move.mk i s s').renewal? with
  | none => simpa using h.lineage
  | some r =>
    obtain ⟨hspent, hold, -⟩ := Move.spent_of_renewal hr
    rw [Move.call_mk] at hspent
    obtain ⟨q, hcall⟩ := Call.eq_refreshing_of_spent? hspent
    have hfit := h.fits i
    rw [hcall] at hfit
    have hpending : s.pending = [] := by
      rw [h.pending_eq hs.free (.inr (by rw [hcall]; rfl)), hcall]
      rfl
    have hlast : ((renewals T).map Renewal.new).getLast?.getD t = s.world.tokens := by
      have hl := h.last
      rw [List.getLast?_cons] at hl
      rw [h.granted, hpending, List.append_nil]
      exact Option.some.inj hl
    rw [Option.toList_some, lineage_snoc, hlast]
    exact ⟨h.lineage, hold, hfit.2.2⟩

/-- The tokens are those that were stored last. -/
lemma last_advances (h : Orderly t T s) (hs : Advances s i s') :
    (t :: stores (T ++ [⟨i, s, s'⟩])).getLast? = some s'.world.tokens := by
  rw [stores_snoc, Move.call_mk, ← List.cons_append, List.getLast?_append, h.last,
    hs.goes.tokens_eq]
  cases (s.calls i).pair? <;> rfl

/-- A pair is stored only if its access token never was. -/
lemma nodup_advances (h : Orderly t T s) : (accesses t (T ++ [⟨i, s, s'⟩])).Nodup := by
  rw [accesses_snoc, Move.call_mk]
  cases hc : s.calls i with
  | storing q pair =>
    have hfit := h.fits i
    rw [hc] at hfit
    have hnew : pair.access ∉ accesses t T := hfit.2.2.1
    simpa [Call.pair?, List.nodup_append, h.nodup] using fun a ha => ne_of_mem_of_not_mem ha hnew
  | _ => simpa [Call.pair?] using h.nodup

/-- All callers remember what they need, also after a move. -/
lemma fits_advances (h : Orderly t T s) (hs : Advances s i s')
    (hfresh : ∀ r, (Move.mk i s s').renewal? = some r → r.new.access ∉ accesses t T) (j : ι) :
    (s'.calls j).Fits (accesses t (T ++ [⟨i, s, s'⟩])) s'.world.tokens
      (spends (T ++ [⟨i, s, s'⟩]) ≠ [] ∨ t.refresh = "") (own j (T ++ [⟨i, s, s'⟩]))
      (refusals j (T ++ [⟨i, s, s'⟩])) := by
  have hspends : spends (T ++ [⟨i, s, s'⟩]) ≠ [] ↔
      spends T ≠ [] ∨ (s.calls i).spent?.isSome := by
    rw [spends_snoc, Move.call_mk]
    cases (s.calls i).spent? <;> simp
  rw [accesses_snoc, own_snoc, refusals_snoc, Move.call_mk, Move.next_mk, hspends]
  -- the one who moves knows more afterwards, and the others know what they knew
  by_cases hij : j = i
  · subst hij
    rw [if_pos rfl, if_pos rfl, or_right_comm]
    refine (h.fits j).goes hs.goes h.last_access ?_ h.spent_of_empty fun used => h.spent_of_stale
    intro token pair hg
    exact hfresh ⟨s.world.tokens, token, pair⟩ (Option.map_eq_some_iff.mpr ⟨_, hg, rfl⟩)
  · have hne : ¬i = j := fun hi => hij hi.symm
    rw [if_neg hne, if_neg hne, List.append_nil, List.append_nil, hs.others j hij]
    refine (h.fits j).mono (List.prefix_append _ _) (fun hsp => hsp.imp_left .inl) fun hlock => ?_
    -- if `j` holds the lock, `i` does not, and so `i` stores nothing
    have hnone : (s.calls i).pair? = none := by
      rw [Option.eq_none_iff_forall_ne_some]
      intro pair hp
      have hi := (h.holder i).mpr (Call.holdsLock_of_pair? hp)
      rw [(h.holder j).mpr hlock] at hi
      exact hij (Option.some.inj hi)
    rw [hs.goes.tokens_eq, hnone]
    exact ⟨List.append_nil _, rfl⟩

/-- Whoever waits for the lock changes nothing. -/
lemma waits (h : Orderly t T s) (hw : (s.calls i).takesLock) :
    Orderly t (T ++ [⟨i, s, s⟩]) s := by
  obtain ⟨q, used, hc⟩ := Call.eq_refused_of_takesLock hw
  have hcall : (Move.mk i s s).call = .refused q used := hc
  have hnext : (Move.mk i s s).next = .refused q used := hc
  -- to wait for the lock is a move in which nothing is sent, granted or stored
  have hrenewals : renewals (T ++ [⟨i, s, s⟩]) = renewals T := by
    rw [renewals_snoc, Move.renewal?, hcall, hnext]
    exact List.append_nil _
  have hstores : stores (T ++ [⟨i, s, s⟩]) = stores T := by
    rw [stores_snoc, hcall]
    exact List.append_nil _
  have hspends : spends (T ++ [⟨i, s, s⟩]) = spends T := by
    rw [spends_snoc, hcall]
    exact List.append_nil _
  have hown (j : ι) : own j (T ++ [⟨i, s, s⟩]) = own j T := by
    rw [own_snoc, hcall]
    simp [Call.own?]
  have hrefusals (j : ι) : refusals j (T ++ [⟨i, s, s⟩]) = refusals j T := by
    rw [refusals_snoc, hcall, hnext]
    simp [Call.refusal?]
  have haccesses : accesses t (T ++ [⟨i, s, s⟩]) = accesses t T := by
    rw [accesses, hstores, accesses]
  refine ⟨h.holder, ?_, ?_, ?_, ?_, fun j => ?_⟩
  · rw [hstores]
    exact h.last
  · rw [haccesses]
    exact h.nodup
  · rw [hrenewals]
    exact h.lineage
  · rw [hrenewals, hstores]
    exact h.granted
  · rw [haccesses, hspends, hown, hrefusals]
    exact h.fits j

/-- The step lemma: a move keeps the callers in order. -/
theorem move (h : Orderly t T s) (link : Link σ) (i : ι)
    (hfresh : ∀ r, (Move.mk i s (s.move link i)).renewal? = some r →
      r.new.access ∉ accesses t T) :
    Orderly t (T ++ [⟨i, s, s.move link i⟩]) (s.move link i) := by
  obtain hs | ⟨hw, hm⟩ := advances_or_waits link s i
  · exact {
      holder := hs.locked h.holder
      last := h.last_advances hs
      nodup := h.nodup_advances
      lineage := h.lineage_advances hs
      granted := h.granted_advances hs
      fits := h.fits_advances hs hfresh }
  · rw [hm]
    exact h.waits hw

end Orderly

/-! ### A run -/

/-- Every refresh that is granted brings an access token that was never stored before. -/
def RenewsFresh (t : Tokens) (T : List (Move ι σ)) : Prop :=
  ∀ T₁ m T₂, T = T₁ ++ m :: T₂ → ∀ r, m.renewal? = some r → r.new.access ∉ accesses t T₁

omit [DecidableEq ι] in
/-- Whether all refreshes brought new tokens can be told move by move. -/
lemma renewsFresh_iff {t : Tokens} {T : List (Move ι σ)} :
    RenewsFresh t T ↔ ∀ k (h : k < T.length), ∀ r ∈ T[k].renewal?,
      r.new.access ∉ accesses t (T.take k) := by
  constructor
  · intro h k hk
    exact h (T.take k) T[k] (T.drop (k + 1)) (by simp)
  · rintro h T₁ m T₂ rfl r hr
    simpa using h T₁.length (by simp) r (by simpa using hr)

instance (t : Tokens) (T : List (Move ι σ)) : Decidable (RenewsFresh t T) :=
  decidable_of_iff _ renewsFresh_iff.symm

omit [DecidableEq ι] in
/-- If they have in a whole run, they have in the beginning of it. -/
lemma RenewsFresh.left {t : Tokens} {T₁ T₂ : List (Move ι σ)} (h : RenewsFresh t (T₁ ++ T₂)) :
    RenewsFresh t T₁ := by
  rintro S₁ m S₂ rfl
  exact h S₁ m (S₂ ++ T₂) (by simp)

variable (link : Link σ) (w : World σ) (queries : ι → Query)

/-- Before anybody has moved, all is in order. -/
lemma orderly_begin : Orderly w.tokens [] (begin w queries : Callers ι σ) where
  holder i := by simp [begin, Call.holdsLock]
  last := rfl
  nodup := List.nodup_singleton _
  lineage := trivial
  granted := rfl
  fits i := ⟨rfl, rfl⟩

/-- Callers are in order at every point of a run. -/
theorem orderly_run (schedule : List ι)
    (hfresh : RenewsFresh w.tokens ((begin w queries).moves link schedule)) :
    Orderly w.tokens ((begin w queries).moves link schedule)
      ((begin w queries).run link schedule) := by
  induction schedule using List.reverseRecOn with
  | nil => exact orderly_begin w queries
  | append_singleton schedule i ih =>
    rw [moves_append] at hfresh ⊢
    rw [run_append]
    exact (ih hfresh.left).move link i (hfresh _ _ [] rfl)

variable {link w queries}

/-- Every part of a run up to some move is a run of its own. -/
lemma orderly_before {schedule : List ι}
    (hfresh : RenewsFresh w.tokens ((begin w queries).moves link schedule))
    {T₁ T₂ : List (Move ι σ)} {m : Move ι σ}
    (hT : (begin w queries).moves link schedule = T₁ ++ m :: T₂) :
    Orderly w.tokens T₁ m.before := by
  obtain ⟨xs, ys, rfl, rfl, hbefore, -⟩ := moves_eq_append link _ schedule hT
  rw [hbefore]
  refine orderly_run link w queries xs ?_
  rw [moves_append] at hfresh
  exact hfresh.left

end Callers
end Duelist
