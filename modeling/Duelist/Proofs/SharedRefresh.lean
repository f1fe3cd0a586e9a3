import Duelist.Proofs.Renewals
/-!
# Callers share one refresh

What any number of callers may rely on who make their calls at once, with the same stored tokens
and in any order of their steps. The main statement is `callers_share_refresh`.

It follows from `orderly_run`, which is used at the end of the run and at every move before.
-/

namespace Duelist

/-! ### What is sent -/

namespace Call

/-- What a step sends is what it does to the transcript. -/
lemma deeds_exchanges {σ : Type} (link : Link σ) (w : World σ) (c : Call) :
    (c.deeds link w).filterMap Deed.exchange? =
      ((c.request? link.base).map fun r => (r, link.outcome r w)).toList := by
  cases c <;> rfl

end Call

/-- The pairs that were replaced are those that came before the ones that came back. -/
lemma Lineage.old_prefix {t : Tokens} {l : List Renewal} (h : Lineage t l) :
    l.map Renewal.old <+: t :: l.map Renewal.new := by
  induction l generalizing t with
  | nil => exact List.nil_prefix
  | cons r l ih =>
    obtain ⟨rfl, -, hrest⟩ := h
    exact List.cons_prefix_cons.mpr ⟨rfl, ih hrest⟩

namespace Callers

variable {ι σ : Type}

/-- The exchange of a move. -/
def Move.exchange? (link : Link σ) (m : Move ι σ) : Option (Request × Outcome) :=
  (m.call.request? link.base).map fun r => (r, link.outcome r m.before.world)

variable [DecidableEq ι]

/-- What a move sends is what it adds to the transcript. -/
lemma move_exchanges (link : Link σ) (s : Callers ι σ) (i : ι) :
    (s.move link i).world.exchanges =
      s.world.exchanges ++ ((Move.mk i s (s.move link i)).exchange? link).toList := by
  rw [Move.exchange?, Move.call_mk]
  obtain ⟨htakes, -, hm⟩ | ⟨-, hworld, -⟩ := move_cases link s i
  · obtain ⟨q, used, hc⟩ := Call.eq_refused_of_takesLock htakes
    simp [hm, hc, Call.request?]
  · rw [hworld, (Call.leads_step link (s.calls i) s.world).exchanges_eq, Call.deeds_exchanges]

variable (link : Link σ) (w : World σ) (queries : ι → Query)

/-- What was sent is what the moves sent. -/
lemma run_exchanges (schedule : List ι) : ((begin w queries).run link schedule).world.exchanges =
    w.exchanges ++ ((begin w queries).moves link schedule).filterMap (Move.exchange? link) := by
  induction schedule using List.reverseRecOn with
  | nil => exact (List.append_nil _).symm
  | append_singleton schedule i ih =>
    rw [run_append, moves_append, List.filterMap_append, ← List.append_assoc, ← ih]
    have h := move_exchanges link ((begin w queries).run link schedule) i
    exact h.trans (congrArg _ (filterMap_snoc _ [] _).symm)

/-- Every caller keeps to its query. -/
lemma run_query (schedule : List ι) (i : ι) {q : Query}
    (h : (((begin w queries).run link schedule).calls i).query? = some q) : q = queries i := by
  induction schedule using List.reverseRecOn with
  | nil => exact (Option.some.inj h).symm
  | append_singleton schedule j ih =>
    rw [run_append] at h
    obtain hs | ⟨-, hm⟩ := advances_or_waits link ((begin w queries).run link schedule) j
    · by_cases hij : i = j
      · subst hij
        exact ih (hs.goes.query_eq h)
      · have hi := hs.others i hij
        exact ih (hi ▸ h)
    · exact ih (hm ▸ h)

/-! ### What follows from the order -/

omit [DecidableEq ι] in
/-- No more than one pair is about to be stored. -/
lemma length_pending_le (s : Callers ι σ) : s.pending.length ≤ 1 := by
  rw [pending]
  cases s.holder with
  | none => exact Nat.zero_le 1
  | some i => exact Option.length_toList_le

namespace Orderly

variable {link w queries} {t : Tokens} {T : List (Move ι σ)} {s : Callers ι σ} {i : ι}

/-- Whoever is about to spend a refresh token holds the lock, and saw the stored token refused. -/
lemma of_spent (h : Orderly t T s) {token : String} (hspent : (s.calls i).spent? = some token) :
    token = s.world.tokens.refresh ∧ refusals i T = [s.world.tokens.access] ∧
      (renewals T).map Renewal.new = stores T := by
  obtain ⟨q, hc⟩ := Call.eq_refreshing_of_spent? hspent
  have hfit := h.fits i
  rw [hc] at hfit
  obtain ⟨-, hrefused, htoken⟩ := hfit
  have hholds : (s.calls i).holdsLock := by rw [hc]; rfl
  have hpending : s.pending = [] := by
    rw [h.pending_eq (fun htakes => by rw [hc] at htakes; cases htakes) (.inr hholds), hc]
    rfl
  refine ⟨htoken, hrefused, ?_⟩
  rw [h.granted, hpending, List.append_nil]

/-- The first token is the stored one only as long as nothing was stored. -/
lemma stores_eq_nil (h : Orderly t T s) (ht : s.world.tokens.access = t.access) :
    stores T = [] := by
  by_contra hne
  have hlast := h.last_access
  rw [accesses, List.getLast?_cons_of_ne_nil (by simpa using hne), ht] at hlast
  have hnodup := h.nodup
  rw [accesses, List.nodup_cons] at hnodup
  exact hnodup.1 (List.mem_of_getLast? hlast)

/-- No pair was replaced twice. -/
lemma nodup_old (h : Orderly t T s) : ((renewals T).map Renewal.old).Nodup := by
  have hprefix : (renewals T).map Renewal.old <+: t :: (stores T ++ s.pending) := by
    rw [← h.granted]
    exact h.lineage.old_prefix
  have hlength : s.pending.length ≤ 1 := length_pending_le s
  have hle : ((renewals T).map Renewal.old).length ≤ (t :: stores T).length := by
    have hgranted := congrArg List.length h.granted
    rw [List.length_map, List.length_append] at hgranted
    rw [List.length_map, List.length_cons]
    omega
  have hstored : (renewals T).map Renewal.old <+: t :: stores T :=
    List.prefix_of_prefix_length_le hprefix (List.prefix_append (t :: stores T) s.pending) hle
  have hnodup : (t :: stores T).Nodup := List.Nodup.of_map Tokens.access h.nodup
  exact hnodup.sublist hstored.sublist

/-- A caller whose refused token is the stored one saw it refused after it was stored. -/
lemma stale (h : Orderly t T s) {T' : List (Move ι σ)} {s' : Callers ι σ} (hT : T' <+: T)
    (h' : Orderly t T' s') {used token : String} (hrefused : refusals i T' = [used])
    (hstale : s'.world.tokens.access ≠ used) (hspent : (s.calls i).spent? = some token) :
    False := by
  obtain ⟨A, rfl⟩ := hT
  obtain ⟨-, hnow, -⟩ := h.of_spent hspent
  have hused : used = s.world.tokens.access := by
    rw [refusals, List.filterMap_append, ← refusals, hrefused] at hnow
    exact (List.cons.inj hnow).1
  have hmem : used ∈ accesses t T' :=
    (h'.fits i).mem_of_refused (List.mem_of_getLast? h'.last_access) (by simp [hrefused])
  have happend : accesses t (T' ++ A) = accesses t T' ++ (stores A).map Tokens.access := by
    rw [accesses, stores, List.filterMap_append, List.map_append]
    rfl
  have hlast := h.last_access
  have hnodup := h.nodup
  rw [happend] at hlast hnodup
  -- either nothing was stored since, or what is stored now was stored before and once more since
  by_cases hnil : (stores A).map Tokens.access = []
  · rw [hnil, List.append_nil, h'.last_access, ← hused] at hlast
    exact hstale (Option.some.inj hlast)
  · rw [List.getLast?_append_of_ne_nil _ hnil, ← hused] at hlast
    exact List.disjoint_of_nodup_append hnodup hmem (List.mem_of_getLast? hlast)

end Orderly

/-! ### What callers may rely on -/

/-- What callers who began in the world `w` with the queries `queries` may rely on once they have
made the moves `T` and have come to `s`. -/
structure SharedRefresh (T : List (Move ι σ)) (s : Callers ι σ) : Prop where
  /-- What was sent is what the moves sent. -/
  told : s.world.exchanges = w.exchanges ++ T.filterMap (Move.exchange? link)
  /-- A caller sends its own query, with a token of `own`, or it sends the refresh token that is
  stored at that moment, and counts it in `spends`. -/
  sent : ∀ m ∈ T, ∀ r, m.call.request? link.base = some r →
    (∃ token, m.call.own? = some token ∧ m.call.spent? = none ∧
      r = (queries m.caller).carrying link.base token) ∨
    (m.call.own? = none ∧ m.call.spent? = some m.found.refresh ∧
      r = .refresh link.base m.found.refresh)
  /-- Each pair was obtained with the refresh token of the one before. -/
  lineage : Lineage w.tokens (renewals T)
  /-- No pair is replaced twice. -/
  once : ((renewals T).map Renewal.old).Nodup
  /-- The pairs that came back are stored in this order, and all but the last one have been. -/
  stored : ∃ rest, (renewals T).map Renewal.new = stores T ++ rest ∧ rest.length ≤ 1
  /-- The tokens are those that were stored last. -/
  last : (w.tokens :: stores T).getLast? = some s.world.tokens
  /-- A caller whose refused token is no longer the stored one does not refresh. -/
  stale : ∀ T₁ T₂, T = T₁ ++ T₂ → ∀ i used, refusals i T₁ = [used] →
    (accesses w.tokens T₁).getLast? ≠ some used → ∀ m ∈ T₂, m.caller = i → m.call.spent? = none
  /-- Whoever sends its query again does so with a token that was stored after the one that it saw
  refused. -/
  retried : ∀ T₁ m T₂, T = T₁ ++ m :: T₂ → ∀ q fresh, m.call = .retrying q fresh →
    ∃ used, refusals m.caller T₁ = [used] ∧ [used, fresh].Sublist (accesses w.tokens T₁)
  /-- No token was stored twice. -/
  distinct : (accesses w.tokens T).Nodup
  /-- Each caller sends its own query at most twice. -/
  twice : ∀ i, (own i T).length ≤ 2
  /-- If no token is refused but the first one, no more than one refresh is granted, and nobody
  refreshes thereafter. -/
  single : (∀ i, ∀ used ∈ refusals i T, used = w.tokens.access) →
    ∀ T₁ T₂, T = T₁ ++ T₂ → renewals T₁ ≠ [] → renewals T₂ = [] ∧ spends T₂ = []
  /-- If moreover every refresh is granted, and some caller is done whose token was refused, there
  was exactly one refresh. -/
  exact : (∀ i, ∀ used ∈ refusals i T, used = w.tokens.access) →
    (∀ m ∈ T, m.call.spent? ≠ none → m.renewal? ≠ none) → w.tokens.refresh ≠ "" →
    (∃ i result, s.calls i = .finished result ∧ refusals i T ≠ []) →
    spends T = [w.tokens.refresh]

section

variable {link w queries} {schedule : List ι}
  (hfresh : RenewsFresh w.tokens ((begin w queries).moves link schedule))

include hfresh

/-- What a move sends is the query of its caller, or the refresh token that is stored. -/
lemma sent_of_mem {m : Move ι σ} (hm : m ∈ (begin w queries).moves link schedule) {r : Request}
    (hr : m.call.request? link.base = some r) :
    (∃ token, m.call.own? = some token ∧ m.call.spent? = none ∧
      r = (queries m.caller).carrying link.base token) ∨
    (m.call.own? = none ∧ m.call.spent? = some m.found.refresh ∧
      r = .refresh link.base m.found.refresh) := by
  obtain ⟨T₁, T₂, hT⟩ := List.append_of_mem hm
  obtain ⟨xs, ys, -, -, hbefore, -⟩ := moves_eq_append link _ schedule hT
  have hquery {q : Query} (hq : m.call.query? = some q) : q = queries m.caller := by
    rw [Move.call, hbefore] at hq
    exact run_query link w queries xs m.caller hq
  -- at all but three stages nothing is sent
  cases hc : m.call with
  | sending q used =>
    rw [hc] at hr hquery
    refine .inl ⟨used, rfl, rfl, ?_⟩
    rw [← hquery rfl]
    exact (Option.some.inj hr).symm
  | retrying q fresh =>
    rw [hc] at hr hquery
    refine .inl ⟨fresh, rfl, rfl, ?_⟩
    rw [← hquery rfl]
    exact (Option.some.inj hr).symm
  | refreshing q token =>
    have hspent : m.call.spent? = some token := by rw [hc]; rfl
    obtain ⟨rfl, -⟩ := (orderly_before hfresh hT).of_spent hspent
    rw [hc] at hr
    exact .inr ⟨rfl, rfl, (Option.some.inj hr).symm⟩
  | _ => rw [hc] at hr; cases hr

/-- A query is sent again with a token that was stored after the one that was refused. -/
lemma retried_of_eq {T₁ T₂ : List (Move ι σ)} {m : Move ι σ}
    (hT : (begin w queries).moves link schedule = T₁ ++ m :: T₂) {q : Query} {fresh : String}
    (hm : m.call = .retrying q fresh) :
    ∃ used, refusals m.caller T₁ = [used] ∧ [used, fresh].Sublist (accesses w.tokens T₁) := by
  have hfit := (orderly_before hfresh hT).fits m.caller
  rw [show m.before.calls m.caller = m.call from rfl, hm] at hfit
  obtain ⟨used, -, hrefused, hsub, -⟩ := hfit
  exact ⟨used, hrefused, hsub⟩

/-- If no token is refused but the first one, nobody refreshes once a refresh was granted. -/
lemma first_of_spent {T₁ T₂ : List (Move ι σ)} {m : Move ι σ}
    (hT : (begin w queries).moves link schedule = T₁ ++ m :: T₂)
    (honly : ∀ i, ∀ used ∈ refusals i ((begin w queries).moves link schedule),
      used = w.tokens.access)
    {token : String} (hm : m.call.spent? = some token) :
    renewals T₁ = [] ∧ token = w.tokens.refresh := by
  have h := orderly_before hfresh hT
  obtain ⟨rfl, hrefused, hrenewals⟩ := h.of_spent hm
  have hmem : m.before.world.tokens.access ∈
      refusals m.caller ((begin w queries).moves link schedule) := by
    rw [hT, refusals, List.filterMap_append, ← refusals, hrefused]
    exact List.mem_append_left _ (List.mem_singleton_self _)
  have hstores := h.stores_eq_nil (honly m.caller _ hmem)
  have hlast := h.last
  rw [hstores] at hrenewals hlast
  have htokens : w.tokens = m.before.world.tokens := Option.some.inj hlast
  exact ⟨List.map_eq_nil_iff.mp hrenewals, by rw [htokens]⟩

/-- Once a refresh was granted, none is sent any more, if only the first token was ever refused. -/
lemma single_of_eq {T₁ T₂ : List (Move ι σ)}
    (hT : (begin w queries).moves link schedule = T₁ ++ T₂)
    (honly : ∀ i, ∀ used ∈ refusals i ((begin w queries).moves link schedule),
      used = w.tokens.access)
    (hne : renewals T₁ ≠ []) : spends T₂ = [] := by
  rw [spends, List.filterMap_eq_nil_iff]
  intro m hm
  rw [Option.eq_none_iff_forall_ne_some]
  intro token htoken
  obtain ⟨A, B, rfl⟩ := List.append_of_mem hm
  have hsplit : (begin w queries).moves link schedule = (T₁ ++ A) ++ m :: B := by
    rw [hT, List.append_assoc]
  obtain ⟨hnil, -⟩ := first_of_spent hfresh hsplit honly htoken
  rw [renewals, List.filterMap_append, List.append_eq_nil_iff] at hnil
  exact hne hnil.1

/-- If moreover every refresh is granted, there is exactly one. -/
lemma spends_eq_of_finished
    (honly : ∀ i, ∀ used ∈ refusals i ((begin w queries).moves link schedule),
      used = w.tokens.access)
    (hgranted : ∀ m ∈ (begin w queries).moves link schedule,
      m.call.spent? ≠ none → m.renewal? ≠ none)
    (hrefresh : w.tokens.refresh ≠ "")
    (hdone : ∃ i result, ((begin w queries).run link schedule).calls i = .finished result ∧
      refusals i ((begin w queries).moves link schedule) ≠ []) :
    spends ((begin w queries).moves link schedule) = [w.tokens.refresh] := by
  obtain ⟨i, result, hend, hrefused⟩ := hdone
  have hfit := (orderly_run link w queries schedule hfresh).fits i
  rw [hend] at hfit
  obtain hspends | hempty := hfit.2.2.resolve_left hrefused
  · obtain ⟨token, htoken⟩ := List.exists_mem_of_ne_nil _ hspends
    obtain ⟨m, hm, hspent⟩ := List.mem_filterMap.mp htoken
    obtain ⟨T₁, T₂, hT⟩ := List.append_of_mem hm
    obtain ⟨hfirst, rfl⟩ := first_of_spent hfresh hT honly hspent
    -- what was sent before would have been granted, against the token's being the first one
    have hbefore : spends T₁ = [] := by
      rw [spends, List.filterMap_eq_nil_iff]
      intro m' hm'
      by_contra hspent'
      have hr := hgranted m' (by rw [hT]; exact List.mem_append_left _ hm') hspent'
      rw [renewals, List.filterMap_eq_nil_iff] at hfirst
      exact hr (hfirst m' hm')
    have hafter : spends T₂ = [] := by
      have hsplit : (begin w queries).moves link schedule = (T₁ ++ [m]) ++ T₂ := by
        rw [hT, List.append_assoc, List.singleton_append]
      refine single_of_eq hfresh hsplit honly ?_
      rw [renewals_snoc, hfirst, List.nil_append]
      have hr := hgranted m hm (by rw [hspent]; exact Option.some_ne_none _)
      simpa using hr
    have hsplit : spends (T₁ ++ [m] ++ T₂) = spends T₁ ++ m.call.spent?.toList ++ spends T₂ := by
      rw [← spends_snoc]
      exact List.filterMap_append
    rw [hT, ← List.singleton_append, ← List.append_assoc, hsplit, hbefore, hafter, hspent]
    rfl
  · exact absurd hempty hrefresh

end

/-- Callers share one refresh, whatever the order of their steps, as long as every refresh that is
granted brings an access token that was never stored before. -/
theorem callers_share_refresh (link : Link σ) (w : World σ) (queries : ι → Query)
    (schedule : List ι)
    (hfresh : RenewsFresh w.tokens ((begin w queries).moves link schedule)) :
    SharedRefresh link w queries ((begin w queries).moves link schedule)
      ((begin w queries).run link schedule) := by
  have h := orderly_run link w queries schedule hfresh
  refine {
    told := run_exchanges link w queries schedule
    sent := fun m hm r => sent_of_mem hfresh hm
    lineage := h.lineage
    once := h.nodup_old
    stored := ⟨_, h.granted, length_pending_le _⟩
    last := h.last
    stale := ?_
    retried := fun T₁ m T₂ hT q fresh => retried_of_eq hfresh hT
    distinct := h.nodup
    twice := fun i => (h.fits i).length_own_le
    single := ?_
    exact := spends_eq_of_finished hfresh }
  · intro T₁ T₂ hT i used hrefused hstale m hm hi
    rw [Option.eq_none_iff_forall_ne_some]
    intro token htoken
    cases T₂ with
    | nil => cases hm
    | cons m₀ T₂ =>
      have h₀ := orderly_before hfresh hT
      -- `m` is made when the moves `A` have been made after the refusal
      obtain ⟨A, B, hAB⟩ := List.append_of_mem hm
      have hsplit : (begin w queries).moves link schedule = (T₁ ++ A) ++ m :: B := by
        rw [hT, hAB, List.append_assoc]
      subst hi
      refine (orderly_before hfresh hsplit).stale (List.prefix_append T₁ A) h₀ hrefused ?_ htoken
      rintro rfl
      exact hstale h₀.last_access
  · intro honly T₁ T₂ hT hne
    -- a renewal would have to be sent, and nothing is sent after the first one
    have hspends := single_of_eq hfresh hT honly hne
    refine ⟨?_, hspends⟩
    by_contra hrenewals
    exact Callers.spends_ne_nil hrenewals hspends

/-- A service that grants one refresh: it knows the access token `b` from then on, and `a` no
longer. -/
def renewing : Link Unit where
  base := ""
  answer request _ :=
    let body := "\x7b\"access_token\":\"b\",\"refresh_token\":\"y\"\x7d"
    if request.url = "/users/refresh" then
      (.ok { status := 200, body := .whole { bytes := body.toList.map (·.toNat.toUInt8) } }, ())
    else if request.bearer = some "a" then (.ok { status := 401, body := .whole {} }, ())
    else (.ok { status := 200, body := .whole {} }, ())

/-- The order in which two callers move: both tokens are refused, one caller waits while the other
one refreshes, and goes on with the new token. -/
def inTurn : List Bool :=
  [true, false, true, false, true, false, true, true, false, true, false, true, false, false]

/-- Two callers share one refresh. -/
theorem two_callers_share_refresh :
    let w : World Unit := { service := (), tokens := ⟨"a", "x"⟩ }
    let T := (begin w fun _ => .get "/duel").moves renewing inTurn
    RenewsFresh w.tokens T ∧ spends T = ["x"] ∧
      SharedRefresh renewing w (fun _ => .get "/duel") T
        ((begin w fun _ => .get "/duel").run renewing inTurn) := by
  refine ⟨by decide +kernel, by decide +kernel, callers_share_refresh _ _ _ _ ?_⟩
  decide +kernel

end Callers
end Duelist
