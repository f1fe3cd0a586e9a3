import Duelist.Proofs.Expiry
import Duelist.Proofs.RefreshAndRetry
import Duelist.Proofs.Reliance
/-!
# Inquiries

What comes of asking the service when others act in the same world between any two steps, whatever
they do, and when bodies have to be waited for.

`Course` says what one call comes to. It speaks of replies as they are read; but the deed of an
inquiry is noted when the reply arrives, and then its body may still be being written.
`Deed.ReadAs` leads from the one to the other. The main statement is `Link.does_ask`: an inquiry
takes such a course, for some access token, some pair of tokens found later and some contents of the
bodies (`Asked`). In fact the access token is the one that is stored at first, and what is known of
what others do to the stored pair is also known of the pair that is found later (`AskedFrom`,
`Link.does_ask_from`).
-/

namespace Duelist

variable {σ : Type}

attribute [local instance] Errand.lawfulMonad

/-! ### Replies that are read later -/

/-- What has been read is not read again. -/
lemma Reply.read_read (c c' : Content) (r : Reply) : (r.read c).read c' = r.read c := by
  obtain ⟨status, body⟩ := r
  cases body <;> rfl

/-- A body that was read is not being written any more. -/
lemma Reply.body_read_ne (c : Content) (r : Reply) : (r.read c).body ≠ .live := by
  obtain ⟨status, body⟩ := r
  cases body <;> exact Body.noConfusion

/-- The deed as it was, or with the body of the reply read in the meantime. -/
inductive Deed.ReadAs : Deed → Deed → Prop
  | same (d : Deed) : ReadAs d d
  | read (request : Request) (r : Reply) (c : Content) :
      ReadAs (.sent request (.ok r)) (.sent request (.ok (r.read c)))

/-- What is read once, or not at all, twice in a row is read once, or not at all. -/
lemma Deed.ReadAs.trans {d d' d'' : Deed} (h : d.ReadAs d') (h' : d'.ReadAs d'') :
    d.ReadAs d'' := by
  cases h with
  | same => exact h'
  | read request r c =>
    cases h' with
    | same => exact .read request r c
    | read _ _ c' =>
      rw [r.read_read]
      exact .read request r c

/-- So it is for each of several deeds. -/
lemma Deed.readAs_trans {ds ds' ds'' : List Deed} (h : List.Forall₂ Deed.ReadAs ds ds')
    (h' : List.Forall₂ Deed.ReadAs ds' ds'') : List.Forall₂ Deed.ReadAs ds ds'' := by
  induction h generalizing ds'' with
  | nil => exact h'
  | cons hd _ ih =>
    cases h' with
    | cons hd' htail => exact .cons (hd.trans hd') (ih htail)

/-- What asking `q` came to: what was done for it, and the result. -/
def Asked (base : String) (q : Query) (deeds : List Deed) (result : Except Failure Reply) : Prop :=
  ∃ (a : String) (found : Tokens) (read : List Deed),
    List.Forall₂ Deed.ReadAs deeds read ∧ Course base q a found read result

/-- The reply at the end of a course may be read. -/
lemma Course.read {base a : String} {q : Query} {found : Tokens} {ds : List Deed} {r : Reply}
    (h : Course base q a found ds (.ok r)) (c : Content) :
    ∃ ds', List.Forall₂ Deed.ReadAs ds ds' ∧ Course base q a found ds' (.ok (r.read c)) := by
  generalize hresult : Except.ok r = result at h
  cases h with
  | answered r' hr =>
    obtain rfl := Except.ok.inj hresult
    exact ⟨_, .cons (.read _ r c) .nil, .answered _ (by rwa [r.status_read])⟩
  | overtaken r' hr hfound o =>
    cases o with
    | error reasons => cases hresult
    | ok s' =>
      obtain rfl := Except.ok.inj hresult
      exact ⟨_, .cons (.same _) (.cons (.read _ r c) .nil),
        .overtaken r' hr hfound (.ok (r.read c))⟩
  | refreshed r' hr hfound hrefresh s hs pair hread o =>
    cases o with
    | error reasons => cases hresult
    | ok s' =>
      obtain rfl := Except.ok.inj hresult
      exact ⟨_, .cons (.same _) (.cons (.same _) (.cons (.same _) (.cons (.read _ r c) .nil))),
        .refreshed r' hr hfound hrefresh s hs pair hread (.ok (r.read c))⟩
  | _ => cases hresult

/-- What asking `q` came to if the pair `before` was stored at first, `R` being what becomes of the
stored pair. -/
def AskedFrom (R : Tokens → Tokens → Prop) (base : String) (before : Tokens) (q : Query)
    (deeds : List Deed) (result : Except Failure Reply) : Prop :=
  ∃ (found : Tokens) (read : List Deed), R before found ∧
    List.Forall₂ Deed.ReadAs deeds read ∧ Course base q before.access found read result

section

variable {R : Tokens → Tokens → Prop} {base : String} {before : Tokens} {q : Query}
  {ds : List Deed} {result : Except Failure Reply}

/-- What asking came to does not depend on what is known of the stored pairs. -/
lemma AskedFrom.asked (h : AskedFrom R base before q ds result) : Asked base q ds result := by
  obtain ⟨found, read, -, hread, hcourse⟩ := h
  exact ⟨before.access, found, read, hread, hcourse⟩

/-- The reply that comes of asking may be read. -/
lemma AskedFrom.read {r : Reply} (h : AskedFrom R base before q ds (.ok r)) (c : Content) :
    AskedFrom R base before q ds (.ok (r.read c)) := by
  obtain ⟨found, read, hfound, hread, hcourse⟩ := h
  obtain ⟨read', hread', hcourse'⟩ := hcourse.read c
  exact ⟨found, read', hfound, Deed.readAs_trans hread hread', hcourse'⟩

end

/-! ### Fresh tokens -/

/-- What is done for a fresh access token once `used` was refused, `found` being the stored pair;
and the token. -/
inductive Freshens (base used : String) (found : Tokens) :
    List Deed → Except Failure String → Prop
  /-- Another token is stored by now. -/
  | overtaken (h : found.access ≠ used) : Freshens base used found [] (.ok found.access)
  /-- There is no refresh token. -/
  | unrefreshable (h : found.access = used) (hrefresh : found.refresh = "") :
      Freshens base used found [] (.error (.notSignedIn none))
  /-- The service was not reached. -/
  | unreached (h : found.access = used) (hrefresh : found.refresh ≠ "") (reasons : List String) :
      Freshens base used found [.sent (.refresh base found.refresh) (.error reasons)]
        (.error (.unreachable (String.intercalate ": " reasons)))
  /-- The service gave no new tokens. -/
  | refused (h : found.access = used) (hrefresh : found.refresh ≠ "") (s : Reply)
      (hs : s.status ≠ 200) :
      Freshens base used found [.sent (.refresh base found.refresh) (.ok s)]
        (.error (.notSignedIn (some s.status)))
  /-- The new tokens cannot be read. -/
  | misfit (h : found.access = used) (hrefresh : found.refresh ≠ "") (s : Reply)
      (hs : s.status = 200) (what : Misfit) (hread : s.record Tokens.ofJson? = .error what) :
      Freshens base used found [.sent (.refresh base found.refresh) (.ok s)]
        (.error (.misfit what))
  /-- There are new tokens. -/
  | granted (h : found.access = used) (hrefresh : found.refresh ≠ "") (s : Reply)
      (hs : s.status = 200) (pair : Tokens) (hread : s.record Tokens.ofJson? = .ok pair) :
      Freshens base used found [.sent (.refresh base found.refresh) (.ok s), .stored pair]
        (.ok pair.access)

namespace Freshens

variable {base used : String} {found : Tokens} {deeds : List Deed} {r : Reply}

/-- Without a fresh token the query is not sent again. -/
lemma course_error {e : Failure} (h : Freshens base used found deeds (.error e)) (q : Query)
    (hr : r.status = 401) :
    Course base q used found (.sent (q.carrying base used) (.ok r) :: deeds) (.error e) := by
  cases h with
  | unrefreshable h hrefresh => exact .unrefreshable r hr h hrefresh
  | unreached h hrefresh reasons => exact .refreshUnreached r hr h hrefresh reasons
  | refused h hrefresh s hs => exact .refreshRefused r hr h hrefresh s hs
  | misfit h hrefresh s hs what hread => exact .refreshMisfit r hr h hrefresh s hs what hread

/-- With a fresh token the query is sent again. -/
lemma course_ok {fresh : String} (h : Freshens base used found deeds (.ok fresh)) (q : Query)
    (hr : r.status = 401) (o : Outcome) :
    Course base q used found
      (.sent (q.carrying base used) (.ok r) :: (deeds ++ [.sent (q.carrying base fresh) o]))
      (o.mapError .ofReasons) := by
  cases h with
  | overtaken h => exact .overtaken r hr h o
  | granted h hrefresh s hs pair hread => exact .refreshed r hr h hrefresh s hs pair hread o

end Freshens

/-! ### The steps of an inquiry -/

namespace Link

open Errand

variable (link : Link σ) {rely : World σ → World σ → Prop}

/-- A body that has to be waited for may turn out to be anything. -/
lemma does_awaited (r : Reply) (w : World σ) :
    (r.awaited w).Does rely (Deed.Leads link)
      (fun ds read _ => ds = [] ∧ ∃ c, read = r.read c) [] w := by
  obtain ⟨status, body⟩ := r
  cases body with
  | whole content => exact ⟨rfl, rfl, {}, rfl⟩
  | live => exact ⟨[], .nothing w, fun c t _ => ⟨rfl, rfl, c, rfl⟩⟩

/-- A fresh token comes by one of the ways of `Freshens`, and the stored pair that counts is the one
that is found when it is looked for. -/
lemma does_freshToken (used : String) (w : World σ) :
    (link.freshToken used w).Does rely (Deed.Leads link)
      (fun ds result _ => ∃ read, List.Forall₂ Deed.ReadAs ds read ∧
        Freshens link.base used w.tokens read result) [] w := by
  refine does_lift_bind [] (.nothing w) fun t _ => ?_
  have htokens : (Act.tokens w).1 = w.tokens := rfl
  rw [htokens]
  by_cases hused : w.tokens.access = used
  swap
  · rw [if_pos hused]
    exact does_pure ⟨[], .nil, .overtaken hused⟩
  rw [if_neg (not_not.mpr hused)]
  by_cases hrefresh : w.tokens.refresh = ""
  · rw [if_pos (by simpa using hrefresh)]
    exact does_pure ⟨[], .nil, .unrefreshable hused hrefresh⟩
  rw [if_neg (by simpa using hrefresh)]
  refine does_lift_bind [.sent (.refresh link.base w.tokens.refresh)
    (link.outcome (.refresh link.base w.tokens.refresh) t)] ?_ fun u _ => ?_
  · rw [link.sendAnonymously_refresh_apply]
    exact .sent t _
  rw [link.sendAnonymously_refresh_apply]
  cases link.outcome (.refresh link.base w.tokens.refresh) t with
  | error reasons =>
    exact does_pure ⟨_, .cons (.same _) .nil, .unreached hused hrefresh reasons⟩
  | ok s =>
    by_cases hs : s.status = 200
    · have hsuccess : s.isSuccess := by simpa [Reply.isSuccess] using hs
      simp only [Except.mapError, hsuccess, if_true]
      refine does_bind (link.does_awaited s u) fun new r v hr => ?_
      obtain ⟨rfl, c, rfl⟩ := hr
      have hstatus : (s.read c).status = 200 := by rw [s.status_read, hs]
      have hrefreshed := refreshedTokens_of_eq hstatus
      simp only [Except.mapError] at hrefreshed
      rw [hrefreshed]
      cases hread : (s.read c).record Tokens.ofJson? with
      | error what =>
        exact does_pure ⟨_, .cons (.read _ s c) .nil,
          .misfit hused hrefresh _ hstatus what hread⟩
      | ok pair =>
        refine does_lift_bind [.stored pair] (.stored v pair) fun x _ => ?_
        exact does_pure ⟨_, .cons (.read _ s c) (.cons (.same _) .nil),
          .granted hused hrefresh _ hstatus pair hread⟩
    · -- only a success is read
      have hsuccess : s.isSuccess = false := by simpa [Reply.isSuccess] using hs
      have hrefreshed := refreshedTokens_of_ne hs
      simp only [Except.mapError] at hrefreshed
      simp only [Except.mapError, hsuccess, Bool.false_eq_true, if_false, pure_bind, hrefreshed]
      exact does_pure ⟨_, .cons (.same _) .nil, .refused hused hrefresh s hs⟩

/-- What others may do to the stored pair between two steps. -/
structure Keeps (rely : World σ → World σ → Prop) (R : Tokens → Tokens → Prop) : Prop where
  /-- All of it is in `R`. -/
  keeps : ∀ s t, rely s t → R s.tokens t.tokens
  /-- They may do nothing. -/
  refl : ∀ t, R t t
  /-- They may do one thing after another. -/
  trans : ∀ t t' t'', R t t' → R t' t'' → R t t''

variable {R : Tokens → Tokens → Prop}

/-- A call among others takes the course of one that read the pair that is stored at first. -/
lemma does_request_from (hkeeps : Keeps rely R) (q : Query) (w : World σ) :
    (link.request q w).Does rely (Deed.Leads link)
      (fun ds result _ => AskedFrom R link.base w.tokens q ds result) [] w := by
  refine does_lift_bind [] (.nothing w) fun t ht => ?_
  have htokens : (Act.tokens w).1.access = w.tokens.access := rfl
  rw [htokens]
  refine does_lift_bind [.sent (q.carrying link.base w.tokens.access)
    (link.outcome (q.carrying link.base w.tokens.access) t)] ?_ fun u hu => ?_
  · rw [link.send_apply]
    exact .sent t _
  -- others acted twice, before the query was sent and after the reply had come
  have hfound : R w.tokens u.tokens := by
    refine hkeeps.trans _ _ _ (hkeeps.keeps _ _ ht) ?_
    rw [link.send_apply] at hu
    exact (hkeeps.keeps _ _ hu :)
  rw [link.send_apply]
  cases link.outcome (q.carrying link.base w.tokens.access) t with
  | error reasons =>
    exact does_pure ⟨w.tokens, _, hkeeps.refl _, .cons (.same _) .nil, .unreached reasons⟩
  | ok r =>
    by_cases hr : r.status = 401
    · have hrefused : r.isUnauthorized := by simpa [Reply.isUnauthorized] using hr
      simp only [Except.mapError, hrefused, if_true]
      refine does_bind (link.does_freshToken w.tokens.access u) fun new result v hfresh => ?_
      obtain ⟨read, hread, hfresh⟩ := hfresh
      cases result with
      | error e =>
        exact does_pure ⟨u.tokens, _, hfound, .cons (.same _) hread, hfresh.course_error q hr⟩
      | ok fresh =>
        refine does_lift [.sent (q.carrying link.base fresh)
          (link.outcome (q.carrying link.base fresh) v)] ?_ fun x _ => ?_
        · rw [link.send_apply]
          exact .sent v _
        rw [link.send_apply]
        refine ⟨u.tokens, _, hfound, ?_, hfresh.course_ok q hr _⟩
        exact .cons (.same _) (List.rel_append hread (.cons (.same _) .nil))
    · have hrefused : r.isUnauthorized = false := by simpa [Reply.isUnauthorized] using hr
      simp only [Except.mapError, hrefused, Bool.false_eq_true, if_false]
      exact does_pure ⟨w.tokens, _, hkeeps.refl _, .cons (.same _) .nil, .answered r hr⟩

/-- Whatever others do in the meantime who may do that to the stored pair, asking takes the course
of one call, and a reply is read to its end. -/
lemma does_ask_from (hkeeps : Keeps rely R) (q : Query) (w : World σ) :
    (link.ask q w).Does rely (Deed.Leads link) (fun ds result _ =>
      AskedFrom R link.base w.tokens q ds result ∧ ∀ r, result = .ok r → r.body ≠ .live) [] w := by
  refine does_bind (link.does_request_from hkeeps q w) fun new result t h => ?_
  cases result with
  | error e => exact does_pure ⟨h, fun r hr => by cases hr⟩
  | ok reply =>
    refine does_bind (link.does_awaited reply t) fun nothing r u hr => ?_
    obtain ⟨rfl, c, rfl⟩ := hr
    rw [List.append_nil]
    refine does_pure ⟨h.read c, fun r hr => ?_⟩
    obtain rfl := Except.ok.inj hr
    exact reply.body_read_ne c

/-- Nothing is known of what others do. -/
lemma keeps_true : Keeps (σ := σ) (fun _ _ => True) fun _ _ => True :=
  ⟨fun _ _ _ => trivial, fun _ => trivial, fun _ _ _ _ _ => trivial⟩

/-- A query sent on behalf of the player comes to what asking comes to. -/
lemma does_request (q : Query) (w : World σ) :
    (link.request q w).Does (fun _ _ => True) (Deed.Leads link)
      (fun ds result _ => Asked link.base q ds result) [] w :=
  (link.does_request_from keeps_true q w).imp fun _ _ _ h => h.asked

/-- Whatever others do in the meantime, asking takes the course of one call. -/
theorem does_ask (q : Query) (w : World σ) :
    (link.ask q w).Does (fun _ _ => True) (Deed.Leads link)
      (fun ds result _ => Asked link.base q ds result) [] w :=
  (link.does_ask_from keeps_true q w).imp fun _ _ _ h => h.1.asked

/-- The same, when something is made of the answer. -/
lemma does_ask_map {β : Type} (q : Query) (f : Except Failure Reply → β) (w : World σ) :
    ((do return f (← link.ask q) : Errand (World σ) β) w).Does (fun _ _ => True) (Deed.Leads link)
      (fun ds result _ => ∃ answer, Asked link.base q ds answer ∧ result = f answer) [] w :=
  does_bind (link.does_ask q w) fun _ answer _ h => does_pure ⟨answer, h, rfl⟩

end Link

/-! ### What was sent -/

/-- True if the access token was not accepted. -/
def isRefusal : Outcome → Bool
  | .ok r => r.isUnauthorized
  | .error _ => false

/-- A request, and whether it was refused; nothing if it is one for new tokens. -/
def attempt? (base : String) (x : Request × Outcome) : Option (Request × Bool) :=
  if x.1.isRefresh base then none else some (x.1, isRefusal x.2)

/-- A request was sent, once or twice, and nothing else but requests for new tokens. The copies
differ in the token alone, and all but one were refused. -/
structure SentOnce (base : String) (copy : String → Request) (xs : List (Request × Outcome)) :
    Prop where
  /-- It was sent. -/
  sent : xs.filterMap (attempt? base) ≠ []
  /-- Nothing else was. -/
  copies : ∀ x ∈ xs.filterMap (attempt? base), ∃ token, x.1 = copy token
  /-- It was sent twice at most. -/
  twice : (xs.filterMap (attempt? base)).length ≤ 2
  /-- At most one of the copies was not refused. -/
  once : (xs.filterMap (attempt? base)).countP (fun x => !x.2) ≤ 1

namespace Deed

/-- The request that a deed sent, other than one for new tokens, and whether it was refused. -/
def attempt? (base : String) (d : Deed) : Option (Request × Bool) :=
  d.exchange?.bind (Duelist.attempt? base)

variable {base : String} {q : Query}

/-- A query with a token is an attempt, and is refused or not. -/
lemma attempt?_carrying (hq : ∀ token, (q.carrying base token).isRefresh base = false)
    (token : String) (o : Outcome) : attempt? base (.sent (q.carrying base token) o) =
      some (q.carrying base token, isRefusal o) := by
  simp [attempt?, exchange?, Duelist.attempt?, hq]

/-- A request for new tokens is no attempt. -/
lemma attempt?_refresh (token : String) (o : Outcome) :
    attempt? base (.sent (.refresh base token) o) = none := by
  simp [attempt?, exchange?, Duelist.attempt?, Request.isRefresh, Request.refresh]

/-- Nor is it one to store a pair. -/
lemma attempt?_stored (pair : Tokens) : attempt? base (.stored pair) = none := by
  simp [attempt?, exchange?]

/-- Whether a request was refused does not depend on the body of the reply. -/
lemma ReadAs.attempt?_eq {d d' : Deed} (h : d.ReadAs d') : d.attempt? base = d'.attempt? base := by
  cases h with
  | same => rfl
  | read request r c =>
    have hrefusal : isRefusal (.ok (r.read c)) = isRefusal (.ok r) := by
      rw [isRefusal, isRefusal, Reply.isUnauthorized, r.status_read, Reply.isUnauthorized]
    simp only [attempt?, exchange?, Option.bind_some, Duelist.attempt?, hrefusal]

/-- Reading bodies changes nothing of the attempts. -/
lemma filterMap_attempt?_eq {ds ds' : List Deed} (h : List.Forall₂ ReadAs ds ds') :
    ds.filterMap (attempt? base) = ds'.filterMap (attempt? base) := by
  induction h with
  | nil => rfl
  | cons hd _ ih => rw [List.filterMap_cons, List.filterMap_cons, hd.attempt?_eq, ih]

end Deed

section

variable {base : String} {q : Query} {ds : List Deed} {result : Except Failure Reply}
  (hq : ∀ token, (q.carrying base token).isRefresh base = false)

include hq

/-- A query is sent again only after it was refused. -/
lemma Course.attempts {a : String} {found : Tokens} (h : Course base q a found ds result) :
    (∃ b, ds.filterMap (Deed.attempt? base) = [(q.carrying base a, b)]) ∨
      ∃ fresh b, ds.filterMap (Deed.attempt? base) =
        [(q.carrying base a, true), (q.carrying base fresh, b)] := by
  have hcopy := Deed.attempt?_carrying hq
  have hrefusal {r : Reply} (hr : r.status = 401) : isRefusal (.ok r) = true := by
    simp [isRefusal, Reply.isUnauthorized, hr]
  cases h with
  | unreached reasons => exact .inl ⟨isRefusal (.error reasons), by simp [hcopy]⟩
  | answered r hr => exact .inl ⟨isRefusal (.ok r), by simp [hcopy]⟩
  | overtaken r hr hfound o =>
    exact .inr ⟨found.access, isRefusal o, by simp [hcopy, hrefusal hr]⟩
  | unrefreshable r hr hfound hrefresh => exact .inl ⟨true, by simp [hcopy, hrefusal hr]⟩
  | refreshUnreached r hr hfound hrefresh reasons =>
    exact .inl ⟨true, by simp [hcopy, hrefusal hr, Deed.attempt?_refresh]⟩
  | refreshRefused r hr hfound hrefresh s hs =>
    exact .inl ⟨true, by simp [hcopy, hrefusal hr, Deed.attempt?_refresh]⟩
  | refreshMisfit r hr hfound hrefresh s hs what hread =>
    exact .inl ⟨true, by simp [hcopy, hrefusal hr, Deed.attempt?_refresh]⟩
  | refreshed r hr hfound hrefresh s hs pair hread o =>
    refine .inr ⟨pair.access, isRefusal o, ?_⟩
    simp [hcopy, hrefusal hr, Deed.attempt?_refresh, Deed.attempt?_stored]

/-- What is asked for is sent once, if the query is no request for new tokens. -/
lemma Asked.sentOnce (h : Asked base q ds result) :
    SentOnce base (q.carrying base) (ds.filterMap Deed.exchange?) := by
  obtain ⟨a, found, read, hread, hcourse⟩ := h
  have hattempts : (ds.filterMap Deed.exchange?).filterMap (attempt? base) =
      read.filterMap (Deed.attempt? base) := by
    rw [← Deed.filterMap_attempt?_eq hread, List.filterMap_filterMap]
    rfl
  obtain ⟨b, hone⟩ | ⟨fresh, b, htwo⟩ := hcourse.attempts hq
  · rw [hone] at hattempts
    constructor <;> rw [hattempts]
    · simp
    · simp
    · simp
    · cases b <;> simp
  · rw [htwo] at hattempts
    constructor <;> rw [hattempts]
    · simp
    · simp
    · simp
    · cases b <;> simp

end

end Duelist
