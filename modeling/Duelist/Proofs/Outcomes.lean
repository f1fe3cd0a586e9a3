import Duelist.Proofs.Encoding
import Duelist.Proofs.Inquiries
/-!
# Outcomes

What comes of a question to the service, from what comes of the call that is made for it. The call
ends with a reply or with a failure. `Judges` says what becomes of that: a failure is passed on, a
reply is taken if its status is 200 and its body can be decoded, and each way in which this may be
missed leads to a failure of its own.

A failure is about tokens if, after a first refusal, there was no way to get another token, or it
was of no use. `Hopeless` lists the three cases by what was sent after the refusal, and `LocksOut`
adds the refusal.

The main statement is `Link.endpoint_outcomes`: this is what comes of the six questions, whatever
others do in the meantime, and also with nobody in between, when it is the stored pair that is
refreshed.
-/

namespace Duelist

open Errand

variable {σ α : Type}

/-! ### Bodies -/

/-- The body can be read to its end, and consists of the bytes of `text`. -/
def Reply.Holds (r : Reply) (text : String) : Prop :=
  r.body.content.failure = none ∧ r.body.content.bytes = Utf8.bytes text

/-- What is read of a body is the text that it holds. -/
lemma Reply.text?_eq_some_iff {r : Reply} {text : String} :
    r.body.text? = some text ↔ r.Holds text := by
  obtain ⟨status, body⟩ := r
  unfold Reply.Holds Body.text? Content.text?
  cases body.content.failure with
  | none => simp [Utf8.text?_eq_some_iff, eq_comm (a := Utf8.bytes text)]
  | some reason => simp

/-- A body cannot be read as text if and only if it holds none. -/
lemma Reply.text?_eq_none_iff {r : Reply} :
    r.body.text? = none ↔ ∀ text, ¬r.Holds text := by
  rw [Option.eq_none_iff_forall_ne_some]
  exact forall_congr' fun text => not_congr Reply.text?_eq_some_iff

/-! ### What becomes of the end of a call -/

/-- What becomes of the end `final` of a call whose reply is to be decoded. -/
structure Judges (decode : String → Option α) (final : Except Failure Reply)
    (result : Except Failure α) : Prop where
  /-- A reply is taken if and only if its status is 200 and all of its body can be decoded. -/
  ok_iff : ∀ a, result = .ok a ↔
    ∃ r text, final = .ok r ∧ r.status = 200 ∧ r.Holds text ∧ decode text = some a
  /-- A failure is passed on. -/
  failed : ∀ e, final = .error e → result = .error e
  /-- Another status is told, together with the text that came with it. -/
  rejected : ∀ r text, final = .ok r → r.status ≠ 200 → r.Holds text →
    result = .error (.rejected r.status text)
  /-- It is told with an empty text if there is none. -/
  rejectedBlank : ∀ r, final = .ok r → r.status ≠ 200 → (∀ text, ¬r.Holds text) →
    result = .error (.rejected r.status "")
  /-- A body that cannot be read as text is no answer. -/
  unreadable : ∀ r, final = .ok r → r.status = 200 → (∀ text, ¬r.Holds text) →
    result = .error (.misfit .unreadable)
  /-- A text that cannot be decoded is none, either. -/
  undecodable : ∀ r text, final = .ok r → r.status = 200 → r.Holds text → decode text = none →
    result = .error (.misfit (.notRecord text))

/-- A text as the record that `read` finds in it. -/
def inRecord (read : Json → Option α) (text : String) : Option α :=
  (Json.ofText? text).bind read

section

variable {decode : String → Option α} {f : Except Failure Reply → Except Failure α}
  (herror : ∀ e, f (.error e) = .error e)
  (hrejected : ∀ r : Reply, r.status ≠ 200 → f (.ok r) = .error r.rejection)
  (hunreadable : ∀ r : Reply, r.status = 200 → r.body.text? = none →
    f (.ok r) = .error (.misfit .unreadable))
  (hundecodable : ∀ (r : Reply) text, r.status = 200 → r.body.text? = some text →
    decode text = none → f (.ok r) = .error (.misfit (.notRecord text)))
  (hok : ∀ (r : Reply) text a, r.status = 200 → r.body.text? = some text →
    decode text = some a → f (.ok r) = .ok a)

include herror hrejected hunreadable hundecodable hok

/-- The cases are all that there is. -/
lemma judges_of_cases (final : Except Failure Reply) : Judges decode final (f final) where
  ok_iff a := by
    constructor
    · intro h
      cases final with
      | error e => cases (herror e).symm.trans h
      | ok r =>
        by_cases hs : r.status = 200
        · cases htext : r.body.text? with
          | none => cases (hunreadable r hs htext).symm.trans h
          | some text =>
            cases hdecode : decode text with
            | none => cases (hundecodable r text hs htext hdecode).symm.trans h
            | some a' =>
              obtain rfl := Except.ok.inj ((hok r text a' hs htext hdecode).symm.trans h)
              exact ⟨r, text, rfl, hs, Reply.text?_eq_some_iff.mp htext, hdecode⟩
        · cases (hrejected r hs).symm.trans h
    · rintro ⟨r, text, rfl, hs, htext, hdecode⟩
      exact hok r text a hs (Reply.text?_eq_some_iff.mpr htext) hdecode
  failed := by
    rintro e rfl
    exact herror e
  rejected := by
    rintro r text rfl hs htext
    rw [hrejected r hs, Reply.rejection, Reply.text?_eq_some_iff.mpr htext, Option.getD_some]
  rejectedBlank := by
    rintro r rfl hs htext
    rw [hrejected r hs, Reply.rejection, Reply.text?_eq_none_iff.mpr htext, Option.getD_none]
  unreadable := by
    rintro r rfl hs htext
    exact hunreadable r hs (Reply.text?_eq_none_iff.mpr htext)
  undecodable := by
    rintro r text rfl hs htext hdecode
    exact hundecodable r text hs (Reply.text?_eq_some_iff.mpr htext) hdecode

end

/-- A reply with the status 200 is a success. -/
lemma Reply.success_of_eq {r : Reply} (h : r.status = 200) : r.success = .ok r :=
  if_pos (by simpa [isSuccess] using h)

/-- All other replies are rejections, with the status and what can be read of the body. -/
lemma Reply.success_of_ne {r : Reply} (h : r.status ≠ 200) : r.success = .error r.rejection :=
  if_neg (by simpa [isSuccess] using h)

/-- A question for a record is judged in this way. -/
lemma judges_recordOf (read : Json → Option α) (final : Except Failure Reply) :
    Judges (inRecord read) final (recordOf read final) := by
  refine judges_of_cases (fun e => rfl) (fun r hs => ?_) (fun r hs htext => ?_)
    (fun r text hs htext hdecode => ?_) (fun r text a hs htext hdecode => ?_) final
  · simp [recordOf, bind, Except.bind, Reply.success_of_ne hs]
  · simp [recordOf, bind, Except.bind, Reply.success_of_eq hs, Reply.record, Reply.text, htext,
      Except.mapError]
  · rw [inRecord] at hdecode
    simp [recordOf, bind, Except.bind, Reply.success_of_eq hs, Reply.record, Reply.text, htext,
      hdecode, Except.mapError]
  · rw [inRecord] at hdecode
    simp [recordOf, bind, Except.bind, Reply.success_of_eq hs, Reply.record, Reply.text, htext,
      hdecode, Except.mapError]

/-- A question for a text is judged in this way, every text being taken as it is. -/
lemma judges_textOf (final : Except Failure Reply) : Judges some final (textOf final) := by
  refine judges_of_cases (fun e => rfl) (fun r hs => ?_) (fun r hs htext => ?_)
    (fun r text hs htext hdecode => by cases hdecode) (fun r text a hs htext hdecode => ?_) final
  · simp [textOf, bind, Except.bind, Reply.success_of_ne hs]
  · simp [textOf, bind, Except.bind, Reply.success_of_eq hs, Reply.text, htext, Except.mapError]
  · obtain rfl := Option.some.inj hdecode
    simp [textOf, bind, Except.bind, Reply.success_of_eq hs, Reply.text, htext, Except.mapError]

/-! ### Failures that are about tokens -/

/-- No other token was to be had after `used` was refused, `found` being the stored pair then, or
the other token was refused, too; what was done after the first refusal says which. -/
inductive Hopeless (base : String) (q : Query) (used : String) (found : Tokens) :
    List Deed → Prop
  /-- There is no refresh token. -/
  | unrefreshable (h : found.access = used) (hrefresh : found.refresh = "") :
      Hopeless base q used found []
  /-- The refresh was answered with another status than 200. -/
  | refused (h : found.access = used) (hrefresh : found.refresh ≠ "") (s : Reply)
      (hs : s.status ≠ 200) :
      Hopeless base q used found [.sent (.refresh base found.refresh) (.ok s)]
  /-- The query was sent again, and refused again. -/
  | again (before : List Deed) (token : String) (r : Reply) (hr : r.status = 401) :
      Hopeless base q used found (before ++ [.sent (q.carrying base token) (.ok r)])

/-- The first reply was a refusal, and there was no hope after it. -/
def LocksOut (base : String) (q : Query) (used : String) (found : Tokens) (ds : List Deed) :
    Prop :=
  ∃ (r : Reply) (rest : List Deed), r.status = 401 ∧
    ds = .sent (q.carrying base used) (.ok r) :: rest ∧ Hopeless base q used found rest

/-- True of the result of a question that failed for want of tokens. -/
def IsAboutTokens (result : Except Failure α) : Prop :=
  ∃ e, result = .error e ∧ e.isAboutTokens

section

variable {decode : String → Option α} {result : Except Failure α}

/-- A question whose call failed has failed for want of tokens if and only if the call has. -/
lemma Judges.isAboutTokens_error_iff {e : Failure} (h : Judges decode (.error e) result) :
    IsAboutTokens result ↔ e.isAboutTokens := by
  rw [h.failed e rfl]
  constructor
  · rintro ⟨e', he, habout⟩
    rwa [Except.error.inj he]
  · exact fun habout => ⟨e, rfl, habout⟩

/-- A reply leads to a failure of this kind if and only if it is a refusal. -/
lemma Judges.isAboutTokens_ok_iff {r : Reply} (h : Judges decode (.ok r) result) :
    IsAboutTokens result ↔ r.status = 401 := by
  -- a success is not about tokens, whatever is wrong with its body
  by_cases hs : r.status = 200
  · have hne : r.status ≠ 401 := by rw [hs]; decide
    refine iff_of_false ?_ hne
    rintro ⟨e, he, habout⟩
    cases htext : r.body.text? with
    | none =>
      rw [h.unreadable r rfl hs (Reply.text?_eq_none_iff.mp htext)] at he
      rw [← Except.error.inj he] at habout
      cases habout
    | some text =>
      have hholds := Reply.text?_eq_some_iff.mp htext
      cases hdecode : decode text with
      | none =>
        rw [h.undecodable r text rfl hs hholds hdecode] at he
        rw [← Except.error.inj he] at habout
        cases habout
      | some a => cases ((h.ok_iff a).mpr ⟨r, text, rfl, hs, hholds, hdecode⟩).symm.trans he
  · have hrejected : ∃ text, result = .error (.rejected r.status text) := by
      cases htext : r.body.text? with
      | none => exact ⟨"", h.rejectedBlank r rfl hs (Reply.text?_eq_none_iff.mp htext)⟩
      | some text => exact ⟨text, h.rejected r text rfl hs (Reply.text?_eq_some_iff.mp htext)⟩
    obtain ⟨text, rfl⟩ := hrejected
    constructor
    · rintro ⟨e, he, habout⟩
      rw [← Except.error.inj he] at habout
      exact beq_iff_eq.mp habout
    · exact fun hr => ⟨_, rfl, beq_iff_eq.mpr hr⟩

variable {base used : String} {q : Query} {found : Tokens} {ds : List Deed}
  {final : Except Failure Reply}

/-- The last that was sent decides. -/
lemma Hopeless.of_concat (before : List Deed) {request : Request} {o : Outcome}
    (h : Hopeless base q used found (before ++ [.sent request o])) :
    (before = [] ∧ found.access = used ∧ ∃ s : Reply, s.status ≠ 200 ∧ o = .ok s) ∨
      ∃ r : Reply, r.status = 401 ∧ o = .ok r := by
  generalize hrest : before ++ [Deed.sent request o] = rest at h
  cases h with
  | unrefreshable h hrefresh => simp at hrest
  | refused h hrefresh s hs =>
    obtain ⟨rfl, hlast⟩ | ⟨-, hnil⟩ := List.append_eq_singleton_iff.mp hrest
    · obtain ⟨-, rfl⟩ := Deed.sent.inj (List.singleton_inj.mp hlast)
      exact .inl ⟨rfl, h, s, hs, rfl⟩
    · cases hnil
  | again before' token r hr =>
    obtain ⟨-, hlast⟩ := List.append_inj' hrest rfl
    obtain ⟨-, rfl⟩ := Deed.sent.inj (List.singleton_inj.mp hlast)
    exact .inr ⟨r, hr, rfl⟩

/-- After a refusal it is what followed that decides. -/
lemma locksOut_cons_iff {r : Reply} (hr : r.status = 401) {rest : List Deed} :
    LocksOut base q used found (.sent (q.carrying base used) (.ok r) :: rest) ↔
      Hopeless base q used found rest := by
  constructor
  · rintro ⟨r', rest', -, hds, h⟩
    obtain ⟨-, rfl⟩ := List.cons.inj hds
    exact h
  · exact fun h => ⟨r, rest, hr, rfl, h⟩

/-- A call that is answered after a second sending is hopeless if and only if that is a refusal. -/
lemma isAboutTokens_iff_of_again (before : List Deed) {r : Reply} (hr : r.status = 401)
    {token : String} {o : Outcome} (hnot : ¬(before = [] ∧ found.access = used))
    (h : Judges decode (o.mapError .ofReasons) result) :
    IsAboutTokens result ↔ LocksOut base q used found
      (.sent (q.carrying base used) (.ok r) :: (before ++ [.sent (q.carrying base token) o])) := by
  rw [locksOut_cons_iff hr]
  have hhopeless : Hopeless base q used found (before ++ [.sent (q.carrying base token) o]) ↔
      ∃ r : Reply, r.status = 401 ∧ o = .ok r := by
    constructor
    · intro h
      obtain ⟨hnil, hfound, -⟩ | hagain := h.of_concat before
      · exact absurd ⟨hnil, hfound⟩ hnot
      · exact hagain
    · rintro ⟨r', hr', rfl⟩
      exact .again before token r' hr'
  rw [hhopeless]
  cases o with
  | error reasons =>
    rw [h.isAboutTokens_error_iff]
    exact iff_of_false Bool.false_ne_true fun ⟨_, _, ho⟩ => by cases ho
  | ok r' =>
    rw [h.isAboutTokens_ok_iff]
    constructor
    · exact fun hr' => ⟨r', hr', rfl⟩
    · rintro ⟨r'', hr'', ho⟩
      rwa [Except.ok.inj ho]

/-- A question fails for want of tokens if and only if its call was locked out. -/
lemma Course.isAboutTokens_iff (h : Course base q used found ds final)
    (hjudges : Judges decode final result) :
    IsAboutTokens result ↔ LocksOut base q used found ds := by
  cases h with
  | unreached reasons =>
    rw [hjudges.isAboutTokens_error_iff]
    exact iff_of_false Bool.false_ne_true fun ⟨r, rest, _, hds, _⟩ => by cases hds
  | answered r hr =>
    rw [hjudges.isAboutTokens_ok_iff]
    -- to be locked out, the query must have been refused, and it was not
    refine iff_of_false hr ?_
    rintro ⟨r', rest, hr', hds, -⟩
    obtain ⟨-, ho⟩ := Deed.sent.inj (List.cons.inj hds).1
    exact hr (Except.ok.inj ho ▸ hr')
  | overtaken r hr hfound o =>
    exact isAboutTokens_iff_of_again [] hr (fun h => hfound h.2) hjudges
  | unrefreshable r hr hfound hrefresh =>
    rw [hjudges.isAboutTokens_error_iff, locksOut_cons_iff hr]
    exact iff_of_true rfl (.unrefreshable hfound hrefresh)
  | refreshUnreached r hr hfound hrefresh reasons =>
    rw [hjudges.isAboutTokens_error_iff, locksOut_cons_iff hr]
    refine iff_of_false Bool.false_ne_true fun h => ?_
    obtain ⟨-, -, s, -, ho⟩ | ⟨s, -, ho⟩ := h.of_concat []
    · cases ho
    · cases ho
  | refreshRefused r hr hfound hrefresh s hs =>
    rw [hjudges.isAboutTokens_error_iff, locksOut_cons_iff hr]
    exact iff_of_true rfl (.refused hfound hrefresh s hs)
  | refreshMisfit r hr hfound hrefresh s hs what hread =>
    rw [hjudges.isAboutTokens_error_iff, locksOut_cons_iff hr]
    refine iff_of_false Bool.false_ne_true fun h => ?_
    obtain ⟨-, -, s', hs', ho⟩ | ⟨s', hs', ho⟩ := h.of_concat []
    · obtain rfl := Except.ok.inj ho
      exact hs' hs
    · obtain rfl := Except.ok.inj ho
      rw [hs] at hs'
      exact absurd hs' (by decide)
  | refreshed r hr hfound hrefresh s hs pair hread o =>
    exact isAboutTokens_iff_of_again [_, _] hr (fun h => by cases h.1) hjudges

end

/-! ### Questions -/

/-- What a question came to that was asked with the access token `used`, `found` being the stored
pair after a refusal: what its call ended with is judged, and it failed for want of tokens if and
only if the call was locked out. -/
def Verdict (base : String) (q : Query) (decode : String → Option α) (used : String)
    (found : Tokens) (ds : List Deed) (result : Except Failure α) : Prop :=
  ∃ (final : Except Failure Reply) (read : List Deed), List.Forall₂ Deed.ReadAs ds read ∧
    Course base q used found read final ∧ (∀ r, final = .ok r → r.body ≠ .live) ∧
    Judges decode final result ∧ (IsAboutTokens result ↔ LocksOut base q used found read)

namespace Link

variable (link : Link σ) (q : Query) (decode : String → Option α)

/-- The errand asks `q`, and decodes what comes of it. -/
structure Settles (e : Errand (World σ) (Except Failure α)) : Prop where
  /-- Whatever others do in the meantime, the call is made with the token that is stored at
  first. -/
  among : ∀ w, (e w).Does (fun _ _ => True) (Deed.Leads link) (fun ds result _ =>
    ∃ found, Verdict link.base q decode w.tokens.access found ds result) [] w
  /-- With nobody in between it is the stored pair that is found after a refusal. -/
  alone : ∀ w, (e w).Does (fun s t => t = s) (Deed.Leads link) (fun ds result _ =>
    Verdict link.base q decode w.tokens.access w.tokens ds result) [] w
  /-- With nobody in between nothing is done but the call, whose end is judged. -/
  call : ∀ c w, (e.reading c w).2 = ((link.request q).reading c w).2 ∧
    Judges decode (((link.request q).reading c w).1.map (Reply.read c)) (e.reading c w).1

variable {q decode}

/-- A question that is asked among others comes to a verdict. Of what others do to the stored pair
no more is known of the pair that was found after a refusal than what `R` says. -/
lemma does_judged {rely : World σ → World σ → Prop} {R : Tokens → Tokens → Prop}
    (hkeeps : Keeps rely R) {f : Except Failure Reply → Except Failure α}
    (hf : ∀ final, Judges decode final (f final)) (w : World σ) :
    ((do return f (← link.ask q) : Errand (World σ) (Except Failure α)) w).Does rely
      (Deed.Leads link) (fun ds result _ => ∃ found, R w.tokens found ∧
        Verdict link.base q decode w.tokens.access found ds result) [] w := by
  refine does_bind (link.does_ask_from hkeeps q w) fun ds final t h => ?_
  obtain ⟨⟨found, read, hfound, hread, hcourse⟩, hwhole⟩ := h
  refine does_pure ⟨found, hfound, final, read, hread, hcourse, hwhole, hf final, ?_⟩
  exact hcourse.isAboutTokens_iff (hf final)

/-- To ask and then to judge settles a question. -/
lemma settles_of_judges {f : Except Failure Reply → Except Failure α}
    (hf : ∀ final, Judges decode final (f final)) :
    link.Settles q decode (do return f (← link.ask q)) where
  among w := (link.does_judged keeps_true hf w).imp fun ds result t h => by
    obtain ⟨found, -, hverdict⟩ := h
    exact ⟨found, hverdict⟩
  alone w := by
    have hkeeps : Keeps (σ := σ) (fun s t => t = s) fun t t' => t' = t :=
      ⟨fun s t h => by rw [h], fun _ => rfl, fun t t' t'' h h' => h'.trans h⟩
    refine (link.does_judged hkeeps hf w).imp fun ds result t h => ?_
    obtain ⟨found, rfl, hverdict⟩ := h
    exact hverdict
  call c w := by
    have hask : (link.ask q).reading c w =
        (((link.request q).reading c w).1.map (Reply.read c), ((link.request q).reading c w).2) :=
      congrFun (Question.reading_linkAsk link c q) w
    rw [Errand.reading_bind, act_bind, hask]
    exact ⟨rfl, hf _⟩

/-- The six questions to the service, each with what it is decoded as: a failure of the call is
passed on; a reply is taken if and only if its status is 200 and its whole body can be read and
decoded, and otherwise told as a failure of its own kind. And a question fails for want of tokens if
and only if the first reply was a refusal after which there was no refresh token, or the refresh was
refused, or the query was refused again. -/
theorem endpoint_outcomes :
    (∀ id, link.Settles (.duel id) (inRecord DuelSummary.ofJson?) (link.duel id)) ∧
    (∀ id, link.Settles (.player id) (inRecord Player.ofJson?) (link.player id)) ∧
    (∀ id, link.Settles (.task id) (inRecord Task.ofJson?) (link.task id)) ∧
    (∀ task file, link.Settles (.taskFile task file) some (link.taskFile task file)) ∧
    (∀ duel solution language, link.Settles (.solution duel solution language)
      (inRecord Grading.receipt?) (link.handIn duel solution language)) ∧
    ∀ duel submission, link.Settles (.grading duel submission) (inRecord Grading.ofJson?)
      (link.grading duel submission) :=
  ⟨fun _ => link.settles_of_judges (judges_recordOf _),
    fun _ => link.settles_of_judges (judges_recordOf _),
    fun _ => link.settles_of_judges (judges_recordOf _),
    fun _ _ => link.settles_of_judges judges_textOf,
    fun _ _ _ => link.settles_of_judges (judges_recordOf _),
    fun _ _ => link.settles_of_judges (judges_recordOf _)⟩

end Link
end Duelist
