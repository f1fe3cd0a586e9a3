import Duelist.Proofs.Audience
import Duelist.Rehearsed
import Mathlib.Data.List.Infix
/-!
# The prompt and its mail

A session in which a prompt may be opened at any moment, with the messages that reach the prompt:
lines as they are typed, the end of the input, and the end of the session, which is delivered once
the prompt was told of it. The prompt takes them in the order in which they arrive, and is in no
hurry: everybody else may act between any two of its steps.

The main statement is `Office.leaves_when_told`. A prompt that was open before anybody was told of
the end is the one that is told, and once that is delivered before the end of the input, the prompt
is left for it; it has then taken the lines that came before, and nothing else, and the input need
not come to an end. A prompt that is opened later is told nothing: `Office.waits_for_ever` is a
course in which it waits without end. With nobody in between the prompt does what
`Session.obeyAll` does (`Office.exists_iterate_attend`).
-/

namespace Duelist

variable {σ τ α : Type}

/-- The state as it now is. -/
def Progress.current : Progress τ α → τ
  | .done _ s | .going s _ | .waiting s _ => s

/-- How far the prompt has come. -/
inductive Clerk (σ : Type) where
  /-- Was not opened yet. -/
  | absent
  /-- Is about to take the next message. -/
  | free
  /-- Is busy with a message; `resume` goes on. -/
  | busy (resume : Content → Session σ → Progress (Session σ) (Option Exit))
  /-- Was left. -/
  | left (exit : Exit)

/-- How far the prompt has come once it has come so far with a message. -/
def Clerk.after : Progress (Session σ) (Option Exit) → Clerk σ
  | .done none _ => .free
  | .done (some e) _ => .left e
  | .going _ next => .busy fun _ => next
  | .waiting _ resume => .busy resume

/-- A prompt that was opened has come as far as one does with a message. -/
lemma Clerk.exists_after {clerk : Clerk σ} (h : clerk ≠ .absent) (s : Session σ) :
    ∃ p, clerk = .after p := by
  cases clerk with
  | absent => exact absurd rfl h
  | free => exact ⟨.done none s, rfl⟩
  | busy resume => exact ⟨.waiting s resume, rfl⟩
  | left e => exact ⟨.done (some e) s, rfl⟩

/-- A session, a prompt, and the messages for it. -/
structure Office (σ : Type) where
  /-- The session, and what others do with it. -/
  scene : Scene σ
  /-- The messages that have reached the prompt so far, oldest first. -/
  mail : List Message := []
  /-- How many of them the prompt has taken. -/
  seen : ℕ := 0
  /-- True once the end of the session was delivered. -/
  delivered : Bool := false
  /-- How far the prompt has come. -/
  clerk : Clerk σ := .absent

/-- Something that happens. -/
inductive Occasion (σ : Type) where
  /-- Somebody else acts. -/
  | happens (h : Happening σ)
  /-- The prompt is opened. -/
  | opens
  /-- A line is typed. -/
  | types (text : String)
  /-- The input comes to its end. -/
  | closes
  /-- The end of the session is delivered. -/
  | delivers
  /-- The prompt makes a step, with the content `c` if it waits for one. -/
  | attends (c : Content)

namespace Office

variable (venue : Venue σ)

/-- The session. -/
def session (office : Office σ) : Session σ :=
  office.scene.session

/-- The office with another session. -/
def within (office : Office σ) (s : Session σ) : Office σ :=
  { office with scene := { office.scene with session := s } }

/-- The office once the prompt has come so far with a message. -/
def settle (office : Office σ) (p : Progress (Session σ) (Option Exit)) : Office σ :=
  { office.within p.current with clerk := .after p }

/-- The prompt makes a step, if there is anything to do. -/
def attend (office : Office σ) (c : Content) : Office σ :=
  match office.clerk with
  | .free =>
    match office.mail[office.seen]? with
    | some message =>
      { office with seen := office.seen + 1 }.settle (Session.obeying venue message office.session)
    | none => office
  | .busy resume => office.settle (resume c office.session)
  | .absent | .left _ => office

/-- The end of the session, if the prompt was told of it and it was not delivered yet. -/
def tidings (office : Office σ) : Option Message :=
  match office.delivered, office.session.told with
  | false, some (.prompt 0, closing) => some (.over closing)
  | _, _ => none

/-- The office after an occasion. -/
def step (office : Office σ) : Occasion σ → Office σ
  | .happens h => { office with scene := office.scene.step venue h }
  | .opens =>
    match office.clerk with
    | .absent => { office.within (Session.openPrompt 0 office.session).2 with clerk := .free }
    | _ => office
  | .types text => { office with mail := office.mail ++ [.line text] }
  | .closes => { office with mail := office.mail ++ [.closed] }
  | .delivers =>
    match office.tidings with
    | some message => { office with mail := office.mail ++ [message], delivered := true }
    | none => office
  | .attends c => office.attend venue c

/-- The office before the `n`-th of the occasions `x`. -/
def course (office : Office σ) (x : ℕ → Occasion σ) : ℕ → Office σ
  | 0 => office
  | n + 1 => (course office x n).step venue (x n)

/-- A session that has just begun, and no prompt yet. -/
def begin (service : σ) (tokens : Tokens) : Office σ where
  scene := { session := .begin service tokens }

/-! ### What the prompt has taken -/

/-- What the prompt has taken of its mail: all before the last one taken are lines, and it is left
only for the last one. -/
inductive Attentive (mail : List Message) : ℕ → Clerk σ → Prop
  | absent : Attentive mail 0 .absent
  | free (done : List Message) (hmail : done <+: mail) (hdone : ∀ m ∈ done, m.exit? = none) :
      Attentive mail done.length .free
  | busy (done : List Message) (m : Message) (hmail : done ++ [m] <+: mail)
      (hdone : ∀ m ∈ done, m.exit? = none)
      (resume : Content → Session σ → Progress (Session σ) (Option Exit))
      (hresume : ∀ c s, (resume c s).Yields (· = m.exit?)) :
      Attentive mail (done.length + 1) (.busy resume)
  | left (done : List Message) (m : Message) (hmail : done ++ [m] <+: mail)
      (hdone : ∀ m ∈ done, m.exit? = none) (e : Exit) (he : m.exit? = some e) :
      Attentive mail (done.length + 1) (.left e)

namespace Attentive

variable {mail mail' done : List Message} {seen : ℕ} {clerk : Clerk σ} {m : Message}

/-- More mail makes no difference. -/
lemma mono (h : Attentive mail seen clerk) (hmail' : mail <+: mail') :
    Attentive mail' seen clerk := by
  cases h with
  | absent => exact .absent
  | free done hmail hdone => exact .free done (hmail.trans hmail') hdone
  | busy done m hmail hdone resume hresume =>
    exact .busy done m (hmail.trans hmail') hdone resume hresume
  | left done m hmail hdone e he => exact .left done m (hmail.trans hmail') hdone e he

/-- Whoever opens the prompt finds that it has taken nothing. -/
lemma opened (h : Attentive (σ := σ) mail seen .absent) : Attentive (σ := σ) mail seen .free := by
  cases h with
  | absent => exact .free [] List.nil_prefix (by simp)

/-- The prompt goes on with the message `m`. -/
lemma after (hmail : done ++ [m] <+: mail) (hdone : ∀ m ∈ done, m.exit? = none)
    {p : Progress (Session σ) (Option Exit)} (hp : p.Yields (· = m.exit?)) :
    Attentive mail (done.length + 1) (.after p) := by
  cases p with
  | done a s =>
    have ha : a = m.exit? := hp
    cases a with
    | none =>
      have hlength : (done ++ [m]).length = done.length + 1 := List.length_append
      rw [← hlength]
      refine .free (done ++ [m]) hmail fun m' hm' => ?_
      rcases List.mem_append.mp hm' with hm' | hm'
      · exact hdone m' hm'
      · rw [List.mem_singleton.mp hm', ha]
    | some e => exact .left done m hmail hdone e ha.symm
  | going s next => exact .busy done m hmail hdone _ fun _ => hp
  | waiting s resume => exact .busy done m hmail hdone resume hp

/-- Lines that come before a message for which the prompt is left are not more than all that come
before it. -/
lemma length_le {done' : List Message} (hm : m.exit? ≠ none) (hmail : done ++ [m] <+: mail)
    (hmail' : done' <+: mail) (hdone' : ∀ m ∈ done', m.exit? = none) :
    done'.length ≤ done.length := by
  by_contra hlt
  have hle : (done ++ [m]).length ≤ done'.length := by
    rw [List.length_append, List.length_singleton]
    omega
  have hsub := List.prefix_of_prefix_length_le hmail hmail' hle
  exact hm (hdone' m (hsub.subset (by simp)))

/-- A prompt that is about to take a message has not come to the end of the session yet. -/
lemma lt_of_free (h : Attentive (σ := σ) mail seen .free) (hm : m.exit? ≠ none)
    (hmail : done ++ [m] <+: mail) : seen ≤ done.length := by
  cases h with
  | free done' hmail' hdone' => exact length_le hm hmail hmail' hdone'

/-- A prompt that was left was left for the first message that is not a line. -/
lemma of_left {e : Exit} (h : Attentive (σ := σ) mail seen (.left e)) (hm : m.exit? ≠ none)
    (hmail : done ++ [m] <+: mail) (hdone : ∀ m ∈ done, m.exit? = none) :
    m.exit? = some e ∧ mail.take seen = done ++ [m] := by
  cases h with
  | left done' m' hmail' hdone' _ he =>
    have hm' : m'.exit? ≠ none := by simp [he]
    have hle := length_le hm hmail ((List.prefix_append done' [m']).trans hmail') hdone'
    have hge := length_le hm' hmail' ((List.prefix_append done [m]).trans hmail) hdone
    have hlen : (done' ++ [m']).length = (done ++ [m]).length := by simp; omega
    have heq : done' ++ [m'] = done ++ [m] :=
      (List.prefix_of_prefix_length_le hmail' hmail hlen.le).eq_of_length hlen
    obtain ⟨rfl, hlast⟩ := List.append_inj' heq rfl
    obtain rfl : m' = m := by simpa using hlast
    refine ⟨he, ?_⟩
    have htake := List.prefix_iff_eq_take.mp hmail
    rw [List.length_append, List.length_singleton] at htake
    exact htake.symm

end Attentive

/-! ### What is kept throughout -/

/-- What is kept throughout. -/
structure Sound (office : Office σ) : Prop where
  /-- What the prompt has taken. -/
  attentive : Attentive office.mail office.seen office.clerk
  /-- The end of the session reaches the prompt by no other way. -/
  undelivered : office.delivered = false → ∀ closing, .over closing ∉ office.mail
  /-- Nobody else does anything to the audience but to tell it. -/
  others : office.scene.Heeding
  /-- Neither does the prompt. -/
  clerk : ∀ resume, office.clerk = .busy resume → ∀ c s,
    (resume c s).Abides Session.voice Heeds s.voice
  /-- Until anybody is told, an open prompt is the one to be told. -/
  heard : office.clerk ≠ .absent → office.session.told = none →
    Heard (.prompt 0) office.session.voice

variable {venue} {office : Office σ}

/-- What the prompt does with a message is nothing to the audience but to tell it. -/
lemma heeds_of_abides {p : Progress (Session σ) (Option Exit)} {v : Voice}
    (hp : p.Abides Session.voice Heeds v) :
    Heeds v p.current.voice ∧ ∀ resume, Clerk.after p = .busy resume →
      ∀ c s, (resume c s).Abides Session.voice Heeds s.voice := by
  cases p with
  | done a s =>
    obtain rfl : s.voice = v := hp
    cases a with
    | none => exact ⟨.same _, fun resume h => nomatch h⟩
    | some e => exact ⟨.same _, fun resume h => nomatch h⟩
  | going s next =>
    refine ⟨hp.1, fun resume h => ?_⟩
    obtain rfl := Clerk.busy.inj h
    exact fun _ => hp.2
  | waiting s resume =>
    refine ⟨hp.1, fun resume' h => ?_⟩
    obtain rfl := Clerk.busy.inj h
    exact hp.2

/-- Until anybody is told, the audience stays the same. -/
lemma heard_of_heeds {audience : Audience} {v v' : Voice} (h : v.told = none → Heard audience v)
    (hv : Heeds v v') (hnone : v'.told = none) : Heard audience v' := by
  cases hv with
  | same => exact h hnone
  | tell _ _ closing => cases hnone

/-- The prompt that is opened is the one to be told. -/
lemma heard_openPrompt (s : Session σ) (hnone : (Session.openPrompt 0 s).2.told = none) :
    Heard (.prompt 0) (Session.openPrompt 0 s).2.voice := by
  have hvoice : (Session.openPrompt 0 s).2.voice =
      ⟨some (.prompt 0), (Session.openPrompt 0 s).2.told⟩ := rfl
  rw [hvoice, hnone]
  exact .waiting

/-- The prompt goes on with the message `m`. -/
lemma Sound.settle (h : office.Sound) {done : List Message} {m : Message}
    (hmail : done ++ [m] <+: office.mail) (hdone : ∀ m ∈ done, m.exit? = none)
    (hopened : office.clerk ≠ .absent) {p : Progress (Session σ) (Option Exit)}
    (hp : p.Yields (· = m.exit?)) (habides : p.Abides Session.voice Heeds office.session.voice) :
    let settled := { office with seen := done.length + 1 }.settle p
    settled.Sound ∧ Heeds office.session.voice settled.session.voice := by
  obtain ⟨hheeds, hclerk⟩ := heeds_of_abides habides
  exact ⟨⟨.after hmail hdone hp, h.undelivered, h.others, hclerk, fun _ =>
    heard_of_heeds (h.heard hopened) hheeds⟩, hheeds⟩

variable (venue) in
/-- A step of the prompt. -/
lemma Sound.attend (h : office.Sound) (c : Content) : (office.attend venue c).Sound ∧
    Heeds office.session.voice (office.attend venue c).session.voice := by
  have hattentive := h.attentive
  rw [Office.attend]
  split
  next hclerk =>
    split
    next m hm =>
      rw [hclerk] at hattentive
      generalize hseen : office.seen = seen at hattentive hm
      cases hattentive with
      | free done hmail hdone =>
        obtain ⟨rest, hrest⟩ := hmail
        -- the message comes right after those that have been dealt with
        obtain ⟨rest', rfl⟩ : ∃ rest', rest = m :: rest' := by
          rw [← hrest, List.getElem?_append_right le_rfl, Nat.sub_self] at hm
          cases rest with
          | nil => cases hm
          | cons m' rest' => exact ⟨rest', by rw [Option.some.inj hm]⟩
        have hmail : done ++ [m] <+: office.mail := ⟨rest', by rw [← hrest]; simp⟩
        exact h.settle hmail hdone (by simp [hclerk]) (Session.yields_obeying venue m _)
          (Session.abides_obeying venue m _)
    next => exact ⟨h, .same _⟩
  next resume hclerk =>
    rw [hclerk] at hattentive
    have hopened : office.clerk ≠ .absent := by simp [hclerk]
    obtain ⟨scene, mail, seen, delivered, clerk⟩ := office
    cases hattentive with
    | busy done m hmail hdone resume hresume =>
      exact h.settle hmail hdone hopened (hresume c _) (h.clerk resume hclerk c _)
  next => exact ⟨h, .same _⟩
  next => exact ⟨h, .same _⟩

/-- More mail that is not the end of the session. -/
lemma Sound.append (h : office.Sound) {m : Message} (hm : ∀ closing, m ≠ .over closing) :
    ({ office with mail := office.mail ++ [m] } : Office σ).Sound where
  attentive := h.attentive.mono (List.prefix_append _ _)
  undelivered := fun hdelivered closing hmem => by
    rcases List.mem_append.mp hmem with hmem | hmem
    · exact h.undelivered hdelivered closing hmem
    · exact hm closing (List.mem_singleton.mp hmem).symm
  others := h.others
  clerk := h.clerk
  heard := h.heard

/-- Every occasion keeps all this. Once the prompt is open, it does nothing to the audience but to
tell it. -/
lemma Sound.step (h : office.Sound) (x : Occasion σ) : (office.step venue x).Sound ∧
    (office.clerk ≠ .absent → Heeds office.session.voice (office.step venue x).session.voice) := by
  cases x with
  | happens y =>
    obtain ⟨hheeds, hothers⟩ := Scene.heeds_step venue h.others y
    exact ⟨⟨h.attentive, h.undelivered, hothers, h.clerk, fun hopened =>
      heard_of_heeds (h.heard hopened) hheeds⟩, fun _ => hheeds⟩
  | opens =>
    rw [Office.step]
    split
    next hclerk =>
      refine ⟨⟨(hclerk ▸ h.attentive).opened, h.undelivered, h.others, ?_, fun _ => ?_⟩, ?_⟩
      · exact fun resume hresume => nomatch hresume
      · exact heard_openPrompt office.session
      · exact fun hopened => absurd hclerk hopened
    next => exact ⟨h, fun _ => .same _⟩
  | types text => exact ⟨h.append fun _ => nofun, fun _ => .same _⟩
  | closes => exact ⟨h.append fun _ => nofun, fun _ => .same _⟩
  | delivers =>
    rw [Office.step]
    split
    next m hm =>
      refine ⟨⟨?_, fun hdelivered => ?_, h.others, h.clerk, h.heard⟩, fun _ => .same _⟩
      · exact h.attentive.mono (List.prefix_append _ _)
      · cases hdelivered
    next => exact ⟨h, fun _ => .same _⟩
  | attends c =>
    obtain ⟨hsound, hheeds⟩ := h.attend venue c
    exact ⟨hsound, fun _ => hheeds⟩

variable (venue) in
/-- All this holds in the course of a session, from its beginning. -/
theorem sound_course (service : σ) (tokens : Tokens) (x : ℕ → Occasion σ) (n : ℕ) :
    ((begin service tokens).course venue x n).Sound := by
  induction n with
  | zero =>
    exact ⟨.absent, fun _ _ => List.not_mem_nil, fun _ hu => absurd hu List.not_mem_nil,
      fun _ => nofun, absurd rfl⟩
  | succ n ih => exact (ih.step (x n)).1

/-! ### An open prompt -/

/-- A prompt that is open stays so. -/
lemma step_clerk_ne (h : office.clerk ≠ .absent) (x : Occasion σ) :
    (office.step venue x).clerk ≠ .absent := by
  have hafter (p : Progress (Session σ) (Option Exit)) : Clerk.after p ≠ .absent := by
    cases p with
    | done a s => cases a <;> exact nofun
    | _ => exact nofun
  cases x with
  | opens => rw [step]; split <;> simp_all
  | delivers => rw [step]; split <;> exact h
  | attends c =>
    rw [step, attend]
    split
    · split
      · exact hafter _
      · exact h
    · exact hafter _
    · exact h
    · exact h
  | _ => exact h

/-- No mail is lost. -/
lemma mail_prefix_step (office : Office σ) (x : Occasion σ) :
    office.mail <+: (office.step venue x).mail := by
  cases x with
  | types text => exact List.prefix_append _ _
  | closes => exact List.prefix_append _ _
  | delivers => rw [step]; split <;> simp
  | opens => rw [step]; split <;> exact List.prefix_rfl
  | happens y => exact List.prefix_rfl
  | attends c =>
    rw [step, attend]
    split
    · split <;> exact List.prefix_rfl
    · exact List.prefix_rfl
    · exact List.prefix_rfl
    · exact List.prefix_rfl

variable (venue) in
/-- Nobody else takes messages in place of an open prompt. -/
lemma step_of_not_attends (h : office.clerk ≠ .absent) {x : Occasion σ}
    (hx : ∀ c, x ≠ .attends c) : (office.step venue x).clerk = office.clerk ∧
      (office.step venue x).seen = office.seen := by
  cases x with
  | attends c => exact absurd rfl (hx c)
  | opens => rw [step]; split <;> simp_all
  | delivers => rw [step]; split <;> exact ⟨rfl, rfl⟩
  | _ => exact ⟨rfl, rfl⟩

/-- The prompt is never kept from going on for ever. -/
def Fair (x : ℕ → Occasion σ) : Prop :=
  ∀ n, ∃ m, n ≤ m ∧ ∃ c, x m = .attends c

section Courses

variable {x : ℕ → Occasion σ} {n : ℕ}

/-- An open prompt makes its next step as it is now. -/
lemma exists_attends (hfair : Fair x) (hopened : (office.course venue x n).clerk ≠ .absent) :
    ∃ m c, n ≤ m ∧ x m = .attends c ∧
      (office.course venue x m).clerk = (office.course venue x n).clerk ∧
      (office.course venue x m).seen = (office.course venue x n).seen := by
  obtain ⟨k, hk, c, hc⟩ := hfair n
  obtain ⟨d, rfl⟩ := Nat.exists_eq_add_of_le hk
  induction d generalizing n with
  | zero => exact ⟨n, c, le_rfl, hc, rfl, rfl⟩
  | succ d ih =>
    by_cases hx : ∃ c, x n = .attends c
    · obtain ⟨c, hc⟩ := hx
      exact ⟨n, c, le_rfl, hc, rfl, rfl⟩
    · rw [not_exists] at hx
      obtain ⟨hclerk, hseen⟩ := step_of_not_attends venue hopened hx
      rw [show n + (d + 1) = n + 1 + d by omega] at hc
      obtain ⟨m, c, hm, hmc, hclerk', hseen'⟩ :=
        ih (n := n + 1) (step_clerk_ne hopened (x n)) (by omega) hc
      exact ⟨m, c, by omega, hmc, hclerk'.trans hclerk, hseen'.trans hseen⟩

/-- A busy prompt goes on. -/
lemma exists_goes_on (hfair : Fair x)
    {resume : Content → Session σ → Progress (Session σ) (Option Exit)}
    (hbusy : (office.course venue x n).clerk = .busy resume) :
    ∃ m c s, n ≤ m ∧ (office.course venue x m).clerk = .after (resume c s) ∧
      (office.course venue x m).seen = (office.course venue x n).seen := by
  obtain ⟨m, c, hm, hc, hclerk, hseen⟩ := exists_attends hfair (by rw [hbusy]; exact nofun)
  rw [hbusy] at hclerk
  have hstep : office.course venue x (m + 1) =
      (office.course venue x m).settle (resume c (office.course venue x m).session) := by
    rw [course, hc, step, attend, hclerk]
  exact ⟨m + 1, c, _, by omega, by rw [hstep]; rfl, by rw [hstep]; exact hseen⟩

/-- A prompt comes to the end of what it does with a message. -/
lemma exists_settled (hfair : Fair x) (p : Progress (Session σ) (Option Exit))
    (hp : (office.course venue x n).clerk = .after p) : ∃ m, n ≤ m ∧
      (office.course venue x m).seen = (office.course venue x n).seen ∧
      ((office.course venue x m).clerk = .free ∨
        ∃ e, (office.course venue x m).clerk = .left e) := by
  induction p generalizing n with
  | done a s =>
    cases a with
    | none => exact ⟨n, le_rfl, rfl, .inl hp⟩
    | some e => exact ⟨n, le_rfl, rfl, .inr ⟨e, hp⟩⟩
  | going s next ih =>
    obtain ⟨m, c, t, hm, hclerk, hseen⟩ := exists_goes_on hfair hp
    obtain ⟨k, hk, hseen', hsettled⟩ := ih t hclerk
    exact ⟨k, hm.trans hk, hseen'.trans hseen, hsettled⟩
  | waiting s resume ih =>
    obtain ⟨m, c, t, hm, hclerk, hseen⟩ := exists_goes_on hfair hp
    obtain ⟨k, hk, hseen', hsettled⟩ := ih c t hclerk
    exact ⟨k, hm.trans hk, hseen'.trans hseen, hsettled⟩

end Courses

/-! ### The end of the session is delivered -/

/-- The prompt is open, and the end of the session has reached it next after `done`, which are all
lines. -/
structure Notified (done : List Message) (closing : Closing) (office : Office σ) : Prop where
  /-- What the prompt has taken. -/
  sound : office.Sound
  /-- It is open. -/
  opened : office.clerk ≠ .absent
  /-- What has reached it. -/
  mail : done ++ [.over closing] <+: office.mail

section Courses

variable {x : ℕ → Occasion σ} {n : ℕ} {done : List Message} {closing : Closing}

/-- Nothing undoes this. -/
lemma Notified.step (h : Notified done closing office) (x : Occasion σ) :
    Notified done closing (office.step venue x) where
  sound := (h.sound.step x).1
  opened := step_clerk_ne h.opened x
  mail := h.mail.trans (mail_prefix_step office x)

/-- A prompt that is about to take a message has one to take. -/
lemma Notified.exists_message (h : Notified done closing office) (hfree : office.clerk = .free) :
    office.seen ≤ done.length ∧ ∃ m, office.mail[office.seen]? = some m := by
  have hattentive := h.sound.attentive
  rw [hfree] at hattentive
  have hle := hattentive.lt_of_free (by simp [Message.exit?]) h.mail
  have hlength := h.mail.length_le
  rw [List.length_append, List.length_singleton] at hlength
  exact ⟨hle, _, List.getElem?_eq_getElem (by omega)⟩

/-- It holds from then on. -/
lemma Notified.later (h : Notified done closing (office.course venue x n)) {m : ℕ} (hnm : n ≤ m) :
    Notified done closing (office.course venue x m) :=
  Nat.le_induction h (fun k _ hk => hk.step (x k)) m hnm

/-- Then the prompt is left sooner or later. -/
lemma Notified.exists_left (hfair : Fair x)
    (h : Notified done closing (office.course venue x n)) :
    ∃ m, n ≤ m ∧ ∃ e, (office.course venue x m).clerk = .left e := by
  -- by induction on the number of messages that the prompt has to take yet
  induction hleft : done.length + 1 - (office.course venue x n).seen using Nat.strong_induction_on
    generalizing n with
  | _ left ih =>
    obtain ⟨p, hp⟩ := Clerk.exists_after h.opened (office.course venue x n).session
    obtain ⟨m, hnm, hseen, hfree | hend⟩ := exists_settled hfair p hp
    · obtain ⟨k, c, hmk, hc, hclerk, hseen'⟩ := exists_attends hfair (h.later hnm).opened
      have hk := h.later (hnm.trans hmk)
      rw [hfree] at hclerk
      obtain ⟨hle, message, hmessage⟩ := hk.exists_message hclerk
      have hstep : (office.course venue x (k + 1)).seen = (office.course venue x k).seen + 1 := by
        rw [course, hc, Office.step, attend, hclerk]
        simp only [hmessage]
        rfl
      obtain ⟨m', hm', hend⟩ := ih _ (by omega) (hk.later (Nat.le_add_right k 1)) rfl
      exact ⟨m', by omega, hend⟩
    · exact ⟨m, hnm, hend⟩

/-- An open prompt that is to be told, or was, stays the one. -/
lemma heard_later (hsound : ∀ n, (office.course venue x n).Sound) {o : ℕ}
    (hopened : (office.course venue x o).clerk ≠ .absent)
    (hearly : (office.course venue x o).session.told = none) (hon : o ≤ n) :
    (office.course venue x n).clerk ≠ .absent ∧
      Heard (.prompt 0) (office.course venue x n).session.voice :=
  Nat.le_induction ⟨hopened, (hsound o).heard hopened hearly⟩
    (fun k _ ih => ⟨step_clerk_ne ih.1 (x k), ih.2.heeds (((hsound k).step (x k)).2 ih.1)⟩) n hon

/-- Where no input has come to its end and the end of the session was not delivered, all that has
come are lines. -/
lemma Sound.exit?_eq_none (h : office.Sound) (hfirst : office.delivered = false)
    (hinput : .closed ∉ office.mail) : ∀ m ∈ office.mail, m.exit? = none := by
  intro m hm
  obtain text | - | closing := m
  · rfl
  · exact absurd hm hinput
  · exact absurd hm (h.undelivered hfirst closing)

end Courses

/-! ### Courses that are written down beforehand -/

/-- The occasions `xs`, after which the end of the session is delivered and the prompt makes a step,
by turns and for ever. -/
def followed (xs : List (Occasion σ)) (n : ℕ) : Occasion σ :=
  xs[n]?.getD (if n % 2 = 0 then .delivers else .attends {})

/-- After the occasions `xs` the prompt has its turn for ever, at every other occasion. -/
lemma fair_followed (xs : List (Occasion σ)) : Fair (followed xs) := by
  intro n
  refine ⟨2 * (n + xs.length) + 1, by omega, {}, ?_⟩
  rw [followed, List.getElem?_eq_none (by omega), Option.getD_none, if_neg (by omega)]

/-- The operation `op`, with nobody in between. -/
def carriedOut (op : Operation σ) : List (Occasion σ) :=
  .happens (.begins op) :: List.replicate 20 (.happens (.goes 0 {}))

/-- A duel that is played to its end, by a player who hands in nothing. -/
def idleDuel : List (Occasion σ) :=
  carriedOut .queue ++ carriedOut (.event (.started 7 none none)) ++
    carriedOut (.event (.finished 7))

/-! ### Whether the prompt learns of the end -/

/-- A prompt that was open before anybody was told of the end is the one that is told. Once that is
delivered before the end of the input, the prompt is left for it, having taken what came before and
nothing else; the input need not come to an end. -/
theorem leaves_when_told (venue : Venue σ) (service : σ) (tokens : Tokens) {x : ℕ → Occasion σ}
    (hfair : Fair x) :
    let office := (begin service tokens).course venue x
    ∀ o n audience closing, o ≤ n → (office o).clerk ≠ .absent → (office o).session.told = none →
      x n = .delivers → (office n).delivered = false →
      (office n).session.told = some (audience, closing) → .closed ∉ (office n).mail →
        audience = .prompt 0 ∧ ∃ m, n < m ∧ (office m).clerk = .left (.sessionOver closing) ∧
          (office m).mail.take (office m).seen = (office n).mail ++ [.over closing] := by
  intro office o n audience closing hon hopened hearly hdelivers hfirst htold hinput
  have hsound := sound_course venue service tokens x
  obtain ⟨hopened, hheard⟩ := heard_later hsound hopened hearly hon
  have haudience : audience = .prompt 0 := by
    generalize hvoice : (office n).session.voice = v at *
    have hv : v.told = some (audience, closing) := by rw [← hvoice]; exact htold
    cases hheard with
    | waiting => cases hv
    | told => exact (congrArg Prod.fst (Option.some.inj hv)).symm
  subst haudience
  have htidings : (office n).tidings = some (.over closing) := by
    rw [tidings, hfirst, htold]
    rfl
  have hmail : (office (n + 1)).mail = (office n).mail ++ [.over closing] := by
    rw [show office (n + 1) = (office n).step venue (x n) from rfl, hdelivers, step, htidings]
  have hnotified : Notified (office n).mail closing (office (n + 1)) :=
    ⟨hsound (n + 1), step_clerk_ne hopened (x n), hmail ▸ List.prefix_rfl⟩
  obtain ⟨m, hm, e, hleft⟩ := hnotified.exists_left hfair
  have hattentive := (hsound m).attentive
  rw [hleft] at hattentive
  obtain ⟨he, htake⟩ := hattentive.of_left (by simp [Message.exit?]) (hnotified.later hm).mail
    ((hsound n).exit?_eq_none hfirst hinput)
  exact ⟨rfl, m, hm, by rw [hleft, ← Option.some.inj he], htake⟩

/-- The prompt is opened, a line is typed, and then the duel is played to its end. -/
theorem leaves_when_told_idleDuel :
    let office := (begin () {}).course { link := .unreachable "" }
      (followed (.opens :: .types "" :: idleDuel))
    ∃ closing, (office 66).session.told = some (.prompt 0, closing) ∧
      ∃ m, 66 < m ∧ (office m).clerk = .left (.sessionOver closing) ∧
        (office m).mail.take (office m).seen = [.line "", .over closing] := by
  intro office
  have hclerk : (office 1).clerk ≠ .absent := by
    rw [show (office 1).clerk = .free from rfl]
    exact nofun
  have htold : (office 66).session.told = some (.prompt 0,
      { duel := some { id := 7, opponent := none, task := none }, givenUp := 0 }) := by
    decide +kernel
  have hmail : (office 66).mail = [.line ""] := by decide +kernel
  have h := leaves_when_told { link := .unreachable "" } () {}
    (fair_followed (.opens :: .types "" :: idleDuel)) 1 66 _ _ (by decide) hclerk
    (by decide +kernel) rfl (by decide +kernel) htold (by rw [hmail]; decide)
  rw [hmail] at h
  exact ⟨_, htold, h.2⟩

/-- A prompt that has taken all its mail does nothing as long as nothing is typed, unless it is to
be told of the end. -/
lemma course_of_idle {x : ℕ → Occasion σ} {n : ℕ} (hclerk : (office.course venue x n).clerk = .free)
    (hmail : (office.course venue x n).mail.length ≤ (office.course venue x n).seen)
    (htidings : (office.course venue x n).tidings = none)
    (hx : ∀ m, n ≤ m → x m = .delivers ∨ ∃ c, x m = .attends c) {m : ℕ} (hnm : n ≤ m) :
    office.course venue x m = office.course venue x n := by
  induction m, hnm using Nat.le_induction with
  | base => rfl
  | succ m hnm ih =>
    rw [course, ih]
    obtain hm | ⟨c, hm⟩ := hx m hnm
    · rw [hm, step, htidings]
    · rw [hm, step, attend, hclerk, List.getElem?_eq_none hmail]

/-- Not so a prompt that is opened once the session is over: it waits for ever, and its input would
have to come to an end. -/
theorem waits_for_ever :
    let x := followed (idleDuel ++ [.opens])
    let office := (begin () {}).course { link := .unreachable "" } x
    Fair x ∧ x 63 = .opens ∧ (office 63).session.standing.phase = .over ∧
      (office 63).session.told.isSome ∧ (∀ n, ∃ m, n ≤ m ∧ x m = .delivers) ∧
      ∀ m, 63 < m → (office m).clerk = .free := by
  intro x office
  have hx (m : ℕ) (hm : 64 ≤ m) : x m = if m % 2 = 0 then .delivers else .attends {} := by
    have hnone : (idleDuel ++ [.opens] : List (Occasion Unit))[m]? = none :=
      List.getElem?_eq_none hm
    rw [show x m = followed (idleDuel ++ [.opens]) m from rfl, followed, hnone, Option.getD_none]
  have hclerk : (office 64).clerk = .free := rfl
  refine ⟨fair_followed _, rfl, by decide +kernel, by decide +kernel, fun n => ?_, fun m hm => ?_⟩
  · exact ⟨2 * (n + 64), by omega, by rw [hx _ (by omega), if_pos (by omega)]⟩
  · have hidle : office m = office 64 := by
      refine course_of_idle hclerk (by decide +kernel) (by decide +kernel) (fun k hk => ?_) hm
      rw [hx k hk]
      split
      · exact .inl rfl
      · exact .inr ⟨{}, rfl⟩
    rw [hidle, hclerk]

/-! ### With nobody in between -/

variable (venue) in
/-- The prompt comes to the end of what it does with a message. -/
lemma exists_iterate_settle (office : Office σ) (p : Progress (Session σ) (Option Exit)) :
    ∃ k, (fun o => attend venue o {})^[k] (office.settle p) =
      office.settle (.done (p.drain {}).1 (p.drain {}).2) := by
  induction p with
  | done a s => exact ⟨0, rfl⟩
  | going s next ih =>
    obtain ⟨k, hk⟩ := ih s
    exact ⟨k + 1, hk⟩
  | waiting s resume ih =>
    obtain ⟨k, hk⟩ := ih {} s
    exact ⟨k + 1, hk⟩

variable (venue) in
/-- With nobody in between the prompt takes all that there is as `Session.obeyAll` does. -/
theorem exists_iterate_attend (hfree : office.clerk = .free) :
    ∃ k, let obeyed := Session.obeyAll venue (office.mail.drop office.seen) office.session
      let after := (fun o => attend venue o {})^[k] office
      after.session = obeyed.2 ∧ after.clerk = .after (.done obeyed.1 obeyed.2) := by
  generalize hmessages : office.mail.drop office.seen = messages
  induction messages generalizing office with
  | nil => exact ⟨0, rfl, hfree⟩
  | cons message messages ih =>
    have hmessage : office.mail[office.seen]? = some message := by
      rw [← List.head?_drop, hmessages, List.head?_cons]
    have hattend : office.attend venue {} =
        { office with seen := office.seen + 1 }.settle
          (Session.obeying venue message office.session) := by
      rw [attend, hfree]
      simp only [hmessage]
    obtain ⟨k, hk⟩ := exists_iterate_settle venue { office with seen := office.seen + 1 }
      (Session.obeying venue message office.session)
    -- to obey a message among others is to obey it at once if nobody else acts
    have hobey : (Session.obeying venue message office.session).drain {} =
        Session.obey venue message office.session :=
      congrFun (Session.atOnce_obeying venue message) office.session
    rw [hobey, ← hattend, ← Function.iterate_succ_apply] at hk
    rw [Session.obeyAll_cons]
    cases hresult : Session.obey venue message office.session with
    | mk exit s =>
      rw [hresult] at hk
      cases exit with
      | some e => exact ⟨k + 1, by rw [hk]; exact ⟨rfl, rfl⟩⟩
      | none =>
        have hrest : office.mail.drop (office.seen + 1) = messages := by
          rw [← List.tail_drop, hmessages, List.tail_cons]
        obtain ⟨j, hj⟩ :=
          @ih ({ office with seen := office.seen + 1 }.settle (.done none s)) rfl hrest
        refine ⟨j + (k + 1), ?_⟩
        rw [Function.iterate_add_apply, hk]
        exact hj

end Office
end Duelist
