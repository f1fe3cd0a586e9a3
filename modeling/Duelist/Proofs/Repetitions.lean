import Duelist.Submission.News
import Mathlib.Data.List.Destutter
import Mathlib.Data.List.ReduceOption
import Mathlib.Tactic.Lemma
/-!
# Repetitions

Which of the messages offered to a filter pass, one after the other. A message is `spoken` if it is
there and not empty; all others change nothing. A filter remembers the last message that passed, and
so it knows the last one that was spoken (`MessageFilter.last_after`), since one that does not pass
is the same as that.

The main statement is `MessageFilter.without_repetitions`: what passes are the messages that are
spoken, of which every run of equal neighbours is collapsed to its first member. The induction is
over the messages to come, with what the filter remembers put in front of them
(`MessageFilter.toList_last_append_passing`).
-/

namespace Duelist

/-- The messages that are there and not empty, in order. -/
def spoken (messages : List (Option String)) : List String :=
  messages.reduceOption.filter (· ≠ "")

/-- Without messages there is nothing to say. -/
@[simp]
lemma spoken_nil : spoken [] = [] := rfl

/-- Messages are said one after the other. -/
lemma spoken_append (before after : List (Option String)) :
    spoken (before ++ after) = spoken before ++ spoken after := by
  rw [spoken, List.reduceOption_append, List.filter_append, spoken, spoken]

/-- An empty message says nothing. -/
lemma spoken_cons_empty (messages : List (Option String)) :
    spoken (some "" :: messages) = spoken messages := by
  rw [spoken, List.reduceOption_cons_of_some, List.filter_cons_of_neg (by simp), spoken]

/-- Any other message is said. -/
lemma spoken_cons_some {text : String} (h : text ≠ "") (messages : List (Option String)) :
    spoken (some text :: messages) = text :: spoken messages := by
  rw [spoken, List.reduceOption_cons_of_some, List.filter_cons_of_pos (by simpa using h), spoken]

namespace MessageFilter

variable (f : MessageFilter)

/-! ### One message -/

/-- The three things that may be the matter with a message, each with what becomes of the filter: it
is not spoken, it is the last one that passed, or it passes. -/
lemma passes_cases (message : Option String) :
    (f.passes message = false ∧ f.next message = f ∧ spoken [message] = []) ∨
    (f.passes message = false ∧ f.next message = f ∧
      ∃ text, f.last = some text ∧ message = some text ∧ text ≠ "") ∨
    (f.passes message = true ∧ f.next message = ⟨message⟩ ∧
      ∃ text, f.last ≠ some text ∧ message = some text ∧ text ≠ "") := by
  have hnext : f.passes message = false → f.next message = f := fun h => by
    rw [next, h, if_neg Bool.false_ne_true]
  cases message with
  | none => exact .inl ⟨rfl, hnext rfl, rfl⟩
  | some text =>
    by_cases htext : text = ""
    · subst htext
      have hpasses : f.passes (some "") = false := by simp [passes]
      exact .inl ⟨hpasses, hnext hpasses, spoken_cons_empty []⟩
    by_cases hlast : f.last = some text
    · have hpasses : f.passes (some text) = false := by simp [passes, hlast]
      exact .inr (.inl ⟨hpasses, hnext hpasses, text, hlast, rfl, htext⟩)
    · have hpasses : f.passes (some text) = true := by simp [passes, hlast, htext]
      exact .inr (.inr ⟨hpasses, by rw [next, if_pos hpasses], text, hlast, rfl, htext⟩)

/-- A message passes if it says something else than the one that passed last. -/
lemma passes_iff (message : Option String) :
    f.passes message = true ↔ ∃ text, message = some text ∧ text ≠ "" ∧ f.last ≠ some text := by
  cases message with
  | none => simp [passes]
  | some text => simp [passes]

/-- What is remembered is the last of what was remembered before and what is spoken now. -/
lemma last_next (message : Option String) :
    (f.next message).last = (f.last.toList ++ spoken [message]).getLast? := by
  obtain ⟨-, hnext, hspoken⟩ | ⟨-, hnext, text, hlast, rfl, htext⟩ |
    ⟨-, hnext, text, -, rfl, htext⟩ := f.passes_cases message
  · rw [hnext, hspoken, List.append_nil]
    cases f.last <;> rfl
  · rw [hnext, hlast, spoken_cons_some htext]
    rfl
  · rw [hnext, spoken_cons_some htext, spoken_nil, List.getLast?_concat]

/-! ### Several messages -/

/-- The filter after several messages were offered to it. -/
def after (messages : List (Option String)) : MessageFilter :=
  messages.foldl next f

/-- The messages that pass when several are offered, in order. -/
def passing (messages : List (Option String)) : List String :=
  ((messages.zip (f.passesEach messages)).filter Prod.snd).filterMap Prod.fst

/-- If the first message passes, it is followed by those that pass after it. -/
lemma passing_cons_of_passes {text : String} (h : f.passes (some text) = true)
    (messages : List (Option String)) :
    f.passing (some text :: messages) = text :: (f.next (some text)).passing messages := by
  simp [passing, passesEach, h]

/-- If it does not, those are all. -/
lemma passing_cons_of_not_passes {message : Option String} (h : f.passes message = false)
    (messages : List (Option String)) :
    f.passing (message :: messages) = (f.next message).passing messages := by
  simp [passing, passesEach, h]

/-- The message that is remembered, followed by those that pass, are what is left of it and those
that are spoken when runs of equal neighbours are collapsed. -/
lemma toList_last_append_passing (messages : List (Option String)) :
    f.last.toList ++ f.passing messages =
      (f.last.toList ++ spoken messages).destutter (· ≠ ·) := by
  -- the filter changes along the way, and so the induction is for all filters
  induction messages generalizing f with
  | nil =>
    cases h : f.last with
    | none => rfl
    | some text => rfl
  | cons message messages ih =>
    have hspoken : spoken (message :: messages) = spoken [message] ++ spoken messages :=
      spoken_append [message] messages
    obtain ⟨hpasses, hnext, hnone⟩ | ⟨hpasses, hnext, text, hlast, rfl, htext⟩ |
      ⟨hpasses, hnext, text, hlast, rfl, htext⟩ := f.passes_cases message
    · rw [f.passing_cons_of_not_passes hpasses, hnext, ih, hspoken, hnone, List.nil_append]
    · rw [f.passing_cons_of_not_passes hpasses, hnext, ih, hlast, spoken_cons_some htext,
        Option.toList_some, List.singleton_append, List.singleton_append, List.destutter_cons_cons,
        if_neg (by simp), List.destutter_cons']
    · have ih := ih ⟨some text⟩
      rw [Option.toList_some, List.singleton_append, List.singleton_append] at ih
      rw [f.passing_cons_of_passes hpasses, hnext, ih, spoken_cons_some htext]
      cases hf : f.last with
      | none => rfl
      | some text' =>
        have hne : text' ≠ text := fun h => hlast (by rw [hf, h])
        rw [Option.toList_some, List.singleton_append, List.singleton_append,
          List.destutter_cons_cons, if_pos hne, List.destutter_cons']

/-- After several messages the last one that was spoken is remembered. -/
lemma last_after (messages : List (Option String)) :
    (f.after messages).last = (f.last.toList ++ spoken messages).getLast? := by
  induction messages generalizing f with
  | nil => cases h : f.last <;> simp [after, h]
  | cons message messages ih =>
    have hlast (texts : List String) : texts.getLast?.toList.getLast? = texts.getLast? := by
      cases texts.getLast? <;> rfl
    have hspoken : spoken (message :: messages) = spoken [message] ++ spoken messages :=
      spoken_append [message] messages
    rw [after, List.foldl_cons, ← after, ih, last_next, hspoken, ← List.append_assoc,
      List.getLast?_append, hlast, ← List.getLast?_append]

/-- Of each message it is told whether it passes. -/
lemma length_passesEach (messages : List (Option String)) :
    (f.passesEach messages).length = messages.length := by
  induction messages generalizing f with
  | nil => rfl
  | cons message messages ih => rw [passesEach, List.length_cons, ih, List.length_cons]

/-- Of later messages it is told by the filter that the earlier ones have left. -/
lemma passesEach_append (before later : List (Option String)) :
    f.passesEach (before ++ later) = f.passesEach before ++ (f.after before).passesEach later := by
  induction before generalizing f with
  | nil => rfl
  | cons message before ih =>
    rw [List.cons_append, passesEach, ih, passesEach, List.cons_append]
    rfl

/-- Whether a message passes depends on what was spoken before it. -/
lemma getElem?_passesEach (before : List (Option String)) (message : Option String)
    (later : List (Option String)) :
    (f.passesEach (before ++ message :: later))[before.length]? = some true ↔
      ∃ text, message = some text ∧ text ≠ "" ∧
        (f.last.toList ++ spoken before).getLast? ≠ some text := by
  rw [passesEach_append, List.getElem?_append_right (f.length_passesEach before).le,
    length_passesEach, Nat.sub_self, ← last_after, ← passes_iff]
  exact Option.some_inj

/-! ### The main statement -/

/-- Of the messages offered to a new filter those that are spoken pass, with every run of equal
neighbours collapsed to its first member. So no two that pass one after the other are equal.

A message passes if and only if it is spoken and is not the last one that was spoken before it; and
of two that are spoken with nothing spoken in between, the second passes if and only if it is
another one than the first. -/
theorem without_repetitions (messages : List (Option String)) :
    let f : MessageFilter := {}
    f.passing messages = (spoken messages).destutter (· ≠ ·) ∧
    (f.passing messages).IsChain (· ≠ ·) ∧
    (∀ before message later,
      (f.passesEach (before ++ message :: later))[before.length]? = some true ↔
        ∃ text, message = some text ∧ text ≠ "" ∧ (spoken before).getLast? ≠ some text) ∧
    ∀ before a gap b later, a ≠ "" → b ≠ "" → spoken gap = [] →
      ((f.passesEach (before ++ some a :: gap ++ some b :: later))[
        (before ++ some a :: gap).length]? = some true ↔ a ≠ b) := by
  intro f
  have hpassing : f.passing messages = (spoken messages).destutter (· ≠ ·) :=
    f.toList_last_append_passing messages
  refine ⟨hpassing, ?_, f.getElem?_passesEach, fun before a gap b later ha hb hgap => ?_⟩
  · rw [hpassing]
    exact List.isChain_destutter _ _
  · -- nothing is said in the gap, so that `a` is still the last message
    have hspoken : (spoken (before ++ some a :: gap)).getLast? = some a := by
      rw [spoken_append, spoken_cons_some ha, hgap, List.getLast?_concat]
    have hlaw := f.getElem?_passesEach (before ++ some a :: gap) (some b) later
    rw [hlaw]
    constructor
    · rintro ⟨text, htext, -, hlast⟩ rfl
      exact hlast (hspoken.trans htext)
    · intro hne
      refine ⟨b, rfl, hb, fun hlast => hne ?_⟩
      exact Option.some_inj.mp (hspoken.symm.trans hlast)

/-- Nothing spoken in between: a message that comes again is not shown again. -/
theorem without_repetitions_gap : spoken [none, some ""] = [] ∧
    ¬(({} : MessageFilter).passesEach
      [some "Testing", some "Compiling", none, some "", some "Compiling"])[4]? = some true := by
  have hgap : spoken [none, some ""] = [] := by decide
  have hlaw := (without_repetitions []).2.2.2 [some "Testing"] "Compiling" [none, some ""]
    "Compiling" [] (by decide) (by decide) hgap
  exact ⟨hgap, fun h => hlaw.mp h rfl⟩

end MessageFilter
end Duelist
