import Duelist.Service.Duel
import Duelist.Solution.Extension
import Duelist.Submission.News
import Mathlib.Tactic.Lemma
/-!
# Wordings

What the player reads and what the service is sent are words in the end. The program puts them
together out of parts that it also uses elsewhere: the verdict of a grading, the message of a
failure, the name of a language. A statement about what is told that took these parts over would be
met by a program that says nothing at all. So the words are written down here once more, each in
full, and the program is shown to use them.
-/

namespace Duelist

/-! ### Failures -/

/-- The words for a refusal. -/
def Refusal.wording : Refusal → String
  | .noDuel => "you are not in an active duel"
  | .alreadyQueued => "you are already in a duel or waiting for one"
  | .missingFile path => "file " ++ path ++ " not found"
  | .unreadableFile path reason => "could not read " ++ path ++ ": " ++ reason
  | .unknownExtension extension =>
    "unsupported file extension '" ++ extension ++ "', use one of .py, .cpp, .go"

/-- The words for a misfit. -/
def Misfit.wording : Misfit → String
  | .unreadable => "could not read response body"
  | .notRecord body => "invalid JSON body: '" ++ body ++ "'"
  | .payload => "<json>"

namespace Failure

/-- The words for a failure. -/
def wording : Failure → String
  | .notSignedIn none => "authentication failed"
  | .notSignedIn (some status) => "authentication failed (" ++ toString status ++ ")"
  | .streamLost reason => "connection lost: " ++ reason
  | .refused why => why.wording
  | .rejected status body => "server error " ++ toString status ++ ": " ++ body
  | .unreachable reason => "request failed: " ++ reason
  | .misfit what => "unexpected response: " ++ what.wording

/-- A failure is told in the words for it. -/
lemma message_eq_wording (e : Failure) : e.message = e.wording := by
  cases e with
  | notSignedIn status => cases status <;> rfl
  | refused why => cases why <;> rfl
  | misfit what => cases what <;> rfl
  | _ => rfl

/-- The service does not accept the tokens: it gave no new ones, or there was nothing to ask for new
ones with, or it refused a token although that was fresh. -/
def BlamesTokens (e : Failure) : Prop :=
  (∃ status, e = .notSignedIn status) ∨ ∃ body, e = .rejected 401 body

/-- A failure is taken for one about the tokens if the tokens are to blame. -/
lemma isAboutTokens_iff_blamesTokens (e : Failure) : e.isAboutTokens ↔ e.BlamesTokens := by
  cases e <;> simp [isAboutTokens, BlamesTokens]

instance (e : Failure) : Decidable e.BlamesTokens :=
  decidable_of_iff (e.isAboutTokens = true) e.isAboutTokens_iff_blamesTokens

/-- What is said to a player whose submission `id` cannot be followed any more. -/
def troubleLine (id : Int64) (e : Failure) : String :=
  "Submission " ++ toString id ++ ": cannot check the status, " ++ e.wording ++
    ". Log in again to follow it."

/-- A complaint is made in the words for it. -/
lemma complaint_eq_troubleLine (id : Int64) (e : Failure) : e.complaint id = e.troubleLine id := by
  unfold complaint
  simp only [message_eq_wording]
  rfl

end Failure

/-! ### Gradings -/

namespace Grading

/-- What is said of the submission `id` when the grader has something to say. -/
def messageLine (id : Int64) (text : String) : String :=
  "Submission " ++ toString id ++ ": " ++ text

/-- A message is shown in the words for it. -/
lemma messageNotice_eq_messageLine (id : Int64) (text : String) :
    messageNotice id text = messageLine id text := rfl

/-- What is said at the end of a message that there may be. -/
def messageSection : Option String → String
  | none => ""
  | some text => if text = "" then "" else "\nMessage: " ++ text

/-- What is said of the submission `id` at the end: the verdict, and the message unless it is
empty. -/
def reportLines (id : Int64) (g : Grading) : String :=
  "=== SUBMISSION " ++ toString id ++ " RESULT ===\nVerdict: " ++ g.verdict.getD "Unknown" ++
    messageSection g.message

/-- A report is made in the words for it. -/
lemma report_eq_reportLines (id : Int64) (g : Grading) : g.report id = g.reportLines id := by
  obtain ⟨status, verdict, message⟩ := g
  cases message with
  | none => rfl
  | some text =>
    have hsection : (if text.isEmpty then "" else "\nMessage: " ++ text) =
        messageSection (some text) := by simp [messageSection]
    exact congrArg ("=== SUBMISSION " ++ toString id ++ " RESULT ===\nVerdict: " ++
      verdict.getD "Unknown" ++ ·) hsection

end Grading

/-! ### Duels -/

/-- What is said of the result of a duel. -/
def DuelResult.line : DuelResult → String
  | .win => "=== DUEL RESULT: VICTORY! ==="
  | .lose => "=== DUEL RESULT: DEFEAT ==="
  | .draw | .pending => "=== DUEL RESULT: DRAW ==="

/-- A result is announced in the words for it. -/
lemma DuelResult.headline_eq_line (result : DuelResult) :
    s!"=== DUEL RESULT: {result.headline} ===" = result.line := by
  cases result <;> decide

/-! ### Languages -/

/-- What a language is called. -/
def Language.title : Language → String
  | .python => "Python"
  | .cpp => "C++"
  | .golang => "Golang"

/-- The service is told what a language is called. -/
lemma Language.name_eq_title (language : Language) : language.name = language.title := by
  cases language <;> rfl

end Duelist
