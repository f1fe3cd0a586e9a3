import Duelist.Events.Recorder
import Duelist.Proofs.Encoding
import Mathlib.Data.List.SplitBy
import Mathlib.Tactic.Lemma
/-!
# Listening

The event stream from the reply that opens it to its end. A subscription takes the bytes as they
arrive, in chunks of any size, and keeps the unfinished rest of a line from one chunk to the next
(`Subscription.listen`).

What is to come of a stream is said here once more, with all its bytes at hand: they are cut after
each line feed (`Text.pieces`), the signal is looked at, and then one piece is read
(`Subscription.readPieces`). The main statement is `Subscription.listen_eq_expected`: both are the
same errand, step for step. So the handler is given the same events in the same order, and the end
is the same, whatever the handler does with an event and whatever others do meanwhile.
-/

namespace Duelist

variable {τ σ α : Type}

attribute [local instance] Errand.lawfulMonad

/-! ### A line feed at the end of a line -/

namespace Text

/-- Something more that is dropped from the end changes nothing. -/
lemma dropTrailing_concat {p : α → Bool} (l : List α) {a : α} (h : p a) :
    dropTrailing p (l ++ [a]) = dropTrailing p l := by
  simp [dropTrailing, h]

/-- Something blank at the end changes nothing of what is left after trimming. -/
lemma trimmed_concat (cs : List Char) {c : Char} (h : isBlank c) :
    trimmed (cs ++ [c]) = trimmed cs := by
  rw [trimmed, trimmed, List.dropWhile_append]
  split
  next hempty => simp [h, List.isEmpty_iff.mp hempty]
  next => exact dropTrailing_concat _ h

end Text

/-- A line means the same with its line feed. -/
lemma StreamLine.ofText_lineFeed (line : List UInt8) :
    (Utf8.text? (line ++ [Text.lineFeed])).map ofText = (Utf8.text? line).map ofText := by
  rw [Utf8.text?, Utf8.decode_append_lineFeed, Utf8.text?]
  cases Utf8.decode line with
  | none => rfl
  | some cs =>
    have hblank : Text.isBlank '\n' := by decide
    simp [ofText, Text.trimmed_concat cs hblank]

/-! ### Cutting -/

namespace Text

/-- The bytes, cut after each line feed. -/
def pieces (bytes : List UInt8) : List (List UInt8) :=
  bytes.splitBy fun b _ => b != lineFeed

/-- Nothing is cut into no pieces. -/
@[simp]
lemma pieces_nil : pieces [] = [] := rfl

/-- Nothing is cut before the first line feed. -/
lemma pieces_concat {bytes : List UInt8} (h : lineFeed ∉ bytes) (b : UInt8) :
    pieces (bytes ++ [b]) = [bytes ++ [b]] := by
  refine List.splitBy_of_isChain (by simp) ?_
  induction bytes with
  | nil => exact List.isChain_singleton b
  | cons a bytes ih =>
    rw [List.mem_cons, not_or] at h
    refine List.isChain_cons.mpr ⟨fun _ _ => ?_, ih h.2⟩
    simpa using Ne.symm h.1

/-- What has no line feed is one piece. -/
lemma pieces_rest {rest : List UInt8} (h : lineFeed ∉ rest) (hne : rest ≠ []) :
    pieces rest = [rest] := by
  have hinit : lineFeed ∉ rest.dropLast := fun hmem => h (List.dropLast_subset rest hmem)
  have hpiece := pieces_concat hinit (rest.getLast hne)
  rwa [List.dropLast_concat_getLast hne] at hpiece

/-- A line with its line feed is a piece. -/
lemma pieces_line {line : List UInt8} (h : lineFeed ∉ line) (bytes : List UInt8) :
    pieces (line ++ lineFeed :: bytes) = (line ++ [lineFeed]) :: pieces bytes := by
  have hcut : pieces (line ++ [lineFeed] ++ bytes) =
      pieces (line ++ [lineFeed]) ++ pieces bytes := by
    refine List.splitBy_append fun b hb _ _ => ?_
    rw [List.getLast?_concat, Option.mem_some] at hb
    simp [← hb]
  rw [List.append_cons, hcut, pieces_concat h]
  rfl

/-- Lines that end with a line feed are cut there, and what comes behind them is cut on its own. -/
lemma pieces_lines {lines : List (List UInt8)} (h : ∀ line ∈ lines, lineFeed ∉ line)
    (bytes : List UInt8) : pieces (lines.flatMap (· ++ [lineFeed]) ++ bytes) =
      lines.map (· ++ [lineFeed]) ++ pieces bytes := by
  induction lines with
  | nil => rfl
  | cons line lines ih =>
    have hline := pieces_line (h line List.mem_cons_self)
      (lines.flatMap (· ++ [lineFeed]) ++ bytes)
    rw [ih fun line hmem => h line (List.mem_cons_of_mem _ hmem)] at hline
    simpa using hline

/-- What `cutLines` cuts has no line feeds in it, and put together again it is all there was. -/
lemma cutLines_spec (bytes : List UInt8) :
    (cutLines bytes).1.flatMap (· ++ [lineFeed]) ++ (cutLines bytes).2 = bytes ∧
      (∀ line ∈ (cutLines bytes).1, lineFeed ∉ line) ∧ lineFeed ∉ (cutLines bytes).2 := by
  induction bytes with
  | nil => simp [cutLines]
  | cons b bytes ih =>
    rw [cutLines]
    generalize cutLines bytes = cut at ih
    obtain ⟨lines, rest⟩ := cut
    obtain ⟨rfl, hlines, hrest⟩ := ih
    by_cases hb : b = lineFeed
    · simpa [hb] using ⟨hlines, hrest⟩
    · cases lines with
      | nil => simpa [hb] using ⟨Ne.symm hb, hrest⟩
      | cons line lines =>
        simp only [List.mem_cons, forall_eq_or_imp] at hlines
        simpa [hb, Ne.symm hb] using ⟨hlines, hrest⟩

end Text

/-! ### What is to come of a stream -/

/-- The end of reading where the stream itself ends, or breaks for the given reason. -/
def StreamEnd.ofBreak : Option String → StreamEnd
  | none => .closed
  | some reason => .failed (.streamLost reason)

namespace Subscription

variable (handler : Handler τ)

/-- Reads on to the end of the stream, which comes after the chunks, or breaks there for the reason
`failure` if there is one. -/
def readToEnd (failure : Option String) :
    List (List UInt8) → Except StreamEnd Subscription → Errand τ StreamEnd
  | _, .error ending => return ending
  | [], .ok s => s.finish handler failure
  | chunk :: chunks, .ok s => do readToEnd failure chunks (← s.receive handler chunk)

/-- Reads the event stream from the reply that opens it to its end. The chunks and `failure` are
those of a body that is still being written. -/
def listen (reply : Except Failure Reply) (chunks : List (List UInt8)) (failure : Option String) :
    Errand τ StreamEnd := do
  readToEnd handler failure chunks (← follow handler reply)

/-- Goes on with `e`, unless the stop signal is raised. -/
def attentively (e : Errand τ StreamEnd) : Errand τ StreamEnd := do
  if handler.raised (← get) then return .stopped else e

/-- Reads a piece of the stream, which may be the last one of a stream that broke; `type` is the
type that was announced and not used up. Reading goes on with `next`. -/
def readPiece (failure : Option String) (piece : List UInt8) (type : Option String)
    (next : Option String → Errand τ StreamEnd) : Errand τ StreamEnd :=
  if Text.lineFeed ∉ piece ∧ failure.isSome then return .ofBreak failure
  else match Utf8.text? piece with
    | none => return .failed (.streamLost Utf8.complaint)
    | some line =>
      match StreamLine.ofText line, type with
      | .announces type, _ => next (some type)
      | .carries data, some type =>
        match Event.decode type data with
        | .misfit => return .failed (.misfit .payload)
        | .foreign => next none
        | .event e => do
          match ← handler.handle e with
          | .stop => return .stopped
          | .proceed => next none
      | _, type => next type

/-- Reads the pieces of a stream in order. Before each of them, and before the end, the stop signal
is looked at. -/
def readPieces (failure : Option String) : List (List UInt8) → Option String → Errand τ StreamEnd
  | [], _ => attentively handler (return .ofBreak failure)
  | piece :: pieces, type =>
    attentively handler (readPiece handler failure piece type (readPieces failure pieces))

/-- What is to come of the reply to the query that opens the event stream, and of the stream. -/
def expected (reply : Except Failure Reply) (chunks : List (List UInt8))
    (failure : Option String) : Errand τ StreamEnd :=
  match reply with
  | .error (.unreachable reason) => return .failed (.streamLost reason)
  | .error e => return .failed e
  | .ok ⟨status, body⟩ =>
    if status ≠ 200 then return .failed (.streamLost s!"server answered {status}")
    else match body with
      | .whole content => readPieces handler content.failure (Text.pieces content.bytes) none
      | .live => readPieces handler failure (Text.pieces chunks.flatten) none

/-! ### One line -/

/-- Reads the pieces of a stream, the stop signal having been looked at for the first of them. -/
def readOn (failure : Option String) (pieces : List (List UInt8)) (type : Option String) :
    Errand τ StreamEnd :=
  match pieces with
  | [] => return .ofBreak failure
  | piece :: pieces => readPiece handler failure piece type (readPieces handler failure pieces)

variable {handler} {failure : Option String}

/-- Reading that is over stays over, whatever chunks there are. -/
@[simp]
lemma readToEnd_error (chunks : List (List UInt8)) (ending : StreamEnd) :
    readToEnd handler failure chunks (.error ending) = pure ending := by
  rw [readToEnd]

/-- To read pieces is to look at the signal, and then to read on. -/
lemma readPieces_eq (pieces : List (List UInt8)) (type : Option String) :
    readPieces handler failure pieces type =
      attentively handler (readOn handler failure pieces type) := by
  cases pieces <;> rfl

/-- The signal is looked at after a line and before the next one, which is the same. -/
lemma unlessRaised_bind (next : Except StreamEnd α → Errand τ StreamEnd)
    (hnext : ∀ ending, next (.error ending) = pure ending) (a : α) :
    (liftM (unlessRaised handler a) >>= next) = attentively handler (next (.ok a)) := by
  funext s
  have hlook : unlessRaised handler a s =
      (if handler.raised s then .error .stopped else .ok a, s) := by
    by_cases hraised : handler.raised s
    · exact (congrFun (if_pos hraised) s).trans (by rw [if_pos hraised]; rfl)
    · exact (congrFun (if_neg hraised) s).trans (by rw [if_neg hraised]; rfl)
  have hgoing : (liftM (unlessRaised handler a) >>= next) s =
      .going (unlessRaised handler a s).2 fun t => next (unlessRaised handler a s).1 t := rfl
  have hattends : attentively handler (next (.ok a)) s =
      .going s fun t =>
        (if handler.raised s then pure .stopped else next (.ok a) : Errand τ StreamEnd) t := rfl
  rw [hgoing, hlook, hattends]
  by_cases hraised : handler.raised s
  · simp only [hraised, if_true, hnext]
  · simp only [hraised, Bool.false_eq_true, if_false]

/-- To read a line is to read a piece that means the same. -/
lemma readLine_bind (failure : Option String) (next : Except StreamEnd Framer → Errand τ StreamEnd)
    (hnext : ∀ ending, next (.error ending) = pure ending) {line piece : List UInt8}
    (hmeans : (Utf8.text? piece).map StreamLine.ofText = (Utf8.text? line).map StreamLine.ofText)
    (hwhole : ¬(Text.lineFeed ∉ piece ∧ failure.isSome)) (f : Framer) :
    (readLine handler line f >>= next) =
      readPiece handler failure piece f.pending fun type =>
        attentively handler (next (.ok ⟨type⟩)) := by
  obtain ⟨pending⟩ := f
  rw [readLine, readPiece, if_neg hwhole]
  cases hline : Utf8.text? line with
  | none =>
    rw [hline, Option.map_none, Option.map_eq_none_iff] at hmeans
    rw [hmeans]
    exact hnext _
  | some text =>
    rw [hline, Option.map_some] at hmeans
    obtain ⟨text', hpiece, hsame⟩ := Option.map_eq_some_iff.mp hmeans
    simp only [hpiece, hsame, Framer.take]
    cases StreamLine.ofText text with
    | announces type => exact unlessRaised_bind next hnext _
    | noise => exact unlessRaised_bind next hnext _
    | carries data =>
      cases pending with
      | none => exact unlessRaised_bind next hnext _
      | some type =>
        simp only [Framer.complete]
        cases Event.decode type data with
        | foreign => exact unlessRaised_bind next hnext _
        | misfit => exact hnext _
        | event e =>
          simp only [bind_assoc]
          congr 1
          funext flow
          cases flow with
          | stop => exact hnext _
          | proceed => exact unlessRaised_bind next hnext _

/-! ### All lines -/

/-- Lines are read as the pieces that they are with their line feeds. -/
lemma readLines_bind {next : Except StreamEnd Framer → Errand τ StreamEnd}
    (hnext : ∀ ending, next (.error ending) = pure ending) (pieces lines : List (List UInt8))
    (f : Framer) (hok : ∀ f, next (.ok f) = readOn handler failure pieces f.pending) :
    (readLines handler lines f >>= next) =
      readOn handler failure (lines.map (· ++ [Text.lineFeed]) ++ pieces) f.pending := by
  induction lines generalizing f with
  | nil => exact hok f
  | cons line lines ih =>
    rw [readLines, bind_assoc]
    refine (readLine_bind failure _ ?_ (StreamLine.ofText_lineFeed line) (by simp) f).trans ?_
    · exact fun ending => hnext ending
    simp only [List.map_cons, List.cons_append, readOn]
    congr 1
    funext type
    rw [readPieces_eq]
    exact congrArg (attentively handler) (ih ⟨type⟩)

/-- The end of the stream ends the last piece, or drops it. -/
lemma finish_eq (s : Subscription) (h : Text.lineFeed ∉ s.unread) :
    s.finish handler failure =
      readOn handler failure (Text.pieces s.unread) s.framer.pending := by
  by_cases hempty : s.unread = []
  · rw [hempty]
    cases failure with
    | some reason => rfl
    | none => simp [finish, hempty, readOn, StreamEnd.ofBreak]
  · rw [Text.pieces_rest h hempty, readOn]
    cases failure with
    | some reason => simp [finish, readPiece, h, StreamEnd.ofBreak]
    | none =>
      simp only [finish, List.isEmpty_iff, hempty, if_false]
      refine (readLine_bind none _ ?_ rfl (by simp) s.framer).trans rfl
      exact fun _ => rfl

/-- However the bytes are cut into chunks, the pieces are those of all bytes together. -/
lemma readToEnd_ok (chunks : List (List UInt8)) (s : Subscription)
    (h : Text.lineFeed ∉ s.unread) :
    readToEnd handler failure chunks (.ok s) =
      readOn handler failure (Text.pieces (s.unread ++ chunks.flatten)) s.framer.pending := by
  induction chunks generalizing s with
  | nil => simpa [readToEnd] using finish_eq s h
  | cons chunk chunks ih =>
    obtain ⟨hbytes, hlines, hrest⟩ := Text.cutLines_spec (s.unread ++ chunk)
    have hpieces : Text.pieces (s.unread ++ (chunk :: chunks).flatten) =
        (Text.cutLines (s.unread ++ chunk)).1.map (· ++ [Text.lineFeed]) ++
          Text.pieces ((Text.cutLines (s.unread ++ chunk)).2 ++ chunks.flatten) := by
      rw [← Text.pieces_lines hlines, ← List.append_assoc, hbytes, List.flatten_cons,
        List.append_assoc]
    rw [hpieces, readToEnd, receive]
    simp only [bind_assoc]
    exact readLines_bind (fun ending => readToEnd_error chunks ending) _ _ _ fun f =>
      ih ⟨f, _⟩ hrest

/-! ### The whole stream -/

/-- A stream that is read while it is being written has the pieces of all its chunks together. -/
lemma listen_live (chunks : List (List UInt8)) (failure : Option String) :
    listen handler (.ok ⟨200, .live⟩) chunks failure =
      readPieces handler failure (Text.pieces chunks.flatten) none := by
  have hstart : listen handler (.ok ⟨200, .live⟩) chunks failure = attentively handler _ :=
    unlessRaised_bind (readToEnd handler failure chunks) (readToEnd_error chunks) {}
  rw [hstart, readPieces_eq, readToEnd_ok chunks {} (by simp)]
  rfl

/-- A body that is there already is read like one that arrives in one chunk. -/
lemma listen_whole (content : Content) (chunks : List (List UInt8)) (failure : Option String) :
    listen handler (.ok ⟨200, .whole content⟩) chunks failure =
      listen handler (.ok ⟨200, .live⟩) [content.bytes] content.failure := by
  change (readBody handler (.whole content) >>= readToEnd handler failure chunks) =
    liftM (start handler) >>= readToEnd handler content.failure [content.bytes]
  rw [readBody, bind_assoc]
  congr 1
  funext r
  cases r with
  | error ending => simp
  | ok s =>
    simp only [readToEnd, bind_assoc]
    congr 1
    funext r
    cases r with
    | error ending => simp
    | ok s => simp [readToEnd]

/-- Reading the stream as its bytes arrive, whatever the chunks they arrive in, is reading its
pieces one by one. -/
theorem listen_eq_expected (handler : Handler τ) (reply : Except Failure Reply)
    (chunks : List (List UInt8)) (failure : Option String) :
    listen handler reply chunks failure = expected handler reply chunks failure := by
  cases reply with
  | error e => cases e <;> exact readToEnd_error chunks _
  | ok reply =>
    obtain ⟨status, body⟩ := reply
    by_cases hstatus : status = 200
    · rw [hstatus]
      cases body with
      | live => exact listen_live chunks failure
      | whole content =>
        rw [listen_whole, listen_live, List.flatten_singleton]
        rfl
    · have hbody : Subscription.body (.ok ⟨status, body⟩) =
          .error (.streamLost s!"server answered {status}") := by
        simp [Subscription.body, Reply.isSuccess, hstatus]
      rw [listen, follow, hbody, expected.eq_def]
      simp [hstatus]

deriving instance DecidableEq for StreamEnd

/-- How a stream of the given chunks is to end, and the events that are to be kept of it. -/
def kept (chunks : List String) : StreamEnd × List Event :=
  let recorder : Recorder Unit := { world := { service := () } }
  let p := (expected (Recorder.handler none none) (.ok ⟨200, .live⟩) (chunks.map Utf8.bytes)
    none).atOnce recorder
  (p.1, p.2.events)

/-- A stream that is cut in the midst of its lines, and one with a payload that does not fit. -/
theorem listen_eq_expected_twoStreams :
    kept ["event: Duel", "Started\r\ndata:\x7b\"duel_id\":7,\"task_id\":\"t\"\x7d\n:\n\nev",
      "ent:DuelFinished\ndata: \x7b\"duel_id\":7\x7d"] =
        (.closed, [.started 7 none (some "t"), .finished 7]) ∧
    kept ["event:DuelFinished\ndata:\x7b\"duel_id\":7\x7d\nevent:DuelStarted\n",
      "data:\x7b\"duel_id\":\"7\"\x7d\nevent:DuelFinished\ndata:\x7b\"duel_id\":7\x7d\n"] =
        (.failed (.misfit .payload), [.finished 7]) := by
  simp only [kept, ← listen_eq_expected]
  exact ⟨by decide +kernel, by decide +kernel⟩

end Subscription

/-- A recorder listens to a stream that closes where it would stay open. -/
theorem Recorder.listen_eq (link : Link σ) (raiseAt stopAt : Option Nat) :
    listen link raiseAt stopAt = (do
      let reply ← link.openEvents
      Subscription.listen (handler raiseAt stopAt) reply [] none) := by
  rw [listen]
  congr 1
  funext reply
  rw [Subscription.listen]
  congr 1
  funext r
  cases r with
  | error ending => simp
  | ok s => rw [Subscription.readToEnd]

end Duelist
