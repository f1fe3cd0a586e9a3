import Duelist.Events.Framing
import Duelist.Proofs.Trimming
import Mathlib.Data.List.Basic
import Mathlib.Data.List.Forall2
import Mathlib.Data.List.Induction
/-!
# Announcements

The lines of the event stream, each with what it completes. A line is looked at without what is
blank at its ends: one that then begins with `event:` announces a type, one that begins with `data:`
carries a payload, and all others are noise (`AnnouncesType`, `Carries`, `IsNoise`).

A payload goes with the type that was announced last, unless another payload has come since
(`Awaits`). The main statement is `Framer.pairs_up`: a line completes something exactly if it
carries a payload for which a type is awaited, and then what this type and this payload amount to;
noise changes nothing for the other lines, nothing is remembered beyond a line that carries a
payload, whether that fits its type or not, and pairs that are written one after the other come out
in their order.
-/

namespace Duelist

/-! ### Kinds of lines -/

/-- Without what is blank at its ends the line is `mark` and something more; `text` is the latter
without what is blank at its ends. -/
def Marked (mark line text : String) : Prop :=
  ∃ rest, Text.trimmed line.toList = mark.toList ++ rest ∧ text = .ofList (Text.trimmed rest)

/-- The line announces `type`. -/
abbrev AnnouncesType (line type : String) : Prop := Marked "event:" line type

/-- The line carries the payload `data`. -/
abbrev Carries (line data : String) : Prop := Marked "data:" line data

/-- The line is neither an announcement nor a payload. -/
def IsNoise (line : String) : Prop :=
  (∀ type, ¬AnnouncesType line type) ∧ ∀ data, ¬Carries line data

/-- A line is marked if its trimmed characters begin with the mark, and the text is the trimmed
rest. -/
lemma marked_iff {mark line text : String} :
    Marked mark line text ↔ ∃ rest,
      mark.toList.isPrefixOf? (Text.trimmed line.toList) = some rest ∧
        text = .ofList (Text.trimmed rest) := by
  simp only [Marked, List.isPrefixOf?_eq_some_iff_append_eq, @eq_comm _ (Text.trimmed _)]

/-- No line is both. -/
lemma AnnouncesType.not_carries {line type : String} (h : AnnouncesType line type) (data : String) :
    ¬Carries line data := by
  rintro ⟨rest', hrest', -⟩
  obtain ⟨rest, hrest, -⟩ := h
  exact absurd (List.cons.inj (hrest.symm.trans hrest')).1 (by decide)

namespace StreamLine

/-- A line is read as what it is. -/
lemma ofText_cases (line : String) :
    (∃ type, AnnouncesType line type ∧ ofText line = .announces type) ∨
      (∃ data, Carries line data ∧ ofText line = .carries data) ∨
        IsNoise line ∧ ofText line = .noise := by
  simp only [IsNoise, AnnouncesType, Carries, marked_iff, ofText]
  cases "event:".toList.isPrefixOf? (Text.trimmed line.toList) with
  | some rest => exact .inl ⟨_, ⟨rest, rfl, rfl⟩, rfl⟩
  | none =>
    cases "data:".toList.isPrefixOf? (Text.trimmed line.toList) with
    | some rest => exact .inr (.inl ⟨_, ⟨rest, rfl, rfl⟩, rfl⟩)
    | none => exact .inr (.inr ⟨by simp, rfl⟩)

/-- A line that announces a type is read as such. -/
lemma ofText_of_announces {line type : String} (h : AnnouncesType line type) :
    ofText line = .announces type := by
  obtain ⟨rest, hrest, rfl⟩ := marked_iff.mp h
  rw [ofText, hrest]

/-- A line that carries a payload is read as such, since no line does both. -/
lemma ofText_of_carries {line data : String} (h : Carries line data) :
    ofText line = .carries data := by
  obtain ⟨type, hann, -⟩ | ⟨data', ⟨rest', hrest', rfl⟩, hline⟩ | ⟨hnoise, -⟩ := ofText_cases line
  · exact absurd h (hann.not_carries data)
  · obtain ⟨rest, hrest, rfl⟩ := h
    rw [hline, List.append_cancel_left (hrest'.symm.trans hrest)]
  · exact absurd h (hnoise.2 data)

/-- All other lines are read as noise, and only these. -/
lemma ofText_eq_noise_iff {line : String} : ofText line = .noise ↔ IsNoise line := by
  obtain ⟨type, hann, hline⟩ | ⟨data, hdata, hline⟩ | ⟨hnoise, hline⟩ := ofText_cases line
  · simpa [hline] using fun h : IsNoise line => h.1 type hann
  · simpa [hline] using fun h : IsNoise line => h.2 data hdata
  · simpa [hline] using hnoise

end StreamLine

instance (line : String) : Decidable (IsNoise line) :=
  decidable_of_iff _ StreamLine.ofText_eq_noise_iff

/-- A line with its mark, with whatever is blank around the two texts, is read as such a line. -/
lemma marked_of_trim {mark text : String} (hmark : mark = "event:" ∨ mark = "data:")
    (htext : Text.trim text = text) {before between after : List Char}
    (hbefore : ∀ c ∈ before, Text.isBlank c) (hbetween : ∀ c ∈ between, Text.isBlank c)
    (hafter : ∀ c ∈ after, Text.isBlank c) :
    Marked mark (.ofList (before ++ mark.toList ++ between ++ text.toList ++ after)) text := by
  have hkept (rest : List Char) : Text.trimmed (mark.toList ++ rest) =
      mark.toList ++ Text.dropTrailing Text.isBlank rest := by
    obtain rfl | rfl := hmark
    · exact Text.trimmed_cons_append_cons (by decide) (by decide) "vent".toList rest
    · exact Text.trimmed_cons_append_cons (by decide) (by decide) "ata".toList rest
  refine ⟨Text.dropTrailing Text.isBlank (between ++ text.toList ++ after), ?_, ?_⟩
  · simp only [String.toList_ofList, List.append_assoc]
    rw [Text.trimmed_append_left hbefore, hkept]
  · rw [Text.trimmed_dropTrailing, Text.trimmed_append_right hafter,
      Text.trimmed_append_left hbetween]
    exact htext.symm

/-! ### What has come before -/

/-- There is a line of which `P` holds, and of all lines since then `Q` holds. -/
def Since (P Q : String → Prop) (lines : List String) : Prop :=
  ∃ before line after, lines = before ++ line :: after ∧ P line ∧ ∀ l ∈ after, Q l

/-- The type `type` was announced, and nothing but noise has come since. -/
abbrev Awaits (lines : List String) (type : String) : Prop :=
  Since (AnnouncesType · type) IsNoise lines

/-- A type was announced, and no payload has come since. -/
abbrev Announced (lines : List String) : Prop :=
  Since (fun line => ∃ type, AnnouncesType line type) (fun line => ∀ data, ¬Carries line data) lines

variable {P Q : String → Prop}

/-- Nothing has happened since a line if there are no lines. -/
lemma not_since_nil : ¬Since P Q [] := by
  rintro ⟨before, line, after, h, -⟩
  simp at h

/-- One line more either is the one in question, or is one of those since. -/
lemma since_concat {lines : List String} {line : String} :
    Since P Q (lines ++ [line]) ↔ P line ∨ Q line ∧ Since P Q lines := by
  constructor
  · rintro ⟨before, l, after, h, hP, hQ⟩
    obtain rfl | ⟨after, last, rfl⟩ := after.eq_nil_or_concat
    · obtain ⟨-, hline⟩ := List.append_inj' h rfl
      rw [List.singleton_inj.mp hline]
      exact .inl hP
    · rw [List.concat_eq_append, ← List.cons_append, ← List.append_assoc] at h
      obtain ⟨hlines, hline⟩ := List.append_inj' h rfl
      simp only [List.concat_eq_append, List.mem_append, List.mem_singleton] at hQ
      rw [List.singleton_inj.mp hline, hlines]
      exact .inr ⟨hQ last (.inr rfl), before, l, after, rfl, hP, fun l' hl' => hQ l' (.inl hl')⟩
  · rintro (hP | ⟨hQ, before, l, after, rfl, hP, hafter⟩)
    · exact ⟨lines, line, [], rfl, hP, by simp⟩
    · refine ⟨before, l, after ++ [line], by simp, hP, fun l' hl' => ?_⟩
      obtain hl' | rfl : l' ∈ after ∨ l' = line := by simpa using hl'
      · exact hafter l' hl'
      · exact hQ

/-! ### What a line completes -/

/-- The completion of `type` and `data`: an event or a misfit if the type has a meaning, as the
payload is decoded; and otherwise the type is passed on, whatever the payload is. -/
inductive Completes (type data : String) : Completion → Prop
  | event (htype : type = "DuelStarted" ∨ type = "DuelFinished") (e : Event)
      (h : Event.decode type data = .event e) : Completes type data (.event e)
  | misfit (htype : type = "DuelStarted" ∨ type = "DuelFinished")
      (h : Event.decode type data = .misfit) : Completes type data .misfit
  | foreign (htype : ¬(type = "DuelStarted" ∨ type = "DuelFinished")) :
      Completes type data (.foreign type)

/-- A type and a payload always amount to something. -/
lemma Completes.ne_none {type data : String} {c : Completion} (h : Completes type data c) :
    c ≠ .none := by
  cases h <;> simp

namespace Framer

/-- A payload is looked at if and only if its type has a meaning. -/
lemma decode_eq_foreign_iff (type data : String) :
    Event.decode type data = .foreign ↔ ¬(type = "DuelStarted" ∨ type = "DuelFinished") := by
  have hread : Event.reader? type = none ↔ ¬(type = "DuelStarted" ∨ type = "DuelFinished") := by
    unfold Event.reader?
    by_cases h : type = "DuelStarted" <;> by_cases h' : type = "DuelFinished" <;> simp [h, h']
  rw [← hread, Event.decode]
  cases Event.reader? type with
  | none => simp
  | some read => cases h : (Json.ofText? data).bind read <;> simp [h]

/-- What is completed of a type and a payload is what should be completed of them. -/
lemma completes_complete (type data : String) : Completes type data (complete type data) := by
  have hforeign := decode_eq_foreign_iff type data
  rw [complete]
  cases hdecode : Event.decode type data with
  | event e => exact .event (not_not.mp (hforeign.not.mp (by simp [hdecode]))) e hdecode
  | misfit => exact .misfit (not_not.mp (hforeign.not.mp (by simp [hdecode]))) hdecode
  | foreign => exact .foreign (hforeign.mp hdecode)

variable {line type data : String}

/-- The announced type is remembered, in place of one that was announced before. -/
lemma take_of_announces (f : Framer) (h : AnnouncesType line type) :
    f.take line = (.none, ⟨some type⟩) := by
  rw [take, StreamLine.ofText_of_announces h]

/-- Noise completes nothing, and nothing is forgotten over it. -/
lemma take_of_noise (f : Framer) (h : IsNoise line) : f.take line = (.none, f) := by
  rw [take, StreamLine.ofText_eq_noise_iff.mpr h]

/-- A payload uses up the type for which it came, if there was one. -/
lemma take_of_carries (f : Framer) (h : Carries line data) :
    f.take line = ((f.pending.map fun type => complete type data).getD .none, {}) := by
  rw [take, StreamLine.ofText_of_carries h]
  obtain ⟨_ | type⟩ := f <;> rfl

/-- The framer after some lines. -/
def after (f : Framer) (lines : List String) : Framer :=
  lines.foldl (fun f line => (f.take line).2) f

/-- The last line is taken by the framer as the lines before it leave it. -/
lemma after_concat (f : Framer) (lines : List String) (line : String) :
    f.after (lines ++ [line]) = ((f.after lines).take line).2 :=
  List.foldl_concat ..

/-- There is one completion for each line. -/
@[simp]
lemma length_takeAll (f : Framer) (lines : List String) :
    (f.takeAll lines).length = lines.length := by
  induction lines generalizing f with
  | nil => rfl
  | cons line lines ih => simp [takeAll, ih]

/-- What later lines complete depends on earlier ones by the framer that these leave behind. -/
lemma takeAll_append (f : Framer) (before rest : List String) :
    f.takeAll (before ++ rest) = f.takeAll before ++ (f.after before).takeAll rest := by
  induction before generalizing f with
  | nil => rfl
  | cons line before ih =>
    rw [List.cons_append, takeAll, ih, takeAll]
    rfl

/-- A type is remembered exactly as long as it is awaited. -/
lemma pending_after_eq_some_iff {before : List String} {type : String} :
    (({} : Framer).after before).pending = some type ↔ Awaits before type := by
  induction before using List.reverseRecOn with
  | nil => simpa [after] using not_since_nil
  | append_singleton before line ih =>
    rw [after_concat, Awaits, since_concat]
    obtain ⟨type', hann, -⟩ | ⟨data, hdata, -⟩ | ⟨hnoise, -⟩ := StreamLine.ofText_cases line
    · rw [take_of_announces _ hann]
      have hnot : ¬IsNoise line := fun h => h.1 type' hann
      simp only [Option.some.injEq, hnot, false_and, or_false]
      constructor
      · rintro rfl
        exact hann
      · intro h
        exact StreamLine.announces.inj
          ((StreamLine.ofText_of_announces hann).symm.trans (StreamLine.ofText_of_announces h))
    · rw [take_of_carries _ hdata]
      have hnot : ¬AnnouncesType line type := fun h => h.not_carries data hdata
      have hnot' : ¬IsNoise line := fun h => h.2 data hdata
      simp [hnot, hnot']
    · rw [take_of_noise _ hnoise, ih]
      simp [hnoise, hnoise.1 type]

/-- A type is remembered if and only if one was announced and has not been used up. -/
lemma isSome_pending_after_iff {before : List String} :
    (({} : Framer).after before).pending.isSome ↔ Announced before := by
  induction before using List.reverseRecOn with
  | nil => simpa [after] using not_since_nil
  | append_singleton before line ih =>
    rw [after_concat, Announced, since_concat]
    obtain ⟨type, hann, -⟩ | ⟨data, hdata, -⟩ | ⟨hnoise, -⟩ := StreamLine.ofText_cases line
    · rw [take_of_announces _ hann]
      exact ⟨fun _ => .inl ⟨type, hann⟩, fun _ => rfl⟩
    · rw [take_of_carries _ hdata]
      constructor
      · intro h
        cases h
      · rintro (⟨type, hann⟩ | ⟨hnot, -⟩)
        · exact absurd hdata (hann.not_carries data)
        · exact absurd hdata (hnot data)
    · rw [take_of_noise _ hnoise, ih]
      simp [hnoise.1, hnoise.2]

/-! ### One line among others -/

/-- The completion of a line among others. -/
lemma getElem?_takeAll (before : List String) (line : String) (rest : List String) :
    (({} : Framer).takeAll (before ++ line :: rest))[before.length]? =
      some ((({} : Framer).after before).take line).1 := by
  rw [takeAll_append, List.getElem?_append_right (by simp), length_takeAll, Nat.sub_self, takeAll]
  rfl

/-- A payload completes something if and only if it is awaited. -/
lemma take_ne_none_iff {before : List String} {line : String} :
    ((({} : Framer).after before).take line).1 ≠ .none ↔
      (∃ data, Carries line data) ∧ Announced before := by
  rw [← isSome_pending_after_iff]
  obtain ⟨type, hann, -⟩ | ⟨data, hdata, -⟩ | ⟨hnoise, -⟩ := StreamLine.ofText_cases line
  · simp [take_of_announces _ hann, hann.not_carries]
  · rw [take_of_carries _ hdata]
    have hex : ∃ data, Carries line data := ⟨data, hdata⟩
    cases (({} : Framer).after before).pending with
    | none => simp
    | some type => simpa [hex] using (completes_complete type data).ne_none
  · simp [take_of_noise _ hnoise, hnoise.2]

/-! ### Noise -/

/-- The lines that are no noise, each with its completion, are those of the lines without noise. -/
lemma filter_zip_takeAll (f : Framer) (lines : List String) :
    (lines.zip (f.takeAll lines)).filter (fun x => ¬IsNoise x.1) =
      (lines.filter (¬IsNoise ·)).zip (f.takeAll (lines.filter (¬IsNoise ·))) := by
  induction lines generalizing f with
  | nil => rfl
  | cons line lines ih =>
    rw [takeAll, List.zip_cons_cons]
    by_cases h : IsNoise line
    · rw [take_of_noise f h]
      simpa [h] using ih f
    · simpa [h, takeAll] using ih (f.take line).2

/-- Noise in front of some lines does not change what they complete. -/
lemma filter_takeAll_noise (f : Framer) {noise : List String} (h : ∀ line ∈ noise, IsNoise line)
    (lines : List String) :
    (f.takeAll (noise ++ lines)).filter (· ≠ .none) = (f.takeAll lines).filter (· ≠ .none) := by
  induction noise with
  | nil => rfl
  | cons line noise ih =>
    rw [List.cons_append, takeAll, take_of_noise f (h line List.mem_cons_self),
      List.filter_cons_of_neg (by simp)]
    exact ih fun l hl => h l (List.mem_cons_of_mem line hl)

/-! ### Pairs -/

/-- Pairs of a type and a payload, each written as an announcement and a payload, with noise in
front of these, between them and behind the last. -/
inductive Written : List (String × String) → List String → Prop
  | nil {noise : List String} (h : ∀ line ∈ noise, IsNoise line) : Written [] noise
  | cons {type data announcement payload : String} {noise noise' lines : List String}
      {pairs : List (String × String)} (h : ∀ line ∈ noise, IsNoise line)
      (hann : AnnouncesType announcement type) (h' : ∀ line ∈ noise', IsNoise line)
      (hdata : Carries payload data) (hlines : Written pairs lines) :
      Written ((type, data) :: pairs)
        (noise ++ announcement :: (noise' ++ payload :: lines))

/-- Pairs that are written down are completed one by one and in order, whatever was announced
before. -/
lemma Written.filter_takeAll {pairs : List (String × String)} {lines : List String}
    (h : Written pairs lines) (f : Framer) :
    (f.takeAll lines).filter (· ≠ .none) = pairs.map fun pair => complete pair.1 pair.2 := by
  induction h generalizing f with
  | @nil noise h => simpa [takeAll] using filter_takeAll_noise f h []
  | @cons type data announcement payload noise noise' lines pairs h hann h' hdata _ ih =>
    have hkeep : complete type data ≠ .none := (completes_complete type data).ne_none
    rw [filter_takeAll_noise f h, takeAll, take_of_announces f hann,
      List.filter_cons_of_neg (by simp), filter_takeAll_noise _ h', takeAll,
      take_of_carries _ hdata, Option.map_some, Option.getD_some,
      List.filter_cons_of_pos (by simpa using hkeep), ih, List.map_cons]

/-! ### The account of a stream -/

/-- What the lines of a stream complete. -/
structure PairsUp : Prop where
  /-- One completion for each line. -/
  length_eq (lines : List String) : (({} : Framer).takeAll lines).length = lines.length
  /-- A line completes something if and only if it carries a payload and a type has been announced
  since the last payload; and then it completes the type announced last with this payload. -/
  completes (before : List String) (line : String) (rest : List String) :
    ∃ c, (({} : Framer).takeAll (before ++ line :: rest))[before.length]? = some c ∧
      (c ≠ .none ↔ (∃ data, Carries line data) ∧ Announced before) ∧
      ∀ type data, Awaits before type → Carries line data → Completes type data c
  /-- Lines that differ in noise only complete the same. -/
  noise (lines lines' : List String)
    (h : lines.filter (¬IsNoise ·) = lines'.filter (¬IsNoise ·)) :
    (lines.zip (({} : Framer).takeAll lines)).filter (fun x => ¬IsNoise x.1) =
      (lines'.zip (({} : Framer).takeAll lines')).filter (fun x => ¬IsNoise x.1)
  /-- What comes behind a payload, whatever became of that, completes what it completes at the
  beginning of a stream. -/
  forgets (before : List String) (line data : String) (rest : List String)
    (h : Carries line data) :
    ({} : Framer).takeAll (before ++ line :: rest) =
      ({} : Framer).takeAll (before ++ [line]) ++ ({} : Framer).takeAll rest
  /-- Pairs that are written down one after the other are completed in this order. -/
  pairs (pairs : List (String × String)) (lines : List String) (h : Written pairs lines) :
    List.Forall₂ (fun pair c => Completes pair.1 pair.2 c) pairs
      ((({} : Framer).takeAll lines).filter (· ≠ .none))
  /-- A type or a payload without blank ends can be written down behind its mark. -/
  written (mark text : String) (hmark : mark = "event:" ∨ mark = "data:")
    (htext : Text.trim text = text) (front between back : List Char)
    (hblank : ∀ c ∈ front ++ between ++ back, Text.isBlank c) :
    Marked mark (.ofList (front ++ mark.toList ++ between ++ text.toList ++ back)) text

/-- Payloads are paired up with the types that were announced last. -/
theorem pairs_up : PairsUp where
  length_eq := length_takeAll {}
  completes before line rest := by
    refine ⟨_, getElem?_takeAll before line rest, take_ne_none_iff, fun type data htype hdata => ?_⟩
    rw [take_of_carries _ hdata, pending_after_eq_some_iff.mpr htype]
    exact completes_complete type data
  noise lines lines' h := by
    rw [filter_zip_takeAll, filter_zip_takeAll, h]
  forgets before line data rest h := by
    have hfresh : ({} : Framer).after (before ++ [line]) = {} := by
      rw [after_concat, take_of_carries _ h]
    rw [List.append_cons, takeAll_append, hfresh]
  pairs pairs lines h := by
    rw [h.filter_takeAll, List.forall₂_map_right_iff, List.forall₂_same]
    exact fun pair _ => completes_complete pair.1 pair.2
  written mark text hmark htext front between back hblank := by
    simp only [List.mem_append, or_imp, forall_and] at hblank
    exact marked_of_trim hmark htext hblank.1.1 hblank.1.2 hblank.2

example : ({} : Framer).takeAll
    ["data: 1", "event: A", " event:\u3000Ping\n", ":", "data:x", "data:y"] =
    [.none, .none, .none, .none, .foreign "Ping", .none] := by
  decide +kernel

end Framer
end Duelist
