import Duelist.Prompt.Command
import Duelist.Proofs.Trimming
/-!
# Commands

What the lines mean that are typed at the prompt. A line means one of four things, which one depends
on the line without what is blank at its ends (`Command.means_ofTrimmed`). What follows the word
that hands in a solution is never blank altogether, since it would have been dropped at the end of
the line; so a solution is always named where one is handed in.

The main statement is `Command.meanings`.
-/

namespace Duelist

open Text

/-- True of a text that consists of blank characters. -/
def IsBlankText (text : String) : Prop :=
  ∀ c ∈ text.toList, isBlank c

instance : DecidablePred IsBlankText := fun text =>
  List.decidableBAll _ text.toList

/-- A text that is not empty and has nothing blank at its ends. -/
structure IsTight (text : String) : Prop where
  /-- There is something. -/
  ne_empty : text ≠ ""
  /-- It does not begin with a blank character. -/
  first : ∀ c ∈ text.toList.head?, ¬isBlank c
  /-- It does not end with one. -/
  last : ∀ c ∈ text.toList.getLast?, ¬isBlank c

/-- Nothing is trimmed of a text that has nothing blank at its ends. -/
lemma IsTight.trimmed_eq {text : String} (h : IsTight text) : trimmed text.toList = text.toList :=
  trimmed_eq_self h.first h.last

/-- What is left of a text is tight, unless nothing is left. -/
lemma isTight_ofList_trimmed {cs : List Char} (h : trimmed cs ≠ []) :
    IsTight (.ofList (trimmed cs)) where
  ne_empty hempty := h (by rw [← String.toList_ofList (l := trimmed cs), hempty]; rfl)
  first c hc := not_isBlank_of_mem_head?_trimmed (by rwa [String.toList_ofList] at hc)
  last c hc := not_of_mem_getLast?_dropTrailing (by rwa [String.toList_ofList] at hc)

/-- A text is what is left of it with blank characters around. -/
lemma exists_append_trim_append (text : String) :
    (∃ before after, IsBlankText before ∧ IsBlankText after ∧
      text = before ++ trim text ++ after) ∧ (trim text ≠ "" → IsTight (trim text)) := by
  obtain ⟨before, after, htext, hbefore, hafter⟩ := exists_append_trimmed_append text.toList
  refine ⟨⟨.ofList before, .ofList after, ?_, ?_, ?_⟩, fun hne => ?_⟩
  · rwa [IsBlankText, String.toList_ofList]
  · rwa [IsBlankText, String.toList_ofList]
  · rw [← String.toList_inj, String.toList_append, String.toList_append, String.toList_ofList,
      String.toList_ofList, toList_trim, List.append_assoc, ← htext]
  · exact isTight_ofList_trimmed fun hnil => hne (by rw [trim, hnil, String.ofList_nil])

/-- A text with nothing blank at its end, cut where something that is not blank begins. -/
lemma exists_gap {cs : List Char} (hne : cs ≠ []) (hlast : ∀ c ∈ cs.getLast?, ¬isBlank c) :
    trimmed cs ≠ [] ∧ ∃ gap, cs = gap ++ trimmed cs ∧ ∀ c ∈ gap, isBlank c := by
  have hsplit := cs.takeWhile_append_dropWhile (p := isBlank)
  have hdrop : cs.dropWhile isBlank ≠ [] := by
    intro hdrop
    have hblank := List.dropWhile_eq_nil_iff.mp hdrop
    exact hlast _ (List.getLast?_eq_some_getLast hne) (hblank _ (List.getLast_mem hne))
  have htrimmed : trimmed cs = cs.dropWhile isBlank := by
    refine dropTrailing_eq_self fun c hc => hlast c ?_
    rwa [← hsplit, List.getLast?_append_of_ne_nil _ hdrop]
  rw [htrimmed]
  exact ⟨hdrop, _, hsplit.symm, fun c hc => List.mem_takeWhile_imp hc⟩

namespace Command

/-- The characters of the word that hands in a solution. -/
lemma toList_submit : "submit".toList = keyword := rfl

/-- The same with the space that has to stand behind it. -/
lemma toList_submit_space : "submit ".toList = keyword ++ [' '] := rfl

/-- The text, which has nothing blank at its ends, hands in the solution at `path`: behind the word
there is a space, and then the path, perhaps behind more that is blank. -/
def HandsInAt (text path : String) : Prop :=
  IsTight path ∧ ∃ gap, IsBlankText gap ∧ text = "submit " ++ gap ++ path

/-- A text that hands in a solution is the word, a space, a gap that is blank, and the path. -/
lemma HandsInAt.toList_eq {text path : String} (h : HandsInAt text path) :
    ∃ gap : String, IsBlankText gap ∧
      text.toList = keyword ++ [' '] ++ (gap.toList ++ path.toList) := by
  obtain ⟨-, gap, hgap, rfl⟩ := h
  refine ⟨gap, hgap, ?_⟩
  rw [String.toList_append, String.toList_append, toList_submit_space, List.append_assoc]

/-- There is nothing blank around a text that hands in a solution. -/
lemma HandsInAt.trim_eq {text path : String} (h : HandsInAt text path) : trim text = text := by
  obtain ⟨gap, -, htext⟩ := h.toList_eq
  have hne : path.toList ≠ [] := fun hnil => h.1.ne_empty (String.toList_eq_nil_iff.mp hnil)
  rw [← String.toList_inj, toList_trim]
  refine trimmed_eq_self (fun c hc => ?_) fun c hc => h.1.last c ?_
  · rw [htext] at hc
    obtain rfl : 's' = c := Option.mem_some.mp hc
    decide
  · rwa [htext, List.getLast?_append_of_ne_nil _ (by simp [hne]),
      List.getLast?_append_of_ne_nil _ hne] at hc

/-- Such a text is read as the command to hand in what is at that path, however wide the gap is. -/
lemma HandsInAt.ofTrimmed_eq {text path : String} (h : HandsInAt text path) :
    ofTrimmed text.toList = .submit path := by
  obtain ⟨gap, hgap, htext⟩ := h.toList_eq
  have htight := h.1
  have hpath : trimmed (gap.toList ++ path.toList) = path.toList := by
    rw [trimmed_append_left hgap, htight.trimmed_eq]
  have hne : path.toList ≠ [] := fun hnil => htight.ne_empty (String.toList_eq_nil_iff.mp hnil)
  have hword : text.toList ≠ keyword := by
    intro heq
    have hlength := congrArg List.length (heq.symm.trans htext)
    simp at hlength
  have hsome : (keyword ++ [' ']).isPrefixOf? text.toList = some (gap.toList ++ path.toList) :=
    List.isPrefixOf?_eq_some_iff_append_eq.mpr htext.symm
  rw [ofTrimmed, if_neg (by simp [htext]), if_neg hword, hsome]
  simp [hpath, hne]

/-- The meaning of a text with nothing blank at its ends. -/
inductive Means : String → Command → Prop
  | empty : Means "" .empty
  | usage : Means "submit" .usage
  | submit {text path : String} (h : HandsInAt text path) : Means text (.submit path)
  | unknown {text : String} (hempty : text ≠ "") (hword : text ≠ "submit")
      (hnone : ∀ path, ¬HandsInAt text path) : Means text (.unknown text)

variable {text : String}

/-- What follows the word and a space is a path, behind what is blank in front of it. -/
lemma exists_handsInAt (hlast : ∀ c ∈ text.toList.getLast?, ¬isBlank c) {rest : List Char}
    (htext : keyword ++ [' '] ++ rest = text.toList) : ∃ path, HandsInAt text path := by
  -- if there were nothing, the text would end with the space
  have hrest : rest ≠ [] := by
    rintro rfl
    exact hlast ' ' (by rw [← htext]; rfl) (by decide)
  obtain ⟨hpath, gap, hgap, hblank⟩ := exists_gap hrest fun c hc => hlast c (by
    rwa [← htext, List.getLast?_append_of_ne_nil _ hrest])
  refine ⟨.ofList (trimmed rest), isTight_ofList_trimmed hpath, .ofList gap, ?_, ?_⟩
  · rwa [IsBlankText, String.toList_ofList]
  · have hcut : ("submit " ++ String.ofList gap ++ String.ofList (trimmed rest)).toList =
        keyword ++ [' '] ++ rest := by
      rw [String.toList_append, String.toList_append, toList_submit_space, String.toList_ofList,
        String.toList_ofList, List.append_assoc, ← hgap]
    rw [← String.toList_inj, hcut, htext]

/-- A text without a blank end has the meaning that it is read with. This goes through the three
ways to read it: the two words that stand alone, the word with a path, and everything else. -/
lemma means_ofTrimmed (hlast : ∀ c ∈ text.toList.getLast?, ¬isBlank c) :
    Means text (ofTrimmed text.toList) := by
  by_cases hempty : text = ""
  · subst hempty
    exact .empty
  by_cases hword : text = "submit"
  · subst hword
    exact .usage
  -- only a space behind the keyword makes it a solution to hand in
  cases hfound : (keyword ++ [' ']).isPrefixOf? text.toList with
  | none =>
    have hnone : ∀ path, ¬HandsInAt text path := fun path h => by
      obtain ⟨gap, -, htext⟩ := h.toList_eq
      have hsome := List.isPrefixOf?_eq_some_iff_append_eq.mpr htext.symm
      exact absurd (hfound.symm.trans hsome) (by simp)
    have hkeyword : text.toList ≠ keyword := fun h => hword (String.toList_inj.mp h)
    have hunknown : ofTrimmed text.toList = .unknown text := by
      rw [ofTrimmed, if_neg (by simpa using hempty), if_neg hkeyword, hfound]
      simp
    rw [hunknown]
    exact .unknown hempty hword hnone
  | some rest =>
    have htext := List.isPrefixOf?_eq_some_iff_append_eq.mp hfound
    obtain ⟨path, h⟩ := exists_handsInAt hlast htext
    rw [h.ofTrimmed_eq]
    exact .submit h

/-- Of such a text the meaning is unique, so that it is the one it is read with. -/
lemma ofTrimmed_eq_iff (hlast : ∀ c ∈ text.toList.getLast?, ¬isBlank c) (command : Command) :
    ofTrimmed text.toList = command ↔ Means text command := by
  have hmeans := means_ofTrimmed hlast
  constructor
  · rintro rfl
    exact hmeans
  · intro h
    cases h with
    | empty => rfl
    | usage => decide
    | submit h => exact h.ofTrimmed_eq
    | unknown hempty hword hnone =>
      generalize ofTrimmed text.toList = command at hmeans ⊢
      cases hmeans with
      | empty => exact absurd rfl hempty
      | usage => exact absurd rfl hword
      | submit h => exact absurd h (hnone _)
      | unknown => rfl

/-- What a line means is what the trimmed line means. -/
lemma ofLine_eq_iff (line : String) (command : Command) :
    ofLine line = command ↔ Means (trim line) command := by
  rw [ofLine, ← toList_trim]
  refine ofTrimmed_eq_iff (fun c hc => ?_) command
  rw [toList_trim] at hc
  exact not_of_mem_getLast?_dropTrailing hc

/-! ### The main statement -/

/-- A line means what is left of it means when the blank characters at its ends are dropped:
nothing, the word alone, a solution that is handed in, or something that is not understood and is
kept as it is left (`Means`). What is blank around a line makes no difference.

A solution is handed in at every tight path behind the word and a space, whatever is blank in it or
in front of it, and never at another; where the word is followed by any other character, the line is
not understood. -/
theorem meanings (line : String) :
    ((∃ before after, IsBlankText before ∧ IsBlankText after ∧
      line = before ++ trim line ++ after) ∧ (trim line ≠ "" → IsTight (trim line))) ∧
    (∀ command, ofLine line = command ↔ Means (trim line) command) ∧
    (∀ before after, IsBlankText before → IsBlankText after →
      ofLine (before ++ line ++ after) = ofLine line) ∧
    (∀ gap path, IsBlankText gap → IsTight path →
      ofLine ("submit " ++ gap ++ path) = .submit path) ∧
    (∀ path, ofLine line = .submit path → IsTight path) ∧
    ∀ c rest, c ≠ ' ' → trim line = "submit" ++ String.ofList (c :: rest) →
      ofLine line = .unknown (trim line) := by
  refine ⟨exists_append_trim_append line, ofLine_eq_iff line,
    fun before after hbefore hafter => ?_, fun gap path hgap hpath => ?_,
    fun path hpath => ?_, fun c rest hc htext => ?_⟩
  · rw [ofLine, ofLine, String.toList_append, String.toList_append, trimmed_append_right hafter,
      trimmed_append_left hbefore]
  · have h : HandsInAt ("submit " ++ gap ++ path) path := ⟨hpath, gap, hgap, rfl⟩
    refine (ofLine_eq_iff _ _).mpr ?_
    rw [h.trim_eq]
    exact .submit h
  · have h := (ofLine_eq_iff line _).mp hpath
    generalize trim line = text at h
    cases h with
    | submit h => exact h.1
  · refine (ofLine_eq_iff line _).mpr ?_
    rw [htext]
    have htail : ("submit" ++ String.ofList (c :: rest)).toList = keyword ++ c :: rest := by
      rw [String.toList_append, toList_submit, String.toList_ofList]
    refine .unknown (fun hempty => ?_) (fun hword => ?_) fun path h => hc ?_
    · rw [hempty] at htail
      cases htail
    · rw [hword] at htail
      have hlength := congrArg List.length htail
      rw [List.length_append, toList_submit, List.length_cons] at hlength
      omega
    · obtain ⟨gap, -, hsubmit⟩ := h.toList_eq
      rw [htail, List.append_assoc, List.append_cancel_left_eq] at hsubmit
      exact (List.cons.inj hsubmit).1

/-- A command with blank characters of several kinds around it and in it: what is blank inside the
path is kept. -/
theorem meanings_padded : IsTight "my\tfirst solution.py" ∧
    ofLine ("\u00a0 " ++ "submit \u3000my\tfirst solution.py" ++ "\x0b\n") =
      .submit "my\tfirst solution.py" := by
  have htight : IsTight "my\tfirst solution.py" :=
    ⟨by decide, by rintro c ⟨⟩; decide, by rintro c ⟨⟩; decide⟩
  refine ⟨htight, ?_⟩
  rw [(meanings "submit \u3000my\tfirst solution.py").2.2.1 "\u00a0 " "\x0b\n" (by decide)
    (by decide)]
  exact (meanings "").2.2.2.1 "\u3000" "my\tfirst solution.py" (by decide) htight

end Command

end Duelist
