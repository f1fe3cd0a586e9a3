import Duelist.Text.Blank
import Mathlib.Data.List.Basic
import Mathlib.Data.List.TakeWhile
import Mathlib.Tactic.Lemma
/-!
# Trimming

What becomes of a text when the blank characters at its ends are dropped. Blank characters put in
front of a text or behind it are all dropped again (`Text.trimmed_append_left`,
`Text.trimmed_append_right`), and a character that is not blank keeps all that stands between it
and the other end (`Text.dropTrailing_append_cons`, `Text.trimmed_cons`).
-/

namespace Duelist.Text

variable {α : Type} {p : α → Bool}

/-! ### The end of a sequence -/

/-- Everything at the end for which `p` holds is dropped. -/
lemma dropTrailing_append {ys : List α} (h : ∀ y ∈ ys, p y) (xs : List α) :
    dropTrailing p (xs ++ ys) = dropTrailing p xs := by
  rw [dropTrailing, List.reverse_append, List.dropWhile_append_of_pos, dropTrailing]
  simpa using h

/-- Nothing is dropped before the last element that has to stay. -/
lemma dropTrailing_append_cons {a : α} (h : ¬p a) (xs ys : List α) :
    dropTrailing p (xs ++ a :: ys) = xs ++ a :: dropTrailing p ys := by
  have hstop : (a :: xs.reverse).dropWhile p = a :: xs.reverse := List.dropWhile_cons_of_neg h
  have hreverse : (xs ++ a :: ys).reverse = ys.reverse ++ a :: xs.reverse := by simp
  rw [dropTrailing, hreverse, List.dropWhile_append, dropTrailing]
  split
  next hempty => simp [hstop, List.isEmpty_iff.mp hempty]
  next => simp

/-- What is dropped can be put back. -/
lemma exists_dropTrailing_append (p : α → Bool) (xs : List α) :
    ∃ ys, xs = dropTrailing p xs ++ ys ∧ ∀ y ∈ ys, p y := by
  refine ⟨(xs.reverse.takeWhile p).reverse, ?_, fun y hy => ?_⟩
  · rw [dropTrailing, ← List.reverse_append, List.takeWhile_append_dropWhile, List.reverse_reverse]
  · exact List.mem_takeWhile_imp (List.mem_reverse.mp hy)

/-- What is left does not end with anything that is dropped. -/
lemma not_of_mem_getLast?_dropTrailing {xs : List α} {a : α}
    (h : a ∈ (dropTrailing p xs).getLast?) : ¬p a := by
  have hhead := List.head?_dropWhile_not p xs.reverse
  rw [dropTrailing, List.getLast?_reverse] at h
  rw [Option.mem_def.mp h] at hhead
  simpa using hhead

/-- Nothing is dropped if the last element has to stay. -/
lemma dropTrailing_eq_self {xs : List α} (h : ∀ a ∈ xs.getLast?, ¬p a) :
    dropTrailing p xs = xs := by
  obtain rfl | ⟨ys, a, rfl⟩ := xs.eq_nil_or_concat'
  · rfl
  · exact dropTrailing_append_cons (h a (by simp)) ys []

/-! ### Both ends of a text -/

variable {blank : List Char}

/-- White space in front is trimmed. -/
lemma trimmed_append_left (h : ∀ c ∈ blank, isBlank c) (cs : List Char) :
    trimmed (blank ++ cs) = trimmed cs := by
  rw [trimmed, List.dropWhile_append_of_pos h, trimmed]

/-- So is white space at the end. -/
lemma trimmed_append_right (h : ∀ c ∈ blank, isBlank c) (cs : List Char) :
    trimmed (cs ++ blank) = trimmed cs := by
  rw [trimmed, trimmed, List.dropWhile_append]
  split
  next hempty => rw [List.dropWhile_eq_nil_iff.mpr h, List.isEmpty_iff.mp hempty]
  next => exact dropTrailing_append h _

/-- A text that begins with a character that is not blank loses what is blank at its end. -/
lemma trimmed_cons {c : Char} (h : ¬isBlank c) (cs : List Char) :
    trimmed (c :: cs) = c :: dropTrailing isBlank cs := by
  rw [trimmed, List.dropWhile_cons_of_neg h]
  exact dropTrailing_append_cons h [] cs

/-- What stands between two characters that are not blank is kept. -/
lemma trimmed_cons_append_cons {c d : Char} (hc : ¬isBlank c) (hd : ¬isBlank d)
    (cs rest : List Char) :
    trimmed (c :: (cs ++ d :: rest)) = c :: (cs ++ d :: dropTrailing isBlank rest) := by
  rw [trimmed_cons hc, dropTrailing_append_cons hd]

/-- To drop what is blank at the end first makes no difference. -/
lemma trimmed_dropTrailing (cs : List Char) : trimmed (dropTrailing isBlank cs) = trimmed cs := by
  obtain ⟨blank, hcs, hblank⟩ := exists_dropTrailing_append isBlank cs
  rw [← trimmed_append_right hblank (dropTrailing isBlank cs), ← hcs]

/-- What is left does not begin with a blank character. -/
lemma not_isBlank_of_mem_head?_trimmed {cs : List Char} {c : Char} (h : c ∈ (trimmed cs).head?) :
    ¬isBlank c := by
  obtain ⟨blank, hcs, -⟩ := exists_dropTrailing_append isBlank (cs.dropWhile isBlank)
  have hhead := List.head?_dropWhile_not isBlank cs
  rw [hcs, List.head?_append, ← trimmed, Option.mem_def.mp h] at hhead
  simpa using hhead

/-- What is dropped at the ends can be put back. -/
lemma exists_append_trimmed_append (cs : List Char) :
    ∃ before after, cs = before ++ (trimmed cs ++ after) ∧ (∀ c ∈ before, isBlank c) ∧
      ∀ c ∈ after, isBlank c := by
  obtain ⟨after, hdrop, hafter⟩ := exists_dropTrailing_append isBlank (cs.dropWhile isBlank)
  refine ⟨cs.takeWhile isBlank, after, ?_, fun c hc => List.mem_takeWhile_imp hc, hafter⟩
  rw [trimmed, ← hdrop, List.takeWhile_append_dropWhile]

/-- Nothing is dropped from a text that neither begins nor ends with a blank character. -/
lemma trimmed_eq_self {cs : List Char} (hfirst : ∀ c ∈ cs.head?, ¬isBlank c)
    (hlast : ∀ c ∈ cs.getLast?, ¬isBlank c) : trimmed cs = cs := by
  have hdrop : cs.dropWhile isBlank = cs := by
    cases cs with
    | nil => rfl
    | cons c cs => exact List.dropWhile_cons_of_neg (hfirst c rfl)
  rw [trimmed, hdrop]
  exact dropTrailing_eq_self hlast

end Duelist.Text
