import Duelist.Handles
import Duelist.Service.Tokens
import Mathlib.Data.List.Induction
import Mathlib.Data.Nat.Notation
import Mathlib.Logic.Relation
/-!
# Families of handles

A copy belongs to the family of the handle that it was made from. So the families are what the
copies connect (`Handles.Family`), and nothing is said of cells to say what they are. That the
handles of a family are those that refer to one cell is a fact about the steps
(`Handles.family_iff`). From it follows what a handle reads after any steps: what was last written
through its family, or what new cells hold if nothing was (`Handles.read?_after`).

A new store of tokens is empty, and any pair may be stored in it. A new signal is not raised, and
all that can be written is that it is. The main statement, `Handles.families_share`, is about both,
and about waiting for a signal while others take their steps.
-/

namespace Duelist
namespace Handles

variable {α : Type}

/-! ### Steps -/

/-- The handle that is meant by a number, if there are any handles. -/
def meant? (n : ℕ) (h : Handles α) : Option ℕ :=
  if 0 < h.count then some (n % h.count) else none

/-- The copy that a step makes: the handle that it copies, and the copy. -/
def copied? (h : Handles α) : Step α → Option (ℕ × ℕ)
  | .copy n => (h.meant? n).map (·, h.count)
  | _ => none

/-- What a step writes, and the handle through which it does, which comes first. -/
def written? (h : Handles α) : Step α → Option (ℕ × α)
  | .write n a => (h.meant? n).map (·, a)
  | _ => none

/-- A number means no handle only if there are none, and otherwise one that has a cell. -/
lemma meant?_cases (h : Handles α) (n : ℕ) :
    (h.meant? n = none ∧ h.owners[n % h.count]? = none) ∨
      ∃ cell, h.meant? n = some (n % h.count) ∧ h.owners[n % h.count]? = some cell := by
  rcases Nat.eq_zero_or_pos h.count with hzero | hpos
  · have hle : h.owners.length ≤ n % h.count := by
      rw [← count, hzero]
      exact Nat.zero_le _
    exact .inl ⟨if_neg (by omega), List.getElem?_eq_none hle⟩
  · exact .inr ⟨_, if_pos hpos, List.getElem?_eq_getElem (Nat.mod_lt n hpos)⟩

/-- What has a cell is a handle. -/
lemma lt_count {h : Handles α} {n cell : ℕ} (hn : h.owners[n]? = some cell) : n < h.count :=
  (List.getElem?_eq_some_iff.mp hn).1

/-- So is what can be read. -/
lemma lt_count_of_read? {h : Handles α} {n : ℕ} {a : α} (hn : h.read? n = some a) :
    n < h.count := by
  obtain ⟨cell, hcell, -⟩ := Option.bind_eq_some_iff.mp hn
  exact lt_count hcell

/-- Each handle has a cell. -/
lemma exists_owner {h : Handles α} {n : ℕ} (hn : n < h.count) :
    ∃ cell, h.owners[n]? = some cell :=
  ⟨_, List.getElem?_eq_getElem hn⟩

/-- That cell is there. -/
lemma owner_lt {h : Handles α} {n cell : ℕ} (hn : h.owners[n]? = some cell) :
    cell < h.cells.length :=
  h.lt_length cell (List.mem_of_getElem? hn)

/-- The ways in which a step can go. -/
inductive Goes (h : Handles α) (s : Step α) : Prop where
  /-- There is a new handle, with a cell of its own. -/
  | founds (a : α) (eq : s = .new a) (copied : h.copied? s = none) (written : h.written? s = none)
    (cells : (h.step s).cells = h.cells ++ [a])
    (owners : (h.step s).owners = h.owners ++ [h.cells.length])
  /-- There is a copy of a handle. -/
  | copies (n cell : ℕ) (owner : h.owners[n]? = some cell)
    (copied : h.copied? s = some (n, h.count)) (written : h.written? s = none)
    (cells : (h.step s).cells = h.cells) (owners : (h.step s).owners = h.owners ++ [cell])
  /-- A cell is written, through one of its handles. -/
  | writes (n cell : ℕ) (a : α) (owner : h.owners[n]? = some cell)
    (copied : h.copied? s = none) (written : h.written? s = some (n, a))
    (cells : (h.step s).cells = h.cells.set cell a) (owners : (h.step s).owners = h.owners)
  /-- All is as before. -/
  | rests (copied : h.copied? s = none) (written : h.written? s = none)
    (unchanged : h.step s = h)

/-- A step goes in one of these ways, whatever the handles are. -/
lemma goes_step (h : Handles α) (s : Step α) : h.Goes s := by
  cases s with
  | new a => exact .founds a rfl rfl rfl rfl rfl
  | look => exact .rests rfl rfl rfl
  | copy n =>
    obtain ⟨hmeant, howner⟩ | ⟨cell, hmeant, howner⟩ := h.meant?_cases n
    · exact .rests (by rw [copied?, hmeant, Option.map_none]) rfl (by simp [step, copy, howner])
    · exact .copies _ cell howner (by rw [copied?, hmeant, Option.map_some]) rfl rfl
        (by simp [step, copy, howner])
  | write n a =>
    obtain ⟨hmeant, howner⟩ | ⟨cell, hmeant, howner⟩ := h.meant?_cases n
    · exact .rests rfl (by rw [written?, hmeant, Option.map_none]) (by simp [step, write, howner])
    · exact .writes _ cell a howner rfl (by rw [written?, hmeant, Option.map_some])
        (by simp [step, write, howner]) (by simp [step, write, howner])

/-- A copy is the youngest handle, and refers to the cell of the handle that it is a copy of. -/
lemma owners_of_copied? {h : Handles α} {s : Step α} {n m : ℕ} (hs : h.copied? s = some (n, m)) :
    m = h.count ∧ ∃ cell, h.owners[n]? = some cell ∧ (h.step s).owners = h.owners ++ [cell] := by
  cases h.goes_step s with
  | copies k cell owner copied _ _ owners =>
    obtain ⟨rfl, rfl⟩ := Prod.mk.inj (Option.some_inj.mp (copied.symm.trans hs))
    exact ⟨rfl, cell, owner, owners⟩
  | founds _ _ copied => cases copied.symm.trans hs
  | writes _ _ _ _ copied => cases copied.symm.trans hs
  | rests copied => cases copied.symm.trans hs

/-- What is written is written through a handle that there is. -/
lemma lt_count_of_written? {h : Handles α} {s : Step α} {w : ℕ × α} (hs : h.written? s = some w) :
    w.1 < h.count := by
  cases h.goes_step s with
  | writes n cell a owner _ written =>
    obtain rfl : (n, a) = w := Option.some_inj.mp (written.symm.trans hs)
    exact lt_count owner
  | founds _ _ _ written => cases written.symm.trans hs
  | copies _ _ _ _ written => cases written.symm.trans hs
  | rests _ written => cases written.symm.trans hs

/-- A handle keeps its cell. -/
lemma isPrefix_owners_step (h : Handles α) (s : Step α) : h.owners <+: (h.step s).owners := by
  cases h.goes_step s with
  | founds _ _ _ _ _ owners => exact owners ▸ List.prefix_append ..
  | copies _ _ _ _ _ _ owners => exact owners ▸ List.prefix_append ..
  | writes _ _ _ _ _ _ _ owners => exact owners ▸ List.prefix_rfl
  | rests _ _ unchanged => exact unchanged.symm ▸ List.prefix_rfl

/-! ### Runs -/

/-- The handles after some steps, when there are none to begin with. -/
def after (steps : List (Step α)) : Handles α :=
  steps.foldl step {}

/-- The steps, each with the handles before it. -/
def moves (h : Handles α) : List (Step α) → List (Handles α × Step α)
  | [] => []
  | s :: later => (h, s) :: (h.step s).moves later

/-- What `f` says of the steps one after the other, where it says anything. -/
def along {β : Type} (f : Handles α → Step α → Option β) (steps : List (Step α)) : List β :=
  (moves {} steps).filterMap fun m => f m.1 m.2

/-- The copies that are made, each with the handle that it is a copy of, which comes first. -/
def copies (steps : List (Step α)) : List (ℕ × ℕ) :=
  along copied? steps

/-- What is written, each with the handle through which it is, which comes first. -/
def writes (steps : List (Step α)) : List (ℕ × α) :=
  along written? steps

/-- Later steps go on from where the earlier ones have led. -/
lemma after_append (steps later : List (Step α)) :
    after (steps ++ later) = later.foldl step (after steps) :=
  List.foldl_append

/-- The last step is made with the handles that the others have left. -/
lemma after_concat (steps : List (Step α)) (s : Step α) :
    after (steps ++ [s]) = (after steps).step s :=
  after_append steps [s]

/-- The moves of later steps come behind those of the earlier ones. -/
lemma moves_append (h : Handles α) (steps later : List (Step α)) :
    h.moves (steps ++ later) = h.moves steps ++ (steps.foldl step h).moves later := by
  induction steps generalizing h with
  | nil => rfl
  | cons s steps ih => exact congrArg _ (ih (h.step s))

/-- What is said of the steps is never taken back by later ones. -/
lemma isPrefix_along {β : Type} (f : Handles α → Step α → Option β) (steps later : List (Step α)) :
    along f steps <+: along f (steps ++ later) := by
  rw [along, along, moves_append, List.filterMap_append]
  exact List.prefix_append ..

/-- The last step adds what is said of it, if anything is. -/
lemma along_concat {β : Type} (f : Handles α → Step α → Option β) (steps : List (Step α))
    (s : Step α) : along f (steps ++ [s]) = along f steps ++ (f (after steps) s).toList := by
  rw [along, along, moves_append, List.filterMap_append]
  rfl

variable {steps : List (Step α)}

/-- A handle keeps its cell for ever. -/
lemma isPrefix_owners (steps later : List (Step α)) :
    (after steps).owners <+: (after (steps ++ later)).owners := by
  induction later using List.reverseRecOn with
  | nil => exact (List.append_nil steps).symm ▸ List.prefix_rfl
  | append_singleton later s ih =>
    rw [← List.append_assoc, after_concat]
    exact ih.trans (isPrefix_owners_step _ s)

/-- Handles are never lost. -/
lemma count_le (steps later : List (Step α)) :
    (after steps).count ≤ (after (steps ++ later)).count :=
  (isPrefix_owners steps later).length_le

/-- The cell of a handle can be looked up at any later time. -/
lemma getElem?_owners_append {n : ℕ} (hn : n < (after steps).count) (later : List (Step α)) :
    (after (steps ++ later)).owners[n]? = (after steps).owners[n]? := by
  obtain ⟨added, h⟩ := isPrefix_owners steps later
  rw [← h, List.getElem?_append_left hn]

/-- The moves have the steps in them that were given, in order. -/
lemma map_snd_moves (h : Handles α) (steps : List (Step α)) :
    (h.moves steps).map Prod.snd = steps := by
  induction steps generalizing h with
  | nil => rfl
  | cons s steps ih => exact congrArg _ (ih (h.step s))

/-- What is written is written by a step. -/
lemma exists_write_of_mem_writes {w : ℕ × α} (h : w ∈ writes steps) :
    ∃ n, Step.write n w.2 ∈ steps := by
  obtain ⟨⟨before, s⟩, hmem, hs⟩ := List.mem_filterMap.mp h
  have hstep : s ∈ steps := map_snd_moves {} steps ▸ List.mem_map_of_mem hmem
  cases s with
  | write n a =>
    obtain ⟨k, -, rfl⟩ := Option.map_eq_some_iff.mp hs
    exact ⟨n, hstep⟩
  | _ => cases hs

/-- Whatever is written through is a handle. -/
lemma lt_count_of_mem_writes {w : ℕ × α} (h : w ∈ writes steps) : w.1 < (after steps).count := by
  induction steps using List.reverseRecOn with
  | nil => cases h
  | append_singleton steps s ih =>
    rw [writes, along_concat, List.mem_append, Option.mem_toList] at h
    obtain h | h := h
    · exact Nat.lt_of_lt_of_le (ih h) (count_le steps [s])
    · exact Nat.lt_of_lt_of_le (lt_count_of_written? h) (count_le steps [s])

/-! ### Families -/

/-- Two handles are of one family: they are connected by copies. -/
def Family (steps : List (Step α)) : ℕ → ℕ → Prop :=
  Relation.EqvGen fun n m => (n, m) ∈ copies steps

/-- What is one family stays one. -/
lemma Family.append {n m : ℕ} (h : Family steps n m) (later : List (Step α)) :
    Family (steps ++ later) n m :=
  Relation.EqvGen.mono (fun _ _ hmem => (isPrefix_along copied? steps later).subset hmem) _ _ h

/-- A copy has the cell of the handle that it was copied from. -/
lemma exists_owner_of_mem_copies {n m : ℕ} (h : (n, m) ∈ copies steps) :
    ∃ cell, (after steps).owners[n]? = some cell ∧ (after steps).owners[m]? = some cell := by
  induction steps using List.reverseRecOn with
  | nil => cases h
  | append_singleton steps s ih =>
    rw [copies, along_concat, List.mem_append, Option.mem_toList] at h
    obtain h | h := h
    · obtain ⟨cell, hn, hm⟩ := ih h
      exact ⟨cell, (getElem?_owners_append (lt_count hn) _).trans hn,
        (getElem?_owners_append (lt_count hm) _).trans hm⟩
    · obtain ⟨rfl, cell, hn, howners⟩ := owners_of_copied? h
      rw [after_concat, howners, List.getElem?_append_left (lt_count hn)]
      exact ⟨cell, hn, List.getElem?_concat_length⟩

/-- What is in a list, with one more behind it. -/
lemma getElem?_concat_cases {l : List ℕ} {i x y : ℕ} (h : (l ++ [x])[i]? = some y) :
    l[i]? = some y ∨ (i = l.length ∧ x = y) := by
  grind

/-- Handles that refer to one cell are of one family. -/
lemma family_of_owner {n m cell : ℕ} (hn : (after steps).owners[n]? = some cell)
    (hm : (after steps).owners[m]? = some cell) : Family steps n m := by
  -- the induction hypothesis is about all handles but the one that the last step may have added
  induction steps using List.reverseRecOn generalizing n m cell with
  | nil => cases hn
  | append_singleton steps s ih =>
    rw [after_concat] at hn hm
    cases (after steps).goes_step s with
    | founds a _ _ _ _ owners =>
      rw [owners] at hn hm
      obtain hn | ⟨rfl, rfl⟩ := getElem?_concat_cases hn
      · obtain hm | ⟨rfl, rfl⟩ := getElem?_concat_cases hm
        · exact (ih hn hm).append [s]
        · exact absurd (owner_lt hn) (Nat.lt_irrefl _)
      · obtain hm | ⟨rfl, -⟩ := getElem?_concat_cases hm
        · exact absurd (owner_lt hm) (Nat.lt_irrefl _)
        · exact .refl _
    | copies k cell' owner copied _ _ owners =>
      have hcopy : Family (steps ++ [s]) k (after steps).count := by
        refine .rel _ _ ?_
        rw [copies, along_concat, copied]
        exact List.mem_append_right _ (List.mem_singleton_self _)
      -- who refers to the cell is connected with one that did so before
      have helder {i : ℕ} (hi : ((after steps).step s).owners[i]? = some cell) :
          ∃ j, (after steps).owners[j]? = some cell ∧ Family (steps ++ [s]) j i := by
        rw [owners] at hi
        obtain hi | ⟨rfl, rfl⟩ := getElem?_concat_cases hi
        · exact ⟨i, hi, .refl i⟩
        · exact ⟨k, owner, hcopy⟩
      obtain ⟨n', hn', hnn'⟩ := helder hn
      obtain ⟨m', hm', hmm'⟩ := helder hm
      have hold : Family (steps ++ [s]) n' m' := (ih hn' hm').append [s]
      exact (hnn'.symm _ _).trans _ _ _ (hold.trans _ _ _ hmm')
    | writes _ _ _ _ _ _ _ owners =>
      rw [owners] at hn hm
      exact (ih hn hm).append [s]
    | rests _ _ unchanged =>
      rw [unchanged] at hn hm
      exact (ih hn hm).append [s]

/-- The handles of a family are those that refer to one cell. -/
lemma family_iff {n m : ℕ} : Family steps n m ↔
    n = m ∨ ∃ cell ∈ (after steps).owners[n]?, (after steps).owners[m]? = some cell := by
  constructor
  · intro h
    induction h with
    | rel n m hmem => exact .inr (exists_owner_of_mem_copies hmem)
    | refl n => exact .inl rfl
    | symm n m _ ih =>
      obtain rfl | ⟨cell, hn, hm⟩ := ih
      · exact .inl rfl
      · exact .inr ⟨cell, hm, hn⟩
    | trans n k m _ _ ih ih' =>
      obtain rfl | ⟨cell, hn, hk⟩ := ih
      · exact ih'
      · obtain rfl | ⟨cell', hk', hm⟩ := ih'
        · exact .inr ⟨cell, hn, hk⟩
        · exact .inr ⟨cell, hn, hm.trans (hk'.symm.trans hk)⟩
  · rintro (rfl | ⟨cell, hn, hm⟩)
    · exact .refl n
    · exact family_of_owner hn hm

instance (n m : ℕ) : Decidable (Family steps n m) :=
  decidable_of_iff _ family_iff.symm

/-- The family of a handle are all handles with the same cell. -/
lemma family_iff_of_owner {n m cell : ℕ} (hm : (after steps).owners[m]? = some cell) :
    Family steps n m ↔ (after steps).owners[n]? = some cell := by
  rw [family_iff]
  constructor
  · rintro (rfl | ⟨cell', hn, hm'⟩)
    · exact hm
    · exact hn.trans (hm'.symm.trans hm)
  · exact fun hn => .inr ⟨cell, hn, hm⟩

/-! ### Readings -/

/-- The readings are what the handles read. -/
lemma getElem?_readings (h : Handles α) (n : ℕ) : h.readings[n]? = h.read? n := by
  have hcells : ∀ cell ∈ h.owners, cell < h.cells.length := h.lt_length
  rw [readings, read?]
  generalize h.owners = owners at hcells
  induction owners generalizing n with
  | nil => rfl
  | cons cell owners ih =>
    obtain ⟨hcell, hcells⟩ := List.forall_mem_cons.mp hcells
    rw [List.filterMap_cons_some (List.getElem?_eq_getElem hcell)]
    cases n with
    | zero => exact (List.getElem?_eq_getElem hcell).symm
    | succ n => exact ih n hcells

/-- What was last written to a cell. -/
def lastIn? (steps : List (Step α)) (cell : ℕ) : Option α :=
  (((writes steps).filter fun w => (after steps).owners[w.1]? = some cell).getLast?).map Prod.snd

/-- What was last written through the family of a handle. -/
def lastWritten? (steps : List (Step α)) (m : ℕ) : Option α :=
  (((writes steps).filter fun w => Family steps w.1 m).getLast?).map Prod.snd

/-- What was last written through the family of a handle is what was last written to its cell. -/
lemma lastWritten?_eq {m cell : ℕ} (hm : (after steps).owners[m]? = some cell) :
    lastWritten? steps m = lastIn? steps cell := by
  simp only [lastWritten?, lastIn?, family_iff_of_owner hm]

/-- Nothing was written to a cell that there is not. -/
lemma lastIn?_of_le {cell : ℕ} (h : (after steps).cells.length ≤ cell) :
    lastIn? steps cell = none := by
  have hnone : (writes steps).filter (fun w => (after steps).owners[w.1]? = some cell) = [] := by
    rw [List.filter_eq_nil_iff]
    intro w _ hw
    exact absurd (owner_lt (of_decide_eq_true hw)) (Nat.not_lt.mpr h)
  rw [lastIn?, hnone]
  rfl

/-- What was written before a step remains in the cells that it was written to. -/
lemma filter_writes_concat (s : Step α) (cell : ℕ) :
    (writes steps).filter (fun w => (after (steps ++ [s])).owners[w.1]? = some cell) =
      (writes steps).filter (fun w => (after steps).owners[w.1]? = some cell) :=
  List.filter_congr fun w hw => by rw [getElem?_owners_append (lt_count_of_mem_writes hw)]

/-- A step that writes nothing changes nothing of what was last written. -/
lemma lastIn?_concat_of_eq_none {s : Step α} (hs : (after steps).written? s = none) (cell : ℕ) :
    lastIn? (steps ++ [s]) cell = lastIn? steps cell := by
  rw [lastIn?, writes, along_concat, hs, Option.toList_none, List.append_nil, ← writes,
    filter_writes_concat, ← lastIn?]

/-- A step that writes changes what was last written to its own cell, and to no other. -/
lemma lastIn?_concat_of_eq_some {s : Step α} {n cell' : ℕ} {a : α}
    (hs : (after steps).written? s = some (n, a)) (hn : (after steps).owners[n]? = some cell')
    (cell : ℕ) :
    lastIn? (steps ++ [s]) cell = if cell' = cell then some a else lastIn? steps cell := by
  have hn' : (after (steps ++ [s])).owners[n]? = some cell' :=
    (getElem?_owners_append (lt_count hn) [s]).trans hn
  have hlast : [(n, a)].filter (fun w => (after (steps ++ [s])).owners[w.1]? = some cell) =
      if cell' = cell then [(n, a)] else [] := by
    simp [List.filter_cons, hn']
  rw [lastIn?, writes, along_concat, hs, Option.toList_some, ← writes, List.filter_append,
    filter_writes_concat, hlast]
  split
  · rw [List.getLast?_concat, Option.map_some]
  · rw [List.append_nil, ← lastIn?]

/-- Every cell holds what was last written to it, or what new cells hold. -/
lemma getElem?_cells {a₀ : α} (hnew : ∀ a, Step.new a ∈ steps → a = a₀) {cell : ℕ}
    (hcell : cell < (after steps).cells.length) :
    (after steps).cells[cell]? = some ((lastIn? steps cell).getD a₀) := by
  induction steps using List.reverseRecOn with
  | nil => cases hcell
  | append_singleton steps s ih =>
    have ih := ih fun a h => hnew a (List.mem_append_left _ h)
    rw [after_concat] at hcell ⊢
    cases (after steps).goes_step s with
    | founds a eq _ written cells =>
      rw [cells, lastIn?_concat_of_eq_none written]
      rw [cells, List.length_append] at hcell
      obtain hlt | hge := Nat.lt_or_ge cell (after steps).cells.length
      · rw [List.getElem?_append_left hlt, ih hlt]
      · obtain rfl : cell = (after steps).cells.length :=
          Nat.le_antisymm (Nat.le_of_lt_succ hcell) hge
        have ha : a = a₀ := hnew a (eq ▸ List.mem_append_right _ (List.mem_singleton_self _))
        rw [List.getElem?_concat_length, lastIn?_of_le hge, ha, Option.getD_none]
    | copies n cell' _ _ written cells =>
      rw [cells] at hcell ⊢
      rw [lastIn?_concat_of_eq_none written, ih hcell]
    | writes n cell' a owner _ written cells =>
      rw [cells, List.length_set] at hcell
      rw [cells, lastIn?_concat_of_eq_some written owner, List.getElem?_set]
      split
      · rw [if_pos (owner_lt owner), Option.getD_some]
      · exact ih hcell
    | rests _ written unchanged =>
      rw [unchanged] at hcell ⊢
      rw [lastIn?_concat_of_eq_none written, ih hcell]

/-- A handle reads what was last written through its family, or what new cells hold. -/
lemma read?_after {a₀ : α} (hnew : ∀ a, Step.new a ∈ steps → a = a₀) {m : ℕ}
    (hm : m < (after steps).count) :
    (after steps).read? m = some ((lastWritten? steps m).getD a₀) := by
  obtain ⟨cell, hcell⟩ := exists_owner hm
  rw [read?, hcell, Option.bind_some, getElem?_cells hnew (owner_lt hcell), lastWritten?_eq hcell]

/-- What was last written through the family of a handle was written through one of its members. -/
lemma exists_mem_writes_of_lastWritten? {m : ℕ} {a : α} (h : lastWritten? steps m = some a) :
    ∃ n, (n, a) ∈ writes steps ∧ Family steps n m := by
  obtain ⟨⟨n, a⟩, hlast, rfl⟩ := Option.map_eq_some_iff.mp h
  obtain ⟨hmem, hfamily⟩ := List.mem_filter.mp (List.mem_of_getLast? hlast)
  exact ⟨n, hmem, of_decide_eq_true hfamily⟩

/-- If something was written through a family, then there is something that was written last. -/
lemma lastWritten?_ne_none {m : ℕ} {w : ℕ × α} (hw : w ∈ writes steps)
    (hfamily : Family steps w.1 m) : lastWritten? steps m ≠ none := by
  intro h
  rw [lastWritten?, Option.map_eq_none_iff, List.getLast?_eq_none_iff] at h
  exact List.filter_eq_nil_iff.mp h w hw (decide_eq_true hfamily)

/-- What is written through a handle is not read through those of other families. -/
lemma read?_write_of_not_family {n m : ℕ} (hn : n < (after steps).count)
    (h : ¬Family steps n m) (a : α) :
    ((after steps).write n a).read? m = (after steps).read? m := by
  obtain ⟨cell, hcell⟩ := exists_owner hn
  rw [write, hcell, read?, read?]
  cases hm : (after steps).owners[m]? with
  | none => rfl
  | some cell' =>
    have hne : cell ≠ cell' := by
      rintro rfl
      exact h (family_of_owner hcell hm)
    exact List.getElem?_set_ne hne

/-! ### Stores of tokens -/

/-- A step with handles of stores of tokens. -/
inductive TokenStep where
  /-- Adds a handle of a new store, which is empty. -/
  | new
  /-- Adds a copy of a handle. -/
  | copy (n : ℕ)
  /-- Stores a pair of tokens through a handle. -/
  | set (n : ℕ) (access refresh : String)
  /-- Looks at the tokens. -/
  | look

/-- The step, as one with handles of any kind. -/
def TokenStep.plain : TokenStep → Step Tokens
  | .new => .new {}
  | .copy n => .copy n
  | .set n access refresh => .write n { access, refresh }
  | .look => .look

/-- The handles of stores after some steps. -/
def stores (steps : List TokenStep) : Handles Tokens :=
  after (steps.map TokenStep.plain)

/-- To set a pair is to write it, if the handle is there. -/
lemma stores_set {steps : List TokenStep} {n : ℕ} (hn : n < (stores steps).count)
    (access refresh : String) :
    stores (steps ++ [.set n access refresh]) = (stores steps).write n { access, refresh } := by
  rw [stores, List.map_append, List.map_singleton, after_concat, ← stores]
  exact congrArg (fun k => (stores steps).write k _) (Nat.mod_eq_of_lt hn)

/-- A new store is empty. -/
lemma eq_empty_of_new {t : Tokens} {steps : List TokenStep}
    (h : Step.new t ∈ steps.map TokenStep.plain) : t = {} := by
  obtain ⟨s, -, hs⟩ := List.mem_map.mp h
  cases s with
  | new => exact (Step.new.inj hs).symm
  | _ => cases hs

/-! ### Signals -/

/-- A step with handles of signals. -/
inductive SignalStep where
  /-- Adds a handle of a new signal, which is not raised. -/
  | new
  /-- Adds a copy of a handle. -/
  | copy (n : ℕ)
  /-- Raises a signal through a handle. -/
  | raise (n : ℕ)
  /-- Looks at a signal. Who waits does so time and again. -/
  | look

/-- The step, as one with handles of any kind. -/
def SignalStep.plain : SignalStep → Step Bool
  | .new => .new false
  | .copy n => .copy n
  | .raise n => .write n true
  | .look => .look

/-- The handles of signals after some steps. -/
def signals (steps : List SignalStep) : Handles Bool :=
  after (steps.map SignalStep.plain)

/-- Handles of signals are never lost. -/
lemma count_signals_le (steps later : List SignalStep) :
    (signals steps).count ≤ (signals (steps ++ later)).count := by
  rw [signals, signals, List.map_append]
  exact count_le _ _

/-- A signal was raised through the family of a handle. -/
def WasRaised (steps : List SignalStep) (m : ℕ) : Prop :=
  ∃ w ∈ writes (steps.map SignalStep.plain), Family (steps.map SignalStep.plain) w.1 m

instance (steps : List SignalStep) (m : ℕ) : Decidable (WasRaised steps m) :=
  inferInstanceAs (Decidable (∃ w ∈ writes (steps.map SignalStep.plain), _))

/-- A signal that was raised has been raised for ever. -/
lemma WasRaised.append {steps : List SignalStep} {m : ℕ} (h : WasRaised steps m)
    (later : List SignalStep) : WasRaised (steps ++ later) m := by
  obtain ⟨w, hw, hfamily⟩ := h
  rw [WasRaised, List.map_append]
  exact ⟨w, (isPrefix_along _ _ _).subset hw, hfamily.append _⟩

/-- A new signal is not raised. -/
lemma eq_false_of_new {b : Bool} {steps : List SignalStep}
    (h : Step.new b ∈ steps.map SignalStep.plain) : b = false := by
  obtain ⟨s, -, hs⟩ := List.mem_map.mp h
  cases s with
  | new => exact (Step.new.inj hs).symm
  | _ => cases hs

/-- All that is written is that a signal is raised. -/
lemma eq_true_of_mem_writes {w : ℕ × Bool} {steps : List SignalStep}
    (h : w ∈ writes (steps.map SignalStep.plain)) : w.2 = true := by
  obtain ⟨n, hn⟩ := exists_write_of_mem_writes h
  obtain ⟨s, -, hs⟩ := List.mem_map.mp hn
  cases s with
  | raise k => exact (Step.write.inj hs).2.symm
  | _ => cases hs

/-- A signal reads raised through a handle if it was raised through the family of the handle, and
else it reads not raised. -/
lemma read?_signals {steps : List SignalStep} {m : ℕ} (hm : m < (signals steps).count) :
    (signals steps).read? m = some (decide (WasRaised steps m)) := by
  rw [signals, read?_after (fun _ => eq_false_of_new) hm]
  cases hlast : lastWritten? (steps.map SignalStep.plain) m with
  | none =>
    have hnot : ¬WasRaised steps m := fun ⟨w, hw, hfamily⟩ =>
      lastWritten?_ne_none hw hfamily hlast
    rw [Option.getD_none, decide_eq_false hnot]
  | some b =>
    obtain ⟨n, hmem, hfamily⟩ := exists_mem_writes_of_lastWritten? hlast
    obtain rfl : b = true := eq_true_of_mem_writes hmem
    rw [Option.getD_some, decide_eq_true (show WasRaised steps m from ⟨_, hmem, hfamily⟩)]

/-- A handle of a signal reads true if and only if it was raised through its family. -/
lemma isRaised_signals {steps : List SignalStep} {m : ℕ} (hm : m < (signals steps).count) :
    (signals steps).isRaised m = decide (WasRaised steps m) := by
  rw [isRaised, Nat.mod_eq_of_lt hm, read?_signals hm, Option.getD_some]

/-! ### Waits -/

/-- A wait goes on while no look finds the signal raised or the deadline passed. -/
lemma wait?_eq_none_iff {n deadline : ℕ} {looks : List (ℕ × Handles Bool)} :
    wait? n deadline looks = none ↔
      ∀ look ∈ looks, look.2.isRaised n = false ∧ look.1 < deadline := by
  simp [wait?]

/-- When a wait is over it has told what one of its looks found, and it does not tell that the
signal is not raised before the deadline. -/
lemma exists_look_of_wait? {n deadline : ℕ} {looks : List (ℕ × Handles Bool)} {b : Bool}
    (h : wait? n deadline looks = some b) :
    ∃ look ∈ looks, look.2.isRaised n = b ∧ (b = false → deadline ≤ look.1) := by
  obtain ⟨look, hfind, rfl⟩ := Option.map_eq_some_iff.mp h
  refine ⟨look, List.mem_of_find?_eq_some hfind, rfl, fun hfalse => ?_⟩
  simpa [hfalse] using List.find?_some hfind

/-! ### The main statement -/

/-- Handles that are connected by copies share what they read, and handles that are not do not.

After any steps with handles of stores, each reads both tokens of the pair that was last stored
through its family, or two empty tokens if there is none. What is stored through other families
makes no difference to it.

After any steps with handles of signals, each reads that its signal is raised if and only if it was
raised before through its family, and so it does after all steps that follow. A wait goes on as long
as each of its looks comes before the deadline and before the signal was raised through the family
of the handle; once it is over, it has told whether the signal was raised by the time of a look,
which is not before the deadline if it was not. -/
theorem families_share :
    (∀ (steps : List TokenStep) (m : ℕ), m < (stores steps).count →
      (stores steps).readings[m]? =
        some ((lastWritten? (steps.map TokenStep.plain) m).getD { access := "", refresh := "" })) ∧
    (∀ (steps : List TokenStep) (n m : ℕ) (access refresh : String),
      n < (stores steps).count → ¬Family (steps.map TokenStep.plain) n m →
        (stores (steps ++ [.set n access refresh])).readings[m]? =
          (stores steps).readings[m]?) ∧
    (∀ (steps : List SignalStep) (m : ℕ), m < (signals steps).count →
      (signals steps).readings[m]? = some (decide (WasRaised steps m))) ∧
    (∀ (steps later : List SignalStep) (m : ℕ), (signals steps).readings[m]? = some true →
      (signals (steps ++ later)).readings[m]? = some true) ∧
    ∀ (steps : List SignalStep) (m deadline : ℕ) (looks : List (ℕ × ℕ)),
      (∀ look ∈ looks, m < (signals (steps.take look.2)).count) →
        let wait := wait? m deadline (looks.map fun look => (look.1, signals (steps.take look.2)))
        (wait = none ↔
          ∀ look ∈ looks, ¬WasRaised (steps.take look.2) m ∧ look.1 < deadline) ∧
        ∀ b, wait = some b → ∃ look ∈ looks,
          (b = true ↔ WasRaised (steps.take look.2) m) ∧ (b = false → deadline ≤ look.1) := by
  refine ⟨fun steps m hm => ?_, fun steps n m access refresh hn hfamily => ?_,
    fun steps m hm => ?_, fun steps later m hread => ?_, fun steps m deadline looks hm => ?_⟩
  · rw [getElem?_readings]
    exact read?_after (fun _ => eq_empty_of_new) hm
  · rw [stores_set hn, getElem?_readings, getElem?_readings]
    exact read?_write_of_not_family hn hfamily _
  · rw [getElem?_readings, read?_signals hm]
  · rw [getElem?_readings] at hread ⊢
    -- a handle that can be read exists, and still exists later
    have hm : m < (signals steps).count := lt_count_of_read? hread
    have hm' : m < (signals (steps ++ later)).count :=
      Nat.lt_of_lt_of_le hm (count_signals_le steps later)
    rw [read?_signals hm] at hread
    have hraised : WasRaised steps m := of_decide_eq_true (Option.some_inj.mp hread)
    rw [read?_signals hm', decide_eq_true (hraised.append later)]
  · have hlook (look : ℕ × ℕ) (h : look ∈ looks) :
        (signals (steps.take look.2)).isRaised m = decide (WasRaised (steps.take look.2) m) :=
      isRaised_signals (hm look h)
    intro wait
    constructor
    · rw [wait?_eq_none_iff, List.forall_mem_map]
      refine forall₂_congr fun look h => and_congr_left' ?_
      rw [hlook look h, decide_eq_false_iff_not]
    · intro b hwait
      obtain ⟨_, hmem, htold, hlate⟩ := exists_look_of_wait? hwait
      obtain ⟨look, h, rfl⟩ := List.mem_map.mp hmem
      refine ⟨look, h, ?_, hlate⟩
      rw [← htold, hlook look h, decide_eq_true_iff]

/-- Two stores: the handles 0, 1 and 3 are of one of them, and 2 is of the other. -/
def twoStores : List TokenStep :=
  [.new, .set 0 "a" "r", .copy 0, .new, .set 2 "b" "s", .copy 1]

/-- Two signals: the handles 0 and 2 are of one of them, which is raised, and 1 is of the other. -/
def twoSignals : List SignalStep :=
  [.new, .new, .look, .copy 0, .raise 2, .look]

/-- A pair that was stored before a handle was copied is read through the copy of the copy, and
still when another one is stored elsewhere. A wait through the first handle is over in time, the
signal having been raised through its copy. -/
theorem families_share_twice :
    3 < (stores twoStores).count ∧
    (stores twoStores).readings[3]? = some { access := "a", refresh := "r" } ∧
    2 < (stores twoStores).count ∧ ¬Family (twoStores.map TokenStep.plain) 2 3 ∧
    (stores (twoStores ++ [.set 2 "c" "t"])).readings[3]? =
      some { access := "a", refresh := "r" } ∧
    0 < (signals twoSignals).count ∧ (signals twoSignals).readings[0]? = some true ∧
    (signals (twoSignals ++ [.raise 1])).readings[0]? = some true ∧
    (∀ look ∈ [(3, 3), (8, 6)], 0 < (signals (twoSignals.take look.2)).count) ∧
    wait? 0 9 ([(3, 3), (8, 6)].map fun look => (look.1, signals (twoSignals.take look.2))) ≠
      none := by
  obtain ⟨hreads, hapart, hraised, hstays, hwaits⟩ := families_share
  have hm : 3 < (stores twoStores).count := by decide
  have hn : 2 < (stores twoStores).count := by decide
  have hother : ¬Family (twoStores.map TokenStep.plain) 2 3 := by decide
  have hpair : (stores twoStores).readings[3]? = some { access := "a", refresh := "r" } :=
    (hreads twoStores 3 hm).trans (by decide)
  have hs : 0 < (signals twoSignals).count := by decide
  have htrue : (signals twoSignals).readings[0]? = some true :=
    (hraised twoSignals 0 hs).trans (by decide)
  have hlooks : ∀ look ∈ [(3, 3), (8, 6)], 0 < (signals (twoSignals.take look.2)).count := by
    decide
  obtain ⟨hnone, -⟩ := hwaits twoSignals 0 9 [(3, 3), (8, 6)] hlooks
  exact ⟨hm, hpair, hn, hother, (hapart twoStores 2 3 "c" "t" hn hother).trans hpair, hs, htrue,
    hstays twoSignals [.raise 1] 0 htrue, hlooks,
    fun h => (hnone.mp h (8, 6) (by decide)).1 (by decide)⟩

end Handles
end Duelist
