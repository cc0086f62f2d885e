import Formula.Text.Lines
import Mathlib.Algebra.BigOperators.Group.List.Basic
import Mathlib.Algebra.Ring.Nat

/-!
# Texts as terminated lines

A text is a number of lines with a line feed behind each and a last line without one
(`exists_terminated_append`). Cutting it at its line feeds gives these lines back, whatever stands
behind them (`lines_terminated_append`), so what is true of where a text is cut follows from how it
was put together.
-/

namespace Formula.Text

variable {c : Char} {l r text : List Char} {ls : List (List Char)}

/-- A string is interpolated as it is. -/
@[simp] theorem toString_string (s : String) : toString s = s := rfl

@[simp] theorem toString_char (c : Char) : toString c = String.singleton c := rfl

/-- Lines put together, with a line feed behind each. -/
def terminated (ls : List (List Char)) : List Char := ls.flatMap (· ++ ['\n'])

@[simp] theorem terminated_nil : terminated [] = [] := rfl

@[simp] theorem terminated_cons : terminated (l :: ls) = l ++ '\n' :: terminated ls := by
  simp [terminated]

@[simp] theorem terminated_append (ls ms : List (List Char)) :
    terminated (ls ++ ms) = terminated ls ++ terminated ms := by
  simp [terminated]

theorem length_terminated (ls : List (List Char)) :
    (terminated ls).length = (ls.map fun l => l.length + 1).sum := by
  simp [terminated]

theorem count_terminated (h : ∀ l ∈ ls, '\n' ∉ l) : (terminated ls).count '\n' = ls.length := by
  induction ls with
  | nil => rfl
  | cons l ls ih =>
    have here : l.count '\n' = 0 := List.count_eq_zero.2 (h l List.mem_cons_self)
    rw [terminated_cons, List.count_append, List.count_cons_self, here, Nat.zero_add,
      List.length_cons, ih fun m mem => h m (List.mem_cons_of_mem _ mem)]

/-! ### Cutting at line feeds -/

private theorem notMem_cons : '\n' ∉ c :: text ↔ '\n' ≠ c ∧ '\n' ∉ text := by
  rw [List.mem_cons, not_or]

theorem lines_cons_of_ne (h : c ≠ '\n') :
    lines (c :: text) = (c :: (lines text).headD []) :: (lines text).tail := by
  rw [lines, if_neg h]

/-- What stands in front of all line feeds belongs to the first line. -/
theorem lines_append_of_notMem (h : '\n' ∉ l) :
    lines (l ++ r) = (l ++ (lines r).headD []) :: (lines r).tail := by
  induction l with
  | nil => exact (headD_cons_tail_lines r).symm
  | cons c l ih =>
    obtain ⟨ne, rest⟩ := notMem_cons.1 h
    rw [List.cons_append, lines_cons_of_ne ne.symm, ih rest]
    rfl

theorem lines_of_notMem (h : '\n' ∉ l) : lines l = [l] := by
  simpa [lines] using lines_append_of_notMem (r := []) h

/-- A line feed ends a line. -/
theorem lines_append_feed (h : '\n' ∉ l) : lines (l ++ '\n' :: r) = l :: lines r := by
  have cut : lines ('\n' :: r) = [] :: lines r := by rw [lines, if_pos rfl]
  rw [lines_append_of_notMem h, cut]
  simp

/-- Terminated lines are cut where they were put together. -/
theorem lines_terminated_append (h : ∀ l ∈ ls, '\n' ∉ l) (r : List Char) :
    lines (terminated ls ++ r) = ls ++ lines r := by
  induction ls with
  | nil => rfl
  | cons l ls ih =>
    rw [terminated_cons, List.append_assoc, List.cons_append,
      lines_append_feed (h l List.mem_cons_self), ih fun m mem => h m (List.mem_cons_of_mem _ mem)]
    rfl

theorem lines_terminated (h : ∀ l ∈ ls, '\n' ∉ l) : lines (terminated ls) = ls ++ [[]] := by
  simpa [lines] using lines_terminated_append h []

/-- Every text is a number of terminated lines and a last line. -/
theorem exists_terminated_append (text : List Char) :
    ∃ ls last, text = terminated ls ++ last ∧ (∀ l ∈ ls, '\n' ∉ l) ∧ '\n' ∉ last := by
  induction text with
  | nil => exact ⟨[], [], rfl, nofun, nofun⟩
  | cons c rest ih =>
    obtain ⟨ls, last, rfl, feeds, last_feed⟩ := ih
    by_cases feed : c = '\n'
    · subst feed
      refine ⟨[] :: ls, last, by simp, ?_, last_feed⟩
      exact List.forall_mem_cons.2 ⟨nofun, feeds⟩
    · -- the character begins the first line, or the last one if there is no other
      cases ls with
      | nil => exact ⟨[], c :: last, rfl, nofun, notMem_cons.2 ⟨Ne.symm feed, last_feed⟩⟩
      | cons l ls =>
        obtain ⟨first, others⟩ := List.forall_mem_cons.1 feeds
        refine ⟨(c :: l) :: ls, last, by simp, ?_, last_feed⟩
        exact List.forall_mem_cons.2 ⟨notMem_cons.2 ⟨Ne.symm feed, first⟩, others⟩

/-- A line feed between two texts cuts them apart. -/
theorem lines_append_feed_append (l r : List Char) :
    lines (l ++ '\n' :: r) = lines l ++ lines r := by
  obtain ⟨ls, last, rfl, feeds, last_feed⟩ := exists_terminated_append l
  rw [List.append_assoc, lines_terminated_append feeds, lines_append_feed last_feed,
    lines_terminated_append feeds, lines_of_notMem last_feed, List.append_assoc]
  rfl

theorem notMem_of_mem_lines (mem : l ∈ lines text) : '\n' ∉ l := by
  obtain ⟨ls, last, rfl, feeds, last_feed⟩ := exists_terminated_append text
  rw [lines_terminated_append feeds, lines_of_notMem last_feed, List.mem_append,
    List.mem_singleton] at mem
  rcases mem with mem | rfl
  · exact feeds l mem
  · exact last_feed

end Formula.Text
