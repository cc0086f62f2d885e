import Formula.Cursor
import Formula.Grammar
import Mathlib.Data.List.Basic

/-!
# Blanks around a text

A text that is not blank is a core between two runs of blanks, and the core neither begins nor ends
with a blank. Trimming a cursor finds the core (`Cursor.exists_core`, `Cursor.trim_core`), so that
blanks put around a text change nothing that is said of the trimmed cursor.
-/

namespace Formula

variable {c x : Char} {text l r u v w : List Char} {start : Nat}

/-! ### Blank texts -/

theorem blank_nil : Blank [] := by
  intro c mem
  cases mem

theorem blank_append : Blank (v ++ w) ↔ Blank v ∧ Blank w := by
  simp [Blank, or_imp, forall_and]

theorem blank_cons : Blank (c :: w) ↔ isBlank c = true ∧ Blank w := by
  simp [Blank]

theorem not_blank_append (h : ¬ Blank text) (l r : List Char) : ¬ Blank (l ++ text ++ r) :=
  fun blank => h (blank_append.1 (blank_append.1 blank).1).2

theorem not_blank_append_cons (h : isBlank c = false) : ¬ Blank (l ++ c :: r) := by
  intro blank
  simpa [h] using (blank_cons.1 (blank_append.1 blank).2).1

theorem IsName.not_blank (h : IsName text) : ¬ Blank text := by
  obtain ⟨ne, names⟩ := h
  obtain ⟨c, rest, rfl⟩ := List.exists_cons_of_ne_nil ne
  intro blank
  have := isBlank_eq_false_of_isNameChar (names c List.mem_cons_self)
  simp [(blank_cons.1 blank).1] at this

/-! ### Cores -/

/-- A text, not empty, that neither begins nor ends with a blank. -/
structure Core (text : List Char) : Prop where
  ne_nil : text ≠ []
  head : ∀ c ∈ text.head?, isBlank c = false
  last : ∀ c ∈ text.getLast?, isBlank c = false

theorem Core.not_blank (h : Core u) : ¬ Blank u := by
  intro blank
  obtain ⟨c, rest, rfl⟩ := List.exists_cons_of_ne_nil h.ne_nil
  have := h.head c rfl
  simp [(blank_cons.1 blank).1] at this

theorem core_of_forall (ne : u ≠ []) (h : ∀ c ∈ u, isBlank c = false) : Core u :=
  ⟨ne, fun c mem => h c (List.mem_of_mem_head? mem),
    fun c mem => h c (List.mem_of_mem_getLast? mem)⟩

theorem IsName.core (h : IsName text) : Core text :=
  core_of_forall h.1 fun c mem => isBlank_eq_false_of_isNameChar (h.2 c mem)

theorem core_singleton (h : isBlank c = false) : Core [c] :=
  core_of_forall (List.cons_ne_nil c []) (by simpa using h)

/-- Any text may stand between two cores. -/
theorem Core.append (hl : Core l) (hr : Core r) (text : List Char) : Core (l ++ text ++ r) := by
  refine ⟨by simp [hl.ne_nil], ?_, ?_⟩
  · intro c mem
    rw [List.append_assoc, List.head?_append_of_ne_nil _ hl.ne_nil] at mem
    exact hl.head c mem
  · intro c mem
    rw [List.getLast?_append_of_ne_nil _ hr.ne_nil] at mem
    exact hr.last c mem

theorem Core.eq_nil_of_blank_left (h : Core (v ++ u)) (hv : Blank v) : v = [] := by
  cases v with
  | nil => rfl
  | cons c v =>
    have solid := h.head c rfl
    simp [hv c List.mem_cons_self] at solid

theorem Core.eq_nil_of_blank_right (h : Core (u ++ w)) (hw : Blank w) : w = [] := by
  rcases List.eq_nil_or_concat' w with rfl | ⟨w, c, rfl⟩
  · rfl
  · have solid := h.last c (by simp)
    simp [hw c (by simp)] at solid

/-! ### Trimming a text -/

theorem trimLeft_append_of_blank (h : Blank v) : trimLeft (v ++ text) = trimLeft text :=
  List.dropWhile_append_of_pos h

theorem trimLeft_of_blank (h : Blank v) : trimLeft v = [] := by
  rw [← List.append_nil v, trimLeft_append_of_blank h]
  rfl

theorem trimRight_append_of_blank (h : Blank w) : trimRight (text ++ w) = trimRight text := by
  have reversed : Blank w.reverse := fun c mem => h c (List.mem_reverse.1 mem)
  rw [trimRight, List.reverse_append, trimLeft_append_of_blank reversed, trimRight]

theorem trimLeft_eq_self (h : ∀ c ∈ text.head?, isBlank c = false) : trimLeft text = text := by
  cases text with
  | nil => rfl
  | cons c rest => simp [trimLeft, h c rfl]

theorem trimRight_eq_self (h : ∀ c ∈ text.getLast?, isBlank c = false) : trimRight text = text := by
  rw [trimRight, trimLeft_eq_self (by simpa using h), List.reverse_reverse]

theorem exists_append_trimLeft (text : List Char) : ∃ v, Blank v ∧ text = v ++ trimLeft text := by
  refine ⟨text.takeWhile isBlank, ?_, List.takeWhile_append_dropWhile.symm⟩
  intro c mem
  exact List.all_eq_true.1 List.all_takeWhile c mem

theorem exists_trimRight_append (text : List Char) : ∃ w, Blank w ∧ text = trimRight text ++ w := by
  obtain ⟨v, blank, eq⟩ := exists_append_trimLeft text.reverse
  refine ⟨v.reverse, fun c mem => blank c (List.mem_reverse.1 mem), ?_⟩
  rw [trimRight, ← List.reverse_append, ← eq, List.reverse_reverse]

theorem head?_trimLeft (mem : c ∈ (trimLeft text).head?) : isBlank c = false := by
  have := List.head?_dropWhile_not isBlank text
  rw [trimLeft, Option.mem_def] at mem
  simpa [mem] using this

theorem getLast?_trimRight (mem : c ∈ (trimRight text).getLast?) : isBlank c = false := by
  rw [trimRight, List.getLast?_reverse] at mem
  exact head?_trimLeft mem

/-- A text that is not blank is a core between two runs of blanks. -/
theorem exists_core (h : ¬ Blank text) :
    ∃ v u w, Blank v ∧ Core u ∧ Blank w ∧ text = v ++ u ++ w := by
  obtain ⟨v, hv, hl⟩ := exists_append_trimLeft text
  obtain ⟨w, hw, hr⟩ := exists_trimRight_append (trimLeft text)
  have whole : text = v ++ trimRight (trimLeft text) ++ w := by
    rw [List.append_assoc, ← hr, ← hl]
  -- a text of which nothing is left is the blanks that were trimmed away
  have ne : trimRight (trimLeft text) ≠ [] := by
    intro eq
    rw [eq, List.append_nil] at whole
    exact h (whole ▸ blank_append.2 ⟨hv, hw⟩)
  refine ⟨v, trimRight (trimLeft text), w, hv, ⟨ne, ?_, fun c => getLast?_trimRight⟩, hw, whole⟩
  intro c mem
  have : (trimLeft text).head? = some c := by
    rw [hr, List.head?_append, Option.mem_def.1 mem, Option.some_or]
  exact head?_trimLeft this

/-- The core of a text with a character in it that is not blank and has some text in front of it. -/
theorem exists_core_append_cons (hc : isBlank c = false) (hl : ¬ Blank l) (r : List Char) :
    ∃ v l' r' w, Blank v ∧ Blank w ∧ l = v ++ l' ∧ r = r' ++ w ∧ Core (l' ++ c :: r') ∧
      ∀ x ∈ r'.getLast?, isBlank x = false := by
  obtain ⟨v, hv, eq_l⟩ := exists_append_trimLeft l
  obtain ⟨w, hw, eq_r⟩ := exists_trimRight_append r
  have last : ∀ x ∈ (trimRight r).getLast?, isBlank x = false := fun x => getLast?_trimRight
  have ne : trimLeft l ≠ [] := by
    intro empty
    rw [empty, List.append_nil] at eq_l
    exact hl (eq_l ▸ hv)
  refine ⟨v, trimLeft l, trimRight r, w, hv, hw, eq_l, eq_r, ⟨by simp, ?_, ?_⟩, last⟩
  · intro x mem
    rw [List.head?_append_of_ne_nil _ ne] at mem
    exact head?_trimLeft mem
  · intro x mem
    rcases List.eq_nil_or_concat' (trimRight r) with empty | ⟨rest, y, concat⟩
    · rw [empty, List.getLast?_concat] at mem
      exact Option.some.inj mem ▸ hc
    · rw [concat, ← List.cons_append, ← List.append_assoc, List.getLast?_concat] at mem
      exact last x (by rw [concat, List.getLast?_concat]; exact mem)

/-! ### Cutting at a character -/

/-- A character of a concatenation lies in its first part or in its second. -/
theorem append_cons_eq_append (eq : l ++ x :: r = v ++ w) :
    (∃ m, v = l ++ x :: m ∧ r = m ++ w) ∨ ∃ m, l = v ++ m ∧ w = m ++ x :: r := by
  rcases List.append_eq_append_iff.1 eq with ⟨m, hv, hr⟩ | ⟨m, hl, hw⟩
  · cases m with
    | nil => exact .inr ⟨[], by simpa using hv.symm, by simpa using hr.symm⟩
    | cons y m =>
      obtain ⟨rfl, rfl⟩ := List.cons.inj hr
      exact .inl ⟨m, hv, rfl⟩
  · exact .inr ⟨m, hl, hw⟩

/-- Of two cuts of one text, either comes first or they are the same. -/
theorem append_cons_eq_append_cons {y : Char} {p q : List Char} (eq : p ++ y :: q = l ++ x :: r) :
    (∃ m, l = p ++ y :: m) ∨ (p = l ∧ y = x) ∨ ∃ m, p = l ++ x :: m ∧ r = m ++ y :: q := by
  rcases append_cons_eq_append eq with ⟨m, hl, -⟩ | ⟨m, rfl, hr⟩
  · exact .inl ⟨m, hl⟩
  · cases m with
    | nil => exact .inr (.inl ⟨by simp, (List.cons.inj hr).1.symm⟩)
    | cons z m =>
      obtain ⟨rfl, rfl⟩ := List.cons.inj hr
      exact .inr (.inr ⟨m, rfl, rfl⟩)

/-- A character that is not blank keeps its place when blanks are taken from the ends. -/
theorem exists_of_append_cons_eq (hx : isBlank x = false) (hv : Blank v) (hw : Blank w)
    (eq : l ++ x :: r = v ++ u ++ w) :
    ∃ l' r', l = v ++ l' ∧ u = l' ++ x :: r' ∧ r = r' ++ w := by
  -- the character can lie neither in the blanks in front nor in those behind
  have not_blank {b b' : List Char} : ¬ Blank (b ++ x :: b') := not_blank_append_cons hx
  rcases append_cons_eq_append eq with ⟨r', h, rfl⟩ | ⟨m, -, rfl⟩
  · rcases append_cons_eq_append h.symm with ⟨m, rfl, -⟩ | ⟨l', rfl, rfl⟩
    · exact absurd hv not_blank
    · exact ⟨l', r', rfl, rfl, rfl⟩
  · exact absurd hw not_blank

/-- The first character of a text that is not blank is found in one way only. -/
theorem eq_of_blank_append_cons_eq {c' : Char} {v' r' : List Char} (hv : Blank v) (hv' : Blank v')
    (hc : isBlank c = false) (hc' : isBlank c' = false) (eq : v ++ c :: r = v' ++ c' :: r') :
    c = c' := by
  -- if the two were apart, the first would lie in the blanks in front of the second
  rcases append_cons_eq_append eq with ⟨m, rfl, -⟩ | ⟨m, rfl, h⟩
  · exact absurd hv' (not_blank_append_cons hc)
  · cases m with
    | nil => exact (List.cons.inj h).1.symm
    | cons y m =>
      obtain ⟨rfl, -⟩ := List.cons.inj h
      exact absurd hv (not_blank_append_cons hc')

/-- The last character of a text that is not blank is found in one way only. -/
theorem eq_of_append_cons_blank_eq {c' : Char} {l' w' : List Char} (hw : Blank w) (hw' : Blank w')
    (hc : isBlank c = false) (hc' : isBlank c' = false) (eq : l ++ c :: w = l' ++ c' :: w') :
    c = c' := by
  rcases append_cons_eq_append eq with ⟨m, -, rfl⟩ | ⟨m, -, h⟩
  · exact absurd hw (not_blank_append_cons hc')
  · cases m with
    | nil => exact (List.cons.inj h).1.symm
    | cons y m =>
      obtain ⟨rfl, rfl⟩ := List.cons.inj h
      exact absurd hw' (not_blank_append_cons hc)

/-! ### Trimming a cursor -/

namespace Cursor

variable {c c' : Cursor}

theorem trim_of_blank (h : Blank c.text) : c.trim = ⟨[], c.start + c.text.length⟩ := by
  simp only [trim, trimLeft_of_blank h]
  rfl

theorem trim_core (start : Nat) (hv : Blank v) (hu : Core u) (hw : Blank w) :
    (Cursor.mk (v ++ u ++ w) start).trim = ⟨u, start + v.length⟩ := by
  have left : trimLeft (v ++ u ++ w) = u ++ w := by
    rw [List.append_assoc, trimLeft_append_of_blank hv, trimLeft_eq_self]
    intro c mem
    obtain ⟨y, rest, rfl⟩ := List.exists_cons_of_ne_nil hu.ne_nil
    exact hu.head c mem
  simp only [trim, left, trimRight_append_of_blank hw, trimRight_eq_self hu.last, length_mk,
    List.length_append]
  congr 1
  omega

theorem trim_eq_self (hu : Core u) : (Cursor.mk u start).trim = ⟨u, start⟩ := by
  simpa using trim_core start blank_nil hu blank_nil

/-- What trimming does to a cursor that is not blank. -/
theorem exists_trim (h : ¬ Blank c.text) :
    ∃ v u w, Blank v ∧ Core u ∧ Blank w ∧ c.text = v ++ u ++ w ∧
      c.trim = ⟨u, c.start + v.length⟩ := by
  obtain ⟨v, u, w, hv, hu, hw, eq⟩ := exists_core h
  refine ⟨v, u, w, hv, hu, hw, eq, ?_⟩
  rw [← trim_core _ hv hu hw, ← eq]

theorem core_trim (h : ¬ Blank c.text) : Core c.trim.text := by
  obtain ⟨v, u, w, -, hu, -, -, trimmed⟩ := exists_trim h
  rw [trimmed]
  exact hu

/-- Blanks around a cursor are trimmed away first. -/
theorem trim_append (start : Nat) (hv : Blank v) (hw : Blank w) (h : ¬ Blank u) :
    (Cursor.mk (v ++ u ++ w) start).trim = (Cursor.mk u (start + v.length)).trim := by
  obtain ⟨v', u, w', hv', hu, hw', rfl⟩ := exists_core h
  rw [trim_core _ hv' hu hw', Nat.add_assoc, ← List.length_append]
  simpa using trim_core start (blank_append.2 ⟨hv, hv'⟩) hu (blank_append.2 ⟨hw', hw⟩)

/-- A cursor with no blank at its end is trimmed in front only. -/
theorem stop_trim (start : Nat) (h : ∀ c ∈ text.getLast?, isBlank c = false) :
    (Cursor.mk text start).trim.stop = start + text.length := by
  obtain ⟨v, -, eq⟩ := exists_append_trimLeft text
  -- what is left without the blanks in front has the same end
  have last : ∀ c ∈ (trimLeft text).getLast?, isBlank c = false := by
    intro c mem
    refine h c ?_
    rw [eq, List.getLast?_append, Option.mem_def.1 mem]
    rfl
  have length := congrArg List.length eq
  rw [List.length_append] at length
  simp only [trim, trimRight_eq_self last, stop, Cursor.length]
  omega

theorem trim_trim : c.trim.trim = c.trim := by
  by_cases h : Blank c.text
  · rw [trim_of_blank h, trim_of_blank blank_nil]
    rfl
  · obtain ⟨v, u, w, -, hu, -, -, trimmed⟩ := exists_trim h
    rw [trimmed, trim_eq_self hu]

theorem length_trim_eq_zero_iff : c.trim.length = 0 ↔ Blank c.text := by
  constructor
  · intro zero
    by_contra h
    obtain ⟨v, u, w, -, hu, -, -, trimmed⟩ := exists_trim h
    rw [trimmed, length_mk, List.length_eq_zero_iff] at zero
    exact hu.ne_nil zero
  · intro h
    rw [trim_of_blank h]
    rfl

theorem isEmpty_trim_iff : c.trim.isEmpty = true ↔ Blank c.text :=
  isEmpty_iff.trans length_trim_eq_zero_iff

end Cursor

end Formula
