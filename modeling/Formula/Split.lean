import Formula.Cursor

/-!
# Splitting at operators outside brackets

A text is read with two counts, one for each kind of bracket: an opening bracket adds one to its
count and a closing bracket takes one away. An operator lies outside brackets when both counts are
zero in front of it. The counts are signed and the brackets are not matched, so an opening bracket
that is never closed hides every operator behind it, and so does a stray closing bracket until the
count is restored.

`Cursor.findSplit` cuts a cursor at one operator, and `pieces` cuts a text at all of them.
-/

namespace Formula

/-- How many more brackets of each kind have been opened than closed. -/
structure Depth where
  round : Int
  square : Int
  deriving DecidableEq

namespace Depth

/-- No bracket is open. -/
def zero : Depth := ⟨0, 0⟩

/-- The depth behind a character. -/
def after (d : Depth) : Char → Depth
  | '(' => { d with round := d.round + 1 }
  | ')' => { d with round := d.round - 1 }
  | '[' => { d with square := d.square + 1 }
  | ']' => { d with square := d.square - 1 }
  | _ => d

end Depth

variable {τ : Type}

/-- The tag of an operator that stands at this depth; none for a bracket and inside brackets. -/
def operatorAt (tag? : Char → Option τ) (d : Depth) (c : Char) : Option τ :=
  if isBracket c || d != .zero then none else tag? c

/-- Passes over `skip` operators outside brackets and cuts the text at the next one. -/
def scan (tag? : Char → Option τ) (d : Depth) (skip : Int) :
    List Char → Option (List Char × τ × List Char)
  | [] => none
  | c :: rest =>
    let ahead (skip : Int) := (scan tag? (d.after c) skip rest).map fun (l, t, r) => (c :: l, t, r)
    match operatorAt tag? d c with
    | some t => if skip = 0 then some ([], t, rest) else ahead (skip - 1)
    | none => ahead skip

/-- A cursor cut in two at an operator. -/
structure Split (τ : Type) where
  left : Cursor
  tag : τ
  right : Cursor

/-- Cuts the cursor at the operator outside brackets that has exactly `skip` others before it. -/
def Cursor.findSplit (tag? : Char → Option τ) (skip : Int) (c : Cursor) : Option (Split τ) :=
  (scan tag? .zero skip c.text).map fun (left, tag, right) =>
    ⟨⟨left, c.start⟩, tag, ⟨right, c.start + left.length + 1⟩⟩

/-- The text before the first operator outside brackets, and each of these operators with the text
between it and the next one. -/
def pieces (tag? : Char → Option τ) (d : Depth) : List Char → List Char × List (τ × List Char)
  | [] => ([], [])
  | c :: rest =>
    let (head, tail) := pieces tag? (d.after c) rest
    match operatorAt tag? d c with
    | some t => ([], (t, head) :: tail)
    | none => (c :: head, tail)

/-- A head and further pieces put together, with an operator in front of each piece. -/
def joined (symbol : τ → Char) (head : List Char) (tail : List (τ × List Char)) : List Char :=
  head ++ tail.flatMap fun p => symbol p.1 :: p.2

/-! ### Nothing is lost -/

variable {tag? : Char → Option τ} {d : Depth} {skip : Int} {text l r : List Char} {t : τ}

theorem tag?_of_operatorAt {c : Char} (h : operatorAt tag? d c = some t) : tag? c = some t := by
  unfold operatorAt at h
  split at h
  · exact absurd h (by simp)
  · exact h

theorem eq_of_scan (h : scan tag? d skip text = some (l, t, r)) :
    ∃ c, text = l ++ c :: r ∧ tag? c = some t := by
  induction text generalizing d skip l with
  | nil => simp [scan] at h
  | cons c rest ih =>
    have ahead {skip : Int}
        (h : (scan tag? (d.after c) skip rest).map (fun (l, t, r) => (c :: l, t, r)) =
          some (l, t, r)) : ∃ o, c :: rest = l ++ o :: r ∧ tag? o = some t := by
      obtain ⟨⟨l', t', r'⟩, hs, he⟩ := Option.map_eq_some_iff.1 h
      simp only [Prod.mk.injEq] at he
      obtain ⟨rfl, rfl, rfl⟩ := he
      obtain ⟨o, rfl, ho⟩ := ih hs
      exact ⟨o, rfl, ho⟩
    simp only [scan] at h
    split at h
    · next t' ht =>
      split at h
      · simp only [Option.some.injEq, Prod.mk.injEq] at h
        obtain ⟨rfl, rfl, rfl⟩ := h
        exact ⟨c, rfl, tag?_of_operatorAt ht⟩
      · exact ahead h
    · exact ahead h

theorem Cursor.length_findSplit {c : Cursor} {s : Split τ} (h : c.findSplit tag? skip = some s) :
    s.left.length + s.right.length + 1 = c.length := by
  obtain ⟨⟨l, t, r⟩, hs, rfl⟩ := Option.map_eq_some_iff.1 h
  obtain ⟨o, eq, -⟩ := eq_of_scan hs
  simp only [Cursor.length, eq, List.length_append, List.length_cons]
  omega

/-- Putting the pieces of a text together gives the text, if each tag remembers its character. -/
theorem joined_pieces {symbol : τ → Char} (h : ∀ c t, tag? c = some t → symbol t = c) :
    joined symbol (pieces tag? d text).1 (pieces tag? d text).2 = text := by
  induction text generalizing d with
  | nil => rfl
  | cons c rest ih =>
    have := ih (d := d.after c)
    simp only [pieces]
    split
    · next t ht =>
      have symbol_t := h c t (tag?_of_operatorAt ht)
      simpa [joined, symbol_t] using this
    · simpa [joined] using this

/-- The length of further pieces, each with its operator. -/
def tailLength : List (τ × List Char) → Nat
  | [] => 0
  | p :: tail => p.2.length + 1 + tailLength tail

/-- The length of a head and further pieces put together. -/
def joinedLength (head : List Char) (tail : List (τ × List Char)) : Nat :=
  head.length + tailLength tail

theorem joinedLength_pieces (tag? : Char → Option τ) (d : Depth) (text : List Char) :
    joinedLength (pieces tag? d text).1 (pieces tag? d text).2 = text.length := by
  induction text generalizing d with
  | nil => rfl
  | cons c rest ih =>
    have := ih (d.after c)
    simp only [pieces]
    split <;> simp only [joinedLength, tailLength, List.length_cons, List.length_nil] at * <;> omega

end Formula
