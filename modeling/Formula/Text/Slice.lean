/-!
# Slices with signed bounds

A sequence is cut at places named by integers. An index counts from the front, or from the back when
it is negative. A bound of a slice that lies past either end is that end; an item that lies past
either end does not exist.
-/

namespace Formula.Text

/-- The number of items before the place that an index names among `length` items. -/
def place (length : Nat) (index : Int) : Nat :=
  if index < 0 then (length + index).toNat else min index.toNat length

/-- The items from the place `start` up to the place `stop`; none if these are not in order. -/
def slice {α : Type} (items : List α) (start stop : Int) : List α :=
  (items.take (place items.length stop)).drop (place items.length start)

/-- The item at an index, if there is one. -/
def item? {α : Type} (items : List α) (index : Int) : Option α :=
  if index < 0 then (index + items.length).toNat?.bind (items[·]?) else items[index.toNat]?

variable {α : Type} {items : List α} {n m : Nat}

@[simp] theorem place_natCast : place n (m : Int) = min m n := by
  unfold place
  split <;> omega

theorem slice_natCast : slice items n m = (items.take m).drop n := by
  simp only [slice, place_natCast]
  by_cases h : n ≤ items.length
  · rw [Nat.min_eq_left h, ← List.take_eq_take_min]
  · rw [List.drop_eq_nil_of_le, List.drop_eq_nil_of_le] <;> rw [List.length_take] <;> omega

@[simp] theorem item?_natCast : item? items (n : Int) = items[n]? := by
  simp [item?, Int.not_lt.2 (Int.natCast_nonneg n)]

end Formula.Text
