import Formula.Parser

/-!
# Symbol tables

A symbol table groups positions by name. The names stand in the order in which they first came, and
the positions of a name in the order in which they came. `SymbolTable.occurrences` gives everything
back in the order of positions; equal positions keep the order of the table.
-/

namespace Formula

/-- A name and the positions given for it. -/
structure Entry where
  name : String
  positions : List Int
  deriving DecidableEq

namespace Entry

def count (e : Entry) : Nat := e.positions.length

/-- The first position given; none for an entry without positions. -/
def first? (e : Entry) : Option Int := e.positions.head?

/-- Where each occurrence begins and ends. -/
def spans (e : Entry) : List (Int × Int) :=
  e.positions.map fun p => (p, p + e.name.length)

def summary (e : Entry) : String := s!"{e.name} x{e.count}"

/-- Adds a position to the entry of a name, which is put at the end if it is new. -/
def add (name : String) (position : Int) : List Entry → List Entry
  | [] => [⟨name, [position]⟩]
  | e :: rest =>
    if e.name = name then { e with positions := e.positions ++ [position] } :: rest
    else e :: add name position rest

theorem map_name_add (name : String) (position : Int) (entries : List Entry) :
    (add name position entries).map (·.name) =
      if name ∈ entries.map (·.name) then entries.map (·.name)
      else entries.map (·.name) ++ [name] := by
  induction entries with
  | nil => rfl
  | cons e rest ih =>
    by_cases h : e.name = name
    · simp [add, h]
    · simp only [add, h, if_false, List.map_cons, ih, List.mem_cons, Ne.symm h, false_or]
      split <;> rfl

end Entry

/-- Entries with different names. -/
structure SymbolTable where
  entries : List Entry
  nodup_names : (entries.map (·.name)).Nodup

namespace SymbolTable

def empty : SymbolTable := ⟨[], .nil⟩

/-- Records one more position of a name. -/
def add (t : SymbolTable) (name : String) (position : Int) : SymbolTable where
  entries := Entry.add name position t.entries
  nodup_names := by
    rw [Entry.map_name_add]
    split
    · exact t.nodup_names
    · next h =>
      refine List.nodup_append.2 ⟨t.nodup_names, by simp, fun a mem b eq => ?_⟩
      rw [List.mem_singleton.1 eq]
      exact fun same => h (same ▸ mem)

/-- The table of names that are recorded one after another. -/
def ofOccurrences (occurrences : List Occurrence) : SymbolTable :=
  occurrences.foldl (fun t occurrence => t.add occurrence.name occurrence.position) empty

/-- The table of the names of a parsed expression. -/
def ofOutcome (o : Outcome) : SymbolTable := ofOccurrences o.occurrences

def lookup (t : SymbolTable) (name : String) : Option Entry :=
  t.entries.find? (·.name == name)

def names (t : SymbolTable) : List String := t.entries.map (·.name)

def size (t : SymbolTable) : Nat := t.entries.length

def contains (t : SymbolTable) (name : String) : Bool := t.names.contains name

/-- Every name with every position, in the order of positions. -/
def occurrences (t : SymbolTable) : List (String × Int) :=
  (t.entries.flatMap fun e => e.positions.map (e.name, ·)).mergeSort fun a b => a.2 ≤ b.2

/-- Where each occurrence begins and ends, in the order of positions. -/
def spans (t : SymbolTable) : List (Int × Int) :=
  t.occurrences.map fun (name, position) => (position, position + name.length)

end SymbolTable

end Formula
