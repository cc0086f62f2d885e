import Formula.Proofs.Occurrences
import Formula.Proofs.Table

/-!
# Symbol tables of parsed expressions

The positions of a parse increase from each symbol to the next, so the table of an outcome gives its
occurrences back in the order of the text, although it has grouped them by name
(`SymbolTable.occurrences_ofOutcome`). Its spans are those of the names in the text, one behind the
other.
-/

namespace Formula

/-- The names of a text begin one behind the other. -/
theorem Written.ascending {level : Level} {start : Nat} {text : List Char} {o : Outcome}
    (h : Written level start text o) :
    o.occurrences.Pairwise fun x y => x.position < y.position := by
  refine h.pairwise.imp_of_mem fun {x y} mem _ apart => ?_
  have := (h.mem_leaves_iff.1 mem).length_pos
  omega

namespace SymbolTable

/-- The table of an outcome gives the occurrences back in the order of the text. -/
theorem occurrences_ofOutcome {o : Outcome}
    (ascending : o.occurrences.Pairwise fun x y => x.position < y.position) :
    (ofOutcome o).occurrences = o.occurrences.map fun x => (x.name, (x.position : Int)) := by
  have increasing : (o.occurrences.map fun x => (x.name, (x.position : Int))).Pairwise
      fun a b => a.2 < b.2 := by
    rw [List.pairwise_map]
    exact ascending.imp fun lt => Int.ofNat_lt.2 lt
  have distinct : ((o.occurrences.map fun x => (x.name, (x.position : Int))).map Prod.snd).Nodup :=
    List.pairwise_map.2 (increasing.imp fun lt => Int.ne_of_lt lt)
  have perm := perm_occurrences_ofCalls (o.occurrences.map fun x => (x.name, (x.position : Int)))
  rw [ofOutcome_eq_ofCalls]
  refine List.Perm.eq_of_pairwise ?_ (pairwise_occurrences _)
    (increasing.imp fun lt => Int.le_of_lt lt) perm
  -- no two occurrences have one position
  intro a b ha hb hab hba
  exact List.inj_on_of_nodup_map distinct (perm.mem_iff.1 ha) hb (Int.le_antisymm hab hba)

/-- What a table shows of the text of a parsed expression. -/
structure Highlights (text : List Char) (o : Outcome) (t : SymbolTable) : Prop where
  occurrences : t.occurrences = o.occurrences.map fun x => (x.name, (x.position : Int))
  length : t.spans.length = o.occurrences.length
  shows : ∀ (i : Nat) start stop, t.spans[i]? = some (start, stop) →
    start < stop ∧ ∃ x, o.occurrences[i]? = some x ∧ Text.slice text start stop = x.name.toList
  ascending : t.spans.Pairwise fun a b => a.2 ≤ b.1

theorem highlights_ofOutcome {text : List Char} {o : Outcome} (h : Written .additive 0 text o) :
    Highlights text o (ofOutcome o) := by
  have stands {x : Occurrence} (mem : x ∈ o.occurrences) : x.StandsIn 0 text :=
    h.mem_leaves_iff.1 mem
  have same := occurrences_ofOutcome h.ascending
  refine ⟨same, by simp [spans, same], ?_, ?_⟩
  · intro i start stop at_i
    rw [getElem?_spans, same, List.getElem?_map, Option.map_map] at at_i
    obtain ⟨x, at_x, eq⟩ := Option.map_eq_some_iff.1 at_i
    obtain ⟨rfl, rfl⟩ := Prod.mk.inj eq
    have written := stands (List.mem_of_getElem? at_x)
    have nonempty := Int.ofNat_lt.2 written.length_pos
    exact ⟨Int.lt_add_of_pos_right _ nonempty, x, at_x, written.slice_eq⟩
  · rw [spans, same, List.pairwise_map, List.pairwise_map]
    exact h.pairwise.imp fun apart => by simpa using Int.ofNat_le.2 apart

/-- A symbol table loses nothing it is given and orders it by position, and the table of a parsed
expression gives back the occurrences of the text with the spans where they are written. -/
theorem groups_and_highlights (calls : List (String × Int)) :
    Groups calls (ofCalls calls) ∧
    ∀ text o, (parse text).result = .ok o → Highlights text.toList o (ofOutcome o) := by
  refine ⟨groups_ofCalls calls, fun text o ok => ?_⟩
  exact highlights_ofOutcome (written_of_run _ _ _ ok)

/-- Names that alternate in the text, and positions given out of order. -/
theorem groups_and_highlights_alternating :
    (ofCalls [("b", 3), ("a", 3), ("b", 1)]).occurrences.Perm [("b", 3), ("a", 3), ("b", 1)] ∧
    (ofCalls [("b", 3), ("a", 3), ("b", 1)]).occurrences.filter (·.2 == 3) = [("b", 3), ("a", 3)] ∧
    ∃ o, (parse "b+a*b").result = .ok o ∧
      (ofOutcome o).occurrences = [("b", 0), ("a", 2), ("b", 4)] := by
  obtain ⟨groups, highlights⟩ := groups_and_highlights [("b", 3), ("a", 3), ("b", 1)]
  have ok : (parse "b+a*b").result = .ok (.binary (.leaf ⟨"b", 0⟩) .add
      (.binary (.leaf ⟨"a", 2⟩) .multiply (.leaf ⟨"b", 4⟩))) := by
    cbv
  refine ⟨groups.perm, ?_, _, ok, (highlights _ _ ok).occurrences⟩
  rw [groups.ties, groups.names]
  rfl

end SymbolTable

end Formula
