import Formula.SymbolTable
import Mathlib.Data.List.Induction
import Mathlib.Data.List.Nodup

/-!
# What a symbol table makes of the names it is given

A table groups positions by name, in the order in which names and positions are given
(`SymbolTable.lookup_ofCalls`). Grouping loses the order in which they came, and sorting by position
brings it back as far as positions tell it: the occurrences are what was given, in the order of
positions, and with equal positions in the order of the table
(`SymbolTable.filter_occurrences_ofCalls`). The table of a parsed expression is given the leaves of
its outcome.
-/

namespace Formula

variable {name n : String} {position p : Int} {entries : List Entry} {e : Entry}

/-! ### One more position -/

namespace Entry

theorem find?_add (entries : List Entry) :
    (add name position entries).find? (·.name == n) =
      if name = n then
        some ⟨n, ((entries.find? (·.name == n)).map positions).getD [] ++ [position]⟩
      else entries.find? (·.name == n) := by
  induction entries with
  | nil =>
    by_cases same : name = n <;> simp [add, same]
  | cons e rest ih =>
    by_cases here : e.name = name
    · by_cases same : name = n <;> simp [add, here, same]
    · by_cases same : e.name = n
      · have other : name ≠ n := fun eq => here (same.trans eq.symm)
        simp [add, same, other, other.symm]
      · simp [add, here, same, ih]

/-- The names of some entries with their positions, entry after entry. -/
def occurrences (entries : List Entry) : List (String × Int) :=
  entries.flatMap fun e => e.positions.map (e.name, ·)

theorem occurrences_add (entries : List Entry) :
    (occurrences (add name position entries)).Perm ((name, position) :: occurrences entries) := by
  induction entries with
  | nil => simp [add, occurrences]
  | cons e rest ih =>
    by_cases here : e.name = name
    · simp only [add, here, if_true, occurrences, List.flatMap_cons, List.map_append,
        List.map_cons, List.map_nil, List.append_assoc, List.singleton_append]
      exact List.perm_middle
    · simp only [add, here, if_false, occurrences, List.flatMap_cons]
      exact (ih.append_left _).trans List.perm_middle

/-- Among different names an entry is found by its own. -/
theorem find?_of_mem (nodup : (entries.map (·.name)).Nodup) (mem : e ∈ entries) :
    entries.find? (·.name == e.name) = some e := by
  induction entries with
  | nil => cases mem
  | cons e' rest ih =>
    obtain ⟨differs, nodup⟩ := List.nodup_cons.1 nodup
    rcases List.mem_cons.1 mem with rfl | mem
    · simp
    · have other : e'.name ≠ e.name := by
        intro same
        exact differs (List.mem_map.2 ⟨e, mem, same.symm⟩)
      simp [other, ih nodup mem]

end Entry

/-! ### Sorting -/

/-- Sorting by position keeps the order of equal positions. -/
theorem filter_mergeSort (l : List (String × Int)) (p : Int) :
    (l.mergeSort fun a b => a.2 ≤ b.2).filter (·.2 == p) = l.filter (·.2 == p) := by
  -- what has equal positions is sorted as it is
  have equal : (l.filter (·.2 == p)).Pairwise fun a b => decide (a.2 ≤ b.2) = true := by
    refine List.pairwise_of_forall_mem_list fun a ha b hb => ?_
    simp only [List.mem_filter, beq_iff_eq] at ha hb
    simp [ha.2, hb.2]
  have kept : (l.filter (·.2 == p)).Sublist (l.mergeSort fun a b => a.2 ≤ b.2) :=
    List.sublist_mergeSort (by simp; omega) (by simp; omega) equal List.filter_sublist
  have sub := kept.filter (·.2 == p)
  rw [List.filter_filter] at sub
  simp only [Bool.and_self] at sub
  exact (sub.eq_of_length ((List.mergeSort_perm l _).filter _).length_eq.symm).symm

namespace SymbolTable

/-! ### Any number of positions -/

/-- The table of some names with positions, in the order in which they are given. -/
def ofCalls (calls : List (String × Int)) : SymbolTable :=
  calls.foldl (fun t call => t.add call.1 call.2) empty

theorem ofCalls_concat (calls : List (String × Int)) (name : String) (position : Int) :
    ofCalls (calls ++ [(name, position)]) = (ofCalls calls).add name position := by
  simp [ofCalls]

/-- The names of a table stand in the order in which they first came. -/
theorem names_ofCalls (calls : List (String × Int)) :
    (ofCalls calls).names = (calls.map Prod.fst).eraseDups := by
  induction calls using List.reverseRecOn with
  | nil => rfl
  | append_singleton calls call ih =>
    obtain ⟨name, position⟩ := call
    have step : ((ofCalls calls).add name position).names =
        if name ∈ (ofCalls calls).names then (ofCalls calls).names
        else (ofCalls calls).names ++ [name] :=
      Entry.map_name_add name position (ofCalls calls).entries
    rw [ofCalls_concat, step, ih, List.map_append, List.eraseDups_append]
    by_cases known : name ∈ calls.map Prod.fst
    · rw [if_pos (List.mem_eraseDups.2 known)]
      simp [List.removeAll, known]
    · rw [if_neg (mt List.mem_eraseDups.1 known)]
      simp [List.removeAll, known, List.eraseDups_cons]

/-- A name is found with the positions that were given for it, in the order in which they came. -/
theorem lookup_ofCalls (calls : List (String × Int)) (n : String) :
    (ofCalls calls).lookup n =
      if n ∈ calls.map Prod.fst then some ⟨n, (calls.filter (·.1 == n)).map Prod.snd⟩
      else none := by
  induction calls using List.reverseRecOn with
  | nil => rfl
  | append_singleton calls call ih =>
    obtain ⟨name, position⟩ := call
    rw [lookup] at ih
    rw [ofCalls_concat, lookup, add, Entry.find?_add, ih]
    by_cases same : name = n
    · by_cases known : n ∈ calls.map Prod.fst
      · simp [same, known]
      · have first : calls.filter (·.1 == n) = [] := by
          refine List.filter_eq_nil_iff.2 fun call mem here => known ?_
          exact List.mem_map.2 ⟨call, mem, by simpa using here⟩
        simp [same, known, first]
    · have names : n ∈ (calls ++ [(name, position)]).map Prod.fst ↔ n ∈ calls.map Prod.fst := by
        simp [Ne.symm same]
      simp only [names, same, if_false, List.filter_append]
      simp [same]

/-- A table holds, for one name after another, what was given for the name. -/
theorem entries_ofCalls (calls : List (String × Int)) :
    Entry.occurrences (ofCalls calls).entries =
      (ofCalls calls).names.flatMap fun n => calls.filter (·.1 == n) := by
  rw [names, List.flatMap_map]
  refine List.flatMap_congr fun e mem => ?_
  have found := Entry.find?_of_mem (ofCalls calls).nodup_names mem
  rw [← lookup, lookup_ofCalls] at found
  split at found
  · have positions := congrArg Entry.positions (Option.some.inj found)
    rw [← positions, List.map_map]
    -- the name that was taken off is put back
    have same : ∀ call ∈ calls.filter (·.1 == e.name), (e.name, call.2) = call := by
      intro call mem
      rw [← beq_iff_eq.1 (List.mem_filter.1 mem).2]
    exact (List.map_congr_left same).trans (List.map_id _)
  · cases found

/-- A table holds what it was given. -/
theorem perm_entries_ofCalls (calls : List (String × Int)) :
    (Entry.occurrences (ofCalls calls).entries).Perm calls := by
  induction calls using List.reverseRecOn with
  | nil => rfl
  | append_singleton calls call ih =>
    obtain ⟨name, position⟩ := call
    rw [ofCalls_concat]
    exact (Entry.occurrences_add _).trans ((ih.cons _).trans (List.perm_append_singleton _ _).symm)

theorem perm_occurrences_ofCalls (calls : List (String × Int)) :
    (ofCalls calls).occurrences.Perm calls :=
  (List.mergeSort_perm _ _).trans (perm_entries_ofCalls calls)

theorem pairwise_occurrences (t : SymbolTable) :
    t.occurrences.Pairwise fun a b => a.2 ≤ b.2 := by
  have sorted : t.occurrences.Pairwise fun a b => decide (a.2 ≤ b.2) = true :=
    List.pairwise_mergeSort (by simp; omega) (by simp; omega) (Entry.occurrences t.entries)
  exact sorted.imp of_decide_eq_true

/-- Equal positions stand in the order of their names in the table. -/
theorem filter_occurrences_ofCalls (calls : List (String × Int)) (p : Int) :
    (ofCalls calls).occurrences.filter (·.2 == p) =
      (ofCalls calls).names.flatMap fun n => calls.filter (· == (n, p)) := by
  have stable : (ofCalls calls).occurrences.filter (·.2 == p) =
      (Entry.occurrences (ofCalls calls).entries).filter (·.2 == p) := filter_mergeSort _ p
  rw [stable, entries_ofCalls, List.filter_flatMap]
  refine List.flatMap_congr fun n _ => ?_
  rw [List.filter_filter]
  refine List.filter_congr fun call _ => ?_
  rw [Bool.and_comm]
  rfl

/-- What a table makes of the names and positions it is given. -/
structure Groups (calls : List (String × Int)) (t : SymbolTable) : Prop where
  names : t.names = (calls.map Prod.fst).eraseDups
  unknown : ∀ n, t.lookup n = none ↔ n ∉ calls.map Prod.fst
  known : ∀ n e, t.lookup n = some e →
    e.name = n ∧ e.positions = (calls.filter (·.1 == n)).map Prod.snd
  perm : t.occurrences.Perm calls
  sorted : t.occurrences.Pairwise fun a b => a.2 ≤ b.2
  ties : ∀ p, t.occurrences.filter (·.2 == p) = t.names.flatMap fun n => calls.filter (· == (n, p))
  spans : ∀ i : Nat, t.spans[i]? = t.occurrences[i]?.map fun x => (x.2, x.2 + (x.1.length : Int))

theorem getElem?_spans (t : SymbolTable) (i : Nat) :
    t.spans[i]? = t.occurrences[i]?.map fun x => (x.2, x.2 + (x.1.length : Int)) :=
  List.getElem?_map

theorem groups_ofCalls (calls : List (String × Int)) : Groups calls (ofCalls calls) where
  names := names_ofCalls calls
  unknown n := by simp [lookup_ofCalls]
  known n e found := by
    rw [lookup_ofCalls] at found
    split at found
    · obtain rfl := Option.some.inj found
      exact ⟨rfl, rfl⟩
    · cases found
  perm := perm_occurrences_ofCalls calls
  sorted := pairwise_occurrences _
  ties := filter_occurrences_ofCalls calls
  spans := getElem?_spans _

/-! ### Tables of parsed expressions -/

theorem ofOutcome_eq_ofCalls (o : Outcome) :
    ofOutcome o = ofCalls (o.occurrences.map fun x => (x.name, (x.position : Int))) := by
  rw [ofOutcome, ofOccurrences, ofCalls, List.foldl_map]

end SymbolTable

end Formula
