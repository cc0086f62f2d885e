import Formula.Proofs.Highlights
import Formula.Proofs.RoundTrip
import Formula.Tree.Substitution

/-!
# Substitution in the text

Names can be replaced in the text of an expression just as in its tree: what is printed of their
replacements takes the place of the names at the offsets where they were found, and the new text is
parsed to the substituted tree (`Written.derives_applyAll`). The symbol table tells of the same
places (`SymbolTable.patches_ofOutcome`).
-/

namespace Formula

/-- A stretch of an input and what is put in its place. -/
structure Patch where
  start : Int
  stop : Int
  text : List Char

namespace Patch

/-- Whether the character at an offset is replaced. -/
def covers (p : Patch) (i : Nat) : Bool := p.start ≤ i && i < p.stop

/-- What stands for a character after all patches: the text of a patch comes in the place of the
first character that it covers. -/
def instead (patches : List Patch) (i : Nat) (c : Char) : List Char :=
  match patches.find? (·.covers i) with
  | none => [c]
  | some p => if p.start = i then p.text else []

/-- A text whose first character has the given offset, with all patches made at once. -/
def applyAll (patches : List Patch) (start : Nat) : List Char → List Char
  | [] => []
  | c :: rest => instead patches start c ++ applyAll patches (start + 1) rest

end Patch

/-- The patch that puts a printed expression in the place of a name. -/
def Occurrence.patch (x : Occurrence) (e : Expr) : Patch :=
  ⟨x.position, x.position + x.name.length, e.printed⟩

/-- The patches that put printed expressions in the place of the names of an outcome. -/
def Outcome.patches (o : Outcome) (replacement? : String → Option Expr) : List Patch :=
  o.occurrences.filterMap fun x => (replacement? x.name).map x.patch

/-- The patches that put printed expressions in the place of the names of a table. -/
def SymbolTable.patches (t : SymbolTable) (replacement? : String → Option Expr) : List Patch :=
  t.occurrences.filterMap fun (name, position) =>
    (replacement? name).map fun e => ⟨position, position + name.length, e.printed⟩

/-! ### Patches of a stretch -/

variable {patches : List Patch} {replacement? : String → Option Expr} {level : Level}
  {start middle stop i : Nat} {c : Char} {l r text before behind : List Char}
  {names left right : List Occurrence} {o : Outcome}

namespace Patch

theorem covers_iff {p : Patch} : p.covers i = true ↔ p.start ≤ i ∧ i < p.stop := by
  simp [covers]

theorem applyAll_append :
    applyAll patches start (l ++ r) =
      applyAll patches start l ++ applyAll patches (start + l.length) r := by
  induction l generalizing start with
  | nil => rfl
  | cons c rest ih =>
    rw [List.cons_append, applyAll, applyAll, ih, List.append_assoc, List.length_cons,
      Nat.add_right_comm, Nat.add_assoc start]

theorem instead_of_uncovered (h : patches.find? (·.covers i) = none) :
    instead patches i c = [c] := by
  rw [instead, h]

/-- A text that no patch covers stays as it is. -/
theorem applyAll_of_uncovered (h : ∀ i, start ≤ i → i < start + text.length →
    patches.find? (·.covers i) = none) : applyAll patches start text = text := by
  induction text generalizing start with
  | nil => rfl
  | cons c rest ih =>
    rw [List.length_cons] at h
    have tail : applyAll patches (start + 1) rest = rest :=
      ih fun i lower upper => h i (by omega) (by omega)
    rw [applyAll, tail, instead_of_uncovered (h start (by omega) (by omega))]
    rfl

/-- Behind the first character that it covers, a patch leaves nothing. -/
theorem applyAll_of_covered {p : Patch} (before : p.start < start)
    (h : ∀ i, start ≤ i → i < start + text.length → patches.find? (·.covers i) = some p) :
    applyAll patches start text = [] := by
  induction text generalizing start with
  | nil => rfl
  | cons c rest ih =>
    rw [List.length_cons] at h
    have tail : applyAll patches (start + 1) rest = [] :=
      ih (by omega) fun i lower upper => h i (by omega) (by omega)
    have here : instead patches start c = [] := by
      rw [instead, h start (by omega) (by omega)]
      exact if_neg (by omega)
    rw [applyAll, tail, here]
    rfl

/-- A patch puts its text in the place of all that it covers. -/
theorem applyAll_eq_text {p : Patch} (ne : text ≠ []) (at_start : p.start = start)
    (h : ∀ i, start ≤ i → i < start + text.length → patches.find? (·.covers i) = some p) :
    applyAll patches start text = p.text := by
  obtain ⟨c, rest, rfl⟩ := List.exists_cons_of_ne_nil ne
  rw [List.length_cons] at h
  have tail : applyAll patches (start + 1) rest = [] :=
    applyAll_of_covered (p := p) (by omega) fun i lower upper => h i (by omega) (by omega)
  have here : instead patches start c = p.text := by
    rw [instead, h start (by omega) (by omega)]
    exact if_pos at_start
  rw [applyAll, tail, here, List.append_nil]

end Patch

/-! ### Patches of names -/

/-- A name stands at an offset. -/
def Occurrence.Covers (x : Occurrence) (i : Nat) : Prop :=
  x.position ≤ i ∧ i < x.position + x.name.length

/-- Between two offsets the patches replace these names and nothing else. -/
def Patch.Replace (patches : List Patch) (replacement? : String → Option Expr)
    (names : List Occurrence) (start stop : Nat) : Prop :=
  ∀ i, start ≤ i → i < stop → ∀ p, patches.find? (·.covers i) = some p ↔
    ∃ x ∈ names, x.Covers i ∧ (replacement? x.name).map x.patch = some p

theorem Within.not_covers {x : Occurrence} (h : Within start stop names) (mem : x ∈ names)
    (outside : i < start ∨ stop ≤ i) : ¬ x.Covers i := by
  rintro ⟨lower, upper⟩
  have bounds := h x mem
  omega

namespace Patch.Replace

/-- Outside the names nothing is replaced. -/
theorem uncovered (h : Replace patches replacement? names start stop) (lower : start ≤ i)
    (upper : i < stop) (no : ∀ x ∈ names, ¬ x.Covers i) : patches.find? (·.covers i) = none := by
  rw [Option.eq_none_iff_forall_ne_some]
  intro p found
  obtain ⟨x, mem, covers, -⟩ := (h i lower upper p).1 found
  exact no x mem covers

theorem mono {start' stop' : Nat} (h : Replace patches replacement? names start stop)
    (le_start : start ≤ start') (le_stop : stop' ≤ stop) :
    Replace patches replacement? names start' stop' :=
  fun i lower upper => h i (Nat.le_trans le_start lower) (Nat.lt_of_lt_of_le upper le_stop)

/-- Of the names in two stretches, those of one are replaced there. -/
theorem congr (h : Replace patches replacement? names start stop)
    (same : ∀ i, start ≤ i → i < stop → ∀ x : Occurrence, x.Covers i → (x ∈ names ↔ x ∈ left)) :
    Replace patches replacement? left start stop := by
  intro i lower upper p
  rw [h i lower upper p]
  constructor
  · rintro ⟨x, mem, covers, eq⟩
    exact ⟨x, (same i lower upper x covers).1 mem, covers, eq⟩
  · rintro ⟨x, mem, covers, eq⟩
    exact ⟨x, (same i lower upper x covers).2 mem, covers, eq⟩

theorem of_append (h : Replace patches replacement? (left ++ right) start stop)
    (hl : Within start middle left) (hr : Within (middle + 1) stop right)
    (le_start : start ≤ middle) (le_stop : middle < stop) :
    Replace patches replacement? left start middle ∧
      patches.find? (·.covers middle) = none ∧
      Replace patches replacement? right (middle + 1) stop := by
  -- on either side of the middle the names of the other side cover nothing
  refine ⟨(h.mono (Nat.le_refl _) (Nat.le_of_lt le_stop)).congr ?_, ?_,
    (h.mono (Nat.le_succ_of_le le_start) (Nat.le_refl _)).congr ?_⟩
  · intro i lower upper x covers
    have no : x ∉ right := fun mem => hr.not_covers mem (.inl (by omega)) covers
    simp [no]
  · refine h.uncovered le_start le_stop fun x mem => ?_
    rcases List.mem_append.1 mem with inside | inside
    · exact hl.not_covers inside (.inr (Nat.le_refl _))
    · exact hr.not_covers inside (.inl (Nat.lt_succ_self _))
  · intro i lower upper x covers
    have no : x ∉ left := fun mem => hl.not_covers mem (.inr (by omega)) covers
    simp [no]

/-- Patches on the two sides of a character are made apart. -/
theorem applyAll_binary
    (h : Replace patches replacement? (left ++ right) start (start + (l ++ c :: r).length))
    (hl : Within start (start + l.length) left)
    (hr : Within (start + l.length + 1) (start + l.length + 1 + r.length) right) :
    applyAll patches start (l ++ c :: r) =
        applyAll patches start l ++ c :: applyAll patches (start + l.length + 1) r ∧
      Replace patches replacement? left start (start + l.length) ∧
      Replace patches replacement? right (start + l.length + 1)
        (start + l.length + 1 + r.length) := by
  have length : start + (l ++ c :: r).length = start + l.length + 1 + r.length := by
    simp
    omega
  rw [length] at h
  obtain ⟨on_left, here, on_right⟩ := h.of_append hl hr (by omega) (by omega)
  refine ⟨?_, on_left, on_right⟩
  rw [applyAll_append, applyAll, instead_of_uncovered here]
  rfl

/-- What stands around the names stays as it is. -/
theorem applyAll_around
    (h : Replace patches replacement? names start (start + (before ++ text ++ behind).length))
    (within : Within (start + before.length) (start + before.length + text.length) names) :
    applyAll patches start (before ++ text ++ behind) =
        before ++ applyAll patches (start + before.length) text ++ behind ∧
      Replace patches replacement? names (start + before.length)
        (start + before.length + text.length) := by
  have length : start + (before ++ text ++ behind).length =
      start + before.length + text.length + behind.length := by
    simp
    omega
  rw [length] at h
  -- the names lie in the middle, so no patch reaches the texts on either side
  have in_front : applyAll patches start before = before :=
    applyAll_of_uncovered fun i lower upper =>
      h.uncovered lower (by omega) fun x mem => within.not_covers mem (.inl upper)
  have at_end : applyAll patches (start + before.length + text.length) behind = behind :=
    applyAll_of_uncovered fun i lower upper =>
      h.uncovered (by omega) upper fun x mem => within.not_covers mem (.inr lower)
  refine ⟨?_, h.mono (by omega) (by omega)⟩
  rw [applyAll_append, applyAll_append, List.length_append, ← Nat.add_assoc, in_front, at_end]

end Patch.Replace

/-! ### Patches of a derivation -/

/-- A name with its replacement in its place is a primary. -/
theorem Patch.Replace.derives_name {name : List Char} (isName : IsName name)
    (wellNamed : ∀ n t, replacement? n = some t → t.WellNamed)
    (h : Replace patches replacement? [⟨String.ofList name, start⟩] start (start + name.length)) :
    Derives .primary (applyAll patches start name)
      ((replacement? (String.ofList name)).getD (.leaf (String.ofList name))) := by
  have covers {i : Nat} (lower : start ≤ i) (upper : i < start + name.length) :
      Occurrence.Covers ⟨String.ofList name, start⟩ i := by
    refine ⟨lower, ?_⟩
    rwa [String.length_ofList]
  -- without a replacement no patch covers the name; with one, a single patch covers all of it
  cases eq : replacement? (String.ofList name) with
  | none =>
    have kept : applyAll patches start name = name := by
      refine applyAll_of_uncovered fun i lower upper => ?_
      rw [Option.eq_none_iff_forall_ne_some]
      intro p found
      obtain ⟨x, mem, -, patch⟩ := (h i lower upper p).1 found
      rw [List.mem_singleton.1 mem, eq] at patch
      cases patch
    rw [kept]
    exact isName.derives
  | some t =>
    have put : applyAll patches start name = t.printed :=
      applyAll_eq_text (p := Occurrence.patch ⟨String.ofList name, start⟩ t) isName.1 rfl
        fun i lower upper => (h i lower upper _).2
          ⟨_, List.mem_singleton_self _, covers lower upper, by rw [eq]; rfl⟩
    rw [put]
    exact (wellNamed _ t eq).derives_printed

/-- With the names replaced, a text is derived as before and its tree is the substituted one. -/
theorem Written.derives_applyAll (h : Written level start text o)
    (wellNamed : ∀ n t, replacement? n = some t → t.WellNamed)
    (replaces : Patch.Replace patches replacement? o.leaves start (start + text.length)) :
    Derives level (Patch.applyAll patches start text) (o.expr.substitute replacement?) := by
  induction h with
  | sum mem hl hr ihl ihr =>
    obtain ⟨eq, on_left, on_right⟩ := replaces.applyAll_binary hl.within hr.within
    rw [eq]
    exact .sum mem (ihl on_left) (ihr on_right)
  | product mem hl hr ihl ihr =>
    obtain ⟨eq, on_left, on_right⟩ := replaces.applyAll_binary hl.within hr.within
    rw [eq]
    exact .product mem (ihl on_left) (ihr on_right)
  | power mem hl hr ihl ihr =>
    obtain ⟨eq, on_left, on_right⟩ := replaces.applyAll_binary hl.within hr.within
    rw [eq]
    exact .power mem (ihl on_left) (ihr on_right)
  | @signed start v text o sign blank operand ih =>
    have around : v ++ sign.symbol :: text = v ++ [sign.symbol] ++ text ++ [] := by simp
    have offset : start + v.length + 1 = start + (v ++ [sign.symbol]).length := by simp; omega
    have within := operand.within
    rw [around] at replaces
    rw [offset] at within ih
    obtain ⟨eq, inside⟩ := replaces.applyAll_around within
    have whole : Derives .unary _ (.signed sign (o.expr.substitute replacement?)) :=
      .signed sign blank (ih inside)
    rw [around, eq]
    show Derives .unary _ (.signed sign (o.expr.substitute replacement?))
    simpa using whole
  | @transposed start text w o blank operand ih =>
    have around : text ++ transposeMark :: w = [] ++ text ++ transposeMark :: w := rfl
    rw [around] at replaces
    obtain ⟨eq, inside⟩ := replaces.applyAll_around operand.within
    rw [around, eq]
    exact .transposed blank (ih inside)
  | @group start v text w o before behind operand ih =>
    have around : v ++ '(' :: (text ++ ')' :: w) = v ++ ['('] ++ text ++ ')' :: w := by simp
    have offset : start + v.length + 1 = start + (v ++ ['(']).length := by simp; omega
    have within := operand.within
    rw [around] at replaces
    rw [offset] at within ih
    obtain ⟨eq, inside⟩ := replaces.applyAll_around within
    rw [around, eq]
    simpa using Derives.group before behind (ih inside)
  | @applied start u name v text w o isName before between behind operand ih =>
    have around : u ++ name ++ v ++ '[' :: (text ++ ']' :: w) =
        u ++ name ++ v ++ ['['] ++ text ++ ']' :: w := by simp
    have offset : start + (u ++ name ++ v).length + 1 =
        start + (u ++ name ++ v ++ ['[']).length := by
      simp
      omega
    have within := operand.within
    rw [around] at replaces
    rw [offset] at within ih
    obtain ⟨eq, inside⟩ := replaces.applyAll_around within
    have whole : Derives .primary _
        (.applied (String.ofList name) (o.expr.substitute replacement?)) :=
      .applied isName before between behind (ih inside)
    rw [around, eq]
    show Derives .primary _ (.applied (String.ofList name) (o.expr.substitute replacement?))
    simpa using whole
  | @symbol start v name w isName before behind =>
    -- what takes the place of the name keeps the blanks around it
    have within : Within (start + v.length) (start + v.length + name.length)
        [⟨String.ofList name, start + v.length⟩] := by
      intro x mem
      obtain rfl := List.mem_singleton.1 mem
      exact ⟨Nat.le_refl _, by rw [String.length_ofList]⟩
    obtain ⟨eq, inside⟩ := replaces.applyAll_around within
    rw [eq]
    exact (inside.derives_name isName wellNamed).pad before behind
  | tighter h _ ih => exact .tighter h (ih replaces)

/-! ### The patches of an outcome -/

theorem Occurrence.covers_patch {x : Occurrence} {e : Expr} :
    (x.patch e).covers i = true ↔ x.Covers i := by
  rw [Patch.covers_iff, patch, Covers]
  simp only
  omega

/-- No two names cover the same offset. -/
theorem Written.eq_of_covers (h : Written level start text o) {x y : Occurrence}
    (hx : x ∈ o.leaves) (hy : y ∈ o.leaves) (covers_x : x.Covers i) (covers_y : y.Covers i) :
    x = y := by
  have apart {x y : Occurrence} (le : x.position + x.name.length ≤ y.position)
      (covers_x : x.Covers i) (covers_y : y.Covers i) : False := by
    have upper := covers_x.2
    have lower := covers_y.1
    omega
  -- of two different names one ends before the other begins
  refine List.Pairwise.forall_of_forall_of_flip (R := fun x y => x.Covers i → y.Covers i → x = y)
    (fun _ _ _ _ => rfl) (h.pairwise.imp ?_) (h.pairwise.imp ?_) hx hy covers_x covers_y
  · exact fun le covers_x covers_y => (apart le covers_x covers_y).elim
  · exact fun le covers_y covers_x => (apart le covers_x covers_y).elim

/-- The patches of an outcome replace its names. -/
theorem Written.replace_patches (h : Written level start text o) (first last : Nat) :
    Patch.Replace (o.patches replacement?) replacement? o.leaves first last := by
  have mem_patches {p : Patch} : p ∈ o.patches replacement? ↔
      ∃ x ∈ o.leaves, (replacement? x.name).map x.patch = some p := List.mem_filterMap
  have covered {x : Occurrence} {p : Patch} (eq : (replacement? x.name).map x.patch = some p) :
      ∀ i, p.covers i = true ↔ x.Covers i := by
    obtain ⟨e, -, rfl⟩ := Option.map_eq_some_iff.1 eq
    exact fun i => Occurrence.covers_patch
  intro i _ _ p
  constructor
  · intro found
    obtain ⟨x, mem, eq⟩ := mem_patches.1 (List.mem_of_find?_eq_some found)
    exact ⟨x, mem, (covered eq i).1 (by simpa using List.find?_some found), eq⟩
  · rintro ⟨x, mem, covers, eq⟩
    have some : ((o.patches replacement?).find? (·.covers i)).isSome :=
      List.find?_isSome.2 ⟨p, mem_patches.2 ⟨x, mem, eq⟩, (covered eq i).2 covers⟩
    obtain ⟨q, found⟩ := Option.isSome_iff_exists.1 some
    -- the patch that is found comes from a name, too, and both names cover the same offset
    obtain ⟨y, mem_y, eq_y⟩ := mem_patches.1 (List.mem_of_find?_eq_some found)
    have covers_y := (covered eq_y i).1 (by simpa using List.find?_some found)
    obtain rfl := h.eq_of_covers mem mem_y covers covers_y
    rw [found, ← eq_y, eq]

/-- The table of an accepted text has the patches of its outcome, in the same order. -/
theorem SymbolTable.patches_ofOutcome (h : Written level start text o) :
    (ofOutcome o).patches replacement? = o.patches replacement? := by
  rw [patches, occurrences_ofOutcome h.ascending, List.filterMap_map]
  rfl

/-- Substitution in the text agrees with substitution in the tree. When what is printed of the
replacements is put in the place of the names of an accepted text, at the offsets where they were
found, the new text is accepted and its expression is the substituted one. -/
theorem parse_patched {text : String} {o : Outcome} {replacement? : String → Option Expr}
    (ok : (parse text).result = .ok o)
    (wellNamed : ∀ n t, replacement? n = some t → t.WellNamed) :
    (parse (String.ofList (Patch.applyAll (o.patches replacement?) 0 text.toList))).result.map
      Outcome.expr = .ok (o.expr.substitute replacement?) := by
  have written : Written .additive 0 text.toList o := written_of_run _ _ _ ok
  rw [parse_eq_run, String.toList_ofList]
  exact map_expr_result_run_iff.2
    (written.derives_applyAll wellNamed (written.replace_patches _ _))

/-- A sum put in the place of a signed name stays the operand of the sign. -/
theorem parse_patched_signed :
    (parse "-a").result = .ok (.signed .minus (.leaf ⟨"a", 1⟩)) ∧
      (parse "-(b + c)").result.map Outcome.expr =
        .ok (.signed .minus (.binary (.leaf "b") .add (.leaf "c"))) := by
  let o : Outcome := .signed .minus (.leaf ⟨"a", 1⟩)
  let replacement? (n : String) : Option Expr :=
    if n = "a" then some (.binary (.leaf "b") .add (.leaf "c")) else none
  have ok : (parse "-a").result = .ok o := by cbv
  have wellNamed : ∀ n t, replacement? n = some t → t.WellNamed := by
    intro n t h
    simp only [replacement?] at h
    split at h
    · obtain rfl := Option.some.inj h
      exact (by decide : IsName "b".toList ∧ IsName "c".toList)
    · cases h
  have text : String.ofList (Patch.applyAll (o.patches replacement?) 0 "-a".toList) =
      "-(b + c)" := by decide +kernel
  refine ⟨ok, ?_⟩
  rw [← text]
  exact parse_patched ok wellNamed

end Formula
