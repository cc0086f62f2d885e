import Formula.Proofs.Completeness
import Formula.Proofs.Tokens
import Formula.Text.Slice

/-!
# The occurrences of a parsed expression

The names that an outcome carries, with their offsets, are the symbols written in the text: all
names that are as long as they can be and that no opening square bracket follows. The remaining
names of the text are those of functions. Nothing of this mentions how often the parser has read a
part of the text before it was content (`Written.names_lexemes`).
-/

namespace Formula

variable {level : Level} {c : Char} {start position : Nat} {text l r v w name : List Char}
  {o : Outcome} {x : Occurrence} {before behind : List Lexeme}

/-! ### Names of a text -/

/-- A name stands between two texts as a symbol: it does not go on in either of them, and no opening
square bracket comes next. -/
structure SymbolBetween (before name behind : List Char) : Prop where
  isName : IsName name
  ends : EndsToken before
  starts : StartsToken behind
  free : (trimLeft behind).head? ≠ some '['

/-- A symbol stands in a text whose first character has the given offset. -/
def Occurrence.StandsIn (start : Nat) (text : List Char) (x : Occurrence) : Prop :=
  ∃ before behind, text = before ++ x.name.toList ++ behind ∧ x.position = start + before.length ∧
    SymbolBetween before x.name.toList behind

/-- The first token of a text begins with the first character that is not blank. -/
theorem head?_lexemes_eq_mark (isMark : IsMark c) (text : List Char) :
    ∀ start, (lexemes start text).head?.map (·.token) = some (.mark c) ↔
      (trimLeft text).head? = some c := by
  induction text using text_induction with
  | nil => simp [trimLeft]
  | blank x rest isBlank ih =>
    intro start
    have trimmed : trimLeft (x :: rest) = trimLeft rest := by simp [trimLeft, isBlank]
    rw [lexemes_cons_blank isBlank, trimmed, ih]
  | mark x rest isMark_x =>
    intro start
    have trimmed : trimLeft (x :: rest) = x :: rest := by simp [trimLeft, isMark_x.2]
    simp [lexemes_cons_mark isMark_x, trimmed]
  | name n rest isName starts =>
    intro start
    have solid : trimLeft (n ++ rest) = n ++ rest := by
      refine trimLeft_eq_self fun x mem => isName.core.head x ?_
      rwa [List.head?_append_of_ne_nil _ isName.1] at mem
    have other : (n ++ rest).head? ≠ some c := fun head =>
      isName.not_startsToken (r := rest) fun x mem => by
        rw [head] at mem
        exact Option.some.inj mem ▸ isMark.1
    rw [lexemes_name_append isName starts, solid]
    exact iff_of_false (by simp) other

theorem symbolNames_append_mark (h : c ≠ '[') :
    symbolNames (before ++ ⟨.mark c, position⟩ :: behind) =
      symbolNames before ++ symbolNames behind := by
  induction before with
  | nil => rfl
  | cons t before ih =>
    obtain ⟨token, p⟩ := t
    cases token with
    | mark => exact ih
    | name n =>
      -- the mark is no bracket, so it does not matter that it may come next
      have same : (before ++ ⟨.mark c, position⟩ :: behind).head?.map (·.token) =
          some (.mark '[') ↔ before.head?.map (·.token) = some (.mark '[') := by
        cases before <;> simp [h]
      simp only [List.cons_append, symbolNames, same, ih]
      split <;> rfl

theorem functionNames_append_mark (h : c ≠ '[') :
    functionNames (before ++ ⟨.mark c, position⟩ :: behind) =
      functionNames before ++ functionNames behind := by
  induction before with
  | nil => rfl
  | cons t before ih =>
    obtain ⟨token, p⟩ := t
    cases token with
    | mark => exact ih
    | name n =>
      have same : (before ++ ⟨.mark c, position⟩ :: behind).head?.map (·.token) =
          some (.mark '[') ↔ before.head?.map (·.token) = some (.mark '[') := by
        cases before <;> simp [h]
      simp only [List.cons_append, functionNames, same, ih]
      split <;> rfl

/-- A name that is read as far as possible is found in one way only. -/
theorem IsName.append_inj {n : List Char} (hn : IsName n) (hname : IsName name)
    (starts_l : StartsToken l) (starts_r : StartsToken r) (eq : n ++ l = name ++ r) :
    n = name ∧ l = r := by
  -- of what one name has more than the other, the first character goes on with a name
  have nothing {n m r : List Char} (names : IsName (n ++ m)) (starts : StartsToken (m ++ r)) :
      m = [] := by
    cases m with
    | nil => rfl
    | cons c m =>
      have := startsToken_cons.1 starts
      simp [names.2 c (by simp)] at this
  rcases List.append_eq_append_iff.1 eq with ⟨m, rfl, rfl⟩ | ⟨m, rfl, rfl⟩
  · obtain rfl := nothing hname starts_l
    simp
  · obtain rfl := nothing hn starts_r
    simp

/-- In front of a symbol there may be any character that is not one of names. -/
theorem Occurrence.standsIn_cons (h : isNameChar c = false) :
    x.StandsIn start (c :: text) ↔ x.StandsIn (start + 1) text := by
  constructor
  · rintro ⟨before, behind, eq, position, between⟩
    cases before with
    | nil => exact absurd (startsToken_cons.2 h) (by rw [eq]; exact between.isName.not_startsToken)
    | cons y before =>
      obtain ⟨rfl, rfl⟩ := List.cons.inj eq
      refine ⟨before, behind, rfl, by rw [position, List.length_cons]; omega, ?_⟩
      exact { between with ends := between.ends.of_append (l := [c]) }
  · rintro ⟨before, behind, rfl, position, between⟩
    refine ⟨c :: before, behind, rfl, by rw [position, List.length_cons]; omega, ?_⟩
    have ends : EndsToken [c] := by simpa [EndsToken] using h
    exact { between with ends := ends.append between.ends }

/-- The name at the front of a text is a symbol if no bracket follows; other symbols stand behind
it. -/
theorem Occurrence.standsIn_name_append (isName : IsName name) (starts : StartsToken r) :
    x.StandsIn start (name ++ r) ↔
      (x = ⟨String.ofList name, start⟩ ∧ (trimLeft r).head? ≠ some '[') ∨
        x.StandsIn (start + name.length) r := by
  constructor
  · rintro ⟨before, behind, eq, position, between⟩
    rw [List.append_assoc] at eq
    rcases List.append_eq_append_iff.1 eq with ⟨m, rfl, rfl⟩ | ⟨m, whole, -⟩
    · right
      refine ⟨m, behind, by rw [List.append_assoc], ?_, ?_⟩
      · rw [position, List.length_append]
        omega
      · exact { between with ends := between.ends.of_append }
    · -- a symbol that begins within the name is the name
      left
      obtain rfl : before = [] := by
        by_contra ne
        have names : ∀ y ∈ before, isNameChar y = true := fun y mem =>
          isName.2 y (whole ▸ List.mem_append_left m mem)
        exact IsName.not_endsToken ⟨ne, names⟩ between.ends
      obtain ⟨same, rfl⟩ := between.isName.append_inj isName between.starts starts eq.symm
      have name_eq : x.name = String.ofList name := by rw [← same, String.ofList_toList]
      have position_eq : x.position = start := position
      refine ⟨?_, between.free⟩
      rw [← name_eq, ← position_eq]
  · rintro (⟨rfl, free⟩ | ⟨before, behind, rfl, position, between⟩)
    · have ends : EndsToken [] := by
        intro c mem
        cases mem
      exact ⟨[], r, by simp, rfl, ⟨by simpa using isName, ends, starts, free⟩⟩
    · refine ⟨name ++ before, behind, by simp, ?_, ?_⟩
      · rw [position, List.length_append]
        omega
      · -- with nothing in between, the name at the front would go on with the symbol
        have ne : before ≠ [] := by
          rintro rfl
          exact between.isName.not_startsToken starts
        have ends : EndsToken (name ++ before) := by
          intro c mem
          rw [List.getLast?_append_of_ne_nil _ ne] at mem
          exact between.ends c mem
        exact { between with ends := ends }

/-- The symbols among the tokens are those that stand in the text. -/
theorem mem_symbolNames_lexemes (text : List Char) : ∀ start,
    (x.name, x.position) ∈ symbolNames (lexemes start text) ↔ x.StandsIn start text := by
  induction text using text_induction with
  | nil =>
    intro start
    rw [lexemes_nil]
    refine iff_of_false List.not_mem_nil ?_
    rintro ⟨before, behind, eq, -, between⟩
    obtain ⟨-, name_eq⟩ := List.append_eq_nil_iff.1 (List.append_eq_nil_iff.1 eq.symm).1
    exact between.isName.1 name_eq
  | blank c rest isBlank ih =>
    intro start
    have no_name : isNameChar c = false := by
      rw [← Bool.not_eq_true]
      intro isName
      simp [isBlank_eq_false_of_isNameChar isName] at isBlank
    rw [lexemes_cons_blank isBlank, ih, Occurrence.standsIn_cons no_name]
  | mark c rest isMark ih =>
    intro start
    rw [lexemes_cons_mark isMark, symbolNames, ih, Occurrence.standsIn_cons isMark.1]
  | name n rest isName starts ih =>
    intro start
    have follows := head?_lexemes_eq_mark (c := '[') (by decide) rest (start + n.length)
    have here : (x.name, x.position) = (String.ofList n, start) ↔ x = ⟨String.ofList n, start⟩ := by
      cases x
      simp
    rw [lexemes_name_append isName starts, Occurrence.standsIn_name_append isName starts,
      symbolNames]
    split
    · next bracket => simp [ih, follows.1 bracket]
    · next free => simp [ih, mt follows.2 free, here]

/-! ### Names of an outcome -/

theorem BinaryOperator.symbol_ne_bracket (op : BinaryOperator) : op.symbol ≠ '[' := by
  cases op <;> decide

theorem lexemes_around_name (isName : IsName name) (hv : Blank v) (hw : Blank w) :
    lexemes start (v ++ name ++ w) = [⟨.name name, start + v.length⟩] := by
  rw [lexemes_append_blank hw, lexemes_blank_append hv, ← List.append_nil name,
    lexemes_name_append isName startsToken_nil, lexemes_nil, List.append_nil]

@[simp] theorem Tree.functionNames_map {α β : Type} (f : α → β) (t : Tree α) :
    (t.map f).functionNames = t.functionNames := by
  induction t <;> simp_all [map, functionNames]

/-- The names of an outcome, with their offsets, are the symbols among the tokens of its text, and
the other names there are those of its functions. -/
theorem Written.names_lexemes (h : Written level start text o) :
    symbolNames (lexemes start text) = o.leaves.map (fun x => (x.name, x.position)) ∧
      (functionNames (lexemes start text)).map Prod.fst = o.functionNames := by
  have binary {start : Nat} {l r : List Char} {left right : Outcome} (op : BinaryOperator)
      (hl : symbolNames (lexemes start l) = left.leaves.map (fun x => (x.name, x.position)) ∧
        (functionNames (lexemes start l)).map Prod.fst = left.functionNames)
      (hr : symbolNames (lexemes (start + l.length + 1) r) =
          right.leaves.map (fun x => (x.name, x.position)) ∧
        (functionNames (lexemes (start + l.length + 1) r)).map Prod.fst = right.functionNames) :
      symbolNames (lexemes start (l ++ op.symbol :: r)) =
          (Tree.binary left op right).leaves.map (fun x => (x.name, x.position)) ∧
        (functionNames (lexemes start (l ++ op.symbol :: r))).map Prod.fst =
          (Tree.binary left op right).functionNames := by
    rw [lexemes_append_mark op.isMark_symbol, symbolNames_append_mark op.symbol_ne_bracket,
      functionNames_append_mark op.symbol_ne_bracket, hl.1, hr.1, List.map_append, hl.2, hr.2,
      Tree.leaves, List.map_append]
    exact ⟨rfl, rfl⟩
  induction h with
  | @sum _ _ _ _ _ op _ _ _ ihl ihr => exact binary op ihl ihr
  | @product _ _ _ _ _ op _ _ _ ihl ihr => exact binary op ihl ihr
  | @power _ _ _ _ _ op _ _ _ ihl ihr => exact binary op ihl ihr
  | signed sign blank _ ih =>
    rw [lexemes_append_mark sign.isMark_symbol, lexemes_of_blank blank]
    exact ih
  | transposed blank _ ih =>
    rw [lexemes_append_mark (by decide), lexemes_of_blank blank,
      symbolNames_append_mark (by decide), functionNames_append_mark (by decide), symbolNames,
      functionNames, List.append_nil, List.append_nil]
    exact ih
  | group before behind _ ih =>
    rw [lexemes_append_mark (by decide), lexemes_of_blank before, List.nil_append, symbolNames,
      functionNames, lexemes_append_mark (by decide), lexemes_of_blank behind,
      symbolNames_append_mark (by decide), functionNames_append_mark (by decide), symbolNames,
      functionNames, List.append_nil, List.append_nil]
    exact ih
  | applied isName before between behind _ ih =>
    -- the name of the function is the first name, and the only one that this bracket follows
    rw [lexemes_append_mark (by decide), lexemes_around_name isName before between,
      lexemes_append_mark (by decide), lexemes_of_blank behind, List.singleton_append, symbolNames,
      functionNames, if_pos (by rfl), if_pos (by rfl), symbolNames, functionNames,
      symbolNames_append_mark (by decide), functionNames_append_mark (by decide), symbolNames,
      functionNames, List.append_nil, List.append_nil, List.map_cons, ih.1, ih.2]
    exact ⟨rfl, rfl⟩
  | symbol isName before behind =>
    rw [lexemes_around_name isName before behind]
    exact ⟨rfl, rfl⟩
  | tighter _ _ ih => exact ih

/-- The names of an outcome are the symbols that stand in its text. -/
theorem Written.mem_leaves_iff (h : Written level start text o) :
    x ∈ o.leaves ↔ x.StandsIn start text := by
  rw [← mem_symbolNames_lexemes, h.names_lexemes.1, List.mem_map]
  constructor
  · intro mem
    exact ⟨x, mem, rfl⟩
  · rintro ⟨y, mem, eq⟩
    obtain ⟨name_eq, position_eq⟩ := Prod.mk.inj eq
    obtain rfl : y = x := by
      cases x
      cases y
      simp_all
    exact mem

theorem Occurrence.StandsIn.slice_eq (h : x.StandsIn 0 text) :
    Text.slice text x.position (x.position + x.name.length) = x.name.toList := by
  obtain ⟨before, behind, rfl, position, -⟩ := h
  have stop : (x.position + x.name.length : Int) = (x.position + x.name.length : Nat) := by simp
  rw [stop, Text.slice_natCast, position, Nat.zero_add, ← String.length_toList,
    ← List.length_append, List.take_left', List.drop_left']
  all_goals rfl

theorem Occurrence.StandsIn.length_pos (h : x.StandsIn start text) : 0 < x.name.length := by
  obtain ⟨before, behind, -, -, between⟩ := h
  rw [← String.length_toList]
  exact List.length_pos_iff.2 between.isName.1

/-- The occurrences of an accepted text are the symbols written there, from left to right: each name
as long as it can be that no opening square bracket follows, at its offset. The names that a bracket
follows are those of the functions of the expression. -/
theorem occurrences_parse {text : String} {o : Outcome} (ok : (parse text).result = .ok o) :
    o.occurrences.map (fun x => (x.name, x.position)) = symbolNames (lexemes 0 text.toList) ∧
    (∀ x, x ∈ o.occurrences ↔ x.StandsIn 0 text.toList) ∧
    (functionNames (lexemes 0 text.toList)).map Prod.fst = o.expr.functionNames ∧
    o.occurrences.map Occurrence.name = o.expr.leaves ∧
    (o.occurrences.Pairwise fun x y => x.position < y.position) ∧
    (o.occurrences.Pairwise fun x y => x.position + x.name.length ≤ y.position) ∧
    ∀ x ∈ o.occurrences,
      Text.slice text.toList x.position (x.position + x.name.length) = x.name.toList := by
  have written : Written .additive 0 text.toList o := written_of_run _ _ _ ok
  obtain ⟨symbols, functions⟩ := written.names_lexemes
  refine ⟨symbols.symm, fun x => written.mem_leaves_iff, ?_, ?_, ?_, written.pairwise, ?_⟩
  · rw [functions, Outcome.expr, Tree.functionNames_map]
  · rw [Outcome.expr, Tree.leaves_map, Outcome.occurrences]
  · -- names are not empty, so one that begins behind another begins at a greater offset
    refine written.pairwise.imp_of_mem fun {x y} mem _ apart => ?_
    have := (written.mem_leaves_iff.1 mem).length_pos
    omega
  · intro x mem
    exact (written.mem_leaves_iff.1 mem).slice_eq

/-- The name of a function is no occurrence, even if it is that of a symbol. -/
theorem occurrences_parse_applied :
    (parse "a[a]").result = .ok (.applied "a" (.leaf ⟨"a", 2⟩)) ∧
      [("a", 2)] = symbolNames (lexemes 0 "a[a]".toList) := by
  have name : IsName ['a'] := by decide
  have argument : Written .primary 2 ['a'] (.leaf ⟨"a", 2⟩) :=
    .symbol (v := []) (w := []) name blank_nil blank_nil
  have applied : Written .primary 0 ([] ++ ['a'] ++ [] ++ '[' :: (['a'] ++ ']' :: []))
      (.applied "a" (.leaf ⟨"a", 2⟩)) :=
    .applied name blank_nil blank_nil blank_nil (argument.loosen (Nat.zero_le _))
  have ok : (parse "a[a]").result = .ok (.applied "a" (.leaf ⟨"a", 2⟩)) :=
    run_of_written (applied.loosen (Nat.zero_le _))
  exact ⟨ok, (occurrences_parse ok).1⟩

end Formula
