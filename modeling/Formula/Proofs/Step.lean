import Formula.Parser
import Formula.Proofs.Pieces
import Mathlib.Data.List.TakeWhile

/-!
# What one step cuts out

`Step.Cuts` says all that is known of the step a level takes on the core of a cursor: where the
parts stand in the text and what stands between them, and for a failure what is to be seen at its
position. Every step is one of these (`step_cuts`). The lemmas behind it go the other way: which
step is taken on a text of a given shape.
-/

namespace Formula

open BinaryOperator (symbol)

variable {c : Cursor} {start : Nat} {l r text u v w : List Char}

/-! ### Evidence -/

/-- Whether an operand may be missing in front of a text: what follows are blanks, a closing bracket
or an operator that is no sign. -/
def EndsOperand (behind : List Char) : Prop :=
  Blank behind ∨ ∃ w c r, behind = w ++ c :: r ∧ Blank w ∧ c ∈ [')', ']', '*', '/']

/-- What is to be seen at the place of a cause, in front of the place and from the place on. -/
def Cause.ShownBetween (before behind : List Char) : Cause → Prop
  | emptyInput => Blank before ∧ behind = []
  | missingOperand .left op => op ∉ BinaryOperator.additive ∧ ∃ r, behind = op.symbol :: r
  | missingOperand .right op =>
      (∃ l w, before = l ++ op.symbol :: w ∧ Blank w) ∧ EndsOperand behind
  | missingSignOperand sign => ∃ l, before = l ++ [sign.symbol]
  | missingTransposeOperand => ∃ r, behind = transposeMark :: r
  | unmatchedBracket closing => ∃ bracket ∈ [')', ']'], closing = bracket.toString ∧
      ∃ l c, before = l ++ [c] ∧ isBlank c = false ∧ c ≠ bracket
  | emptyBrackets => ∃ pair ∈ [('(', ')'), ('[', ']')], ∃ l w r,
      before = l ++ [pair.1] ∧ behind = w ++ pair.2 :: r ∧ Blank w
  | invalidCharacter character => ∃ c r, character = c.toString ∧ behind = c :: r ∧
      isNameChar c = false

/-! ### Cuts -/

/-- The texts in front of the operand of a construct and behind it. -/
inductive Enclosure.Encloses : Enclosure → List Char → List Char → Prop
  | sign {v : List Char} (sign : Sign) : Blank v → Encloses (.sign sign) (sign.symbol :: v) []
  | transpose {w : List Char} : Blank w → Encloses .transpose [] (w ++ [transposeMark])
  | parentheses : Encloses .parentheses ['('] [')']
  | function {name v : List Char} : IsName name → Blank v →
      Encloses (.function (String.ofList name)) (name ++ v ++ ['[']) [']']

/-- The level that finds a construct. -/
def Enclosure.level : Enclosure → Level
  | sign _ => .unary
  | transpose => .transpose
  | parentheses => .primary
  | function _ => .primary

/-- The levels whose operators chain, each with the level of the operands. -/
inductive Level.Chains : Level → Level → Prop
  | sums : Chains additive multiplicative
  | products : Chains multiplicative exponential

theorem Level.Chains.next?_eq {level next : Level} (h : level.Chains next) :
    level.next? = some next := by
  cases h <;> rfl

theorem Level.Chains.unique {level next next' : Level} (h : level.Chains next)
    (h' : level.Chains next') : next = next' := by
  cases h <;> cases h' <;> rfl

theorem Level.Chains.rank {level next : Level} (h : level.Chains next) : 3 ≤ level.rank := by
  cases h <;> decide

/-- The binary operators of a level. -/
def Level.operators : Level → List BinaryOperator
  | additive => BinaryOperator.additive
  | multiplicative => BinaryOperator.multiplicative
  | exponential => BinaryOperator.powers
  | _ => []

/-- How the parts of a step stand in the cursor. -/
def Step.Cuts (level : Level) (c : Cursor) : Step → Prop
  | fail cause position => cause.kind ≠ .missingOperand ∧
      ∃ before behind, c.text = before ++ behind ∧ position = c.start + before.length ∧
        cause.ShownBetween before behind
  | symbol occurrence =>
    level = .primary ∧ IsName c.text ∧ occurrence = ⟨String.ofList c.text, c.start⟩
  | descend next => level.next? = some next
  | enclose enclosure operand => level = enclosure.level ∧ ¬ Blank operand.text ∧
      ∃ before behind, enclosure.Encloses before behind ∧
        c.text = before ++ operand.text ++ behind ∧ operand.start = c.start + before.length
  | power base op exponent => level = .exponential ∧ op ∈ level.operators ∧
      c.text = base.text ++ op.symbol :: exponent.text ∧ base.start = c.start ∧
      exponent.start = c.start + base.length + 1
  | chain next head tail => level.Chains next ∧ head.start = c.start ∧
      joined BinaryOperator.symbol head.text tail = c.text ∧ ∀ p ∈ tail, p.1 ∈ level.operators

/-! ### What is checked of a text of a given shape -/

namespace Step

/-- What stands behind a sign must not be blank. -/
theorem ofUnary_sign (sign : Sign) :
    ofUnary ⟨sign.symbol :: text, start⟩ =
      if (Cursor.mk text (start + 1)).trim.isEmpty = true then
        fail (.missingSignOperand sign) (Cursor.mk text (start + 1)).trim.start
      else enclose (.sign sign) (Cursor.mk text (start + 1)).trim := by
  have head : (Cursor.mk (sign.symbol :: text) start).first?.bind Sign.ofChar? = some sign :=
    Sign.ofChar?_symbol sign
  rw [ofUnary, head]
  rfl

/-- What stands in front of the mark of a conjugate transpose must not be blank. -/
theorem ofTranspose_mark :
    ofTranspose ⟨text ++ [transposeMark], start⟩ =
      if (Cursor.mk text start).trim.isEmpty = true then fail .missingTransposeOperand start
      else enclose .transpose (Cursor.mk text start).trim := by
  have operand : (Cursor.mk (text ++ [transposeMark]) start).dropLast = ⟨text, start⟩ := by
    rw [Cursor.dropLast, List.dropLast_concat]
  rw [ofTranspose, if_pos (by rw [Cursor.last?, List.getLast?_concat]), operand]

theorem getLast?_append_cons_concat {x y : Char} : (l ++ x :: (r ++ [y])).getLast? = some y := by
  rw [← List.cons_append, ← List.append_assoc, List.getLast?_concat]

/-- A bracket that is not the last character leaves the last one to the text behind it. -/
theorem exists_of_getLast?_eq {x y : Char} (ne : x ≠ y) (h : (l ++ x :: r).getLast? = some y) :
    ∃ m, r = m ++ [y] := by
  rcases List.eq_nil_or_concat' r with rfl | ⟨m, z, rfl⟩
  · simp [ne] at h
  · rw [getLast?_append_cons_concat] at h
    exact ⟨m, by rw [Option.some.inj h]⟩

theorem interior_group :
    (Cursor.mk ('(' :: (text ++ [')'])) start).interior = ⟨text, start + 1⟩ := by
  simp [Cursor.interior, Cursor.drop, Cursor.dropLast]

/-- What stands in a closed group must not be blank. -/
theorem ofGroup_closed :
    ofGroup ⟨'(' :: (text ++ [')']), start⟩ =
      if (Cursor.mk text (start + 1)).trim.isEmpty = true then fail .emptyBrackets (start + 1)
      else enclose .parentheses ⟨text, start + 1⟩ := by
  have closed : (Cursor.mk ('(' :: (text ++ [')'])) start).last? = some ')' :=
    getLast?_append_cons_concat (l := [])
  rw [ofGroup, if_neg (by simp [closed]), interior_group]

theorem takeWhile_function (h : '[' ∉ l) : (l ++ '[' :: r).takeWhile (· != '[') = l := by
  rw [List.takeWhile_append_of_pos fun x mem => by simpa using ne_of_mem_of_not_mem mem h]
  simp

theorem argument_function :
    ((Cursor.mk (l ++ '[' :: (text ++ [']'])) start).drop (l.length + 1)).dropLast =
      ⟨text, start + l.length + 1⟩ := by
  simp [Cursor.drop, Cursor.dropLast, Nat.add_assoc]

/-- A closed function must have a name that is one, and an argument that is not blank. -/
theorem ofFunction_closed (first : '[' ∉ l) :
    ofFunction ⟨l ++ '[' :: (text ++ [']']), start⟩
        ((l ++ '[' :: (text ++ [']'])).takeWhile (· != '[')).length =
      if (Cursor.mk l start).trim.isEmpty = true then
        fail (.invalidCharacter "[") (start + l.length)
      else match name (Cursor.mk l start).trim with
        | .error (cause, position) => fail cause position
        | .ok name =>
          if (Cursor.mk text (start + l.length + 1)).trim.isEmpty = true then
            fail .emptyBrackets (start + l.length + 1)
          else enclose (.function name) ⟨text, start + l.length + 1⟩ := by
  have closed : (Cursor.mk (l ++ '[' :: (text ++ [']'])) start).last? = some ']' :=
    getLast?_append_cons_concat
  have step : ofFunction ⟨l ++ '[' :: (text ++ [']']), start⟩ l.length = _ :=
    if_neg (not_not.2 closed)
  simp only [List.take_left, argument_function] at step
  rw [takeWhile_function first]
  exact step

end Step

/-! ### Every step is a cut -/

namespace Step

theorem cuts_chainOf {level next : Level} (h : level.Chains next) :
    (chainOf next level.operators c).Cuts level c :=
  ⟨h, rfl, joined_pieces_among?, fun _ => mem_of_mem_pieces⟩

theorem cuts_ofExponential : (ofExponential c).Cuts .exponential c := by
  unfold ofExponential
  split
  · rfl
  · next split h =>
    obtain ⟨⟨l, op, r⟩, hs, rfl⟩ := Option.map_eq_some_iff.1 h
    obtain ⟨x, eq, tag⟩ := eq_of_scan hs
    obtain ⟨mem, rfl⟩ := BinaryOperator.among?_eq_some_iff.1 tag
    exact ⟨rfl, mem, eq, rfl, rfl⟩

theorem cuts_ofUnary (core : Core c.text) : (ofUnary c).Cuts .unary c := by
  obtain ⟨text, start⟩ := c
  cases found : (Cursor.mk text start).first?.bind Sign.ofChar? with
  | none =>
    rw [ofUnary, found]
    rfl
  | some sign =>
    obtain ⟨x, head, hx⟩ := Option.bind_eq_some_iff.1 found
    obtain rfl := Sign.symbol_of_ofChar? hx
    obtain ⟨rest, rfl⟩ : ∃ rest, text = sign.symbol :: rest := List.head?_eq_some_iff.1 head
    -- what is left over behind the operand would end the core with a blank
    rw [ofUnary_sign]
    split
    · next empty =>
      have blank : Blank rest := Cursor.isEmpty_trim_iff.1 empty
      obtain rfl : rest = [] := core.eq_nil_of_blank_right (u := [sign.symbol]) blank
      exact ⟨nofun, [sign.symbol], [], rfl, rfl, [], rfl⟩
    · next nonempty =>
      obtain ⟨v, u, w, hv, hu, hw, rfl⟩ := exists_core (mt Cursor.isEmpty_trim_iff.2 nonempty)
      obtain rfl : w = [] := core.eq_nil_of_blank_right (u := sign.symbol :: (v ++ u)) hw
      rw [Cursor.trim_core _ hv hu hw]
      exact ⟨rfl, hu.not_blank, _, _, .sign sign hv, by simp, by simp; omega⟩

theorem cuts_ofTranspose (core : Core c.text) : (ofTranspose c).Cuts .transpose c := by
  obtain ⟨text, start⟩ := c
  by_cases marked : text.getLast? = some transposeMark
  · obtain ⟨rest, rfl⟩ : ∃ rest, text = rest ++ [transposeMark] :=
      List.getLast?_eq_some_iff.1 marked
    -- what is left over in front of the operand would begin the core with a blank
    rw [ofTranspose_mark]
    split
    · next empty =>
      have blank : Blank rest := Cursor.isEmpty_trim_iff.1 empty
      obtain rfl : rest = [] := core.eq_nil_of_blank_left blank
      exact ⟨by decide, [], [transposeMark], rfl, rfl, [], rfl⟩
    · next nonempty =>
      obtain ⟨v, u, w, hv, hu, hw, rfl⟩ := exists_core (mt Cursor.isEmpty_trim_iff.2 nonempty)
      have whole : Core (v ++ (u ++ w ++ [transposeMark])) := by simpa using core
      obtain rfl : v = [] := whole.eq_nil_of_blank_left hv
      rw [Cursor.trim_core _ hv hu hw]
      exact ⟨rfl, hu.not_blank, _, _, .transpose hw, by simp, by simp⟩
  · have unmarked : (Cursor.mk text start).last? ≠ some transposeMark := marked
    rw [ofTranspose, if_neg unmarked]
    rfl

/-! ### Primaries -/

/-- A text without other characters is a name. -/
theorem name_of_forall (h : ∀ x ∈ text, isNameChar x = true) :
    name ⟨text, start⟩ = .ok (String.ofList text) := by
  have rest : text.dropWhile isNameChar = [] := List.dropWhile_eq_nil_iff.2 h
  simp only [name, rest]

theorem eq_of_name_eq_ok {n : String} (h : name c = .ok n) :
    (∀ x ∈ c.text, isNameChar x = true) ∧ n = String.ofList c.text := by
  unfold name at h
  split at h
  · next rest =>
    obtain rfl := Except.ok.inj h
    exact ⟨List.dropWhile_eq_nil_iff.1 rest, rfl⟩
  · cases h

/-- The first character that is not one of a name is reported. -/
theorem eq_of_name_eq_error {cause : Cause} {position : Nat}
    (h : name c = .error (cause, position)) :
    ∃ before x behind, c.text = before ++ x :: behind ∧ position = c.start + before.length ∧
      isNameChar x = false ∧ cause = .invalidCharacter x.toString := by
  unfold name at h
  split at h
  · cases h
  · next x rest eq =>
    obtain ⟨rfl, rfl⟩ := Prod.mk.inj (Except.error.inj h)
    refine ⟨c.text.takeWhile isNameChar, x, rest, ?_, rfl, ?_, rfl⟩
    · rw [← eq, List.takeWhile_append_dropWhile]
    · have := List.head?_dropWhile_not isNameChar c.text
      simpa [eq] using this

theorem cuts_of_name_eq_error {level : Level} {cause : Cause} {position : Nat}
    (h : name c = .error (cause, position)) : (fail cause position).Cuts level c := by
  obtain ⟨before, x, behind, eq, rfl, bad, rfl⟩ := eq_of_name_eq_error h
  exact ⟨nofun, before, x :: behind, eq, rfl, x, behind, rfl, rfl, bad⟩

theorem cuts_ofSymbol (core : Core c.text) : (ofSymbol c).Cuts .primary c := by
  unfold ofSymbol
  split
  · next h => exact cuts_of_name_eq_error h
  · next h =>
    obtain ⟨names, rfl⟩ := eq_of_name_eq_ok h
    exact ⟨rfl, ⟨core.ne_nil, names⟩, rfl⟩

/-- A bracket that is not closed at the end of the text. -/
theorem cuts_unmatched {level : Level} (bracket : Char) (core : Core c.text)
    (mem : bracket ∈ [')', ']']) (h : c.last? ≠ some bracket) :
    (fail (.unmatchedBracket bracket.toString) c.stop).Cuts level c := by
  obtain ⟨text, start⟩ := c
  obtain ⟨rest, x, rfl⟩ := List.eq_nil_or_concat' text |>.resolve_left core.ne_nil
  refine ⟨nofun, _, [], (List.append_nil _).symm, rfl, bracket, mem, rfl, rest, x, rfl,
    core.last x (by simp), ?_⟩
  rintro rfl
  exact h (by simp [Cursor.last?])

/-- Brackets with nothing but blanks between them. -/
theorem cuts_emptyBrackets {level : Level} (before behind : List Char) {opening closing : Char}
    (mem : (opening, closing) ∈ [('(', ')'), ('[', ']')]) (hv : Blank v)
    (eq : c.text = before ++ opening :: (v ++ closing :: behind)) :
    (fail .emptyBrackets (c.start + before.length + 1)).Cuts level c := by
  refine ⟨nofun, before ++ [opening], v ++ closing :: behind, by simpa using eq,
    by simp; omega, (opening, closing), mem, before, v, behind, rfl, rfl, hv⟩

theorem cuts_ofGroup (core : Core c.text) (head : c.first? = some '(') :
    (ofGroup c).Cuts .primary c := by
  obtain ⟨text, start⟩ := c
  obtain ⟨rest, rfl⟩ : ∃ rest, text = '(' :: rest := List.head?_eq_some_iff.1 head
  by_cases closed : ('(' :: rest).getLast? = some ')'
  · obtain ⟨text, rfl⟩ := exists_of_getLast?_eq (l := []) (by decide) closed
    rw [ofGroup_closed]
    split
    · next empty =>
      exact cuts_emptyBrackets [] [] (by decide) (Cursor.isEmpty_trim_iff.1 empty) rfl
    · next nonempty =>
      exact ⟨rfl, mt Cursor.isEmpty_trim_iff.2 nonempty, _, _, .parentheses, rfl, rfl⟩
  · rw [ofGroup, if_pos (.inr closed)]
    exact cuts_unmatched ')' core (by decide) closed

theorem cuts_ofFunction (core : Core c.text) (mem : '[' ∈ c.text) :
    (ofFunction c (c.text.takeWhile (· != '[')).length).Cuts .primary c := by
  obtain ⟨text, start⟩ := c
  obtain ⟨before, behind, rfl, first⟩ := List.eq_append_cons_of_mem mem
  by_cases closed : (before ++ '[' :: behind).getLast? = some ']'
  · obtain ⟨argument, rfl⟩ := exists_of_getLast?_eq (by decide) closed
    rw [ofFunction_closed first]
    -- the checks come in the order of the text: some name, a good name, some argument
    split
    · next empty => exact ⟨nofun, before, _, rfl, rfl, '[', argument ++ [']'], rfl, rfl, by decide⟩
    · next nonempty =>
      obtain ⟨v, u, w, hv, hu, hw, rfl⟩ := exists_core (mt Cursor.isEmpty_trim_iff.2 nonempty)
      have whole : Core (v ++ (u ++ w ++ '[' :: (argument ++ [']']))) := by simpa using core
      obtain rfl : v = [] := whole.eq_nil_of_blank_left hv
      rw [Cursor.trim_core _ hv hu hw]
      split
      · next cause position bad =>
        obtain ⟨b, x, b', hb, rfl, hx, rfl⟩ := eq_of_name_eq_error bad
        obtain rfl : u = b ++ x :: b' := hb
        exact ⟨nofun, b, x :: (b' ++ w ++ '[' :: (argument ++ [']'])), by simp, by simp, x, _, rfl,
          rfl, hx⟩
      · next n good =>
        obtain ⟨names, rfl⟩ := eq_of_name_eq_ok good
        split
        · next empty =>
          exact cuts_emptyBrackets _ [] (by decide) (Cursor.isEmpty_trim_iff.1 empty) rfl
        · next nonempty =>
          exact ⟨rfl, mt Cursor.isEmpty_trim_iff.2 nonempty, _, _, .function ⟨hu.ne_nil, names⟩ hw,
            by simp, by simp; omega⟩
  · have unclosed : (Cursor.mk (before ++ '[' :: behind) start).last? ≠ some ']' := closed
    rw [ofFunction, if_pos unclosed]
    exact cuts_unmatched ']' core (by decide) closed

theorem cuts_ofPrimary (core : Core c.text) : (ofPrimary c).Cuts .primary c := by
  unfold ofPrimary
  split
  · next head => exact cuts_ofGroup core head
  · split
    · next mem => exact cuts_ofFunction core mem
    · exact cuts_ofSymbol core

end Step

/-- Every step on the core of a cursor cuts it as described. -/
theorem step_cuts (level : Level) (core : Core c.text) : (level.step c).Cuts level c := by
  cases level with
  | additive => exact Step.cuts_chainOf .sums
  | multiplicative => exact Step.cuts_chainOf .products
  | exponential => exact Step.cuts_ofExponential
  | unary => exact Step.cuts_ofUnary core
  | transpose => exact Step.cuts_ofTranspose core
  | primary => exact Step.cuts_ofPrimary core

/-! ### The step on a text of a given shape -/

theorem step_symbol (isName : IsName text) :
    Level.primary.step ⟨text, start⟩ = .symbol ⟨String.ofList text, start⟩ := by
  have no_bracket {x : Char} (hx : isNameChar x = false) : x ∉ text := fun mem => by
    simp [isName.2 x mem] at hx
  have head : (Cursor.mk text start).first? ≠ some '(' := fun h =>
    no_bracket (by decide) (List.mem_of_mem_head? h)
  rw [Level.step, Step.ofPrimary, if_neg head, if_neg (no_bracket (by decide)), Step.ofSymbol,
    Step.name_of_forall isName.2]

theorem step_group (h : ¬ Blank text) :
    Level.primary.step ⟨'(' :: (text ++ [')']), start⟩ =
      .enclose .parentheses ⟨text, start + 1⟩ := by
  rw [Level.step, Step.ofPrimary, if_pos (by rfl), Step.ofGroup_closed,
    if_neg (mt Cursor.isEmpty_trim_iff.1 h)]

theorem step_applied {n : List Char} (isName : IsName n) (hv : Blank v) (h : ¬ Blank text) :
    Level.primary.step ⟨n ++ v ++ '[' :: (text ++ [']']), start⟩ =
      .enclose (.function (String.ofList n)) ⟨text, start + (n ++ v).length + 1⟩ := by
  -- neither bracket that the parser looks for can stand in front of the argument
  have not_mem {x : Char} (hx : isNameChar x = false) (hb : isBlank x = false) : x ∉ n ++ v := by
    intro mem
    rcases List.mem_append.1 mem with inside | inside
    · simp [isName.2 x inside] at hx
    · simp [hv x inside] at hb
  have head : (Cursor.mk (n ++ v ++ '[' :: (text ++ [']'])) start).first? ≠ some '(' := by
    obtain ⟨y, ys, rfl⟩ := List.exists_cons_of_ne_nil isName.1
    rintro h
    obtain rfl : y = '(' := by simpa [Cursor.first?] using h
    exact not_mem (x := '(') (by decide) (by decide) (by simp)
  have trimmed : (Cursor.mk (n ++ v) start).trim = ⟨n, start⟩ := by
    simpa using Cursor.trim_core start blank_nil isName.core hv
  have named : ¬ (Cursor.mk n start).isEmpty = true := by
    simpa [Cursor.isEmpty] using isName.1
  rw [Level.step, Step.ofPrimary, if_neg head, if_pos (by simp),
    Step.ofFunction_closed (not_mem (by decide) (by decide)), trimmed, if_neg named,
    Step.name_of_forall isName.2]
  exact if_neg (mt Cursor.isEmpty_trim_iff.1 h)

theorem step_signed (sign : Sign) (hv : Blank v) (hu : Core u) :
    Level.unary.step ⟨sign.symbol :: (v ++ u), start⟩ =
      .enclose (.sign sign) ⟨u, start + 1 + v.length⟩ := by
  have operand : (Cursor.mk (v ++ u) (start + 1)).trim = ⟨u, start + 1 + v.length⟩ := by
    simpa using Cursor.trim_core (start + 1) hv hu blank_nil
  have nonempty : ¬ (Cursor.mk u (start + 1 + v.length)).isEmpty = true := by
    simpa [Cursor.isEmpty] using hu.ne_nil
  rw [Level.step, Step.ofUnary_sign, operand, if_neg nonempty]

theorem step_transposed (hu : Core u) (hw : Blank w) :
    Level.transpose.step ⟨u ++ w ++ [transposeMark], start⟩ = .enclose .transpose ⟨u, start⟩ := by
  have operand : (Cursor.mk (u ++ w) start).trim = ⟨u, start⟩ := by
    simpa using Cursor.trim_core start blank_nil hu hw
  have nonempty : ¬ (Cursor.mk u start).isEmpty = true := by
    simpa [Cursor.isEmpty] using hu.ne_nil
  rw [Level.step, Step.ofTranspose_mark, operand, if_neg nonempty]

/-- The step on a construct with one operand. The operand may be trimmed. -/
theorem Enclosure.Encloses.step {enclosure : Enclosure} {before behind : List Char}
    (h : enclosure.Encloses before behind) (core : Core (before ++ text ++ behind))
    (not_blank : ¬ Blank text) (start : Nat) :
    ∃ operand, enclosure.level.step ⟨before ++ text ++ behind, start⟩ =
        .enclose enclosure operand ∧
      operand.trim = (Cursor.mk text (start + before.length)).trim := by
  cases h with
  | @sign v sign hv =>
    obtain ⟨v', u, w, hv', hu, hw, rfl⟩ := exists_core not_blank
    have around :
        sign.symbol :: v ++ (v' ++ u ++ w) ++ [] = sign.symbol :: (v ++ v' ++ u) ++ w := by
      simp
    rw [around] at core ⊢
    obtain rfl := core.eq_nil_of_blank_right hw
    refine ⟨⟨u, start + 1 + (v ++ v').length⟩, ?_, ?_⟩
    · rw [List.append_nil]
      exact step_signed sign (blank_append.2 ⟨hv, hv'⟩) hu
    · rw [Cursor.trim_eq_self hu, Cursor.trim_core _ hv' hu blank_nil]
      simp
      omega
  | @transpose w hw =>
    obtain ⟨v, u, w', hv, hu, hw', rfl⟩ := exists_core not_blank
    have around : [] ++ (v ++ u ++ w') ++ (w ++ [transposeMark]) =
        v ++ (u ++ (w' ++ w) ++ [transposeMark]) := by simp
    rw [around] at core ⊢
    obtain rfl := core.eq_nil_of_blank_left hv
    refine ⟨_, step_transposed hu (blank_append.2 ⟨hw', hw⟩), ?_⟩
    rw [Cursor.trim_eq_self hu, Cursor.trim_core _ blank_nil hu hw']
    simp
  | parentheses => exact ⟨_, step_group not_blank, rfl⟩
  | @function name v isName hv =>
    have around : name ++ v ++ ['['] ++ text ++ [']'] = name ++ v ++ '[' :: (text ++ [']']) := by
      simp
    rw [around]
    refine ⟨_, step_applied isName hv not_blank, ?_⟩
    simp [Nat.add_assoc]

/-- A power is cut at its first operator outside brackets. -/
theorem step_power_iff {base exponent : Cursor} {op : BinaryOperator} :
    Level.exponential.step ⟨text, start⟩ = .power base op exponent ↔
      op ∈ BinaryOperator.powers ∧ Depth.zero.through base.text = .zero ∧
        Hides BinaryOperator.powers base.text ∧ text = base.text ++ op.symbol :: exponent.text ∧
        base.start = start ∧ exponent.start = start + base.text.length + 1 := by
  rw [← findSplit_eq_some_iff, Level.step, Step.ofExponential]
  cases (Cursor.mk text start).findSplit (BinaryOperator.among? BinaryOperator.powers) 0 with
  | none => simp
  | some split =>
    obtain ⟨l, op', r⟩ := split
    simp

theorem step_exponential_iff :
    Level.exponential.step c = .descend .unary ↔ Hides BinaryOperator.powers c.text := by
  rw [← findSplit_eq_none_iff, Level.step, Step.ofExponential]
  cases c.findSplit (BinaryOperator.among? BinaryOperator.powers) 0 <;> simp

theorem step_unary_iff :
    Level.unary.step c = .descend .transpose ↔ ∀ x ∈ c.text.head?, Sign.ofChar? x = none := by
  have no_sign : (∀ x ∈ c.text.head?, Sign.ofChar? x = none) ↔
      c.text.head?.bind Sign.ofChar? = none := Option.bind_eq_none_iff.symm
  rw [no_sign, Level.step, Step.ofUnary, Cursor.first?]
  cases c.text.head?.bind Sign.ofChar? with
  | none => simp
  | some sign =>
    dsimp only
    split <;> simp

theorem step_transpose_iff :
    Level.transpose.step c = .descend .primary ↔ c.text.getLast? ≠ some transposeMark := by
  rw [Level.step, Step.ofTranspose, Cursor.last?]
  split
  · next last =>
    dsimp only
    split <;> simp [last]
  · next other => simp [other]

theorem step_of_chains {level next : Level} (h : level.Chains next) :
    level.step c = Step.chainOf next level.operators c := by
  cases h <;> rfl

end Formula
