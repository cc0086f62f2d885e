import Formula.Proofs.Searches

/-!
# Call depth and retries

A level mostly calls the next one with the cursor it was given, and a chain parses an operand again
with more text when it runs out in front of a sign. `runWithin` parses in the same way and counts: a
call has one less of a budget than the call it is made in, and the search for the operands of a text
has one retry for each operator outside brackets. Neither is used up (`runWithin_parse`). All levels
are entered again only inside brackets, which take two characters (`Level.callDepth`). The search
looks for its operators anew each time where `chain` has the pieces at hand. What it finds is said by
`Offers`.
-/

namespace Formula

open BinaryOperator (symbol among?)

/-- Goes on with whatever a run resulted in, if there is budget for it. -/
def Run.followWithin {α β : Type} (r : Run α) (next : Except Failure α → Option (Run β)) :
    Option (Run β) :=
  (next r.result).map fun s => ⟨r.visits ++ s.visits, s.result⟩

theorem Run.followWithin_eq {α β : Type} {r : Run α} {next : Except Failure α → Option (Run β)}
    {next' : Except Failure α → Run β} (h : next r.result = some (next' r.result)) :
    r.followWithin next = some (r.follow next') := by
  rw [followWithin, h]
  rfl

/-- The number of operators outside brackets. -/
def countOutside (operators : List BinaryOperator) (d : Depth) : List Char → Nat
  | [] => 0
  | c :: rest =>
    (if (operatorAt (among? operators) d c).isSome then 1 else 0) +
      countOutside operators (d.after c) rest

/-- The operands of a chain, one after another, each found by a new search of the text that is left.
An operand that runs out in front of a sign is tried again with one operator more passed over, as
often as there are `retries` left; without any left there is no result. -/
def chainWithin (operators : List BinaryOperator) (parseOperand : Cursor → Option (Run Outcome))
    (folded : Folded) (text : Cursor) (skip retries : Nat) : Option (Run Outcome) :=
  match _ : text.findSplit (among? operators) skip with
  | none => (parseOperand text).map fun r => (folded.asLast text r).map folded.join
  | some split =>
    (parseOperand split.left).bind fun r =>
      (folded.asOperand split.tag split.left r).followWithin fun
        | .ok operand =>
          chainWithin operators parseOperand (some (folded.join operand, split.tag)) split.right 0
            (countOutside operators .zero split.right.text)
        | .error f =>
          if split.tag.canSign && f.isDangling split.left then
            match retries with
            | 0 => none
            | retries + 1 => chainWithin operators parseOperand folded text (skip + 1) retries
          else some ⟨[], .error f⟩
termination_by (text.length, retries)
decreasing_by
  · have := Cursor.length_findSplit ‹text.findSplit (among? operators) skip = some split›
    exact Prod.Lex.left _ _ (by omega)
  · exact Prod.Lex.right _ (by omega)

section

variable {operators : List BinaryOperator} {parseOperand : Cursor → Option (Run Outcome)}
  {folded : Folded} {text : Cursor} {skip retries : Nat}

theorem chainWithin_of_none (h : text.findSplit (among? operators) skip = none) :
    chainWithin operators parseOperand folded text skip retries =
      (parseOperand text).map fun r => (folded.asLast text r).map folded.join := by
  unfold chainWithin
  split <;> simp_all

theorem chainWithin_of_some {split : Split BinaryOperator}
    (h : text.findSplit (among? operators) skip = some split) :
    chainWithin operators parseOperand folded text skip retries =
      (parseOperand split.left).bind fun r =>
        (folded.asOperand split.tag split.left r).followWithin fun
          | .ok operand =>
            chainWithin operators parseOperand (some (folded.join operand, split.tag)) split.right 0
              (countOutside operators .zero split.right.text)
          | .error f =>
            if split.tag.canSign && f.isDangling split.left then
              match retries with
              | 0 => none
              | retries + 1 => chainWithin operators parseOperand folded text (skip + 1) retries
            else some ⟨[], .error f⟩ := by
  rw [chainWithin.eq_def]
  split <;> simp_all

end

/-- What a level makes of a trimmed cursor, given what the calls of levels return. -/
def Step.evaluate (call : Level → Cursor → Option (Run Outcome)) (level : Level) (c : Cursor) :
    Step → Option (Run Outcome)
  | fail cause position => some (.fail cause position)
  | symbol occurrence => some (.done (.leaf occurrence))
  | descend next => call next c
  | enclose enclosure operand =>
    (call enclosure.operandLevel operand).map fun r => (r.within enclosure c).map enclosure.wrap
  | power base op exponent =>
    (call .transpose base).bind fun r =>
      (r.asOperand .left op base).followWithin fun
        | .ok left =>
          (call .unary exponent).map fun s =>
            (s.asOperand .right op exponent).map (.binary left op)
        | .error f => some ⟨[], .error f⟩
  | chain next _ _ =>
    chainWithin level.operators (call next) none c 0 (countOutside level.operators .zero c.text)

/-- Parses a cursor at a level with a budget for the calls of levels that are open at once, and with
one retry for each operator outside brackets. There is no result when either is used up. -/
def runWithin : Nat → Level → Cursor → Option (Run Outcome)
  | 0, _, _ => none
  | budget + 1, level, cursor =>
    let c := cursor.trim
    Option.map (Run.visiting level c) <|
      if c.length = 0 then some (.fail .emptyInput c.start)
      else (level.step c).evaluate (runWithin budget) level c

variable {level next : Level} {operators : List BinaryOperator} {text pending c : Cursor}
  {skip budget n m : Nat} {op : BinaryOperator} {piece : List Char} {rest tail : List Piece}
  {folded : Folded}

/-! ### Counts of operators -/

theorem countOutside_eq (operators : List BinaryOperator) (d : Depth) (text : List Char) :
    countOutside operators d text = (pieces (among? operators) d text).2.length := by
  induction text generalizing d with
  | nil => rfl
  | cons c rest ih =>
    simp only [countOutside, pieces, ih]
    cases operatorAt (among? operators) d c with
    | none => simp
    | some op => simp [Nat.add_comm]

/-! ### Depths of calls -/

/-- How many calls are open at once, at most, when a level parses a trimmed text of this length. A
pair of brackets takes two characters and leads through all levels again. -/
def Level.callDepth (level : Level) (length : Nat) : Nat :=
  if length = 0 then 1 else 6 * ((length - 1) / 2) + level.rank + 1

theorem Level.callDepth_pos (level : Level) (n : Nat) : 0 < level.callDepth n := by
  unfold callDepth
  split <;> omega

theorem Level.callDepth_mono (level : Level) (le : m ≤ n) :
    level.callDepth m ≤ level.callDepth n := by
  unfold callDepth
  split <;> split <;> omega

theorem Level.callDepth_lt (rank : next.rank < level.rank) (pos : 0 < n) (le : m ≤ n) :
    next.callDepth m < level.callDepth n := by
  unfold callDepth
  split <;> split <;> omega

theorem Level.callDepth_lt_of_brackets (pos : 0 < m) (le : m + 2 ≤ n) :
    next.callDepth m < level.callDepth n := by
  have rank : next.rank ≤ 5 := by cases next <;> decide
  unfold callDepth
  rw [if_neg (by omega), if_neg (by omega)]
  omega

theorem Level.callDepth_next_lt (h : level.next? = some next) (pos : 0 < n) :
    next.callDepth n < level.callDepth n := by
  refine callDepth_lt ?_ pos le_rfl
  revert h
  cases level <;> cases next <;> decide

namespace Step.Cuts

/-- An enclosed operand lies in brackets or is left to a tighter level. -/
theorem callDepth_operand {enclosure : Enclosure} {operand : Cursor}
    (h : (enclose enclosure operand).Cuts level c) :
    enclosure.operandLevel.callDepth operand.trim.length < level.callDepth c.length := by
  obtain ⟨rfl, not_blank, before, behind, encloses, text, -⟩ := h
  have pos : 0 < operand.trim.length := Nat.pos_of_ne_zero (length_trim_ne_zero not_blank)
  have trimmed : operand.trim.length ≤ operand.length := Cursor.length_trim_le
  have length : c.length = before.length + operand.length + behind.length := by
    simp [Cursor.length, text, Nat.add_assoc]
  cases encloses with
  | sign =>
    have rank : Level.transpose.rank < Level.unary.rank := by decide
    exact Level.callDepth_lt rank (by omega) (by omega)
  | transpose =>
    have rank : Level.primary.rank < Level.transpose.rank := by decide
    exact Level.callDepth_lt rank (by omega) (by omega)
  | parentheses =>
    simp only [List.length_cons, List.length_nil] at length
    exact Level.callDepth_lt_of_brackets pos (by omega)
  | function =>
    simp only [List.length_append, List.length_cons, List.length_nil] at length
    exact Level.callDepth_lt_of_brackets pos (by omega)

/-- Base and exponent are left to tighter levels. -/
theorem callDepth_power {base exponent : Cursor} (h : (power base op exponent).Cuts level c) :
    Level.transpose.callDepth base.trim.length < level.callDepth c.length ∧
      Level.unary.callDepth exponent.trim.length < level.callDepth c.length := by
  obtain ⟨rfl, -, text, -⟩ := h
  have length : c.length = base.length + (exponent.length + 1) := by
    simp [Cursor.length, text]
  have base_trimmed : base.trim.length ≤ base.length := Cursor.length_trim_le
  have exponent_trimmed : exponent.trim.length ≤ exponent.length := Cursor.length_trim_le
  constructor
  · exact Level.callDepth_lt (by decide) (by omega) (by omega)
  · exact Level.callDepth_lt (by decide) (by omega) (by omega)

end Step.Cuts

/-! ### The evaluator -/

/-- With no operator left, the search parses what is left as the chain does. -/
theorem chainWithin_eq_chain_nil (h : Offers operators text skip pending [])
    {parseOperand : Cursor → Option (Run Outcome)}
    (operand : parseOperand pending = some (run next pending)) (retries : Nat) :
    chainWithin operators parseOperand folded text skip retries =
      some (chain next folded pending []) := by
  obtain ⟨rfl, none⟩ := h.eq_of_nil
  rw [chainWithin_of_none none, operand, chain_nil]
  rfl

/-- In front of an operator, the search goes on as the chain does. -/
theorem chainWithin_eq_chain_cons (h : Offers operators text skip pending ((op, piece) :: rest))
    {parseOperand : Cursor → Option (Run Outcome)}
    (operand : parseOperand pending = some (run next pending))
    (beyond : ∀ operand : Outcome,
      chainWithin operators parseOperand (some (folded.join operand, op))
        ⟨joined symbol piece rest, pending.stop + 1⟩ 0 rest.length =
        some (chain next (some (folded.join operand, op)) (pending.beyond piece) rest))
    (widened : chainWithin operators parseOperand folded text (skip + 1) rest.length =
      some (chain next folded (pending.widen op piece) rest)) :
    chainWithin operators parseOperand folded text skip (rest.length + 1) =
      some (chain next folded pending ((op, piece) :: rest)) := by
  have anew := h.beyond
  have count : countOutside operators .zero (joined symbol piece rest) = rest.length := by
    rw [countOutside_eq]
    exact congrArg List.length anew.tail_eq
  rw [chainWithin_of_some h.findSplit_eq, operand, Option.bind_some, chain_cons, count]
  refine Run.followWithin_eq ?_
  cases (folded.asOperand op pending (run next pending)).result with
  | ok o => exact beyond o
  | error f =>
    dsimp only
    split
    · exact widened
    · rfl

theorem Step.evaluate_power {call : Level → Cursor → Option (Run Outcome)} {base exponent : Cursor}
    (base_call : call .transpose base = some (run .transpose base))
    (exponent_call : call .unary exponent = some (run .unary exponent)) :
    (power base op exponent).evaluate call level c =
      some (((run .transpose base).asOperand .left op base).andThen fun left =>
        ((run .unary exponent).asOperand .right op exponent).map (.binary left op)) := by
  rw [evaluate, base_call, Option.bind_some, Run.andThen]
  refine Run.followWithin_eq ?_
  cases ((run .transpose base).asOperand .left op base).result with
  | ok left =>
    dsimp only
    rw [exponent_call]
    rfl
  | error f => rfl

theorem runWithin_of_empty (h : c.trim.length = 0) :
    runWithin (budget + 1) level c = some (run level c) := by
  rw [runWithin, run_of_empty h]
  simp only [h, if_true, Option.map_some]

theorem runWithin_of_step {s : Step} (h : c.trim.length ≠ 0) (hs : level.step c.trim = s) :
    runWithin (budget + 1) level c =
      (s.evaluate (runWithin budget) level c.trim).map (Run.visiting level c.trim) := by
  rw [runWithin]
  simp only [h, if_false, hs]

/-- Every level needs a budget for the call of its own. -/
theorem Level.exists_eq_succ (enough : level.callDepth n ≤ budget) : ∃ left, budget = left + 1 :=
  Nat.exists_eq_succ_of_ne_zero (Nat.ne_of_gt (Nat.lt_of_lt_of_le (level.callDepth_pos n) enough))

/-- With a budget for the depth of its calls the evaluator does what the parser does. -/
theorem runWithin_eq_run :
    (∀ level c budget, level.callDepth c.trim.length ≤ budget →
      runWithin budget level c = some (run level c)) ∧
    ∀ next folded pending tail operators text skip budget,
      Offers operators text skip pending tail → next.callDepth text.length ≤ budget →
      chainWithin operators (runWithin budget next) folded text skip tail.length =
        some (chain next folded pending tail) := by
  refine parse_induction
    (P := fun level c => ∀ budget, level.callDepth c.trim.length ≤ budget →
      runWithin budget level c = some (run level c))
    (Q := fun next folded pending tail => ∀ operators text skip budget,
      Offers operators text skip pending tail → next.callDepth text.length ≤ budget →
      chainWithin operators (runWithin budget next) folded text skip tail.length =
        some (chain next folded pending tail))
    ?blank ?fail ?symbol ?descend ?enclose ?power ?chain ?last ?more
  case blank =>
    intro level c blank budget enough
    obtain ⟨budget, rfl⟩ := level.exists_eq_succ enough
    exact runWithin_of_empty (Cursor.length_trim_eq_zero_iff.2 blank)
  case fail =>
    intro level c cause position not_blank hs budget enough
    obtain ⟨budget, rfl⟩ := level.exists_eq_succ enough
    have nonempty := length_trim_ne_zero not_blank
    rw [runWithin_of_step nonempty hs, run_of_fail nonempty hs]
    rfl
  case symbol =>
    intro level c occurrence not_blank hs budget enough
    obtain ⟨budget, rfl⟩ := level.exists_eq_succ enough
    have nonempty := length_trim_ne_zero not_blank
    rw [runWithin_of_step nonempty hs, run_of_symbol nonempty hs]
    rfl
  case descend =>
    intro level c next not_blank hs ih budget enough
    obtain ⟨budget, rfl⟩ := level.exists_eq_succ enough
    have nonempty := length_trim_ne_zero not_blank
    have next_level : level.next? = some next := cuts_of_step not_blank hs
    have less := Level.callDepth_next_lt next_level (Nat.pos_of_ne_zero nonempty)
    have call := ih budget (by rw [Cursor.trim_trim]; omega)
    rw [runWithin_of_step nonempty hs, run_of_descend nonempty hs, Step.evaluate, call]
    rfl
  case enclose =>
    intro level c enclosure operand not_blank hs ih budget enough
    obtain ⟨budget, rfl⟩ := level.exists_eq_succ enough
    have nonempty := length_trim_ne_zero not_blank
    have less := (cuts_of_step not_blank hs).callDepth_operand
    have call := ih budget (by omega)
    rw [runWithin_of_step nonempty hs, run_of_enclose nonempty hs, Step.evaluate, call]
    rfl
  case power =>
    intro level c base op exponent not_blank hs ih_base ih_exponent budget enough
    obtain ⟨budget, rfl⟩ := level.exists_eq_succ enough
    have nonempty := length_trim_ne_zero not_blank
    obtain ⟨base_less, exponent_less⟩ := (cuts_of_step not_blank hs).callDepth_power
    have base_call := ih_base budget (by omega)
    have exponent_call := ih_exponent budget (by omega)
    rw [runWithin_of_step nonempty hs, run_of_power nonempty hs,
      Step.evaluate_power base_call exponent_call]
    rfl
  case chain =>
    intro level c next head tail not_blank hs ih budget enough
    obtain ⟨budget, rfl⟩ := level.exists_eq_succ enough
    have nonempty := length_trim_ne_zero not_blank
    obtain ⟨chains, -⟩ := cuts_of_step not_blank hs
    have less := Level.callDepth_next_lt chains.next?_eq (Nat.pos_of_ne_zero nonempty)
    have offers := offers_of_step not_blank hs
    have loop := ih level.operators c.trim 0 budget offers (by omega)
    rw [runWithin_of_step nonempty hs, run_of_chain nonempty hs, Step.evaluate, countOutside_eq,
      ← List.drop_zero (l := (pieces _ _ _).2), offers.tail_eq, loop]
    rfl
  case last =>
    intro next folded pending ih operators text skip budget offers enough
    refine chainWithin_eq_chain_nil offers (ih budget ?_) _
    refine Nat.le_trans (next.callDepth_mono ?_) enough
    exact Nat.le_trans Cursor.length_trim_le offers.length_le
  case more =>
    intro next folded pending op piece rest ih ih_beyond ih_widened operators text skip budget
      offers enough
    refine chainWithin_eq_chain_cons offers (ih budget ?_) (fun operand => ?_) ?_
    · refine Nat.le_trans (next.callDepth_mono ?_) enough
      exact Nat.le_trans Cursor.length_trim_le offers.length_le
    · refine ih_beyond operand operators _ 0 budget offers.beyond ?_
      refine Nat.le_trans (next.callDepth_mono ?_) enough
      have := Cursor.length_findSplit offers.findSplit_eq
      simp only at this
      omega
    · exact ih_widened operators text (skip + 1) budget offers.widen enough

/-- A text that is not blank is parsed with six open calls for every two characters of it, rounded
up, and with one retry for each operator outside brackets of the text that is searched. -/
theorem runWithin_parse {text : String} (h : 1 ≤ (Cursor.ofString text).trim.length) :
    runWithin (6 * (((Cursor.ofString text).trim.length + 1) / 2)) .additive (.ofString text) =
      some (parse text) := by
  refine runWithin_eq_run.1 .additive (.ofString text) _ ?_
  rw [Level.callDepth, if_neg (by omega), Level.rank]
  omega

/-- The product is tried without the sign first. -/
theorem runWithin_parse_signed_factor :
    (Cursor.ofString " a*-(b)").trim.length = 6 ∧
      runWithin 18 .additive (.ofString " a*-(b)") = some (parse " a*-(b)") := by
  have length : (Cursor.ofString " a*-(b)").trim.length = 6 := by decide
  have within := runWithin_parse (show 1 ≤ (Cursor.ofString " a*-(b)").trim.length by decide)
  rw [length] at within
  exact ⟨length, within⟩

/-- The bound is reached: for these four characters one call less is not enough. -/
example : runWithin 11 .additive (.ofString "f[a]") = none := by cbv

end Formula
