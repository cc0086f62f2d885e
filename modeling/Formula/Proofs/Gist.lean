import Formula.Proofs.Respacing
import Formula.Proofs.Unfinished

/-!
# What does not depend on blanks

The gist of a result is what is left of it without offsets: the expression, or the kind of the
failure with its side, its operator and the contexts of its trail. It depends on the tokens of the
text only (`runGist_eq_of_tokens_eq`).

The parser has no tokens and compares offsets when it takes an operator for a sign. So the gist of a
failure also says whether it is for want of an operand at the end of what is parsed. With that, the
gist of a whole is a function of the gists of its parts, one equation for each step, and two texts
with the same tokens are parsed in lockstep.
-/

namespace Formula

open BinaryOperator (symbol)

variable {level next : Level} {c c' pending : Cursor} {op : BinaryOperator} {folded : Folded}
  {text : List Char} {rest tail : List Piece} {f : Failure} {o : Outcome} {stop : Nat}

/-! ### Gists -/

/-- What of a failure does not depend on where blanks stand. -/
structure Gist where
  kind : Kind
  side? : Option Side
  operator? : Option Operator
  contexts : List Context
  runsOut : Bool

/-- The gist of a failure to parse a text that ends at an offset. -/
def Failure.gist (stop : Nat) (f : Failure) : Gist where
  kind := f.cause.kind
  side? := f.cause.side?
  operator? := f.cause.operator?
  contexts := f.trail.map (·.context)
  runsOut := (f.cause.kind == .emptyInput || f.cause.kind == .missingOperand) && f.position == stop

namespace Gist

/-- As seen one construct further out. -/
def within (context : Context) (g : Gist) : Gist := { g with contexts := context :: g.contexts }

/-- As the gist of a failure of an operand. -/
def ofOperand (side : Side) (op : BinaryOperator) (g : Gist) : Gist :=
  if g.kind = .emptyInput then
    ⟨.missingOperand, some side, some (.binary op), [.operand side op], g.runsOut⟩
  else g.within (.operand side op)

/-- As seen from a text that does not end there. -/
def settled (g : Gist) : Gist := { g with runsOut := false }

end Gist

/-- The gist of a result. -/
def gist (stop : Nat) : Except Failure Outcome → Except Gist Expr
  | .ok o => .ok o.expr
  | .error f => .error (f.gist stop)

/-- The gist of what a level makes of a cursor. -/
def runGist (level : Level) (c : Cursor) : Except Gist Expr := gist c.trim.stop (run level c).result

/-- The gist of what a chain makes of its operands. -/
def chainGist (next : Level) (folded : Folded) (pending : Cursor) (tail : List Piece) :
    Except Gist Expr :=
  gist (pending.start + (joined symbol pending.text tail).length)
    (chain next folded pending tail).result

theorem Failure.runsOut_gist :
    (f.gist stop).runsOut = true ↔
      f.position = stop ∧ (f.cause = .emptyInput ∨ f.cause.kind = .missingOperand) := by
  simp [gist, Cause.kind_eq_emptyInput_iff, and_comm]

theorem exists_of_runGist_eq_ok {t : Expr} (h : runGist level c = .ok t) :
    ∃ o, (run level c).result = .ok o ∧ o.expr = t := by
  unfold runGist at h
  cases result : (run level c).result with
  | ok o =>
    rw [result] at h
    exact ⟨o, rfl, Except.ok.inj h⟩
  | error f =>
    rw [result] at h
    cases h

theorem exists_of_runGist_eq_error {g : Gist} (h : runGist level c = .error g) :
    ∃ f, (run level c).result = .error f ∧ f.gist c.trim.stop = g := by
  unfold runGist at h
  cases result : (run level c).result with
  | ok o =>
    rw [result] at h
    cases h
  | error f =>
    rw [result] at h
    exact ⟨f, rfl, Except.error.inj h⟩

/-- The gist says whether a text runs out. -/
theorem runsOut_iff {g : Gist} (failed : runGist level c = .error g) :
    g.runsOut = true ↔ Dangles level c := by
  obtain ⟨f, result, rfl⟩ := exists_of_runGist_eq_error failed
  rw [Failure.runsOut_gist]
  constructor
  · rintro ⟨position, cause⟩
    exact ⟨f, result, position, cause⟩
  · rintro ⟨f', failed, position, cause⟩
    obtain rfl := Except.error.inj (result.symm.trans failed)
    exact ⟨position, cause⟩

theorem Failure.gist_ofOperand (side : Side) (op : BinaryOperator) (c : Cursor) (f : Failure) :
    (ofOperand side op c f).gist stop = (f.gist stop).ofOperand side op := by
  obtain ⟨cause, position, trail⟩ := f
  cases cause <;> rfl

/-- What fails before the end of a text does not run out there. -/
theorem Failure.gist_settled {stop' : Nat} (before : f.position < stop') :
    f.gist stop' = (f.gist stop).settled := by
  have other : (f.position == stop') = false := by
    rw [beq_eq_false_iff_ne]
    omega
  simp [gist, Gist.settled, other]

/-! ### The gist of a step -/

section Step

variable {enclosure : Enclosure}

theorem runGist_of_blank (h : Blank c.text) :
    runGist level c = .error ⟨.emptyInput, none, none, [], true⟩ := by
  have position : c.trim.start = c.trim.stop := by
    rw [Cursor.trim_of_blank h]
    rfl
  rw [runGist, result_of_blank h, position, gist]
  simp [Failure.gist, Failure.bare, Cause.kind, Cause.side?, Cause.operator?]

theorem runGist_of_fail {cause : Cause} {position : Nat} (h : ¬ Blank c.text)
    (hs : level.step c.trim = .fail cause position) :
    runGist level c = .error ⟨cause.kind, cause.side?, cause.operator?, [], false⟩ := by
  have failed := result_of_fail h hs
  have settled : ((Failure.bare cause position).gist c.trim.stop).runsOut = false := by
    rw [← Bool.not_eq_true, Failure.runsOut_gist]
    rintro ⟨-, empty | missing⟩
    · exact (evident_of_run _ _ _ failed).ne_emptyInput h empty
    · exact (cuts_of_step h hs).1 missing
  rw [runGist, failed, gist, ← settled]
  rfl

theorem runGist_of_symbol {x : Occurrence} (h : ¬ Blank c.text)
    (hs : level.step c.trim = .symbol x) : runGist level c = .ok (.leaf x.name) := by
  rw [runGist, result_of_symbol h hs]
  rfl

theorem runGist_of_descend (h : ¬ Blank c.text) (hs : level.step c.trim = .descend next) :
    runGist level c = runGist next c.trim := by
  rw [runGist, runGist, result_of_descend h hs, Cursor.trim_trim]

theorem Enclosure.expr_wrap (enclosure : Enclosure) (o : Outcome) :
    Outcome.expr (enclosure.wrap o) = enclosure.wrap o.expr := by
  cases enclosure <;> rfl

/-- A construct never runs out, though its operand may. -/
theorem runGist_of_enclose {operand : Cursor} (h : ¬ Blank c.text)
    (hs : level.step c.trim = .enclose enclosure operand) :
    runGist level c = ((runGist enclosure.operandLevel operand).mapError fun g =>
      (g.within (.inside enclosure)).settled).map enclosure.wrap := by
  have whole := result_of_enclose h hs
  unfold runGist
  cases result : (run enclosure.operandLevel operand).result with
  | ok o =>
    have ok := whole.trans
      (Run.result_map_eq_ok.2 ⟨o, Run.result_mapFailure_eq_ok.2 result, rfl⟩)
    rw [ok]
    exact congrArg Except.ok (enclosure.expr_wrap o)
  | error f =>
    have failed := whole.trans
      (Run.result_map_eq_error.2 (Run.result_mapFailure_eq_error.2 ⟨f, result, rfl⟩))
    have settled : ((f.within (.inside enclosure) c.trim).gist c.trim.stop).runsOut = false := by
      rw [← Bool.not_eq_true, Failure.runsOut_gist]
      rintro ⟨position, cause⟩
      exact Dangles.not_enclose ⟨_, failed, position, cause⟩ h hs
    rw [failed, gist, gist, Except.mapError, Except.map, Gist.settled, ← settled]
    rfl

/-- The base of a power ends before the power does, and the exponent where the power does. -/
theorem runGist_of_power {base exponent : Cursor} (h : ¬ Blank c.text)
    (hs : level.step c.trim = .power base op exponent) :
    runGist level c = match runGist .transpose base with
      | .error g => .error (g.ofOperand .left op).settled
      | .ok t => ((runGist .unary exponent).mapError (Gist.ofOperand .right op)).map
          (.binary t op) := by
  have whole := result_of_power h hs
  obtain ⟨-, -, text, at_base, at_exponent⟩ := cuts_of_step h hs
  unfold runGist
  cases result : (run .transpose base).result with
  | error f =>
    have failed := whole.trans
      (Run.result_andThen_eq_error.2 (.inl (Run.result_asOperand_of_error result)))
    have inside := (position_of_run result).2
    have before : (Failure.ofOperand .left op base f).position < c.trim.stop := by
      rw [Failure.position_ofOperand]
      simp only [Cursor.stop, Cursor.length, text, List.length_append, List.length_cons] at *
      omega
    rw [failed, gist, gist, Failure.gist_settled before, Failure.gist_ofOperand]
  | ok left =>
    have at_stop : exponent.trim.stop = c.trim.stop := by
      rw [← Cursor.trim_trim (c := c)]
      exact stop_trim_part (l := base.text ++ [op.symbol]) (Cursor.core_trim h)
        (by simp [text]) (by simp [at_exponent, Cursor.length]; omega)
    have left_ok : ((run .transpose base).asOperand .left op base).result = .ok left :=
      Run.result_mapFailure_eq_ok.2 result
    rw [whole, Run.andThen, Run.result_follow, left_ok, at_stop]
    cases result' : (run .unary exponent).result with
    | ok right =>
      simp only [Run.result_map_asOperand_of_ok result']
      rfl
    | error f =>
      simp only [Run.result_map_asOperand_of_error result', gist, Failure.gist_ofOperand]
      rfl

theorem runGist_of_chain {head : Cursor} (h : ¬ Blank c.text)
    (hs : level.step c.trim = .chain next head tail) :
    runGist level c = chainGist next none head tail := by
  obtain ⟨-, at_head, text, -⟩ := cuts_of_step h hs
  rw [runGist, chainGist, result_of_chain h hs, at_head, text]
  rfl

end Step

/-! ### The gist of a chain -/

namespace Folded

/-- The left operand without offsets. -/
def expr (folded : Folded) : Option (Expr × BinaryOperator) :=
  folded.map fun (left, op) => (left.expr, op)

/-- Takes one more operand into a chain without offsets. -/
def joinExpr (folded : Option (Expr × BinaryOperator)) (operand : Expr) : Expr :=
  match folded with
  | none => operand
  | some (left, op) => .binary left op operand

/-- The gist of a failure of the operand that ends at the operator. -/
def operandGist (folded : Option (Expr × BinaryOperator)) (op : BinaryOperator) : Gist → Gist :=
  match folded with
  | none => .ofOperand .left op
  | some (_, before) => .ofOperand .right before

/-- The gist of a failure of the last operand. -/
def lastGist (folded : Option (Expr × BinaryOperator)) : Gist → Gist :=
  match folded with
  | none => id
  | some (_, before) => .ofOperand .right before

theorem expr_join (folded : Folded) (o : Outcome) :
    Outcome.expr (folded.join o) = joinExpr folded.expr o.expr := by
  cases folded <;> rfl

theorem exists_asOperand (folded : Folded) (op : BinaryOperator) (stop : Nat)
    (failed : (run next c).result = .error f) :
    ∃ g, (folded.asOperand op c (run next c)).result = .error g ∧ g.position = f.position ∧
      g.gist stop = operandGist folded.expr op (f.gist stop) := by
  cases folded with
  | none =>
    exact ⟨_, Run.result_asOperand_of_error failed, Failure.position_ofOperand ..,
      Failure.gist_ofOperand ..⟩
  | some =>
    exact ⟨_, Run.result_asOperand_of_error failed, Failure.position_ofOperand ..,
      Failure.gist_ofOperand ..⟩

theorem exists_asLast (folded : Folded) (stop : Nat) (failed : (run next c).result = .error f) :
    ∃ g, (folded.asLast c (run next c)).result = .error g ∧
      g.gist stop = lastGist folded.expr (f.gist stop) := by
  cases folded with
  | none => exact ⟨f, failed, rfl⟩
  | some => exact ⟨_, Run.result_asOperand_of_error failed, Failure.gist_ofOperand ..⟩

end Folded

theorem chainGist_nil (last : ∀ x ∈ pending.text.getLast?, isBlank x = false) :
    chainGist next folded pending [] = ((runGist next pending).mapError
      (Folded.lastGist folded.expr)).map (Folded.joinExpr folded.expr) := by
  rw [chainGist, runGist, joined_nil, ← Cursor.stop_trim pending.start last, chain_nil]
  cases result : (run next pending).result with
  | ok o =>
    rw [Run.result_map_eq_ok.2 ⟨o, Folded.result_asLast_eq_ok.2 result, rfl⟩]
    exact congrArg Except.ok (folded.expr_join o)
  | error f =>
    obtain ⟨g, failed, same⟩ := folded.exists_asLast pending.trim.stop result
    rw [Run.result_map_eq_error.2 failed]
    exact congrArg Except.error same

theorem chainGist_cons_of_ok (ok : (run next pending).result = .ok o) :
    chainGist next folded pending ((op, text) :: rest) =
      chainGist next (some (folded.join o, op)) (pending.beyond text) rest := by
  rw [chainGist, chainGist, result_chain_cons_of_ok ok, pending.stop_beyond op text rest]

theorem chainGist_cons_of_dangles (sign : op.canSign = true) (dangles : Dangles next pending) :
    chainGist next folded pending ((op, text) :: rest) =
      chainGist next folded (pending.widen op text) rest := by
  rw [chainGist, chainGist, result_chain_cons_of_dangles sign dangles, Cursor.widen,
    joined_append_cons]

theorem chainGist_cons_of_error {g : Gist} (failed : runGist next pending = .error g)
    (stops : ¬ (op.canSign && g.runsOut) = true) :
    chainGist next folded pending ((op, text) :: rest) =
      .error (Folded.operandGist folded.expr op g).settled := by
  have dangles := runsOut_iff failed
  obtain ⟨f, result, rfl⟩ := exists_of_runGist_eq_error failed
  obtain ⟨f', operand, position, same⟩ := folded.exists_asOperand op pending.trim.stop result
  have whole : (chain next folded pending ((op, text) :: rest)).result = .error f' := by
    -- a failure that would make the chain read on is one of which the gist says that it runs out
    refine result_chain_cons_of_error operand fun again => stops ?_
    obtain ⟨sign, dangling⟩ := Bool.and_eq_true_iff.1 again
    rw [sign, dangles.2 (Folded.dangles_of_asOperand operand dangling)]
    rfl
  have inside := (position_of_run result).2
  have before : f'.position <
      pending.start + (joined symbol pending.text ((op, text) :: rest)).length := by
    simp only [position, joined_cons, Cursor.stop, Cursor.length, List.length_append,
      List.length_cons] at *
    omega
  rw [chainGist, whole, gist, Failure.gist_settled before, same]

/-! ### Texts with the same tokens -/

/-- Texts with the same tokens have the same gist at every level. -/
theorem runGist_eq_of_tokens_eq : ∀ (level : Level) (c c' : Cursor),
    tokens c.text = tokens c'.text → runGist level c = runGist level c' := by
  have alike {level : Level} {c c' : Cursor} {s : Step} (same : tokens c.text = tokens c'.text)
      (h : ¬ Blank c.text) (hs : level.step c.trim = s) :
      ¬ Blank c'.text ∧ s.Alike (level.step c'.trim) := by
    have h' := mt (blank_iff_of_tokens_eq same).2 h
    have trimmed : tokens c.trim.text = tokens c'.trim.text := by
      rw [tokens_trim, tokens_trim, same]
    rw [← hs]
    exact ⟨h', step_alike level (Cursor.core_trim h) (Cursor.core_trim h') trimmed⟩
  refine (parse_induction
    (P := fun level c => ∀ c', tokens c.text = tokens c'.text → runGist level c = runGist level c')
    (Q := fun next folded pending tail => ∀ folded' pending' tail',
      folded.expr = Folded.expr folded' → tokens pending.text = tokens pending'.text →
      tailTokens tail = tailTokens tail' →
      (∀ x ∈ (joined symbol pending.text tail).getLast?, isBlank x = false) →
      (∀ x ∈ (joined symbol pending'.text tail').getLast?, isBlank x = false) →
      chainGist next folded pending tail = chainGist next folded' pending' tail')
    ?blank ?fail ?symbol ?descend ?enclose ?power ?chain ?last ?more).1
  case blank =>
    intro level c blank c' same
    rw [runGist_of_blank blank, runGist_of_blank ((blank_iff_of_tokens_eq same).1 blank)]
  case fail =>
    intro level c cause position h hs c' same
    obtain ⟨h', alike⟩ := alike same h hs
    generalize hs' : level.step c'.trim = s' at alike
    cases alike with
    | fail kind side operator =>
      rw [runGist_of_fail h hs, runGist_of_fail h' hs', kind, side, operator]
  case symbol =>
    intro level c x h hs c' same
    obtain ⟨h', alike⟩ := alike same h hs
    generalize hs' : level.step c'.trim = s' at alike
    cases alike with
    | symbol => rw [runGist_of_symbol h hs, runGist_of_symbol h' hs']
  case descend =>
    intro level c next h hs ih c' same
    obtain ⟨h', alike⟩ := alike same h hs
    generalize hs' : level.step c'.trim = s' at alike
    cases alike with
    | descend =>
      rw [runGist_of_descend h hs, runGist_of_descend h' hs']
      exact ih c'.trim (by rw [tokens_trim, tokens_trim, same])
  case enclose =>
    intro level c enclosure operand h hs ih c' same
    obtain ⟨h', alike⟩ := alike same h hs
    generalize hs' : level.step c'.trim = s' at alike
    cases alike with
    | enclose _ same_operand =>
      rw [runGist_of_enclose h hs, runGist_of_enclose h' hs', ih _ same_operand]
  case power =>
    intro level c base op exponent h hs ih_base ih_exponent c' same
    obtain ⟨h', alike⟩ := alike same h hs
    generalize hs' : level.step c'.trim = s' at alike
    cases alike with
    | power _ same_base same_exponent =>
      rw [runGist_of_power h hs, runGist_of_power h' hs', ih_base _ same_base,
        ih_exponent _ same_exponent]
  case chain =>
    intro level c next head tail h hs ih c' same
    obtain ⟨h', alike⟩ := alike same h hs
    generalize hs' : level.step c'.trim = s' at alike
    cases alike with
    | chain _ same_head same_tail =>
      rw [runGist_of_chain h hs, runGist_of_chain h' hs']
      have last := (Cursor.core_trim h).last
      have last' := (Cursor.core_trim h').last
      rw [← (cuts_of_step h hs).2.2.1] at last
      rw [← (cuts_of_step h' hs').2.2.1] at last'
      exact ih none _ _ rfl same_head same_tail last last'
  case last =>
    intro next folded pending ih folded' pending' tail' same_folded same same_tail last last'
    obtain rfl : tail' = [] := List.map_eq_nil_iff.1 same_tail.symm
    rw [joined_nil] at last last'
    rw [chainGist_nil last, chainGist_nil last', ih pending' same, same_folded]
  case more =>
    intro next folded pending op text rest ih ih_beyond ih_widened folded' pending' tail'
      same_folded same same_tail last last'
    obtain ⟨⟨op', text'⟩, rest', rfl, first, same_rest⟩ := List.map_eq_cons_iff.1 same_tail.symm
    obtain rfl : op' = op := congrArg Prod.fst first
    have same_text : tokens text' = tokens text := congrArg Prod.snd first
    have same_gist := ih pending' same
    cases first : runGist next pending with
    | ok t =>
      obtain ⟨o, ok, rfl⟩ := exists_of_runGist_eq_ok first
      obtain ⟨o', ok', same_expr⟩ := exists_of_runGist_eq_ok (same_gist.symm.trans first)
      rw [chainGist_cons_of_ok ok, chainGist_cons_of_ok ok']
      rw [joined_cons] at last last'
      refine ih_beyond o _ _ _ ?_ same_text.symm same_rest.symm
        (fun x mem => last x (mem_getLast?_append_cons mem))
        (fun x mem => last' x (mem_getLast?_append_cons mem))
      have same_join : Outcome.expr (folded.join o) = Outcome.expr (folded'.join o') := by
        rw [Folded.expr_join, Folded.expr_join, same_folded, same_expr]
      exact congrArg (fun t => some (t, op')) same_join
    | error g =>
      have failed' : runGist next pending' = .error g := same_gist.symm.trans first
      -- the gists are equal, so both chains read on or neither does
      by_cases again : (op'.canSign && g.runsOut) = true
      · obtain ⟨sign, runs_out⟩ := Bool.and_eq_true_iff.1 again
        rw [chainGist_cons_of_dangles sign ((runsOut_iff first).1 runs_out),
          chainGist_cons_of_dangles sign ((runsOut_iff failed').1 runs_out)]
        rw [← joined_append_cons] at last last'
        refine ih_widened _ _ _ same_folded ?_ same_rest.symm last last'
        rw [Cursor.widen, Cursor.widen, tokens_append_mark op'.isMark_symbol,
          tokens_append_mark op'.isMark_symbol, same, same_text]
      · rw [chainGist_cons_of_error first again, chainGist_cons_of_error failed' again, same_folded]

/-- Texts with the same tokens are parsed alike: to equal expressions with the same names in the
same order, or not at all, for one kind of reason in the same context. -/
theorem parse_alike_of_tokens_eq {text text' : String}
    (h : tokens text.toList = tokens text'.toList) :
    (∃ o o', (parse text).result = .ok o ∧ (parse text').result = .ok o' ∧ o.expr = o'.expr ∧
      o.occurrences.map Occurrence.name = o'.occurrences.map Occurrence.name) ∨
    ∃ f f', (parse text).result = .error f ∧ (parse text').result = .error f' ∧
      f.cause.kind = f'.cause.kind ∧ f.cause.side? = f'.cause.side? ∧
      f.cause.operator? = f'.cause.operator? ∧
      f.trail.map (·.context) = f'.trail.map (·.context) := by
  have same : runGist .additive (.ofString text) = runGist .additive (.ofString text') :=
    runGist_eq_of_tokens_eq _ _ _ h
  cases result : (parse text).result with
  | ok o =>
    have gist : runGist .additive (.ofString text) = .ok o.expr := congrArg _ result
    obtain ⟨o', ok', same_expr⟩ := exists_of_runGist_eq_ok (same.symm.trans gist)
    refine .inl ⟨o, o', rfl, ok', same_expr.symm, ?_⟩
    rw [Outcome.occurrences, Outcome.occurrences, ← Tree.leaves_map, ← Tree.leaves_map]
    exact congrArg Tree.leaves same_expr.symm
  | error f =>
    have gist : runGist .additive (.ofString text) = .error (f.gist _) := congrArg _ result
    obtain ⟨f', failed', same_gist⟩ := exists_of_runGist_eq_error (same.symm.trans gist)
    obtain ⟨kind, side, operator, contexts, -⟩ := Gist.mk.inj same_gist
    exact .inr ⟨f, f', rfl, failed', kind.symm, side.symm, operator.symm, contexts.symm⟩

/-- An exponent that is a sign without operand, with and without a blank in front of it. -/
theorem parse_alike_of_tokens_eq_signed :
    tokens "a^-".toList = tokens "a^ -".toList ∧
      ∃ f f', (parse "a^-").result = .error f ∧ (parse "a^ -").result = .error f' ∧
        f'.cause.kind = .missingSignOperand ∧ f'.cause.operator? = some (.sign .minus) ∧
        f'.trail.map (·.context) = f.trail.map (·.context) := by
  have same : tokens "a^-".toList = tokens "a^ -".toList := by
    have exponent : tokens [' ', '-'] = tokens ['-'] := tokens_cons_blank (by decide) ['-']
    show tokens (['a'] ++ '^' :: ['-']) = tokens (['a'] ++ '^' :: [' ', '-'])
    rw [tokens_append_mark (by decide), tokens_append_mark (by decide), exponent]
  have failed : (parse "a^-").result = .error ⟨.missingSignOperand .minus, 3,
      [⟨.operand .right .exponentiate, ⟨['-'], 2⟩⟩]⟩ := by cbv
  refine ⟨same, ?_⟩
  rcases parse_alike_of_tokens_eq same with ⟨o, o', ok, -⟩ | ⟨f, f', h, h', kind, -, op, contexts⟩
  · cases ok.symm.trans failed
  · obtain rfl := Except.error.inj (h.symm.trans failed)
    exact ⟨_, f', h, h', kind.symm, op.symm, contexts.symm⟩

end Formula
